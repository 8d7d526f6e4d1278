import Offside.C.Stmt

/-!
# The chain of a match statement

The alternatives of a match statement are written one after the other, each as a block that is
opened by a line of its own. In C such blocks make up a selection statement only if no block follows
one that is opened without a test. A wildcard is opened without a test unless it is the first
alternative, so it has to be the first or the last.
-/

namespace Offside

namespace C

inductive Opener
  | if_ (test : Expr)
  | elseIf (test : Expr)
  | otherwise

def Opener.line : Opener → String
  | if_ test => "if (" ++ test.text ++ ") \x7b"
  | elseIf test => "\x7d else if (" ++ test.text ++ ") \x7b"
  | otherwise => "\x7d else \x7b"

structure Block where
  opener : Opener
  body : List Stmt

def blocksText (depth : Nat) : List Block → String
  | [] => codeLine depth "\x7d"
  | ⟨opener, body⟩ :: others =>
      codeLine depth opener.line ++ bodyText (depth + 1) body ++ blocksText depth others

def chainText (depth : Nat) : List Block → String
  | [] => ""
  | first :: others => blocksText depth (first :: others)

/-- The test that always holds. -/
def always : Expr := .literal (.int 1)

def opener (isFirst : Bool) : Option Expr → Opener
  | some condition => if isFirst then .if_ condition else .elseIf condition
  | none => if isFirst then .if_ always else .otherwise

/-- The blocks that alternatives are written as. -/
def blocks (isFirst : Bool) : List Arm → List Block
  | [] => []
  | ⟨condition, body⟩ :: others => ⟨opener isFirst condition, body⟩ :: blocks false others

/-- What follows the block of a test. -/
inductive Rest
  | done
  | otherwise (body : List Stmt)
  | elseIf (test : Expr) (body : List Stmt) (rest : Rest)

namespace Rest

def blocks : Rest → List Block
  | done => []
  | otherwise body => [⟨.otherwise, body⟩]
  | elseIf test body rest => ⟨.elseIf test, body⟩ :: rest.blocks

def text (depth : Nat) : Rest → String
  | done => codeLine depth "\x7d"
  | otherwise body =>
      codeLine depth "\x7d else \x7b" ++ bodyText (depth + 1) body ++ codeLine depth "\x7d"
  | elseIf test body rest =>
      codeLine depth ("\x7d else if (" ++ test.text ++ ") \x7b") ++ bodyText (depth + 1) body
        ++ rest.text depth

end Rest

/-- A selection statement of C, or nothing at all. -/
inductive Selection
  | nothing
  | choice (test : Expr) (body : List Stmt) (rest : Rest)

namespace Selection

def blocks : Selection → List Block
  | nothing => []
  | choice test body rest => ⟨.if_ test, body⟩ :: rest.blocks

def text (depth : Nat) : Selection → String
  | nothing => ""
  | choice test body rest =>
      codeLine depth ("if (" ++ test.text ++ ") \x7b") ++ bodyText (depth + 1) body
        ++ rest.text depth

end Selection

theorem line_opener (isFirst : Bool) (condition : Option Expr) :
    (opener isFirst condition).line = armHead isFirst condition := by
  cases condition with
  | none => cases isFirst <;> decide
  | some test => cases isFirst <;> rfl

theorem blocksText_blocks (depth : Nat) (arms : List Arm) :
    blocksText depth (blocks false arms) = armsText depth false arms := by
  induction arms with
  | nil => rfl
  | cons arm others induction =>
      obtain ⟨condition, body⟩ := arm
      rw [blocks, blocksText, line_opener, induction, armsText]

/-- Alternatives are written as their blocks. -/
theorem chainText_blocks (depth : Nat) (arms : List Arm) :
    chainText depth (blocks true arms) = armsText depth true arms := by
  obtain _ | ⟨⟨condition, body⟩, others⟩ := arms
  · rfl
  · rw [blocks, chainText, blocksText, line_opener, blocksText_blocks, armsText]

theorem Rest.text_eq (depth : Nat) (rest : Rest) :
    rest.text depth = blocksText depth rest.blocks := by
  induction rest with
  | done => rfl
  | otherwise body => rfl
  | elseIf test body rest induction => rw [text, induction, blocks, blocksText, Opener.line]

theorem Selection.text_eq (depth : Nat) (selection : Selection) :
    selection.text depth = chainText depth selection.blocks := by
  cases selection with
  | nothing => rfl
  | choice test body rest =>
      rw [text, rest.text_eq, blocks, chainText, blocksText, Opener.line]

theorem opener_eq_elseIf {condition : Option Expr} {test : Expr} :
    opener false condition = .elseIf test ↔ condition = some test := by
  cases condition <;> simp [opener]

theorem eq_nil_of_blocks {isFirst : Bool} {arms : List Arm} (none : [] = blocks isFirst arms) :
    arms = [] := by
  obtain _ | ⟨⟨condition, body⟩, others⟩ := arms
  · rfl
  · exact nomatch none

/-- The first alternative is opened by a test. -/
theorem opener_first (condition : Option Expr) :
    opener true condition = .if_ (condition.getD always) := by
  cases condition <;> rfl

def OnlyLastOpen (arms : List Arm) : Prop :=
  ∀ position arm, arms[position]? = some arm → arm.condition = none → position + 1 = arms.length

theorem onlyLastOpen_cons {condition : Option Expr} {body : List Stmt} {others : List Arm} :
    OnlyLastOpen (⟨condition, body⟩ :: others) ↔
      (condition = none → others = []) ∧ OnlyLastOpen others := by
  constructor
  · intro onlyLast
    refine ⟨fun isOpen => ?_, fun position arm isArm isOpen => ?_⟩
    · have isLast := onlyLast 0 _ rfl isOpen
      exact List.length_eq_zero_iff.mp (by simpa using isLast.symm)
    · have isLast := onlyLast (position + 1) arm (by simpa using isArm) isOpen
      simpa using isLast
  · rintro ⟨first, later⟩ position arm isArm isOpen
    cases position with
    | zero =>
        obtain rfl : _ = arm := by simpa using isArm
        simp [first isOpen]
    | succ position =>
        have isLast := later position arm (by simpa using isArm) isOpen
        simp [isLast]

/-- Alternatives follow a block exactly if only the last has no condition. -/
theorem exists_rest_iff (arms : List Arm) :
    (∃ rest : Rest, rest.blocks = blocks false arms) ↔ OnlyLastOpen arms := by
  induction arms with
  | nil => exact ⟨fun _ => nofun, fun _ => ⟨.done, rfl⟩⟩
  | cons arm others induction =>
      obtain ⟨condition, body⟩ := arm
      rw [onlyLastOpen_cons, ← induction]
      constructor
      · rintro ⟨rest, same⟩
        cases rest with
        | done => exact nomatch same
        | otherwise _ =>
            have noOthers := (List.cons.inj same).2
            exact ⟨fun _ => eq_nil_of_blocks noOthers, .done, noOthers⟩
        | elseIf test _ rest =>
            obtain ⟨isFirst, areOthers⟩ := List.cons.inj same
            obtain rfl := opener_eq_elseIf.mp (Block.mk.inj isFirst).1.symm
            exact ⟨nofun, rest, areOthers⟩
      · rintro ⟨isLast, rest, same⟩
        cases condition with
        | none =>
            obtain rfl := isLast rfl
            exact ⟨.otherwise body, rfl⟩
        | some test => exact ⟨.elseIf test body rest, congrArg _ same⟩

/-- Alternatives are a selection exactly if only the first and the last have no condition. -/
theorem exists_selection_iff (arms : List Arm) :
    (∃ selection : Selection, selection.blocks = blocks true arms) ↔
      ∀ position arm, arms[position]? = some arm → arm.condition = none →
        position = 0 ∨ position + 1 = arms.length := by
  cases arms with
  | nil => exact ⟨fun _ => nofun, fun _ => ⟨.nothing, rfl⟩⟩
  | cons arm others =>
      obtain ⟨condition, body⟩ := arm
      have continues : (∃ selection : Selection,
          selection.blocks = blocks true (⟨condition, body⟩ :: others)) ↔
            ∃ rest : Rest, rest.blocks = blocks false others := by
        constructor
        · rintro ⟨selection, same⟩
          cases selection with
          | nothing => exact nomatch same
          | choice test _ rest => exact ⟨rest, (List.cons.inj same).2⟩
        · rintro ⟨rest, same⟩
          refine ⟨.choice (condition.getD always) body rest, ?_⟩
          rw [Selection.blocks, blocks, opener_first, same]
      rw [continues, exists_rest_iff]
      constructor
      · intro onlyLast position arm isArm isOpen
        cases position with
        | zero => exact .inl rfl
        | succ position =>
            have isLast := onlyLast position arm (by simpa using isArm) isOpen
            exact .inr (by simp [isLast])
      · intro atEnds position arm isArm isOpen
        rcases atEnds (position + 1) arm (by simpa using isArm) isOpen with isFirst | isLast
        · exact nomatch isFirst
        · simpa using isLast

end C

end Offside
