import Offside.Proofs.C.Value
import Offside.Proofs.Match.Cases
import Offside.Proofs.Match.Chain

/-!
# The case that is taken

What a selection statement does depends on how C evaluates its tests, of which only two things
matter here: that the test written for a first wildcard holds, and that a comparison compares the
values of its operands. Under these a match statement takes the first case that matches its subject,
as long as evaluating patterns does not change the value of the subject.
-/

namespace Offside

namespace C

/-- A way to evaluate C expressions. -/
structure Machine where
  State : Type
  Value : Type
  /-- The value of an expression and the state after it, if there are any. -/
  eval : Expr → State → Option (Value × State)
  isTrue : Value → Bool
  /-- The test that always holds is true and changes nothing. -/
  eval_always : ∀ state, ∃ value, eval always state = some (value, state) ∧ isTrue value = true

namespace Machine

/-- Whether a machine compares operands of which one changes nothing and is not changed. -/
structure Compares (machine : Machine) (areTexts : Bool)
    (same : machine.State → machine.Value → machine.Value → Bool) : Prop where
  fails : ∀ {left right : Expr} {state : machine.State} {first : machine.Value},
    machine.eval left state = some (first, state) → machine.eval right state = none →
      machine.eval (Lower.compared areTexts .eq left right) state = none
  compares : ∀ {left right : Expr} {state after : machine.State} {first second : machine.Value},
    machine.eval left state = some (first, state) →
      machine.eval right state = some (second, after) →
      machine.eval left after = some (first, after) →
      ∃ value, machine.eval (Lower.compared areTexts .eq left right) state = some (value, after) ∧
        machine.isTrue value = same after first second

/-- The machine that knows whole numbers and variables of type `int`. -/
def whole : Machine where
  State := String → Int
  Value := Whole
  eval code env := (code.tree.whole? env).map (·, env)
  isTrue value := value.number ≠ 0
  eval_always _ := ⟨⟨false, 1⟩, rfl, rfl⟩

theorem eval_whole {code : Expr} {env after : String → Int} {value : Whole} :
    whole.eval code env = some (value, after) ↔
      code.tree.whole? env = some value ∧ env = after := by
  simp [whole]

theorem whole?_compared {left right : Expr} {env : String → Int} {first : Whole}
    (isFirst : left.tree.whole? env = some first) :
    (Lower.compared false .eq left right).tree.whole? env =
      (right.tree.whole? env).map fun second => .truth (first.number = second.number) := by
  cases isSecond : right.tree.whole? env <;>
    simp [Lower.compared, Expr.tree, Tree.whole?, isFirst, isSecond, BinaryOp.isDecidedBy,
      Whole.binary?]

theorem whole_compares :
    whole.Compares false fun _ first second => first.number = second.number where
  fails {left right env first} isFirst isSecond := by
    obtain ⟨isLeft, -⟩ := eval_whole.mp isFirst
    have isRight : right.tree.whole? env = none := Option.map_eq_none_iff.mp isSecond
    exact Option.map_eq_none_iff.mpr (by rw [whole?_compared isLeft, isRight]; rfl)
  compares {left right env after first second} isFirst isSecond _ := by
    obtain ⟨isLeft, -⟩ := eval_whole.mp isFirst
    obtain ⟨isRight, rfl⟩ := eval_whole.mp isSecond
    refine ⟨.truth (first.number = second.number), eval_whole.mpr ⟨?_, rfl⟩, ?_⟩
    · rw [whole?_compared isLeft, isRight]
      rfl
    · by_cases same : first.number = second.number <;> simp [whole, Whole.truth, same]

end Machine

/-- The position of the block that is taken, and the state before it. -/
def Rest.taken (machine : Machine) (position : Nat) (state : machine.State) :
    Rest → Option (Option Nat × machine.State)
  | done => some (none, state)
  | otherwise _ => some (some position, state)
  | elseIf test _ rest =>
      match machine.eval test state with
      | none => none
      | some (value, after) =>
          if machine.isTrue value then some (some position, after)
          else rest.taken machine (position + 1) after

/-- The position of the block that a selection takes, and the state before it. -/
def Selection.taken (machine : Machine) (state : machine.State) :
    Selection → Option (Option Nat × machine.State)
  | nothing => some (none, state)
  | choice test body rest => (Rest.elseIf test body rest).taken machine 0 state

end C

namespace Lower

variable {cases : List Case}

/-- The first case that matches a value, and the state after the patterns so far. -/
def firstMatch (machine : C.Machine) (view : View)
    (same : machine.State → machine.Value → machine.Value → Bool) (subject : machine.Value)
    (position : Nat) : List Case → machine.State → Option (Option Nat × machine.State)
  | [], state => some (none, state)
  | ⟨.wildcard, _, _⟩ :: _, state => some (some position, state)
  | ⟨.value expr, _, _⟩ :: others, state =>
      match lower view .operand expr with
      | .error _ => none
      | .ok pattern =>
          match machine.eval pattern state with
          | none => none
          | some (value, after) =>
              if same after subject value then some (some position, after)
              else firstMatch machine view same subject (position + 1) others after

/-- Whether an expression keeps its value in certain states while patterns are evaluated. -/
structure KeepsValue (machine : C.Machine) (view : View) (cases : List Case) (shown : C.Expr)
    (value : machine.Value) (holds : machine.State → Prop) : Prop where
  shows : ∀ {state : machine.State}, holds state →
    machine.eval shown state = some (value, state)
  stays : ∀ {case : Case} {expr : Expr} {pattern : C.Expr} {state after : machine.State}
    {other : machine.Value}, case ∈ cases → case.pattern = .value expr →
    lower view .operand expr = .ok pattern → holds state →
    machine.eval pattern state = some (other, after) → holds after

theorem KeepsValue.tail {machine : C.Machine} {view : View} {case : Case} {shown : C.Expr}
    {value : machine.Value} {holds : machine.State → Prop}
    (keeps : KeepsValue machine view (case :: cases) shown value holds) :
    KeepsValue machine view cases shown value holds :=
  ⟨keeps.shows, fun member => keeps.stays (List.mem_cons_of_mem _ member)⟩

theorem KeepsValue.whole {view : View} {shown : C.Expr} {env : String → Int} {value : C.Whole}
    (isValue : shown.tree.whole? env = some value) :
    KeepsValue .whole view cases shown value (· = env) where
  shows isEnv := isEnv ▸ C.Machine.eval_whole.mpr ⟨isValue, rfl⟩
  stays _ _ _ isEnv evaluated := (C.Machine.eval_whole.mp evaluated).2 ▸ isEnv

section Taken

variable {machine : C.Machine} {around : Surroundings} {view : View} {kept : Subject}
  {same : machine.State → machine.Value → machine.Value → Bool} {value : machine.Value}
  {holds : machine.State → Prop}
variable {cases : List Case} {state : machine.State}

/-- The test of a pattern tells whether the pattern matches. -/
theorem taken_of_pattern {case : Case} {expr : Expr} {pattern : C.Expr}
    (compares : machine.Compares kept.isText same)
    (keeps : KeepsValue machine view (case :: cases) kept.shown value holds)
    (isPattern : case.pattern = .value expr) (lowers : lower view .operand expr = .ok pattern)
    (start : holds state) (body : List C.Stmt) (rest : C.Rest) (position : Nat)
    (later : ∀ after, holds after → rest.taken machine (position + 1) after =
      firstMatch machine view same value (position + 1) cases after) :
    (C.Rest.elseIf (compared kept.isText .eq kept.shown pattern) body rest).taken machine position
        state = firstMatch machine view same value position (case :: cases) state := by
  obtain ⟨_, _, _⟩ := case
  obtain rfl : _ = Pattern.value expr := isPattern
  simp only [C.Rest.taken, firstMatch, lowers]
  have shows := keeps.shows start
  cases evaluated : machine.eval pattern state with
  | none => rw [compares.fails shows evaluated]
  | some pair =>
      obtain ⟨other, after⟩ := pair
      have stays := keeps.stays List.mem_cons_self rfl lowers start evaluated
      obtain ⟨outcome, tested, isSame⟩ := compares.compares shows evaluated (keeps.shows stays)
      simp only [tested, isSame, later after stays]

theorem taken_eq_firstMatch {arms : List C.Arm} (compares : machine.Compares kept.isText same)
    (become : List.Forall₂ (BecomesArm around view kept) cases arms)
    (keeps : KeepsValue machine view cases kept.shown value holds) {rest : C.Rest}
    (written : rest.blocks = C.blocks false arms) (position : Nat) (start : holds state) :
    rest.taken machine position state =
      firstMatch machine view same value position cases state := by
  induction become generalizing rest position state with
  | nil =>
      cases rest with
      | done => rfl
      | otherwise => exact nomatch written
      | elseIf => exact nomatch written
  | @cons case arm cases arms becomes _ induction =>
      obtain ⟨condition, body⟩ := arm
      obtain ⟨pattern, _, _⟩ := case
      rcases lowerPattern_cases becomes.condition with ⟨rfl, rfl⟩ | ⟨_, code, rfl, isCode, rfl⟩
      · cases rest with
        | done => exact nomatch written
        | otherwise => rfl
        | elseIf => exact nomatch (C.Block.mk.inj (List.cons.inj written).1).1
      · cases rest with
        | done => exact nomatch written
        | otherwise => exact nomatch (C.Block.mk.inj (List.cons.inj written).1).1
        | elseIf test body rest =>
            obtain ⟨isFirst, areOthers⟩ := List.cons.inj written
            obtain rfl := C.Opener.elseIf.inj (C.Block.mk.inj isFirst).1
            exact taken_of_pattern compares keeps rfl isCode start body rest position
              fun after stays => induction keeps.tail areOthers (position + 1) stays

/-- A selection statement takes the first case that matches. -/
theorem selection_taken_eq_firstMatch {arms : List C.Arm}
    (compares : machine.Compares kept.isText same)
    (become : List.Forall₂ (BecomesArm around view kept) cases arms)
    (keeps : KeepsValue machine view cases kept.shown value holds) {selection : C.Selection}
    (written : selection.blocks = C.blocks true arms) (start : holds state) :
    selection.taken machine state = firstMatch machine view same value 0 cases state := by
  cases become with
  | nil =>
      cases selection with
      | nothing => rfl
      | choice => exact nomatch written
  | @cons case arm cases arms becomes others =>
      obtain ⟨condition, body⟩ := arm
      obtain ⟨pattern, _, _⟩ := case
      cases selection with
      | nothing => exact nomatch written
      | choice test body rest =>
          obtain ⟨isFirst, areOthers⟩ := List.cons.inj written
          have isTest := (C.Block.mk.inj isFirst).1
          rcases lowerPattern_cases becomes.condition with
            ⟨rfl, rfl⟩ | ⟨_, code, rfl, isCode, rfl⟩
          · obtain rfl := C.Opener.if_.inj isTest
            obtain ⟨outcome, tested, holds⟩ := machine.eval_always state
            simp [C.Selection.taken, C.Rest.taken, firstMatch, tested, holds]
          · obtain rfl := C.Opener.if_.inj isTest
            exact taken_of_pattern compares keeps rfl isCode start body rest 0
              fun after stays => taken_eq_firstMatch compares others keeps.tail areOthers 1 stays

end Taken

theorem open_iff_wildcard {around : Surroundings} {view : View} {kept : Subject} {arms : List C.Arm}
    (become : List.Forall₂ (BecomesArm around view kept) cases arms) (position : Nat) :
    (∃ arm, arms[position]? = some arm ∧ arm.condition = none) ↔
      ∃ case, cases[position]? = some case ∧ case.pattern = .wildcard := by
  induction become generalizing position with
  | nil => simp
  | @cons case arm cases arms becomes _ induction =>
      cases position with
      | zero =>
          obtain ⟨condition, body⟩ := arm
          obtain ⟨pattern, _, _⟩ := case
          rcases lowerPattern_cases becomes.condition with ⟨rfl, rfl⟩ | ⟨_, _, rfl, _, rfl⟩
          · simp
          · simp
      | succ position => simpa using induction position

end Lower

/-- An accepted match statement is a chain with a block for each case, a selection statement of C
exactly if every wildcard is the first or the last case. Then, on every machine that compares such
values, it takes the first case that is a wildcard or the same as the subject. -/
theorem chain_takes_first_match {now after : Table} {function : Check.Surroundings} {line : Nat}
    {subject : Expr} {cases : List Case}
    (accepted : Check.checkForm function line (.select subject cases) now = .ok after)
    {around : Lower.Surroundings} {walk next : Lower.Walk} {code : List C.Stmt}
    (lowered : Lower.lowerForm around line (.select subject cases) walk = .ok (code, next)) :
    ∃ ty kept arms, Check.subjectType now subject = .ok ty ∧
      code = [.select kept.value kept.kept arms] ∧
      List.Forall₂ (Lower.BecomesArm around (around.view walk) kept) cases arms ∧
      (∀ depth, C.armsText depth true arms = C.chainText depth (C.blocks true arms)) ∧
      ((∃ selection : C.Selection, selection.blocks = C.blocks true arms) ↔
        ∀ position case, cases[position]? = some case → case.pattern = .wildcard →
          position = 0 ∨ position + 1 = cases.length) ∧
      ∀ selection : C.Selection, selection.blocks = C.blocks true arms →
        (∀ depth, selection.text depth = C.armsText depth true arms) ∧
        ∀ (machine : C.Machine) same value holds,
          machine.Compares (ty = .str) same →
          (Lower.staticType (around.view walk) subject = some .str ↔ ty = .str) →
          Lower.KeepsValue machine (around.view walk) cases kept.shown value holds →
          ∀ state, holds state → selection.taken machine state =
            Lower.firstMatch machine (around.view walk) same value 0 cases state := by
  simp only [Check.checkForm, Outcome.bind_eq_ok, Outcome.onLine_eq_ok] at accepted
  obtain ⟨ty, isType, _⟩ := accepted
  obtain ⟨kept, arms, middle, lowersTo, rfl, become⟩ := Lower.exists_of_lowerSelect lowered
  have isText : kept.isText = decide (Lower.staticType (around.view walk) subject = some .str) := by
    cases lowersTo <;> rfl
  refine ⟨ty, kept, arms, isType, rfl, become, fun depth => (C.chainText_blocks depth arms).symm,
    ?_, fun selection written => ⟨?_, ?_⟩⟩
  · rw [C.exists_selection_iff, become.length_eq]
    constructor
    · intro atEnds position case isCase isWild
      obtain ⟨arm, isArm, isOpen⟩ :=
        (Lower.open_iff_wildcard become position).mpr ⟨case, isCase, isWild⟩
      exact atEnds position arm isArm isOpen
    · intro atEnds position arm isArm isOpen
      obtain ⟨case, isCase, isWild⟩ :=
        (Lower.open_iff_wildcard become position).mp ⟨arm, isArm, isOpen⟩
      exact atEnds position case isCase isWild
  · intro depth
    rw [selection.text_eq, written, C.chainText_blocks]
  · intro machine same value holds compares agrees keeps state start
    have sameText : kept.isText = decide (ty = .str) := by
      rw [isText]
      exact decide_eq_decide.mpr agrees
    exact Lower.selection_taken_eq_firstMatch (sameText ▸ compares) become keeps written start

/-- A case that does nothing. -/
def idleCase (pattern : Pattern) : Case := ⟨pattern, [⟨4, .pass⟩], 3⟩

def wildcardAmid : Form :=
  .select (.name "x") [idleCase (.value (.constant (.int 1))), idleCase .wildcard,
    idleCase (.value (.constant (.int 2)))]

/-- The same cases with the wildcard at the end. -/
def wildcardLast : Form :=
  .select (.name "x") [idleCase (.value (.constant (.int 1))),
    idleCase (.value (.constant (.int 2))), idleCase .wildcard]

theorem chain_takes_first_match_wildcards :
    ∃ function now after around next, ∃ broken chained : List C.Arm, ∃ selection : C.Selection,
      Check.checkForm function 2 wildcardAmid now = .ok after ∧
      Lower.lowerForm around 2 wildcardAmid .start =
        .ok ([.select (.name "x") none broken], next) ∧
      C.armsText 0 true broken =
        "if (x == 1) \x7b\n\x7d else \x7b\n\x7d else if (x == 2) \x7b\n\x7d\n" ∧
      (¬ ∃ selection : C.Selection, selection.blocks = C.blocks true broken) ∧
      Check.checkForm function 2 wildcardLast now = .ok after ∧
      Lower.lowerForm around 2 wildcardLast .start =
        .ok ([.select (.name "x") none chained], next) ∧
      selection.blocks = C.blocks true chained ∧
      selection.taken .whole (fun _ => 2) = some (some 1, fun _ => 2) := by
  let scope : Scope := ⟨none, [.value "x" .int false]⟩
  let now : Table := ⟨[scope], 0⟩
  let after : Table := ⟨[scope, ⟨some 0, []⟩, ⟨some 0, []⟩, ⟨some 0, []⟩], 0⟩
  let function : Check.Surroundings := ⟨"main", .none, []⟩
  let around : Lower.Surroundings := ⟨after, .none, true, []⟩
  let isOne : C.Expr := .binary .eq (.name "x") (.literal (.int 1))
  let isTwo : C.Expr := .binary .eq (.name "x") (.literal (.int 2))
  let broken : List C.Arm := [⟨some isOne, []⟩, ⟨none, []⟩, ⟨some isTwo, []⟩]
  let chained : List C.Arm := [⟨some isOne, []⟩, ⟨some isTwo, []⟩, ⟨none, []⟩]
  let selection : C.Selection := .choice isOne [] (.elseIf isTwo [] (.otherwise []))
  have acceptsAmid : Check.checkForm function 2 wildcardAmid now = .ok after := by
    with_unfolding_all rfl
  have lowersAmid : Lower.lowerForm around 2 wildcardAmid .start =
      .ok ([.select (.name "x") none broken], ⟨0, 3, 0⟩) := by with_unfolding_all rfl
  have acceptsLast : Check.checkForm function 2 wildcardLast now = .ok after := by
    with_unfolding_all rfl
  have lowersLast : Lower.lowerForm around 2 wildcardLast .start =
      .ok ([.select (.name "x") none chained], ⟨0, 3, 0⟩) := by with_unfolding_all rfl
  refine ⟨function, now, after, around, _, broken, chained, selection, acceptsAmid, lowersAmid,
    by decide, ?_, acceptsLast, lowersLast, rfl, ?_⟩
  · obtain ⟨_, _, _, _, same, _, _, isSelection, _⟩ :=
      chain_takes_first_match acceptsAmid lowersAmid
    obtain ⟨-, -, rfl⟩ := C.Stmt.select.inj (List.cons.inj same).1
    intro chain
    rcases isSelection.mp chain 1 _ rfl rfl with isFirst | isLast
    · exact nomatch isFirst
    · exact nomatch isLast
  · obtain ⟨ty, kept, _, isType, same, _, _, _, takes⟩ :=
      chain_takes_first_match acceptsLast lowersLast
    obtain ⟨isValue, isKept, rfl⟩ := C.Stmt.select.inj (List.cons.inj same).1
    have isInt : Check.subjectType now (.name "x") = .ok .int := by with_unfolding_all rfl
    obtain rfl := Except.ok.inj (isInt.symm.trans isType)
    have found : Lower.staticType (around.view .start) (.name "x") = some .int := by
      with_unfolding_all rfl
    have shown : kept.shown = .name "x" := by rw [Lower.Subject.shown, ← isKept, ← isValue]
    have isTwo : kept.shown.tree.whole? (fun _ => 2) = some ⟨false, 2⟩ := by
      rw [shown]
      rfl
    have taken := (takes selection rfl).2 .whole _ _ _ C.Machine.whole_compares
      (by rw [found]; decide) (.whole isTwo) _ rfl
    rw [taken]
    with_unfolding_all rfl

end Offside
