import Offside.C.Unit

/-!
# Lines of generated code

The statements of generated code as nested lines: single lines, and loops around what is in them.
Written out one after the other, the lines are the text of the code.
-/

namespace Offside

namespace C

/-- What stands on a line of code. -/
inductive Content
  | code (text : String)
  | jump (jump : Jump) (label : Option String)
  | label (name : String)

/-- What stands on a line of code, as text. -/
def Content.text : Content → String
  | .code text => text
  | .jump kind target => jumpText kind target
  | .label name => name ++ ": ;"

structure Line where
  depth : Nat
  content : Content

def Line.text (line : Line) : String := codeLine line.depth line.content.text

mutual

/-- A part of a block of code. -/
inductive Piece where
  | code (depth : Nat) (text : String)
  | jump (depth : Nat) (jump : Jump) (label : Option String)
  | loop (loop : Loop)

structure Loop where
  depth : Nat
  head : String
  label : Option String
  inside : List Piece

end

def labelLines (depth : Nat) (label : Option String) (jump : Jump) : List Line :=
  match label with
  | some name => [⟨depth, .label (jumpLabel name jump)⟩]
  | none => []

/-- The lines that end a loop, with one label inside and the other after it. -/
def closing (depth : Nat) (label : Option String) : List Line :=
  labelLines (depth + 1) label .next ++ ⟨depth, .code "\x7d"⟩ :: labelLines depth label .leave

mutual

def Piece.lines : Piece → List Line
  | .code depth text => [⟨depth, .code text⟩]
  | .jump depth jump label => [⟨depth, .jump jump label⟩]
  | .loop ⟨depth, head, label, inside⟩ =>
      ⟨depth, .code head⟩ :: (linesOf inside ++ closing depth label)

def linesOf : List Piece → List Line
  | [] => []
  | piece :: pieces => piece.lines ++ linesOf pieces

end

def Loop.lines (loop : Loop) : List Line :=
  ⟨loop.depth, .code loop.head⟩ :: (linesOf loop.inside ++ closing loop.depth loop.label)

def labelsFor (name : String) : List String := [jumpLabel name .next, jumpLabel name .leave]

theorem mem_labelsFor {label name : String} :
    label ∈ labelsFor name ↔ ∃ jump, label = jumpLabel name jump := by
  constructor
  · intro member
    rcases List.mem_cons.mp member with isNext | isLeave
    · exact ⟨.next, isNext⟩
    · exact ⟨.leave, List.mem_singleton.mp isLeave⟩
  · rintro ⟨jump, rfl⟩
    cases jump <;> simp [labelsFor]

def Loop.labels (loop : Loop) : List String := loop.label.toList.flatMap labelsFor

mutual

def Piece.loops : Piece → List Loop
  | .code _ _ => []
  | .jump _ _ _ => []
  | .loop ⟨depth, head, label, inside⟩ => loopsOf inside ++ [⟨depth, head, label, inside⟩]

def loopsOf : List Piece → List Loop
  | [] => []
  | piece :: pieces => piece.loops ++ loopsOf pieces

end

structure PlacedJump where
  jump : Jump
  label : Option String
  around : List Loop

mutual

def Piece.jumps (around : List Loop) : Piece → List PlacedJump
  | .code _ _ => []
  | .jump _ jump label => [⟨jump, label, around⟩]
  | .loop ⟨depth, head, label, inside⟩ => jumpsOf (⟨depth, head, label, inside⟩ :: around) inside

def jumpsOf (around : List Loop) : List Piece → List PlacedJump
  | [] => []
  | piece :: pieces => piece.jumps around ++ jumpsOf around pieces

end

@[simp]
theorem linesOf_append (pieces others : List Piece) :
    linesOf (pieces ++ others) = linesOf pieces ++ linesOf others := by
  induction pieces with
  | nil => rfl
  | cons piece pieces induction => simp [linesOf, induction]

@[simp]
theorem loopsOf_append (pieces others : List Piece) :
    loopsOf (pieces ++ others) = loopsOf pieces ++ loopsOf others := by
  induction pieces with
  | nil => rfl
  | cons piece pieces induction => simp [loopsOf, induction]

@[simp]
theorem jumpsOf_append (around : List Loop) (pieces others : List Piece) :
    jumpsOf around (pieces ++ others) = jumpsOf around pieces ++ jumpsOf around others := by
  induction pieces with
  | nil => rfl
  | cons piece pieces induction => simp [jumpsOf, induction]

def labelsOn (lines : List Line) : List String :=
  lines.filterMap fun line =>
    match line.content with
    | .label name => some name
    | _ => none

def jumpsOn (lines : List Line) : List (Jump × Option String) :=
  lines.filterMap fun line =>
    match line.content with
    | .jump jump label => some (jump, label)
    | _ => none

@[simp]
theorem labelsOn_append (lines others : List Line) :
    labelsOn (lines ++ others) = labelsOn lines ++ labelsOn others :=
  List.filterMap_append

@[simp]
theorem jumpsOn_append (lines others : List Line) :
    jumpsOn (lines ++ others) = jumpsOn lines ++ jumpsOn others :=
  List.filterMap_append

theorem labelsOn_closing (depth : Nat) (head : String) (label : Option String)
    (inside : List Piece) :
    labelsOn (closing depth label) = Loop.labels ⟨depth, head, label, inside⟩ := by
  cases label <;> rfl

theorem jumpsOn_closing (depth : Nat) (label : Option String) :
    jumpsOn (closing depth label) = [] := by
  cases label <;> rfl

mutual

/-- The labels of code are those of its loops. -/
theorem labelsOn_lines : (piece : Piece) →
    labelsOn piece.lines = piece.loops.flatMap Loop.labels
  | .code _ _ => rfl
  | .jump _ _ _ => rfl
  | .loop ⟨depth, head, label, inside⟩ => by
      have opens : labelsOn (Piece.lines (.loop ⟨depth, head, label, inside⟩)) =
          labelsOn (linesOf inside ++ closing depth label) := rfl
      rw [opens, labelsOn_append, labelsOn_linesOf inside,
        labelsOn_closing depth head label inside, Piece.loops, List.flatMap_append,
        List.flatMap_singleton]

theorem labelsOn_linesOf : (pieces : List Piece) →
    labelsOn (linesOf pieces) = (loopsOf pieces).flatMap Loop.labels
  | [] => rfl
  | piece :: pieces => by
      rw [linesOf, labelsOn_append, labelsOn_lines piece, labelsOn_linesOf pieces, loopsOf,
        List.flatMap_append]

end

mutual

theorem jumpsOn_lines (around : List Loop) : (piece : Piece) →
    jumpsOn piece.lines = (piece.jumps around).map fun jump => (jump.jump, jump.label)
  | .code _ _ => rfl
  | .jump _ _ _ => rfl
  | .loop ⟨depth, head, label, inside⟩ => by
      have opens : jumpsOn (Piece.lines (.loop ⟨depth, head, label, inside⟩)) =
          jumpsOn (linesOf inside ++ closing depth label) := rfl
      rw [opens, jumpsOn_append, jumpsOn_closing, List.append_nil, Piece.jumps,
        jumpsOn_linesOf _ inside]

theorem jumpsOn_linesOf (around : List Loop) : (pieces : List Piece) →
    jumpsOn (linesOf pieces) = (jumpsOf around pieces).map fun jump => (jump.jump, jump.label)
  | [] => rfl
  | piece :: pieces => by
      rw [linesOf, jumpsOn_append, jumpsOn_lines around piece, jumpsOn_linesOf around pieces,
        jumpsOf, List.map_append]

end

mutual

/-- The lines of a loop stand together among those of the code around it. -/
theorem lines_isInfix {loop : Loop} : (piece : Piece) → loop ∈ piece.loops →
    loop.lines <:+: piece.lines
  | .loop ⟨depth, head, label, inside⟩, member => by
      rw [Piece.loops, List.mem_append, List.mem_singleton] at member
      obtain within | rfl := member
      · exact (lines_isInfix_linesOf inside within).trans
          ⟨[⟨depth, .code head⟩], closing depth label, rfl⟩
      · exact List.infix_rfl

theorem lines_isInfix_linesOf {loop : Loop} : (pieces : List Piece) → loop ∈ loopsOf pieces →
    loop.lines <:+: linesOf pieces
  | piece :: pieces, member => by
      rw [loopsOf, List.mem_append] at member
      obtain first | later := member
      · exact (lines_isInfix piece first).trans (List.infix_append' [] _ _)
      · exact (lines_isInfix_linesOf pieces later).trans (List.suffix_append _ _).isInfix

end

mutual

theorem mem_loops_of_around {around : List Loop} {jump : PlacedJump} {loop : Loop} :
    (piece : Piece) → jump ∈ piece.jumps around → loop ∈ jump.around →
      loop ∈ around ∨ loop ∈ piece.loops
  | .jump _ _ _, member, isAround => by
      rw [Piece.jumps, List.mem_singleton] at member
      subst member
      exact .inl isAround
  | .loop ⟨depth, head, label, inside⟩, member, isAround => by
      rw [Piece.loops, List.mem_append, List.mem_singleton]
      obtain outer | inner := mem_loopsOf_of_around inside member isAround
      · obtain rfl | outer := List.mem_cons.mp outer
        · exact .inr (.inr rfl)
        · exact .inl outer
      · exact .inr (.inl inner)

theorem mem_loopsOf_of_around {around : List Loop} {jump : PlacedJump} {loop : Loop} :
    (pieces : List Piece) → jump ∈ jumpsOf around pieces → loop ∈ jump.around →
      loop ∈ around ∨ loop ∈ loopsOf pieces
  | piece :: pieces, member, isAround => by
      rw [jumpsOf, List.mem_append] at member
      rw [loopsOf, List.mem_append]
      obtain first | later := member
      · exact (mem_loops_of_around piece first isAround).imp_right .inl
      · exact (mem_loopsOf_of_around pieces later isAround).imp_right .inr

end

mutual

def Stmt.pieces (depth : Nat) : Stmt → List Piece
  | .define definition => [.code depth definition.text]
  | .assign target value => [.code depth (target.text ++ " = " ++ value.text ++ ";")]
  | .expr value => [.code depth (value.text ++ ";")]
  | .branch arms => armPieces depth true arms
  | .select subject kept arms =>
      kept.toList.map (fun declarator =>
        .code depth (declarator.text ++ " = " ++ subject.text ++ ";"))
        ++ armPieces depth true arms
  | .whileLoop test body label =>
      [.loop ⟨depth, "while (" ++ test.text ++ ") \x7b", label, bodyPieces (depth + 1) body⟩]
  | .countLoop counter start stop body label =>
      [.loop ⟨depth, "for (int " ++ counter ++ " = " ++ start.text ++ "; " ++ counter ++ " < "
        ++ stop.text ++ "; " ++ counter ++ "++) \x7b", label, bodyPieces (depth + 1) body⟩]
  | .jump jump label => [.jump depth jump label]
  | .ret none => [.code depth "return;"]
  | .ret (some value) => [.code depth ("return " ++ value.text ++ ";")]

def bodyPieces (depth : Nat) : List Stmt → List Piece
  | [] => []
  | first :: others => first.pieces depth ++ bodyPieces depth others

def armPieces (depth : Nat) (isFirst : Bool) : List Arm → List Piece
  | [] => if isFirst then [] else [.code depth "\x7d"]
  | ⟨condition, body⟩ :: others =>
      .code depth (armHead isFirst condition) ::
        (bodyPieces (depth + 1) body ++ armPieces depth false others)

end

@[simp]
theorem bodyPieces_append (depth : Nat) (body others : List Stmt) :
    bodyPieces depth (body ++ others) = bodyPieces depth body ++ bodyPieces depth others := by
  induction body with
  | nil => rfl
  | cons first body induction => simp [bodyPieces, induction]

def written (lines : List Line) : String := String.join (lines.map Line.text)

@[simp]
theorem written_append (lines others : List Line) :
    written (lines ++ others) = written lines ++ written others := by
  simp [written, String.join_append]

@[simp]
theorem written_cons (line : Line) (lines : List Line) :
    written (line :: lines) = line.text ++ written lines := by
  simp [written, String.join_cons]

theorem written_labelLines (depth : Nat) (label : Option String) (jump : Jump) :
    written (labelLines depth label jump) = labelLine depth label jump := by
  cases label with
  | none => rfl
  | some name => simp [labelLines, labelLine, written, Line.text, Content.text]

theorem written_code (depth : Nat) (text : String) :
    written (linesOf [.code depth text]) = codeLine depth text := by
  simp [linesOf, Piece.lines, written, Line.text, Content.text]

theorem written_loop (depth : Nat) (head : String) (label : Option String) (inside : List Piece) :
    written (linesOf [.loop ⟨depth, head, label, inside⟩]) =
      codeLine depth head ++ written (linesOf inside) ++ labelLine (depth + 1) label .next
        ++ codeLine depth "\x7d" ++ labelLine depth label .leave := by
  simp [linesOf, Piece.lines, closing, written_labelLines, Line.text, Content.text,
    String.append_assoc]

mutual

theorem written_pieces (depth : Nat) : (stmt : Stmt) →
    written (linesOf (stmt.pieces depth)) = stmt.text depth
  | .define definition => written_code depth definition.text
  | .assign target value => written_code depth (target.text ++ " = " ++ value.text ++ ";")
  | .expr value => written_code depth (value.text ++ ";")
  | .branch arms => written_armPieces depth true arms
  | .select subject none arms => by
      rw [Stmt.pieces, Stmt.text]
      exact written_armPieces depth true arms
  | .select subject (some declarator) arms => by
      rw [Stmt.pieces, Stmt.text, linesOf_append, written_append, Option.toList_some,
        List.map_singleton, written_code, written_armPieces depth true arms]
  | .whileLoop test body label => by
      rw [Stmt.pieces, written_loop, written_bodyPieces (depth + 1) body, Stmt.text]
  | .countLoop counter start stop body label => by
      rw [Stmt.pieces, written_loop, written_bodyPieces (depth + 1) body, Stmt.text]
  | .jump jump label => by
      simp [Stmt.pieces, Stmt.text, linesOf, Piece.lines, written, Line.text, Content.text]
  | .ret none => written_code depth "return;"
  | .ret (some value) => written_code depth ("return " ++ value.text ++ ";")

theorem written_bodyPieces (depth : Nat) : (body : List Stmt) →
    written (linesOf (bodyPieces depth body)) = bodyText depth body
  | [] => rfl
  | first :: others => by
      rw [bodyPieces, linesOf_append, written_append, written_pieces depth first,
        written_bodyPieces depth others, bodyText]

theorem written_armPieces (depth : Nat) (isFirst : Bool) : (arms : List Arm) →
    written (linesOf (armPieces depth isFirst arms)) = armsText depth isFirst arms
  | [] => by
      cases isFirst with
      | true => rfl
      | false => exact written_code depth "\x7d"
  | ⟨condition, body⟩ :: others => by
      rw [armPieces, ← List.singleton_append, linesOf_append, linesOf_append, written_append,
        written_append, written_code, written_bodyPieces (depth + 1) body,
        written_armPieces depth false others, armsText, String.append_assoc]

end

def FunctionDef.pieces (definition : FunctionDef) : List Piece := bodyPieces 1 definition.body

def FunctionDef.lines (definition : FunctionDef) : List Line := linesOf definition.pieces

def FunctionDef.loops (definition : FunctionDef) : List Loop := loopsOf definition.pieces

def FunctionDef.jumps (definition : FunctionDef) : List PlacedJump := jumpsOf [] definition.pieces

def FunctionDef.labels (definition : FunctionDef) : List String := labelsOn definition.lines

def Unit.labels (unit : Unit) : List String :=
  (unit.functions ++ unit.entry).flatMap FunctionDef.labels

theorem FunctionDef.text_eq_written (definition : FunctionDef) :
    definition.text =
      definition.returns.text ++ " " ++ definition.name ++ "("
        ++ parameterText (definition.params.map Declarator.text) ++ ") \x7b\n"
        ++ written definition.lines ++ "\x7d\n" := by
  rw [FunctionDef.text, FunctionDef.lines, FunctionDef.pieces, written_bodyPieces]

end C

end Offside
