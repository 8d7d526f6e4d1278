import Offside.C.Expr
import Offside.Tree

/-!
# C statements

Statements of generated C. A loop that jumps refer to by name has a label, which ends up as one C
label at the end of its body and one right after it.
-/

namespace Offside

namespace C

/-- How a declared object starts. -/
inductive Initial
  | absent
  | zero
  | value (expr : Expr)

/-- The part of a declaration that says how the object starts. -/
def Initial.text : Initial → String
  | absent => ""
  | zero => " = " ++ zeroInitializer
  | value expr => " = " ++ expr.text

def Initial.headers : Initial → List Header
  | absent => []
  | zero => []
  | value expr => expr.headers

structure Definition where
  isConst : Bool
  declarator : Declarator
  initial : Initial

/-- What stands before the type of a constant object. -/
def qualifier (isConst : Bool) : String := if isConst then "const " else ""

def Definition.text (definition : Definition) : String :=
  qualifier definition.isConst ++ definition.declarator.text ++ definition.initial.text ++ ";"

/-- The C label that a jump to a named loop goes to. -/
def jumpLabel (label : String) (jump : Jump) : String := label ++ "_" ++ jump.word

mutual

inductive Stmt where
  | define (definition : Definition)
  | assign (target value : Expr)
  | expr (value : Expr)
  | branch (arms : List Arm)
  | select (subject : Expr) (kept : Option Declarator) (arms : List Arm)
  | whileLoop (test : Expr) (body : List Stmt) (label : Option String)
  /-- Counts from a start up to, and not including, a stop. -/
  | countLoop (counter : String) (start stop : Expr) (body : List Stmt) (label : Option String)
  | jump (jump : Jump) (label : Option String)
  | ret (value : Option Expr)

/-- One alternative of a chain. -/
structure Arm where
  /-- When the alternative is taken; always, if there is none. -/
  condition : Option Expr
  body : List Stmt

end

/-- What one level of nesting is indented by. -/
def indentation : String := "    "

/-- A line of code at some depth. -/
def codeLine (depth : Nat) (text : String) : String :=
  String.join (List.replicate depth indentation) ++ text ++ "\n"

/-- The label line of a loop, if it has a name. -/
def labelLine (depth : Nat) (label : Option String) (jump : Jump) : String :=
  match label with
  | some name => codeLine depth (jumpLabel name jump ++ ": ;")
  | none => ""

/-- What a jump is written as. -/
def jumpText (jump : Jump) : Option String → String
  | some label => "goto " ++ jumpLabel label jump ++ ";"
  | none => jump.word ++ ";"

/-- The line that opens an alternative and closes the one before. -/
def armHead (isFirst : Bool) : Option Expr → String
  | some condition =>
      (if isFirst then "if (" else "\x7d else if (") ++ condition.text ++ ") \x7b"
  | none => if isFirst then "if (1) \x7b" else "\x7d else \x7b"

mutual

/-- A statement as text, at some depth. -/
def Stmt.text (depth : Nat) : Stmt → String
  | .define definition => codeLine depth definition.text
  | .assign target value => codeLine depth (target.text ++ " = " ++ value.text ++ ";")
  | .expr value => codeLine depth (value.text ++ ";")
  | .branch arms => armsText depth true arms
  | .select subject kept arms =>
      (match kept with
        | some declarator => codeLine depth (declarator.text ++ " = " ++ subject.text ++ ";")
        | none => "")
        ++ armsText depth true arms
  | .whileLoop test body label =>
      codeLine depth ("while (" ++ test.text ++ ") \x7b") ++ bodyText (depth + 1) body
        ++ labelLine (depth + 1) label .next ++ codeLine depth "\x7d"
        ++ labelLine depth label .leave
  | .countLoop counter start stop body label =>
      codeLine depth ("for (int " ++ counter ++ " = " ++ start.text ++ "; " ++ counter ++ " < "
        ++ stop.text ++ "; " ++ counter ++ "++) \x7b") ++ bodyText (depth + 1) body
        ++ labelLine (depth + 1) label .next ++ codeLine depth "\x7d"
        ++ labelLine depth label .leave
  | .jump jump label => codeLine depth (jumpText jump label)
  | .ret none => codeLine depth "return;"
  | .ret (some value) => codeLine depth ("return " ++ value.text ++ ";")

def bodyText (depth : Nat) : List Stmt → String
  | [] => ""
  | first :: others => first.text depth ++ bodyText depth others

/-- The alternatives of a chain as text, closed at the end. -/
def armsText (depth : Nat) (isFirst : Bool) : List Arm → String
  | [] => if isFirst then "" else codeLine depth "\x7d"
  | ⟨condition, body⟩ :: others =>
      codeLine depth (armHead isFirst condition) ++ bodyText (depth + 1) body
        ++ armsText depth false others

end

mutual

def Stmt.headers : Stmt → List Header
  | .define definition => definition.initial.headers
  | .assign target value => target.headers ++ value.headers
  | .expr value => value.headers
  | .branch arms => armHeaders arms
  | .select subject _ arms => subject.headers ++ armHeaders arms
  | .whileLoop test body _ => test.headers ++ bodyHeaders body
  | .countLoop _ start stop body _ => start.headers ++ stop.headers ++ bodyHeaders body
  | .jump _ _ => []
  | .ret none => []
  | .ret (some value) => value.headers

def bodyHeaders : List Stmt → List Header
  | [] => []
  | first :: others => first.headers ++ bodyHeaders others

def armHeaders : List Arm → List Header
  | [] => []
  | ⟨condition, body⟩ :: others =>
      (match condition with
        | some condition => condition.headers
        | none => [])
        ++ bodyHeaders body ++ armHeaders others

end

end C

end Offside
