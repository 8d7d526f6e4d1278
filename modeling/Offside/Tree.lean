import Offside.Number.Binary64

/-!
# Trees

The tree of a source: annotations, expressions, and statements with the lines they start on. A tree
says what was written and nothing about whether it makes sense; any statement may stand in any
block.
-/

namespace Offside

/-- A type annotation as it is written. -/
inductive TypeExpr
  | name (id : String)
  | generic (id : String) (args : List TypeExpr)
  | size (count : Nat)
  | tuple (items : List TypeExpr)

namespace TypeExpr

mutual

def text : TypeExpr → String
  | name id => id
  | size count => toString count
  | generic id args => id ++ "[" ++ ", ".intercalate (texts args) ++ "]"
  | tuple items => "(" ++ ", ".intercalate (texts items) ++ ")"

def texts : List TypeExpr → List String
  | [] => []
  | item :: items => item.text :: texts items

end

end TypeExpr

inductive Constant
  | int (value : Int)
  | float (value : Number.Binary64)
  | str (value : String)
  | bool (value : Bool)
  | none
deriving DecidableEq, Repr

inductive BinaryOp
  | add
  | sub
  | mul
  | div
  | floorDiv
  | mod
deriving DecidableEq, Repr

def BinaryOp.spelling : BinaryOp → String
  | add => "+"
  | sub => "-"
  | mul => "*"
  | div => "/"
  | floorDiv => "//"
  | mod => "%"

inductive UnaryOp
  | not
  | neg
  | pos
deriving DecidableEq, Repr

inductive CompareOp
  | eq
  | ne
  | lt
  | le
  | gt
  | ge
deriving DecidableEq, Repr

def CompareOp.spelling : CompareOp → String
  | eq => "=="
  | ne => "!="
  | lt => "<"
  | le => "<="
  | gt => ">"
  | ge => ">="

inductive LogicalOp
  | and
  | or
deriving DecidableEq, Repr

inductive Expr
  | name (id : String)
  | constant (value : Constant)
  | binary (op : BinaryOp) (left right : Expr)
  | unary (op : UnaryOp) (operand : Expr)
  | compare (op : CompareOp) (left right : Expr)
  | logical (op : LogicalOp) (left right : Expr)
  | call (callee : Expr) (args : List Expr)
  | member (value : Expr) (attr : String)
  | subscript (value index : Expr)

/-- Whether an expression denotes a place that can be stored to. -/
def Expr.isPlace : Expr → Bool
  | name _ => true
  | member _ _ => true
  | subscript _ _ => true
  | _ => false

/-- Whether an expression is the literal for no value. -/
def Expr.isNone : Expr → Bool
  | constant .none => true
  | _ => false

/-- Jumps to the ends of a loop. -/
inductive Jump
  | leave
  | next
deriving DecidableEq, Repr

/-- The word for a jump. -/
def Jump.word : Jump → String
  | leave => "break"
  | next => "continue"

structure Parameter where
  name : String
  /-- The annotation, which a receiver may lack. -/
  written : Option TypeExpr
  line : Nat

inductive ClassKind
  | struct
  | enum
  | interface
deriving DecidableEq, Repr

/-- An import of a module, or of names out of it. -/
structure Import where
  path : List String
  /-- The names taken out of the module; none when the module itself is bound. -/
  names : List String
deriving DecidableEq, Repr

/-- The dotted path of an import. -/
def Import.dotted (request : Import) : String := ".".intercalate request.path

/-- What a case of a match statement is compared with. -/
inductive Pattern
  | wildcard
  | value (expr : Expr)

mutual

/-- What a statement says. -/
inductive Form where
  | function (decl : FunctionDef)
  | classDef (decl : ClassDef)
  | assign (target value : Expr)
  | declare (target : Expr) (written : TypeExpr) (value : Option Expr)
  | branch (test : Expr) (body orelse : List Statement)
  | whileLoop (test : Expr) (body : List Statement) (label : Option String)
  | forLoop (target : String) (iter : Expr) (body : List Statement) (label : Option String)
  | jump (jump : Jump) (label : Option String)
  | ret (value : Option Expr)
  | expr (value : Expr)
  | pass
  | select (subject : Expr) (cases : List Case)
  | import_ (request : Import)

/-- A statement and the line it starts on. -/
structure Statement where
  line : Nat
  form : Form

/-- A function with its parameters, result and body. -/
structure FunctionDef where
  name : String
  params : List Parameter
  returns : Option TypeExpr
  body : List Statement

/-- A class with its bases and body. -/
structure ClassDef where
  name : String
  /-- The names of the bases, without modules. -/
  bases : List String
  kind : ClassKind
  body : List Statement

/-- One case of a match statement. -/
structure Case where
  pattern : Pattern
  body : List Statement
  line : Nat

end

/-- Whether the body of a function is exactly one `pass`. -/
def FunctionDef.isStub (decl : FunctionDef) : Bool :=
  match decl.body with
  | [⟨_, .pass⟩] => true
  | _ => false

namespace ClassDef

/-- The base that marks an enumeration. -/
def enumMarker : String := "Enum"

/-- The base that marks an interface. -/
def interfaceMarker : String := "Protocol"

/-- Whether a statement of a class gives its instances a state or a behaviour. -/
def givesSubstance (statement : Statement) : Bool :=
  match statement.form with
  | .declare _ _ _ => true
  | .function decl => !decl.isStub
  | _ => false

/-- A marker among the bases decides; otherwise fields or a real method make a struct. -/
def kindOf (bases : List String) (body : List Statement) : ClassKind :=
  if bases.contains enumMarker then .enum
  else if bases.contains interfaceMarker then .interface
  else if body.any givesSubstance then .struct
  else .interface

def methods (decl : ClassDef) : List FunctionDef :=
  decl.body.filterMap fun statement =>
    match statement.form with
    | .function method => some method
    | _ => none

end ClassDef

def importsOf (body : List Statement) : List Import :=
  body.filterMap fun statement =>
    match statement.form with
    | .import_ request => some request
    | _ => none

end Offside
