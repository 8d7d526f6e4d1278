import Offside.Number.Shortest
import Offside.Text.Quoted
import Offside.Tree

/-!
# Outlines

The dump of a tree: one node a line, indented by its depth.
-/

namespace Offside

/-- One line of an outline at some depth. -/
def outlineLine (depth : Nat) (text : String) : String :=
  String.ofList (List.replicate (2 * depth) ' ') ++ text ++ "\n"

/-- A literal as an outline shows it. -/
def Constant.outline : Constant → String
  | int value => "Int(" ++ toString value ++ ")"
  | float value => "Float(" ++ value.text ++ ")"
  | str value => "Str(" ++ Text.quoted value ++ ")"
  | bool value => "Bool(" ++ (if value then "true" else "false") ++ ")"
  | none => "None"

def UnaryOp.name : UnaryOp → String
  | not => "Not"
  | neg => "Neg"
  | pos => "Pos"

def LogicalOp.name : LogicalOp → String
  | and => "And"
  | or => "Or"

def ClassKind.name : ClassKind → String
  | struct => "Struct"
  | enum => "Enum"
  | interface => "Interface"

namespace Expr

mutual

/-- The outline of an expression. -/
def outline (depth : Nat) : Expr → String
  | name id => outlineLine depth ("Name " ++ id)
  | constant value => outlineLine depth ("Constant " ++ value.outline)
  | binary op left right =>
      outlineLine depth ("BinOp " ++ op.spelling)
        ++ left.outline (depth + 1) ++ right.outline (depth + 1)
  | unary op operand =>
      outlineLine depth ("UnaryOp " ++ op.name) ++ operand.outline (depth + 1)
  | compare op left right =>
      outlineLine depth ("Compare " ++ op.spelling)
        ++ left.outline (depth + 1) ++ right.outline (depth + 1)
  | logical op left right =>
      outlineLine depth ("BoolOp " ++ op.name)
        ++ left.outline (depth + 1) ++ right.outline (depth + 1)
  | call callee args =>
      outlineLine depth "Call" ++ callee.outline (depth + 1) ++ outlines (depth + 1) args
  | member value attr =>
      outlineLine depth ("Attribute ." ++ attr) ++ value.outline (depth + 1)
  | subscript value index =>
      outlineLine depth "Subscript" ++ value.outline (depth + 1) ++ index.outline (depth + 1)

def outlines (depth : Nat) : List Expr → String
  | [] => ""
  | item :: items => item.outline depth ++ outlines depth items

end

/-- The outline of an expression that may be missing. -/
def outline? (depth : Nat) : Option Expr → String
  | some value => value.outline depth
  | none => ""

end Expr

/-- A parameter as an outline shows it. -/
def Parameter.outline (param : Parameter) : String :=
  match param.written with
  | some written => param.name ++ ": " ++ written.text
  | none => param.name

/-- The head of a function as an outline shows it. -/
def FunctionDef.outlineHead (decl : FunctionDef) : String :=
  let returns := match decl.returns with
    | some written => " -> " ++ written.text
    | none => ""
  "FunctionDef " ++ decl.name ++ "(" ++ ", ".intercalate (decl.params.map Parameter.outline)
    ++ ")" ++ returns

/-- The head of a class as an outline shows it. -/
def ClassDef.outlineHead (decl : ClassDef) : String :=
  "ClassDef " ++ decl.name ++ " " ++ decl.kind.name ++ " bases=" ++ Text.quotedList decl.bases

def Import.outline (request : Import) : String :=
  if request.names.isEmpty then "Import " ++ request.dotted
  else "ImportFrom " ++ request.dotted ++ " [" ++ ", ".intercalate request.names ++ "]"

def Jump.name : Jump → String
  | leave => "Break"
  | next => "Continue"

def labelOutline : Option String → String
  | some label => " label=" ++ Text.quoted label
  | none => ""

mutual

/-- The outline of what a statement says. -/
def Form.outline (depth : Nat) : Form → String
  | .function ⟨name, params, returns, body⟩ =>
      outlineLine depth (FunctionDef.outlineHead ⟨name, params, returns, body⟩)
        ++ outlineBody (depth + 1) body
  | .classDef ⟨name, bases, kind, body⟩ =>
      outlineLine depth (ClassDef.outlineHead ⟨name, bases, kind, body⟩)
        ++ outlineBody (depth + 1) body
  | .assign target value =>
      outlineLine depth "Assign" ++ target.outline (depth + 1) ++ value.outline (depth + 1)
  | .declare target written value =>
      outlineLine depth ("AnnAssign : " ++ written.text)
        ++ target.outline (depth + 1) ++ Expr.outline? (depth + 1) value
  | .branch test body orelse =>
      outlineLine depth "If" ++ test.outline (depth + 1)
        ++ outlineLine (depth + 1) "Then" ++ outlineBody (depth + 2) body
        ++ (if orelse.isEmpty then "" else outlineLine (depth + 1) "Else")
        ++ outlineBody (depth + 2) orelse
  | .whileLoop test body label =>
      outlineLine depth ("While" ++ labelOutline label) ++ test.outline (depth + 1)
        ++ outlineLine (depth + 1) "Body" ++ outlineBody (depth + 2) body
  | .forLoop target iter body label =>
      outlineLine depth ("For " ++ target ++ labelOutline label) ++ iter.outline (depth + 1)
        ++ outlineLine (depth + 1) "Body" ++ outlineBody (depth + 2) body
  | .jump jump label => outlineLine depth (jump.name ++ labelOutline label)
  | .ret value => outlineLine depth "Return" ++ Expr.outline? (depth + 1) value
  | .expr value => outlineLine depth "Expr" ++ value.outline (depth + 1)
  | .pass => outlineLine depth "Pass"
  | .select subject cases =>
      outlineLine depth "Match" ++ subject.outline (depth + 1) ++ outlineCases (depth + 1) cases
  | .import_ request => outlineLine depth request.outline

/-- The outlines of the statements of a block. -/
def outlineBody (depth : Nat) : List Statement → String
  | [] => ""
  | ⟨_, form⟩ :: body => form.outline depth ++ outlineBody depth body

def outlineCases (depth : Nat) : List Case → String
  | [] => ""
  | ⟨pattern, body, _⟩ :: cases =>
      (match pattern with
        | .wildcard => outlineLine depth "Case _"
        | .value expr => outlineLine depth "Case" ++ expr.outline (depth + 1))
        ++ outlineLine (depth + 1) "Body" ++ outlineBody (depth + 2) body
        ++ outlineCases depth cases

end

def outline (body : List Statement) : String := outlineLine 0 "Module" ++ outlineBody 1 body

mutual

/-- The lines of the parameters, cases and inner statements of a statement, in order. -/
def Form.innerLines : Form → List Nat
  | .function ⟨_, params, _, body⟩ => params.map (·.line) ++ linesOf body
  | .classDef ⟨_, _, _, body⟩ => linesOf body
  | .branch _ body orelse => linesOf body ++ linesOf orelse
  | .whileLoop _ body _ => linesOf body
  | .forLoop _ _ body _ => linesOf body
  | .select _ cases => caseLines cases
  | .assign _ _ | .declare _ _ _ | .jump _ _ | .ret _ | .expr _ | .pass
  | .import_ _ => []

/-- The lines of the statements of a block and of their parts, in order. -/
def linesOf : List Statement → List Nat
  | [] => []
  | ⟨line, form⟩ :: body => line :: form.innerLines ++ linesOf body

/-- The lines of cases and of their statements, in order. -/
def caseLines : List Case → List Nat
  | [] => []
  | ⟨_, body, line⟩ :: cases => line :: linesOf body ++ caseLines cases

end

end Offside
