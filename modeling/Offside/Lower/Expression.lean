import Offside.Grammar.TypeExpr
import Offside.Lower.StaticType

/-!
# Lowering of expressions

The C form of an expression in a scope of a table. Operators come out in parentheses, so that C's
precedences do not matter between them. An assignment comes out without, and is read back only where
no operator is applied to it.
-/

namespace Offside

namespace Lower

/-- Where a value ends up. -/
inductive Place
  | operand
  /-- In an object, whose type may be known. -/
  | stored (ty : Option Ty)

/-- A literal in C. -/
def literal : Constant → C.Literal
  | .int value => .int value
  | .float value => .float value
  | .str value => .str value
  | .bool value => .int (if value then 1 else 0)
  | .none => .null

/-- An operator in parentheses, between its operands. -/
def between (op : C.BinaryOp) (left right : C.Expr) : C.Expr := .paren (.binary op left right)

def libraryCall (function : C.LibraryFunction) (args : List C.Expr) : C.Expr :=
  .call (.library function) args

/-- An arithmetic operator in C. -/
def arithmetic (op : BinaryOp) (isFloat : Bool) (left right : C.Expr) : C.Expr :=
  match op, isFloat with
  | .add, _ => between .add left right
  | .sub, _ => between .sub left right
  | .mul, _ => between .mul left right
  | .div, _ => between .div left right
  | .floorDiv, false => between .div left right
  | .floorDiv, true => libraryCall .floor [.binary .div left right]
  | .mod, false => between .mod left right
  | .mod, true => libraryCall .fmod [left, right]

def sign : UnaryOp → C.UnaryOp
  | .not => .not
  | .neg => .neg
  | .pos => .pos

def comparison : CompareOp → C.BinaryOp
  | .eq => .eq
  | .ne => .ne
  | .lt => .lt
  | .le => .le
  | .gt => .gt
  | .ge => .ge

def connective : LogicalOp → C.BinaryOp
  | .and => .and
  | .or => .or

/-- A comparison in C, without parentheses. Texts are compared by a library function. -/
def compared (areTexts : Bool) (op : C.BinaryOp) (left right : C.Expr) : C.Expr :=
  if areTexts then .binary op (libraryCall .strcmp [left, right]) (.literal (.int 0))
  else .binary op left right

/-- Requires a type, if one is known, that C compares. -/
def requireEquatable (table : Table) : Option Ty → Except Fault Unit
  | some ty => if isEquatable table ty then .ok () else .error (.lowering (.incomparable ty))
  | none => .ok ()

/-- The C name of a function or method. -/
def functionName (owner : Option String) (name : String) : String :=
  match owner with
  | some owner => owner ++ "_" ++ name
  | none => name

/-- The C name of a member of an enumeration or module; none if the owner is a value. -/
def qualifiedName? (view : View) (owner : Expr) (attr : String) : Option String :=
  match owner with
  | .name base =>
      match view.lookup base with
      | some symbol =>
          match symbol.kind with
          | .enum _ => some (C.enumerator base attr)
          | .module _ => some attr
          | _ => none
      | none => none
  | _ => none

/-- The format of a printed value, and the value as an argument. -/
def printed (ty : Option Ty) (value : C.Expr) : String × C.Expr :=
  match ty with
  | some .float => ("%f\n", value)
  | some .str => ("%s\n", value)
  | some (.ptr _) => ("%p\n", .cast (.pointer .void) value)
  | _ => ("%d\n", value)

/-- The type whose size is asked for. -/
def sizeofType (operand : Expr) : Except Fault Ty :=
  match operand with
  | .constant (.str text) =>
      match parseType text 0 with
      | .error fault => .error (.lowering (.quotedType fault.bare))
      | .ok written => (Ty.ofExpr written).mapError fun fault => .lowering (.malformedType fault)
  | .name id => (Ty.ofName id).mapError fun fault => .lowering (.malformedType fault)
  | _ => .error (.lowering .sizeofForm)

/-- The slot that carries a type in a result. -/
def payload (table : Table) (ty : Ty) : Except Fault Payload :=
  match if isEnum table ty then some .int else Payload.ofTy? ty with
  | some payload => .ok payload
  | none => .error (.lowering (.noPayload ty))

/-- What a called symbol takes; a called struct gives its zero value. -/
inductive Called
  | function (params : List Ty)
  | struct

/-- What a call of a symbol means. -/
def called (callee : String) (symbol : Symbol) : Except Fault Called :=
  match symbol.kind with
  | .function signature => .ok (.function signature.params)
  | .struct _ _ => .ok .struct
  | _ => .error (.lowering (.notCallable callee))

/-- The called method, its struct, and whether the receiver is a pointer already. -/
def calledMethod (view : View) (owner : Expr) (attr : String) :
    Except Fault (Method × String × Bool) :=
  match staticType view owner with
  | none => .error (.lowering (.unresolvedReceiver attr))
  | some receiver =>
      match structOf? view.table receiver with
      | none => .error (.lowering (.methodOfNonStruct receiver attr))
      | some struct =>
          match struct.method? attr with
          | none => .error (.lowering (.noMethod struct.name attr))
          | some method => .ok (method, struct.name, receiver.isPointer)

mutual

def lower (view : View) (place : Place) : Expr → Except Fault C.Expr
  | .name id => .ok (.name id)
  | .constant value => .ok (.literal (literal value))
  | .binary op left right => do
      let ty := staticType view (.binary op left right)
      let left ← lower view .operand left
      let right ← lower view .operand right
      return arithmetic op (ty = some .float) left right
  | .unary op operand => do
      let operand ← lower view .operand operand
      return .paren (.unary (sign op) operand)
  | .compare op left right => do
      let leftType := staticType view left
      let rightType := staticType view right
      requireEquatable view.table leftType
      requireEquatable view.table rightType
      let left ← lower view .operand left
      let right ← lower view .operand right
      let areTexts := leftType = some .str && rightType = some .str
      return .paren (compared areTexts (comparison op) left right)
  | .logical op left right => do
      let left ← lower view .operand left
      let right ← lower view .operand right
      return between (connective op) left right
  | .call (.name id) args =>
      match Builtin.find? id with
      | some builtin => lowerBuiltin view place builtin args
      | none =>
          match view.lookup id with
          | none => .error (.lowering (.unknownFunction id))
          | some symbol => do
              match ← called id symbol with
              | .struct => return .zeroStruct id
              | .function params =>
                  let args ← lowerArguments view params args
                  return .call (.named id) args
  | .call (.member owner attr) args =>
      match module? view owner with
      | some (base, symbol) =>
          match symbol.exported? attr with
          | none => .error (.lowering (.missingExport base attr))
          | some found => do
              match ← called (qualified base attr) found with
              | .struct => return .zeroStruct attr
              | .function params =>
                  let args ← lowerArguments view params args
                  return .call (.named attr) args
      | none => do
          let (method, struct, isPointer) ← calledMethod view owner attr
          let receiver ← lower view .operand owner
          let args ← lowerArguments view method.signature.params args
          let receiver := if isPointer then receiver else .unary .address receiver
          return .call (.named (functionName (some struct) attr)) (receiver :: args)
  | .call _ _ => .error (.lowering .calleeForm)
  | .member owner attr =>
      match qualifiedName? view owner attr with
      | some name => .ok (.name name)
      | none => do
          let isPointer := (staticType view owner).any Ty.isPointer
          let owner ← lower view .operand owner
          return if isPointer then .arrow owner attr else .field owner attr
  | .subscript value index => do
      let value ← lower view .operand value
      let index ← lower view .operand index
      return .index value index

def lowerArguments (view : View) (params : List Ty) : List Expr → Except Fault (List C.Expr)
  | [] => .ok []
  | arg :: args => do
      let first ← lower view (.stored params.head?) arg
      let others ← lowerArguments view params.tail args
      return first :: others

def lowerOperands (view : View) : List Expr → Except Fault (List C.Expr)
  | [] => .ok []
  | arg :: args => do
      let first ← lower view .operand arg
      let others ← lowerOperands view args
      return first :: others

/-- The C form of a call of a builtin. -/
def lowerBuiltin (view : View) (place : Place) (builtin : Builtin) (args : List Expr) :
    Except Fault C.Expr :=
  match builtin.kind with
  | .range => .error (.lowering .rangeOutsideLoop)
  | .ok | .err =>
      match place with
      | .operand => .error (.lowering (.bareConstructor builtin.name))
      | .stored (some (.result ok err)) => do
          let part := if builtin.kind = .ok then ok else err
          let tag : C.Tag := if builtin.kind = .ok then .ok else .err
          let slot ← payload view.table part
          match args with
          | [] => .error (.lowering .resultArity)
          | arg :: _ => do
              let value ← lower view (.stored (some part)) arg
              return .result tag slot value
      | .stored _ => .error (.lowering .resultContext)
  | kind =>
      match args with
      | [] =>
          if builtin.isHelper then .ok (.call (.support builtin.name) [])
          else .error (.lowering (.missingArgument builtin))
      | first :: others =>
          match kind with
          | .print => do
              let value ← lower view .operand first
              let (format, value) := printed (staticType view first) value
              return libraryCall .printf [.literal (.str format), value]
          | .addr => do
              let value ← lower view .operand first
              return .paren (.unary .address value)
          | .deref => do
              let value ← lower view .operand first
              return .paren (.unary .deref value)
          | .store => do
              let target := (staticType view first).bind target?
              let pointer ← lower view .operand first
              match others with
              | [] => .error (.lowering (.missingArgument builtin))
              | second :: _ => do
                  let value ← lower view (.stored target) second
                  return .assign (.unary .deref (.paren pointer)) value
          | .malloc => do
              let value ← lower view .operand first
              return libraryCall .malloc [value]
          | .free => do
              let value ← lower view .operand first
              return libraryCall .free [value]
          | .sizeOf => do
              let ty ← sizeofType first
              return .sizeOf (← typeOf view.table ty)
          | .intCast => do
              let value ← lower view .operand first
              return .paren (.cast .int (.paren value))
          | .floatCast => do
              let value ← lower view .operand first
              return .paren (.cast .float (.paren value))
          | _ => do
              let first ← lower view .operand first
              let others ← lowerOperands view others
              return .call (.support builtin.name) (first :: others)

end

end Lower

end Offside
