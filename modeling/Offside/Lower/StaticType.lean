import Offside.Lower.Aggregate

/-!
# Static types

The type of an expression as far as it can be told from a scope of a table. It decides between C
forms of one source form, and is absent where the expression makes no sense or gives nothing.
-/

namespace Offside

namespace Lower

/-- A scope of a table, in which names are looked up. -/
structure View where
  table : Table
  scope : Nat

/-- The symbol that a name stands for. -/
def View.lookup (view : View) (name : String) : Option Symbol :=
  view.table.lookupFrom view.scope name

def constantType : Constant → Ty
  | .int _ => .int
  | .float _ => .float
  | .str _ => .str
  | .bool _ => .bool
  | .none => .none

/-- The type of a symbol that is a value. -/
def variableType? (symbol : Symbol) : Option Ty :=
  match symbol.kind with
  | .value ty => some ty
  | _ => none

/-- The type of a call of a symbol under a name. -/
def calledType? (name : String) (symbol : Symbol) : Option Ty :=
  match symbol.kind with
  | .function signature => some signature.returns
  | .struct _ _ => some (.named name)
  | _ => none

/-- The type of a member of an enumeration or module; the outer layer is absent for values. -/
def qualifiedType? (view : View) (owner : Expr) (attr : String) : Option (Option Ty) :=
  match owner with
  | .name base =>
      match view.lookup base with
      | some symbol =>
          match symbol.kind with
          | .enum _ => some (some (.named base))
          | .module _ => some ((symbol.exported? attr).bind variableType?)
          | _ => none
      | none => none
  | _ => none

def module? (view : View) (owner : Expr) : Option (String × Symbol) :=
  match owner with
  | .name base =>
      match view.lookup base with
      | some symbol => if symbol.kind.isModule then some (base, symbol) else none
      | none => none
  | _ => none

def target? : Ty → Option Ty
  | .ptr target => some target
  | _ => none

/-- The type of a call of a builtin by that of its first argument. -/
def builtinType? (builtin : Builtin) (first : Option Ty) : Option Ty :=
  match builtin.kind with
  | .addr => first.map .ptr
  | .deref => first.bind target?
  | .malloc => some (.ptr .none)
  | .sizeOf | .intCast => some .int
  | .floatCast => some .float
  | .isOk | .isErr => some .bool
  | .unwrap payload | .unwrapOr payload | .expect payload => some payload.ty
  | .print | .range | .store | .free | .ok | .err => none

def staticType (view : View) : Expr → Option Ty
  | .name id => (view.lookup id).bind variableType?
  | .constant value => some (constantType value)
  | .binary _ left right =>
      some (Ty.arithmetic ((staticType view left).getD .int) ((staticType view right).getD .int))
  | .unary op operand => if op = .not then some .bool else staticType view operand
  | .compare _ _ _ => some .bool
  | .logical _ _ _ => some .bool
  | .call (.name id) args =>
      match Builtin.find? id with
      | some builtin =>
          builtinType? builtin <| match args with
            | [] => none
            | first :: _ => staticType view first
      | none => (view.lookup id).bind (calledType? id)
  | .call (.member owner attr) _ =>
      match module? view owner with
      | some (_, symbol) => (symbol.exported? attr).bind (calledType? attr)
      | none =>
          match staticType view owner with
          | none => none
          | some receiver =>
              ((structOf? view.table receiver).bind (·.method? attr)).map (·.signature.returns)
  | .call _ _ => none
  | .member owner attr =>
      match qualifiedType? view owner attr with
      | some outcome => outcome
      | none =>
          match staticType view owner with
          | none => none
          | some ty => ((structOf? view.table ty).bind (·.field? attr)).map (·.ty)
  | .subscript value _ => (staticType view value).bind Ty.element?

end Lower

end Offside
