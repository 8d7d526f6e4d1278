import Offside.Grammar.TypeExpr
import Offside.Symbol.Table

/-!
# Typing of expressions

The type of an expression in the scope at hand of a table. Where a value of a known type is asked
for, that type is passed along, since the constructors of results only make sense against it.
-/

namespace Offside

namespace Check

/-- The struct behind a type or behind a pointer to it. -/
def structOf? (table : Table) (ty : Ty) : Option Symbol := do
  let name ← ty.pointee.name?
  let symbol ← table.global? name
  if symbol.kind.isStruct then some symbol else none

def isEnum (table : Table) (ty : Ty) : Bool :=
  match ty.name? with
  | some name =>
      match table.global? name with
      | some symbol => symbol.kind.isEnum
      | none => false
  | none => false

/-- Whether values of a type can be compared at all. -/
def isEquatable (table : Table) : Ty → Bool
  | .int | .float | .bool | .str | .none | .ptr _ => true
  | .named name => isEnum table (.named name)
  | .array _ _ | .result _ _ | .range => false

def isPrintable (table : Table) : Ty → Bool
  | .int | .float | .bool | .str | .ptr _ => true
  | ty => isEnum table ty

/-- Requires a number that the integers of generated code can hold. -/
def inIntRange (value : Int) : Except Fault Unit :=
  if -2147483648 ≤ value && value ≤ 2147483647 then .ok ()
  else .error (.checking (.intRange value))

def constantType : Constant → Ty
  | .int _ => .int
  | .float _ => .float
  | .str _ => .str
  | .bool _ => .bool
  | .none => .none

/-- The type of a name used as a value. -/
def nameType (table : Table) (name : String) : Except Fault Ty :=
  match table.lookup name with
  | some symbol =>
      match symbol.kind with
      | .value ty => .ok ty
      | .function _ => .error (.checking (.functionAsValue name))
      | .module _ => .error (.checking (.moduleAsValue name))
      | .struct _ _ | .enum _ | .interface _ => .error (.checking (.typeAsValue name))
  | none =>
      if (Builtin.find? name).isSome then .error (.checking (.builtinAsValue name))
      else .error (.checking (.undeclared name))

/-- The type under an operator with one operand. -/
def unaryType (op : UnaryOp) (ty : Ty) : Ty :=
  match op with
  | .not => .bool
  | .neg | .pos => if ty.isNumeric then ty else .int

def compareType (table : Table) (left right : Ty) : Except Fault Ty :=
  if isEquatable table left && isEquatable table right && Ty.comparable left right then .ok .bool
  else .error (.checking (.incomparable left right))

/-- Requires a type that counts as a truth value. -/
def isTruth (place : TruthPlace) (ty : Ty) : Except Fault Unit :=
  if ty = .bool || ty = .int then .ok () else .error (.checking (.notTruth place ty))

def subscriptType (base index : Ty) : Except Fault Ty :=
  if index = .int then
    match base.element? with
    | some item => if item = .none then .error (.checking (.notSubscriptable base)) else .ok item
    | none => .error (.checking (.notSubscriptable base))
  else .error (.checking (.indexNotInt index))

/-- The type of a member of an enumeration or module; none if the owner is a value. -/
def qualifiedType? (table : Table) (owner : Expr) (attr : String) : Option (Except Fault Ty) :=
  match owner with
  | .name base =>
      match table.lookup base with
      | some symbol =>
          match symbol.kind with
          | .enum _ =>
              some <| match symbol.member? attr with
                | some _ => .ok (.named base)
                | none => .error (.checking (.noMember base attr))
          | .module _ =>
              some <| match symbol.exported? attr with
                | some found =>
                    match found.kind with
                    | .value ty => .ok ty
                    | _ => .error (.checking (.notValue base attr))
                | none => .error (.checking (.missingExport base attr))
          | _ => none
      | none => none
  | _ => none

/-- The type of a field, reached through a value or a pointer. -/
def fieldType (table : Table) (owner : Ty) (attr : String) : Except Fault Ty :=
  match structOf? table owner with
  | none => .error (.checking (.memberOfNonStruct owner))
  | some struct =>
      match struct.field? attr with
      | some field => .ok field.ty
      | none =>
          match struct.method? attr with
          | some _ => .error (.checking (.methodAsValue struct.name attr))
          | none => .error (.checking (.noField struct.name attr))

/-- The export that is called by a qualified name, if the owner is a module. -/
def calledExport? (table : Table) (owner : Expr) (attr : String) :
    Option (Except Fault (Symbol × String)) :=
  match owner with
  | .name base =>
      match table.lookup base with
      | some symbol =>
          match symbol.kind with
          | .module _ =>
              some <| match symbol.exported? attr with
                | some found => .ok (found, qualified base attr)
                | none => .error (.checking (.missingExport base attr))
          | _ => none
      | none => none
  | _ => none

/-- The method that is called on a receiver, with its struct. -/
def calledMethod (table : Table) (owner : Expr) (receiver : Ty) (attr : String) :
    Except Fault (Method × String) :=
  match structOf? table receiver with
  | none => .error (.checking (.methodOfNonStruct attr receiver))
  | some struct =>
      match struct.method? attr with
      | none => .error (.checking (.noMethod struct.name attr))
      | some method =>
          if !receiver.isPointer && !owner.isPlace then
            .error (.checking (.receiverNotPlace struct.name attr))
          else .ok (method, qualified struct.name attr)

/-- Requires as many arguments as a signature has parameters. -/
def hasArity (callee : String) (signature : Signature) (found : Nat) : Except Fault Unit :=
  if signature.params.length = found then .ok ()
  else .error (.checking (.arity callee signature.params.length found))

/-- The signature that a symbol is called with. A struct takes no arguments. -/
def calledSignature (symbol : Symbol) (callee : String) (found : Nat) :
    Except Fault Signature :=
  match symbol.kind with
  | .function signature => do
      hasArity callee signature found
      return signature
  | .struct _ _ =>
      if found = 0 then .ok ⟨[], .named symbol.name⟩
      else .error (.checking (.constructorArguments callee))
  | kind => .error (.checking (.notCallable kind.name callee))

/-- Tells in which argument of a call a fault lies. -/
def inArgument {α : Type} (position : Nat) (callee : String) (outcome : Except Fault α) :
    Except Fault α :=
  outcome.mapError fun fault => .checking (.argument position callee fault.bare)

/-- The type whose size is asked for. -/
def sizeofType (table : Table) (operand : Expr) : Except Fault Ty := do
  let ty ← (match operand with
    | .constant (.str text) =>
        match parseType text 0 with
        | .error fault => .error (.checking (.quotedType fault.bare))
        | .ok written => (Ty.ofExpr written).mapError fun fault => .checking (.malformedType fault)
    | .name name =>
        let declared := match table.lookup name with
          | some symbol => symbol.kind.isStruct || symbol.kind.isEnum
          | none => false
        if declared then .ok (.named name)
        else match Ty.ofName name with
          | .ok (.named _) | .error _ => .error (.checking (.sizeofNotType name))
          | .ok ty => .ok ty
    | _ => .error (.checking .sizeofForm) : Except Fault Ty)
  match ty.pointee.name? with
  | some name =>
      if (table.global? name).isNone then .error (.checking (.unknownType name)) else return ty
  | none => return ty

/-- The slot that carries a type in a result. -/
def payload? (table : Table) (ty : Ty) : Option Payload :=
  if isEnum table ty then some .int else Payload.ofTy? ty

/-- The type of the value in a result of some type. -/
def okType (builtin : String) : Ty → Except Fault Ty
  | .result ok _ => .ok ok
  | ty => .error (.checking (.notResult builtin ty))

/-- Requires a result whose value lies in a slot. -/
def carries (table : Table) (builtin : String) (payload : Payload) (ty : Ty) :
    Except Fault Unit := do
  let ok ← okType builtin ty
  if payload? table ok = some payload then .ok () else .error (.checking (.wrongSlot builtin ok))

/-- The type behind a pointer that is not generic. -/
def target? : Ty → Option Ty
  | .ptr target => if target = .none then none else some target
  | _ => none

/-- Requires a type that a place accepts. -/
def fits (place found : Ty) : Except Fault Unit :=
  if place.accepts found then .ok () else .error (.checking (.mismatch place found))

mutual

/-- The type of an expression where a type may be asked for. -/
def typeIn (table : Table) (asked : Option Ty) : Expr → Except Fault Ty
  | .name id => nameType table id
  | .constant value => do
      if let .int number := value then inIntRange number
      return constantType value
  | .binary _ left right => do
      let left ← typeIn table none left
      let right ← typeIn table none right
      return Ty.arithmetic left right
  | .unary .neg (.constant (.int number)) => do
      inIntRange (-number)
      return .int
  | .unary op operand => do
      let ty ← typeIn table none operand
      return unaryType op ty
  | .compare _ left right => do
      let left ← typeIn table none left
      let right ← typeIn table none right
      compareType table left right
  | .logical _ left right => do
      let left ← typeIn table none left
      isTruth .operand left
      let right ← typeIn table none right
      isTruth .operand right
      return .bool
  | .call (.name id) args =>
      match Builtin.find? id with
      | some builtin => builtinType table asked builtin args
      | none =>
          match table.lookup id with
          | none => .error (.checking (.undefinedFunction id))
          | some symbol => do
              let signature ← calledSignature symbol id args.length
              argumentsFit table id 1 signature.params args
              return signature.returns
  | .call (.member owner attr) args =>
      match calledExport? table owner attr with
      | some (.error cause) => .error cause
      | some (.ok (symbol, callee)) => do
          let signature ← calledSignature symbol callee args.length
          argumentsFit table callee 1 signature.params args
          return signature.returns
      | none => do
          let receiver ← typeIn table none owner
          let (method, callee) ← calledMethod table owner receiver attr
          hasArity callee method.signature args.length
          argumentsFit table callee 1 method.signature.params args
          return method.signature.returns
  | .call _ _ => .error (.checking .calleeForm)
  | .member owner attr =>
      match qualifiedType? table owner attr with
      | some outcome => outcome
      | none => do
          let ty ← typeIn table none owner
          fieldType table ty attr
  | .subscript value index => do
      let base ← typeIn table none value
      let index ← typeIn table none index
      subscriptType base index

/-- Requires arguments of types that their parameters accept. -/
def argumentsFit (table : Table) (callee : String) (position : Nat) (params : List Ty) :
    List Expr → Except Fault Unit
  | [] => .ok ()
  | arg :: args =>
      match params with
      | [] => .ok ()
      | param :: params => do
          inArgument position callee ((typeIn table (some param) arg).bind (fits param))
          argumentsFit table callee (position + 1) params args

def builtinType (table : Table) (asked : Option Ty) (builtin : Builtin) (args : List Expr) :
    Except Fault Ty :=
  match asked, builtin.kind with
  | some (.result ok err), .ok | some (.result ok err), .err =>
      match args with
      | [arg] => do
          let part := if builtin.kind = .ok then ok else err
          fits part (← typeIn table (some part) arg)
          return .result ok err
      | args => .error (.checking (.builtinArity builtin args.length))
  | some ty, .ok | some ty, .err => .error (.checking (.resultExpected builtin.name ty))
  | _, kind =>
      if !builtin.acceptsArity args.length then
        .error (.checking (.builtinArity builtin args.length))
      else match kind, args with
        | .print, [arg] => do
            let ty ← typeIn table none arg
            if isPrintable table ty then return .none else .error (.checking (.unprintable ty))
        | .range, _ => .error (.checking .rangeOutsideLoop)
        | .addr, [arg] =>
            if arg.isPlace then return .ptr (← typeIn table none arg)
            else .error (.checking .addressOfNonPlace)
        | .deref, [arg] => do
            let ty ← typeIn table none arg
            match target? ty with
            | some target => return target
            | none => .error (.checking (.derefOf ty))
        | .store, [pointer, value] => do
            let ty ← typeIn table none pointer
            match target? ty with
            | some target =>
                fits target (← typeIn table (some target) value)
                return .none
            | none => .error (.checking (.storeThrough ty))
        | .malloc, [arg] => do
            fits .int (← typeIn table (some .int) arg)
            return .ptr .none
        | .free, [arg] => do
            let ty ← typeIn table none arg
            if ty.isPointer then return .none else .error (.checking (.freeOf ty))
        | .sizeOf, [arg] => do
            let _ ← sizeofType table arg
            return .int
        | .intCast, [arg] => do
            let ty ← typeIn table none arg
            if ty.isNumeric || ty = .bool || isEnum table ty then return .int
            else .error (.checking (.notConvertible ty .int))
        | .floatCast, [arg] => do
            let ty ← typeIn table none arg
            if ty.isNumeric || ty = .bool then return .float
            else .error (.checking (.notConvertible ty .float))
        | .ok, _ | .err, _ => .error (.checking (.resultContext builtin.name))
        | .isOk, [arg] | .isErr, [arg] => do
            let _ ← okType builtin.name (← typeIn table none arg)
            return .bool
        | .unwrap payload, [arg] => do
            carries table builtin.name payload (← typeIn table none arg)
            return payload.ty
        | .unwrapOr payload, [arg, fallback] => do
            carries table builtin.name payload (← typeIn table none arg)
            fits payload.ty (← typeIn table (some payload.ty) fallback)
            return payload.ty
        | .expect payload, [arg, message] => do
            carries table builtin.name payload (← typeIn table none arg)
            fits .str (← typeIn table (some .str) message)
            return payload.ty
        | _, args => .error (.checking (.builtinArity builtin args.length))

end

def typeOf (table : Table) (expr : Expr) : Except Fault Ty := typeIn table none expr

/-- Requires an expression whose value a place of a type accepts. -/
def checkValue (table : Table) (place : Ty) (expr : Expr) : Except Fault Unit := do
  fits place (← typeIn table (some place) expr)

end Check

end Offside
