import Offside.Check.Body

/-!
# Checking units

A unit is checked in two rounds. The first declares everything that stands at its top level, so that
bodies may refer to it in any order; the second checks bodies and initial values.
-/

namespace Offside

/-- Whether a unit is to run on its own. -/
inductive UnitKind
  | program
  | library
deriving DecidableEq, Repr

namespace Check

/-- Whether a module offers nothing but marks for annotations. -/
def isMarkerModule (path : String) : Bool := path = "typing"

/-- A parameter that is no receiver, with its annotation. -/
def parameterOf (function : String) (param : Parameter) : Except Fault (String × Annotated) :=
  match param.written with
  | none => reject param.line (.untypedParameter param.name function)
  | some written => do
      let annotated ← onLine param.line (annotatedOf written)
      return (param.name, annotated)

/-- The parameters of a function without the receiver of a method. -/
def parametersOf (decl : FunctionDef) (isMethod : Bool) (line : Nat) :
    Except Fault (List (String × Annotated)) :=
  if isMethod then
    match decl.params with
    | [] => reject line (.missingReceiver decl.name)
    | _ :: params => params.mapM (parameterOf decl.name)
  else decl.params.mapM (parameterOf decl.name)

/-- The signature of a function. -/
def signatureOf (decl : FunctionDef) (isMethod : Bool) (line : Nat) :
    Except Fault Signature := do
  let params ← parametersOf decl isMethod line
  let returns ← (match decl.returns with
    | some written => onLine line ((Ty.ofExpr written).mapError fun fault =>
        .checking (.malformedType fault))
    | none => return .none : Except Fault Ty)
  return ⟨params.map (·.2.ty), returns⟩

/-- The number of an integer literal with any minus signs. -/
def integerLiteral? : Expr → Option Int
  | .constant (.int value) => some value
  | .unary .neg operand => (integerLiteral? operand).map (- ·)
  | _ => none

/-- Whether a value is a literal, or a number with one sign. -/
def isInitializer : Expr → Bool
  | .constant _ => true
  | .unary .neg (.constant (.int _)) | .unary .neg (.constant (.float _)) => true
  | .unary .pos (.constant (.int _)) | .unary .pos (.constant (.float _)) => true
  | _ => false

/-- Whether a statement is a `pass` or a text that stands alone. -/
def isInert : Form → Bool
  | .pass => true
  | .expr (.constant (.str _)) => true
  | _ => false

/-- The fields and methods that a struct has so far. -/
structure Members where
  fields : List Field
  methods : List Method

/-- Requires a name that is not taken by a member. -/
def Members.isFree (members : Members) (owner name : String) : Except Fault Unit :=
  if members.fields.any (·.name = name) || members.methods.any (·.name = name) then
    .error (.checking (.memberRepeated owner name))
  else .ok ()

def Members.addMethod (members : Members) (owner : String) (decl : FunctionDef) (line : Nat) :
    Except Fault Members := do
  let signature ← signatureOf decl true line
  onLine line (members.isFree owner decl.name)
  return { members with methods := members.methods ++ [⟨decl.name, signature⟩] }

def Members.addField (members : Members) (owner : String) (target : Expr) (written : TypeExpr)
    (value : Option Expr) : Except Fault Members := do
  let name ← declaredName target
  if value.isSome then .error (.checking (.fieldInitializer owner name))
  let annotated ← annotatedOf written
  if annotated.ty = .named owner then .error (.checking (.containsItself owner))
  members.isFree owner name
  return { members with fields := members.fields ++ [⟨name, annotated.ty⟩] }

/-- Adds what a statement of a struct declares. -/
def structMember (owner : String) (members : Members) (statement : Statement) :
    Except Fault Members :=
  match statement.form with
  | .declare target written value =>
      onLine statement.line (members.addField owner target written value)
  | .function decl => members.addMethod owner decl statement.line
  | form =>
      if isInert form then return members else reject statement.line (.structContents owner)

/-- Adds what a statement of an interface declares. -/
def interfaceMember (owner : String) (members : Members) (statement : Statement) :
    Except Fault Members :=
  match statement.form with
  | .function decl => members.addMethod owner decl statement.line
  | form =>
      if isInert form then return members else reject statement.line (.interfaceContents owner)

def addEnumMember (owner : String) (members : List (String × Int)) (name : String)
    (value : Expr) : Except Fault (List (String × Int)) :=
  match integerLiteral? value with
  | none => .error (.checking (.enumValue owner name))
  | some number => do
      inIntRange number
      if members.any (·.1 = name) then .error (.checking (.enumMemberRepeated owner name))
      return members ++ [(name, number)]

/-- Adds what a statement of an enumeration declares. -/
def enumMember (owner : String) (members : List (String × Int)) (statement : Statement) :
    Except Fault (List (String × Int)) :=
  match statement.form with
  | .assign (.name name) value => onLine statement.line (addEnumMember owner members name value)
  | form =>
      if isInert form then return members else reject statement.line (.enumContents owner)

def classSymbol (decl : ClassDef) : Except Fault Symbol :=
  match decl.kind with
  | .enum => do
      let members ← decl.body.foldlM (enumMember decl.name) []
      return .plain decl.name (.enum members)
  | .struct => do
      let members ← decl.body.foldlM (structMember decl.name) ⟨[], []⟩
      return { Symbol.plain decl.name (.struct members.fields members.methods) with
        implements := decl.bases }
  | .interface => do
      let members ← decl.body.foldlM (interfaceMember decl.name) ⟨[], []⟩
      return .plain decl.name (.interface members.methods)

/-- Declares the names that an import takes out of a module, or else the module. -/
def declareImport (fragments : List Fragment) (table : Table) (request : Import) :
    Except Fault Table :=
  let path := request.dotted
  if isMarkerModule path then .ok table
  else match fragments.find? (·.path = path) with
    | none => .error (.checking (.unresolvedModule path))
    | some fragment =>
        if request.names.isEmpty then
          declare table (.module (request.path.getLast?.getD path) path fragment.symbols)
        else request.names.foldlM (fun table name =>
          match fragment.find? name with
          | none => .error (.checking (.missingExport path name))
          | some symbol => declare table symbol) table

/-- Declares what a statement at the top level brings. -/
def declareTop (fragments : List Fragment) (table : Table) (statement : Statement) :
    Except Fault Table :=
  let line := statement.line
  match statement.form with
  | .import_ request => onLine line (declareImport fragments table request)
  | .function decl => do
      let signature ← signatureOf decl false line
      onLine line (declare table (.function decl.name signature))
  | .classDef decl => do
      let symbol ← classSymbol decl
      onLine line (declare table symbol)
  | .declare target written _ => onLine line do
      let name ← declaredName target
      let annotated ← annotatedOf written
      declare table (.value name annotated.ty annotated.immutable)
  | form => if isInert form then return table else reject line .notTopLevel

/-- Requires that a struct has a method of an interface. -/
def providesMethod (struct : Symbol) (base : String) (required : Method) : Except Fault Unit :=
  match struct.method? required.name with
  | none => .error (.checking (.notImplemented struct.name base required.name))
  | some own =>
      if own.signature = required.signature then .ok ()
      else .error (.checking (.signatureMismatch struct.name required.name base))

/-- Requires that a struct provides an interface. -/
def providesInterface (table : Table) (struct : Symbol) (base : String) : Except Fault Unit :=
  match table.global? base with
  | none => .error (.checking (.unknownInterface base))
  | some symbol =>
      match symbol.kind with
      | .interface methods => methods.forM (providesMethod struct base)
      | _ => .error (.checking (.baseNotInterface base struct.name))

/-- Requires that a declared struct provides the interfaces it claims. -/
def checkImplements (table : Table) (statement : Statement) : Except Fault Unit :=
  match statement.form with
  | .classDef decl =>
      if decl.kind = .struct then
        match table.global? decl.name with
        | some struct =>
            onLine statement.line (struct.implements.forM (providesInterface table struct))
        | none => .ok ()
      else .ok ()
  | _ => .ok ()

/-- Requires the entry point of a program. -/
def checkEntry (table : Table) : Except Fault Unit :=
  match table.global? entryPoint with
  | some symbol =>
      match symbol.kind with
      | .function signature =>
          if signature.params.isEmpty then .ok () else .error (.checking .entryTakesParameters)
      | _ => .error (.checking .missingEntry)
  | none => .error (.checking .missingEntry)

/-- The table of what a unit declares at its top level. -/
def declareAll (kind : UnitKind) (fragments : List Fragment) (body : List Statement) :
    Except Fault Table := do
  let table ← body.foldlM (declareTop fragments) .empty
  body.forM (checkImplements table)
  if kind = .program then onLine 1 (checkEntry table)
  return table

def declareReceiver (owner : String) (params : List Parameter) (table : Table) :
    Except Fault Table :=
  match params with
  | [] => .ok table
  | param :: _ => declare table (.value param.name (.ptr (.named owner)) false)

/-- Checks a function in a scope with its parameters. A method has an owner. -/
def checkFunction (owner : Option String) (line : Nat) (decl : FunctionDef) (table : Table) :
    Except Fault Table := do
  let signature ← signatureOf decl owner.isSome line
  let params ← parametersOf decl owner.isSome line
  let table := table.push
  let table ← onLine line (match owner with
    | some owner => declareReceiver owner decl.params table
    | none => .ok table)
  let table ← onLine line (params.foldlM (fun table (name, annotated) =>
    declare table (.value name annotated.ty annotated.immutable)) table)
  let name := match owner with
    | some owner => qualified owner decl.name
    | none => decl.name
  let table ← checkBody ⟨name, signature.returns, []⟩ decl.body table
  return table.pop

def checkGlobal (table : Table) (target : Expr) (value : Option Expr) : Except Fault Unit := do
  let name ← declaredName target
  match table.global? name with
  | none => .ok ()
  | some symbol =>
      match value with
      | some value =>
          if isInitializer value then checkValue table (symbol.valueType?.getD .none) value
          else .error (.checking (.globalNotLiteral name))
      | none => if symbol.immutable then .error (.checking (.finalUninitialized name)) else .ok ()

def checkMethod (owner : String) (table : Table) (statement : Statement) : Except Fault Table :=
  match statement.form with
  | .function decl => checkFunction (some owner) statement.line decl table
  | _ => return table

/-- Checks the bodies and initial values of a top statement. -/
def checkTop (table : Table) (statement : Statement) : Except Fault Table :=
  match statement.form with
  | .function decl => checkFunction none statement.line decl table
  | .classDef decl =>
      if decl.kind = .struct then decl.body.foldlM (checkMethod decl.name) table
      else return table
  | .declare target _ value => do
      onLine statement.line (checkGlobal table target value)
      return table
  | _ => return table

/-- Checks a unit against given modules, and gives its table. -/
def checkUnit (kind : UnitKind) (fragments : List Fragment) (body : List Statement) :
    Except Fault Table := do
  let table ← declareAll kind fragments body
  body.foldlM checkTop table

end Check

end Offside
