import Offside.Check.Expression

/-!
# Checking bodies

The statements of a function are checked in order. Each block opens a scope of its own in the table,
which stays there after the block is left.
-/

namespace Offside

namespace Check

/-- The function and the loops around the statement at hand. -/
structure Surroundings where
  function : String
  returns : Ty
  /-- The labels of the loops around, innermost first. -/
  loops : List (Option String)

/-- The surroundings inside a loop. Labels of nested loops differ. -/
def Surroundings.inLoop (around : Surroundings) (label : Option String) :
    Except Fault Surroundings :=
  match label with
  | some word =>
      if around.loops.contains (some word) then .error (.checking (.labelTaken word))
      else .ok { around with loops := label :: around.loops }
  | none => .ok { around with loops := label :: around.loops }

def declaredName : Expr → Except Fault String
  | .name id => .ok id
  | _ => .error (.checking .notPlainName)

/-- What a written annotation means. -/
def annotatedOf (written : TypeExpr) : Except Fault Annotated :=
  (Annotated.ofExpr written).mapError fun fault => .checking (.malformedType fault)

/-- Declares a symbol in the scope at hand, unless a builtin has its name. -/
def declare (table : Table) (symbol : Symbol) : Except Fault Table :=
  if (Builtin.find? symbol.name).isSome then .error (.checking (.redefinesBuiltin symbol.name))
  else (table.insert symbol).mapError fun name =>
    .checking (.alreadyDefined symbol.kind.name name)

def declareVariable (table : Table) (target : Expr) (written : TypeExpr) (value : Option Expr) :
    Except Fault Table := do
  let name ← declaredName target
  let annotated ← annotatedOf written
  match value with
  | some value => checkValue table annotated.ty value
  | none => if annotated.immutable then .error (.checking (.finalUninitialized name))
  if (table.lookupLocal name).isSome then .error (.checking (.redeclared name))
  declare table (.value name annotated.ty annotated.immutable)

/-- The type of a place that is assigned to. -/
def targetType (table : Table) : Expr → Except Fault Ty
  | .name id =>
      match table.lookup id with
      | some symbol =>
          match symbol.kind with
          | .value ty => if symbol.immutable then .error (.checking (.assignsFinal id)) else .ok ty
          | kind => .error (.checking (.assignsSymbol kind.name id))
      | none => .error (.checking (.undeclared id))
  | .member owner attr =>
      match owner with
      | .name base =>
          match table.lookup base with
          | some symbol =>
              match symbol.kind with
              | .value _ => typeOf table (.member owner attr)
              | _ => .error (.checking (.assignsMember base attr))
          | none => typeOf table (.member owner attr)
      | _ => typeOf table (.member owner attr)
  | .subscript value index => typeOf table (.subscript value index)
  | _ => .error (.checking .notTarget)

/-- Checks an assignment. Arrays are never assigned as a whole. -/
def checkAssign (table : Table) (target value : Expr) : Except Fault Unit := do
  let place ← targetType table target
  match place with
  | .array _ _ => .error (.checking (.assignsArray place))
  | _ => checkValue table place value

/-- Requires an expression that can decide a branch. -/
def checkCondition (table : Table) (test : Expr) : Except Fault Unit := do
  isTruth .condition (← typeOf table test)

/-- Requires whole numbers as the bounds of a range. -/
def checkBounds (table : Table) : List Expr → Except Fault Unit
  | [] => .ok ()
  | bound :: bounds => do
      let ty ← typeOf table bound
      if ty = .int then checkBounds table bounds else .error (.checking (.rangeBound ty))

/-- The bounds of a call of the range builtin. -/
def rangeCall? : Expr → Option (Builtin × List Expr)
  | .call (.name id) args =>
      match Builtin.find? id with
      | some builtin => if builtin.kind = .range then some (builtin, args) else none
      | none => none
  | _ => none

/-- The type of what a loop yields in each round. -/
def iterationType (table : Table) (iter : Expr) : Except Fault Ty :=
  match rangeCall? iter with
  | some (builtin, bounds) =>
      if builtin.acceptsArity bounds.length then do
        checkBounds table bounds
        return .int
      else .error (.checking (.builtinArity builtin bounds.length))
  | none => do
      match ← typeOf table iter with
      | .array item _ => return item
      | ty => .error (.checking (.notIterable ty))

/-- Requires a loop that a jump can refer to. -/
def checkJump (around : Surroundings) (jump : Jump) (label : Option String) :
    Except Fault Unit :=
  if around.loops.isEmpty then .error (.checking (.outsideLoop jump))
  else match label with
    | some word =>
        if around.loops.contains (some word) then .ok ()
        else .error (.checking (.unknownLabel jump word))
    | none => .ok ()

def checkReturn (table : Table) (around : Surroundings) (value : Option Expr) :
    Except Fault Unit :=
  match value with
  | none =>
      if around.returns = .none then .ok ()
      else .error (.checking (.mustReturn around.function around.returns))
  | some value =>
      if around.returns = .none then
        if value.isNone then .ok () else .error (.checking (.returnsNothing around.function))
      else checkValue table around.returns value

/-- The type of a value that cases are compared with. -/
def subjectType (table : Table) (subject : Expr) : Except Fault Ty := do
  let ty ← typeOf table subject
  if isEquatable table ty then return ty else .error (.checking (.cannotMatch ty))

/-- Requires a pattern that can match a subject. -/
def checkPattern (table : Table) (subject : Ty) : Pattern → Except Fault Unit
  | .wildcard => .ok ()
  | .value expr => do
      let ty ← typeOf table expr
      if Ty.comparable subject ty then .ok () else .error (.checking (.patternMismatch ty subject))

mutual

/-- Checks a statement, and gives the table after it. -/
def checkForm (around : Surroundings) (line : Nat) (form : Form) (table : Table) :
    Except Fault Table :=
  match form with
  | .declare target written value => onLine line (declareVariable table target written value)
  | .assign target value => do
      onLine line (checkAssign table target value)
      return table
  | .branch test body orelse => do
      onLine line (checkCondition table test)
      let table ← checkBody around body table.push
      let table ← checkBody around orelse table.pop.push
      return table.pop
  | .whileLoop test body label => do
      onLine line (checkCondition table test)
      let inside ← onLine line (around.inLoop label)
      let table ← checkBody inside body table.push
      return table.pop
  | .forLoop target iter body label => do
      let item ← onLine line (iterationType table iter)
      let inside ← onLine line (around.inLoop label)
      let table ← onLine line (declare table.push (.value target item false))
      let table ← checkBody inside body table
      return table.pop
  | .jump jump label => do
      onLine line (checkJump around jump label)
      return table
  | .ret value => do
      onLine line (checkReturn table around value)
      return table
  | .expr value => do
      let _ ← onLine line (typeOf table value)
      return table
  | .pass => return table
  | .select subject cases => do
      let ty ← onLine line (subjectType table subject)
      checkCases around ty cases table
  | .import_ _ => reject line .innerImport
  | .function _ => reject line .innerDefinition
  | .classDef _ => reject line .innerDefinition

/-- Checks statements in order, and gives the table after them. -/
def checkBody (around : Surroundings) (body : List Statement) (table : Table) :
    Except Fault Table :=
  match body with
  | [] => return table
  | ⟨line, form⟩ :: others => do
      let table ← checkForm around line form table
      checkBody around others table

def checkCases (around : Surroundings) (subject : Ty) (cases : List Case) (table : Table) :
    Except Fault Table :=
  match cases with
  | [] => return table
  | ⟨pattern, body, line⟩ :: others => do
      onLine line (checkPattern table subject pattern)
      let table ← checkBody around body table.push
      checkCases around subject others table.pop

end

end Check

end Offside
