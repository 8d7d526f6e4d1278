import Offside.Check.Unit
import Offside.Lower.Body

/-!
# Lowering of units

The C unit of a tree and its table: declarations first, so that the order of the source does not
matter, then the functions, and last the entry function.
-/

namespace Offside

namespace Lower

/-- The signature of a symbol that is a function. -/
def functionSignature? (symbol : Symbol) : Option Signature :=
  match symbol.kind with
  | .function signature => some signature
  | _ => none

/-- The signature under which the table knows a function or method. -/
def signatureOf (table : Table) (owner : Option String) (decl : FunctionDef) :
    Except Fault Signature :=
  let found : Option Signature := match owner with
    | some owner => ((table.global? owner).bind (·.method? decl.name)).map (·.signature)
    | none => (table.global? decl.name).bind functionSignature?
  match found with
  | some signature => .ok signature
  | none => .error (.lowering (.notDeclared decl.name))

/-- The C type of a receiver. -/
def receiverType (owner : String) : C.Ty := .pointer (.struct owner)

/-- The C parameters of a function or method. -/
def lowerParameters (table : Table) (owner : Option String) (decl : FunctionDef)
    (signature : Signature) : Except Fault (List C.Declarator) := do
  let rest (params : List Parameter) : Except Fault (List C.Declarator) :=
    (params.zip signature.params).mapM fun (param, ty) => parameter table ty param.name
  match owner with
  | none => rest decl.params
  | some owner =>
      match decl.params with
      | [] => .error (.lowering (.missingReceiver owner decl.name))
      | receiver :: params =>
          return ⟨receiverType owner, receiver.name, []⟩ :: (← rest params)

/-- A function or method in C. The entry function returns a number to the system. -/
def lowerFunction (table : Table) (owner : Option String) (decl : FunctionDef) (walk : Walk) :
    Except Fault (C.FunctionDef × Walk) := do
  let signature ← signatureOf table owner decl
  let isEntry := owner.isNone && decl.name = entryPoint
  let params ← lowerParameters table owner decl signature
  let returns ← if isEntry then .ok .int else typeOf table signature.returns
  let walk ← walk.enter table
  let (body, walk) ← lowerBody ⟨table, signature.returns, isEntry, []⟩ decl.body walk
  let body := if isEntry then body ++ [exitSuccess] else body
  return (⟨returns, functionName owner decl.name, params, body⟩, walk.leave table)

/-- The functions that a tree defines, with the entry function apart. -/
structure Functions where
  others : List C.FunctionDef
  entry : List C.FunctionDef

/-- Adds a method to the functions of a tree. -/
def addMethod (table : Table) (owner : String) (state : Functions × Walk) (decl : FunctionDef) :
    Except Fault (Functions × Walk) := do
  let (functions, walk) := state
  let (lowered, walk) ← lowerFunction table (some owner) decl walk
  return ({ functions with others := functions.others ++ [lowered] }, walk)

/-- Adds the functions that a statement at the top level defines. -/
def addFunctions (table : Table) (state : Functions × Walk) (statement : Statement) :
    Except Fault (Functions × Walk) :=
  match statement.form with
  | .function decl => do
      let (functions, walk) := state
      let (lowered, walk) ← lowerFunction table none decl walk
      if decl.name = entryPoint then
        return ({ functions with entry := functions.entry ++ [lowered] }, walk)
      else return ({ functions with others := functions.others ++ [lowered] }, walk)
  | .classDef decl =>
      if decl.kind = .struct then decl.methods.foldlM (addMethod table decl.name) state
      else .ok state
  | _ => .ok state

/-- The objects that other units define and this one can name. -/
def lowerExternals (table : Table) : Except Fault (List C.External) :=
  let isImported (symbol : Symbol) : Bool :=
    match symbol.origin with
    | .module _ => true
    | _ => false
  let values := ((table.globals.filter isImported).flatMap Symbol.unpacked).filter
    fun symbol => (variableType? symbol).isSome
  (firstOfName values).mapM fun symbol => do
    return ⟨symbol.immutable, ← declarator table ((variableType? symbol).getD .none) symbol.name⟩

/-- The object that a statement at the top level defines. -/
def lowerGlobal? (table : Table) (statement : Statement) :
    Except Fault (Option C.Definition) :=
  match statement.form with
  | .declare (.name name) written value => do
      let annotated ← (Annotated.ofExpr written).mapError fun fault =>
        .lowering (.malformedType fault)
      let declared ← declarator table annotated.ty name
      match value with
      | some value =>
          let value ← lower ⟨table, 0⟩ .operand value
          return some ⟨annotated.immutable, declared, .value value⟩
      | none => return some ⟨annotated.immutable, declared, defaultInitial table annotated.ty⟩
  | _ => return none

/-- The declaration of a function or method. -/
def prototype (table : Table) (owner : Option String) (name : String) (signature : Signature) :
    Except Fault C.Prototype := do
  let params ← signature.params.mapM (typeOf table)
  let params := match owner with
    | some owner => receiverType owner :: params
    | none => params
  return ⟨← typeOf table signature.returns, functionName owner name, params⟩

/-- The declarations of a symbol's functions, but for the entry function and foreign ones. -/
def prototypesOf (table : Table) (symbol : Symbol) : Except Fault (List C.Prototype) :=
  match symbol.kind with
  | .function signature =>
      if symbol.isForeign || symbol.name = entryPoint then .ok []
      else return [← prototype table none symbol.name signature]
  | .struct _ methods =>
      methods.mapM fun method => prototype table (some symbol.name) method.name method.signature
  | _ => .ok []

/-- Declarations without those whose text stands earlier. -/
def withoutRepeats (prototypes : List C.Prototype) : List C.Prototype :=
  prototypes.foldl (fun seen declaration =>
    if seen.any (·.text = declaration.text) then seen else seen ++ [declaration]) []

/-- The declarations of all functions that a unit can call. -/
def lowerPrototypes (table : Table) : Except Fault (List C.Prototype) := do
  let declared ← (reachable table).mapM (prototypesOf table)
  return withoutRepeats declared.flatten

/-- The headers of the foreign symbols that a unit can name. -/
def foreignHeaders (table : Table) : List String :=
  (reachable table).filterMap fun symbol =>
    match symbol.origin with
    | .foreign header _ => some header
    | _ => none

/-- The inclusions of a unit whose code needs given headers. -/
def inclusions (table : Table) (support : String) (needed : List C.Header) :
    List C.Inclusion :=
  let optional := [C.Header.string, C.Header.math].filter needed.contains
  let standard := (optional.map C.Header.name)
  let always := [C.Header.stdio.name, C.Header.stdlib.name]
  let names := (foreignHeaders table).foldl (fun names header =>
    if always.contains header || names.contains header then names else names ++ [header]) standard
  always.map .system ++ [.own support] ++ names.map .system

/-- The C unit of a tree under a table. A library has no entry function. -/
def lowerUnit (table : Table) (support : String) (kind : UnitKind) (body : List Statement) :
    Except Fault C.Unit := do
  let named := aggregates table
  let structs := named.filter (·.kind.isStruct)
  let ordered ← orderStructs structs
  let structDefs ← ordered.mapM (structDef table)
  let externals ← lowerExternals table
  let globals ← body.mapM (lowerGlobal? table)
  let globals := globals.filterMap id
  let prototypes ← lowerPrototypes table
  let (functions, _) ← body.foldlM (addFunctions table) (⟨[], []⟩, .start)
  let needed := globals.flatMap (·.initial.headers)
    ++ (functions.others ++ functions.entry).flatMap fun lowered => C.bodyHeaders lowered.body
  return {
    inclusions := inclusions table support needed
    enums := named.filterMap enumDef?
    announced := structs.map (·.name)
    structs := structDefs
    externals := externals
    globals := globals
    prototypes := prototypes
    functions := functions.others
    entry := if kind = .library then [] else functions.entry }

end Lower

end Offside
