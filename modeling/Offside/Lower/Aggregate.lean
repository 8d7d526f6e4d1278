import Offside.C.Unit
import Offside.Fault
import Offside.Symbol.Table

/-!
# Structs and enumerations

The structs and enumerations that a unit can name, the C types of source types, and the order in
which structs are defined: each after the structs it contains by value.
-/

namespace Offside

namespace Lower

/-- The symbols of the outermost scope, with exports for modules. -/
def reachable (table : Table) : List Symbol := table.globals.flatMap Symbol.unpacked

def isAggregate (symbol : Symbol) : Bool := symbol.kind.isStruct || symbol.kind.isEnum

/-- The symbols that are the first of their name. -/
def firstOfName (symbols : List Symbol) : List Symbol :=
  symbols.foldl (fun seen symbol =>
    if seen.any (·.name = symbol.name) then seen else seen ++ [symbol]) []

/-- The structs and enumerations that a unit can name, the first of each name. -/
def aggregates (table : Table) : List Symbol :=
  firstOfName ((reachable table).filter isAggregate)

/-- The struct or enumeration with a name. -/
def aggregate? (table : Table) (name : String) : Option Symbol :=
  (aggregates table).find? (·.name = name)

/-- Whether the outermost scope or an import has such a symbol under a name. -/
def hasAggregate (sort : SymbolKind → Bool) (table : Table) (name : String) : Bool :=
  (table.global? name).any (sort ·.kind) || (aggregate? table name).any (sort ·.kind)

def isStruct (table : Table) (name : String) : Bool := hasAggregate SymbolKind.isStruct table name

def isEnum (table : Table) (ty : Ty) : Bool :=
  match ty.name? with
  | some name => hasAggregate SymbolKind.isEnum table name
  | none => false

def structOf? (table : Table) (ty : Ty) : Option Symbol :=
  match ty.pointee.name? with
  | none => none
  | some name =>
      match table.global? name with
      | some symbol =>
          if symbol.kind.isStruct then some symbol
          else (aggregate? table name).filter (·.kind.isStruct)
      | none => (aggregate? table name).filter (·.kind.isStruct)

/-- Whether C compares values of a type with its operators. -/
def isEquatable (table : Table) : Ty → Bool
  | .array _ _ | .result _ _ | .range => false
  | .named name => isEnum table (.named name)
  | _ => true

/-- The C type of a symbol that is a struct or enumeration. -/
def tagged? (symbol : Symbol) : Option C.Ty :=
  match symbol.kind with
  | .struct _ _ => some (.struct symbol.name)
  | .enum _ => some (.enum symbol.name)
  | _ => none

/-- The C type of a declared type. -/
def namedType (table : Table) (name : String) : Except Fault C.Ty :=
  let imported : Except Fault C.Ty :=
    match (aggregate? table name).bind tagged? with
    | some ty => .ok ty
    | none => .error (.lowering (.unknownType name))
  match table.global? name with
  | none => imported
  | some symbol =>
      match symbol.kind with
      | .interface _ => .error (.lowering (.interfaceType name))
      | _ =>
          match tagged? symbol with
          | some ty => .ok ty
          | none => imported

/-- The C type of a type; arrays become pointers. -/
def typeOf (table : Table) : Ty → Except Fault C.Ty
  | .int => .ok .int
  | .bool => .ok .int
  | .float => .ok .float
  | .str => .ok (.pointer .char)
  | .none => .ok .void
  | .ptr target => return .pointer (← typeOf table target)
  | .array item _ => return .pointer (← typeOf table item)
  | .result _ _ => .ok .result
  | .named name => namedType table name
  | .range => .error (.lowering .rangeType)

/-- The innermost items of an array, and the sizes, outermost first. -/
def dimensions : Ty → Ty × List Nat
  | .array item size =>
      let (inner, sizes) := dimensions item
      (inner, size :: sizes)
  | ty => (ty, [])

/-- The declaration of an object of a type. -/
def declarator (table : Table) (ty : Ty) (name : String) : Except Fault C.Declarator := do
  let (item, sizes) := dimensions ty
  return ⟨← typeOf table item, name, sizes⟩

/-- The declaration of a parameter of a type. -/
def parameter (table : Table) (ty : Ty) (name : String) : Except Fault C.Declarator :=
  return ⟨← typeOf table ty, name, []⟩

/-- How an object starts that is given no value. -/
def defaultInitial (table : Table) : Ty → C.Initial
  | .array _ _ => .zero
  | .result _ _ => .zero
  | .named name => if isStruct table name then .zero else .absent
  | _ => .absent

/-- The declared type that values of a type contain. -/
def contained? : Ty → Option String
  | .named name => some name
  | .array item _ => contained? item
  | _ => none

def fieldsOf (symbol : Symbol) : List Field :=
  match symbol.kind with
  | .struct fields _ => fields
  | _ => []

/-- The given structs that a struct contains by value, in order of its fields. -/
def containedIn (structs : List Symbol) (symbol : Symbol) : List Symbol :=
  (fieldsOf symbol).filterMap fun field =>
    match contained? field.ty with
    | some name => structs.find? (·.name = name)
    | none => none

/-- Adds a struct to finished ones, after all that it contains. Free names are not being added. -/
def addStruct (structs : List Symbol) (free : List String) (finished : List Symbol)
    (symbol : Symbol) : Except Fault (List Symbol) :=
  if finished.any (·.name = symbol.name) then .ok finished
  else if isFree : symbol.name ∈ free then do
    have shorter : (free.erase symbol.name).length < free.length := by
      have := List.length_erase_of_mem isFree
      have := List.length_pos_of_mem isFree
      omega
    let inner ← (containedIn structs symbol).foldlM
      (fun finished part => addStruct structs (free.erase symbol.name) finished part) finished
    return inner ++ [symbol]
  else .error (.lowering (.containsItself symbol.name))
termination_by free.length

/-- Structs in an order in which each comes after its contents. -/
def orderStructs (structs : List Symbol) : Except Fault (List Symbol) :=
  structs.foldlM (addStruct structs (structs.map (·.name))) []

def enumDef? (symbol : Symbol) : Option C.EnumDef :=
  match symbol.kind with
  | .enum members => some ⟨symbol.name, members⟩
  | _ => none

def structDef (table : Table) (symbol : Symbol) : Except Fault C.StructDef :=
  return ⟨symbol.name, ← (fieldsOf symbol).mapM fun field => declarator table field.ty field.name⟩

end Lower

end Offside
