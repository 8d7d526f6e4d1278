import Offside.Ty

/-!
# Symbols

What a name stands for: a value, a function, a declared type or an imported module, together with
where it was declared.
-/

namespace Offside

/-- The types that a function takes and gives. -/
structure Signature where
  /-- The types of the parameters, without a receiver. -/
  params : List Ty
  returns : Ty
deriving DecidableEq, Repr

structure Field where
  name : String
  ty : Ty
deriving DecidableEq, Repr

structure Method where
  name : String
  signature : Signature
deriving DecidableEq, Repr

/-- Where a symbol was declared. -/
inductive Origin
  | own
  | module (path : String)
  /-- In a C header, possibly of a library that must be linked. -/
  | foreign (header : String) (library : Option String)
deriving DecidableEq, Repr

mutual

/-- What sort of thing a symbol is. -/
inductive SymbolKind where
  | value (ty : Ty)
  | function (signature : Signature)
  | struct (fields : List Field) (methods : List Method)
  | enum (members : List (String × Int))
  | interface (methods : List Method)
  | module (exports : List Symbol)

/-- What a name stands for. -/
structure Symbol where
  name : String
  kind : SymbolKind
  immutable : Bool
  origin : Origin
  implements : List String

end

namespace SymbolKind

def name : SymbolKind → String
  | value _ => "variable"
  | function _ => "function"
  | struct _ _ => "struct"
  | enum _ => "enum"
  | interface _ => "interface"
  | module _ => "module"

def isStruct : SymbolKind → Bool
  | struct _ _ => true
  | _ => false

def isEnum : SymbolKind → Bool
  | enum _ => true
  | _ => false

def isModule : SymbolKind → Bool
  | module _ => true
  | _ => false

end SymbolKind

namespace Symbol

/-- A symbol of the unit at hand that can be changed and claims no interfaces. -/
def plain (name : String) (kind : SymbolKind) : Symbol := ⟨name, kind, false, .own, []⟩

def value (name : String) (ty : Ty) (immutable : Bool) : Symbol :=
  { plain name (.value ty) with immutable }

def function (name : String) (signature : Signature) : Symbol := plain name (.function signature)

/-- An imported module, bound to a name. -/
def module (name path : String) (exports : List Symbol) : Symbol :=
  { plain name (.module exports) with origin := .module path }

/-- The type that a symbol gives as a value. -/
def valueType? (symbol : Symbol) : Option Ty :=
  match symbol.kind with
  | .value ty => some ty
  | .function signature => some signature.returns
  | .struct _ _ | .enum _ | .interface _ => some (.named symbol.name)
  | .module _ => none

/-- Whether a symbol comes from a C header. -/
def isForeign (symbol : Symbol) : Bool :=
  match symbol.origin with
  | .foreign _ _ => true
  | _ => false

def field? (symbol : Symbol) (name : String) : Option Field :=
  match symbol.kind with
  | .struct fields _ => fields.find? (·.name = name)
  | _ => none

def method? (symbol : Symbol) (name : String) : Option Method :=
  match symbol.kind with
  | .struct _ methods => methods.find? (·.name = name)
  | .interface methods => methods.find? (·.name = name)
  | _ => none

def member? (symbol : Symbol) (name : String) : Option Int :=
  match symbol.kind with
  | .enum members => (members.find? (·.1 = name)).map (·.2)
  | _ => none

def exported? (symbol : Symbol) (name : String) : Option Symbol :=
  match symbol.kind with
  | .module exports => exports.find? (·.name = name)
  | _ => none

/-- The symbol itself, or the exports of a module. -/
def unpacked (symbol : Symbol) : List Symbol :=
  match symbol.kind with
  | .module exports => exports
  | _ => [symbol]

end Symbol

/-- The symbols that an imported module offers. -/
structure Fragment where
  path : String
  symbols : List Symbol

namespace Fragment

def find? (fragment : Fragment) (name : String) : Option Symbol :=
  fragment.symbols.find? (·.name = name)

end Fragment

end Offside
