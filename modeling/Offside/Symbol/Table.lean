import Offside.Symbol

/-!
# Symbol tables

A table keeps every scope that was ever opened, numbered in the order of opening, so that names can
be looked up in a scope long after it was closed. Scope `0` is the outermost one.
-/

namespace Offside

structure Scope where
  parent : Option Nat
  symbols : List Symbol

namespace Scope

def find? (scope : Scope) (name : String) : Option Symbol :=
  scope.symbols.find? (·.name = name)

end Scope

/-- All scopes of a unit, and the one at hand. -/
structure Table where
  scopes : List Scope
  current : Nat

namespace Table

/-- The table with the outermost scope alone. -/
def empty : Table := ⟨[⟨none, []⟩], 0⟩

/-- Opens a scope inside the one at hand. -/
def push (table : Table) : Table :=
  ⟨table.scopes ++ [⟨some table.current, []⟩], table.scopes.length⟩

/-- The scope that a scope was opened in. -/
def parent? (table : Table) (scope : Nat) : Option Nat := table.scopes[scope]?.bind (·.parent)

/-- Returns to the scope around; the outermost one stays. -/
def pop (table : Table) : Table :=
  match table.parent? table.current with
  | some parent => { table with current := parent }
  | none => table

/-- The symbol with a name in the scope at hand itself. -/
def lookupLocal (table : Table) (name : String) : Option Symbol :=
  table.scopes[table.current]?.bind (·.find? name)

/-- Declares a symbol in the scope at hand, unless its name is held there. -/
def insert (table : Table) (symbol : Symbol) : Except String Table :=
  match table.lookupLocal symbol.name with
  | some _ => .error symbol.name
  | none =>
      .ok { table with
        scopes := table.scopes.modify table.current fun scope =>
          { scope with symbols := scope.symbols ++ [symbol] } }

/-- The symbol that a name stands for in a scope, of the innermost one around that holds it. -/
def lookupFrom (table : Table) (scope : Nat) (name : String) : Option Symbol :=
  match table.scopes[scope]? with
  | none => none
  | some found =>
      match found.find? name with
      | some symbol => some symbol
      | none =>
          match found.parent with
          | none => none
          | some parent => if parent < scope then table.lookupFrom parent name else none
termination_by scope

/-- The symbol that a name stands for in the scope at hand. -/
def lookup (table : Table) (name : String) : Option Symbol := table.lookupFrom table.current name

def globals (table : Table) : List Symbol :=
  match table.scopes[0]? with
  | some scope => scope.symbols
  | none => []

def global? (table : Table) (name : String) : Option Symbol :=
  table.globals.find? (·.name = name)

/-- Whether other units may use a symbol: it is declared here, and a value is final and not
private. -/
def isExported (symbol : Symbol) : Bool :=
  symbol.origin = .own &&
    match symbol.kind with
    | .value _ => symbol.immutable && !symbol.name.startsWith "_"
    | .module _ => false
    | _ => true

/-- What other units may use, as symbols of the module with a path. -/
def exports (table : Table) (path : String) : List Symbol :=
  (table.globals.filter isExported).map fun symbol => { symbol with origin := .module path }

end Table

end Offside
