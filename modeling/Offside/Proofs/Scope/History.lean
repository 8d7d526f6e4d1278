import Offside.Proofs.Scope.Visible

/-!
# Histories of a table

What holds of a table after any sequence of opening scopes, leaving them and declaring symbols. Each
operation touches the scope at hand alone, so the scopes around any scope form a chain that ends in
the outermost one, and a scope that was left keeps what it holds.
-/

namespace Offside

namespace Table

inductive Operation
  | push
  | pop
  | insert (symbol : Symbol)

def perform (table : Table) : Operation → Except String Unit × Table
  | .push => (.ok (), table.push)
  | .pop => (.ok (), table.pop)
  | .insert symbol =>
      match table.insert symbol with
      | .ok after => (.ok (), after)
      | .error name => (.error name, table)

/-- The table after operations on a fresh one. -/
def afterAll (operations : List Operation) : Table :=
  operations.foldl (fun table operation => (table.perform operation).2) .empty

/-- The scopes form a tree, and none holds a name twice. -/
structure Lawful (table : Table) : Prop extends table.Rooted where
  nodup : ∀ scope, ((table.symbolsOf scope).map (·.name)).Nodup

theorem lawful_empty : empty.Lawful where
  toRooted := rooted_outermost []
  nodup := by
    intro scope
    cases scope <;> simp [symbolsOf, empty]

variable {table : Table} {scope : Nat}

theorem insert_eq_error_iff {symbol : Symbol} {name : String} :
    table.insert symbol = .error name ↔
      name = symbol.name ∧ symbol.name ∈ (table.symbolsOf table.current).map (·.name) := by
  have localized : table.lookupLocal symbol.name = table.held? symbol.name table.current := rfl
  rw [insert, localized, held?_eq_find?]
  cases found : (table.symbolsOf table.current).find? (·.name = symbol.name) with
  | none =>
      have absent : symbol.name ∉ (table.symbolsOf table.current).map (·.name) := by
        simpa using found
      simp [absent]
  | some held =>
      have present : symbol.name ∈ (table.symbolsOf table.current).map (·.name) :=
        List.mem_map.mpr ⟨held, List.mem_of_find?_eq_some found, name_of_find? found⟩
      simp [present, eq_comm]

namespace Lawful

variable {table : Table}

theorem push (lawful : table.Lawful) : table.push.Lawful where
  toRooted := lawful.toRooted.push
  nodup := by
    intro scope
    rw [symbolsOf, getElem?_push]
    split
    · exact .nil
    · exact lawful.nodup scope

theorem pop (lawful : table.Lawful) : table.pop.Lawful where
  toRooted := lawful.toRooted.pop
  nodup := by
    intro scope
    rw [symbolsOf, pop_scopes]
    exact lawful.nodup scope

theorem insert {after : Table} {symbol : Symbol} (lawful : table.Lawful)
    (inserted : table.insert symbol = .ok after) : after.Lawful where
  toRooted := lawful.toRooted.insert inserted
  nodup := by
    intro scope
    rw [symbolsOf_insert lawful.toWellFormed inserted]
    split
    · rename_i here
      subst here
      have new : symbol.name ∉ (table.symbolsOf table.current).map (·.name) := by
        intro taken
        have refused := insert_eq_error_iff.mpr ⟨rfl, taken⟩
        simp [inserted] at refused
      rw [List.map_append, List.nodup_append]
      refine ⟨lawful.nodup table.current, by simp, ?_⟩
      rintro name isHeld _ isNew rfl
      obtain rfl : name = symbol.name := List.mem_singleton.mp isNew
      exact new isHeld
    · exact lawful.nodup scope

theorem perform (lawful : table.Lawful) (operation : Operation) :
    (table.perform operation).2.Lawful := by
  cases operation with
  | push => exact lawful.push
  | pop => exact lawful.pop
  | insert symbol =>
      cases inserted : table.insert symbol with
      | ok after => simpa [Table.perform, inserted] using lawful.insert inserted
      | error name => simpa [Table.perform, inserted] using lawful

theorem exists_parent (lawful : table.Lawful) {scope : Nat} (inner : 0 < scope)
    (opened : scope < table.scopes.length) :
    ∃ parent < scope, table.parent? scope = some parent := by
  have isOpened := List.getElem?_eq_getElem opened
  cases isChild : table.scopes[scope].parent with
  | none =>
      have := lawful.eq_zero_of_orphan isOpened isChild
      omega
  | some parent =>
      exact ⟨parent, lawful.parent_lt isOpened isChild, by simp [parent?, isOpened, isChild]⟩

theorem parent?_zero (lawful : table.Lawful) : table.parent? 0 = none := by
  cases isParent : table.parent? 0 with
  | none => rfl
  | some parent =>
      obtain ⟨holder, opened, isChild⟩ := Option.bind_eq_some_iff.mp isParent
      have := lawful.parent_lt opened isChild
      omega

theorem held?_eq_some_iff (lawful : table.Lawful) {name : String} {scope : Nat} {symbol : Symbol} :
    table.held? name scope = some symbol ↔ symbol ∈ table.symbolsOf scope ∧ symbol.name = name := by
  rw [held?_eq_find?]
  constructor
  · intro found
    exact ⟨List.mem_of_find?_eq_some found, name_of_find? found⟩
  · rintro ⟨member, named⟩
    cases found : (table.symbolsOf scope).find? (·.name = name) with
    | none =>
        have absent := List.find?_eq_none.mp found symbol member
        simp [named] at absent
    | some other =>
        have same : other.name = symbol.name := (name_of_find? found).trans named.symm
        rw [List.inj_on_of_nodup_map (lawful.nodup scope) (List.mem_of_find?_eq_some found) member
          same]

end Lawful

theorem held?_eq_none_iff {name : String} :
    table.held? name scope = none ↔ ∀ symbol ∈ table.symbolsOf scope, symbol.name ≠ name := by
  simp [held?_eq_find?]

theorem lawful_afterAll (operations : List Operation) : (afterAll operations).Lawful := by
  rw [afterAll]
  generalize isStart : Table.empty = start
  have lawful : start.Lawful := isStart ▸ lawful_empty
  clear isStart
  induction operations generalizing start with
  | nil => exact lawful
  | cons operation operations induction => exact induction _ (lawful.perform operation)

/-- An operation changes no opened scope other than the one at hand. -/
theorem getElem?_perform (lawful : table.Lawful) (operation : Operation)
    (opened : scope < table.scopes.length) (away : scope ≠ table.current) :
    (table.perform operation).2.scopes[scope]? = table.scopes[scope]? := by
  cases operation with
  | push => simp [perform, getElem?_push, Nat.ne_of_lt opened]
  | pop => simp [perform]
  | insert symbol =>
      cases inserted : table.insert symbol with
      | ok after =>
          have grown := Grows.of_insert lawful.toWellFormed inserted
          have isOpened := List.getElem?_eq_getElem opened
          simpa [perform, inserted, isOpened] using grown.elsewhere away isOpened
      | error name => simp [perform, inserted]

/-- The scopes on the way out of a scope. -/
inductive Chain (table : Table) : Nat → List Nat → Prop
  | last {scope : Nat} (orphan : table.parent? scope = none) : Chain table scope [scope]
  | step {scope parent : Nat} {outer : List Nat} (isChild : table.parent? scope = some parent)
      (rest : Chain table parent outer) : Chain table scope (scope :: outer)

theorem Chain.unique {chain chain' : List Nat} (way : table.Chain scope chain)
    (way' : table.Chain scope chain') : chain = chain' := by
  induction way generalizing chain' with
  | last orphan =>
      cases way' with
      | last _ => rfl
      | step isChild _ => simp [orphan] at isChild
  | step isChild _ induction =>
      cases way' with
      | last orphan => simp [orphan] at isChild
      | step isChild' rest' =>
          obtain rfl := Option.some.inj (isChild.symm.trans isChild')
          rw [induction rest']

theorem chain_enclosing (formed : table.WellFormed) (opened : scope < table.scopes.length) :
    table.Chain scope (table.enclosing scope) := by
  induction scope using Nat.strong_induction_on with
  | h scope induction =>
      have isOpened := List.getElem?_eq_getElem opened
      cases isChild : table.scopes[scope].parent with
      | none =>
          rw [enclosing_eq_singleton isOpened isChild]
          exact .last (by simp [parent?, isOpened, isChild])
      | some parent =>
          have inside := formed.parent_lt isOpened isChild
          rw [enclosing_eq_cons isOpened isChild inside]
          exact .step (by simp [parent?, isOpened, isChild])
            (induction parent inside (Nat.lt_trans inside opened))

theorem exists_chain (formed : table.WellFormed) (scope : Nat) :
    ∃ chain, table.Chain scope chain ∧
      ∀ name, table.lookupFrom scope name = chain.findSome? (table.held? name) := by
  by_cases opened : scope < table.scopes.length
  · refine ⟨table.enclosing scope, chain_enclosing formed opened, fun name => ?_⟩
    rw [lookupFrom_eq_map_locate, locate, List.map_findSome?]
    congr 1
    funext holder
    simp [Function.comp_def]
  · -- A scope that was never opened is a way of its own, and holds nothing.
    have missing : table.scopes[scope]? = none := List.getElem?_eq_none (Nat.le_of_not_lt opened)
    refine ⟨[scope], .last (by simp [parent?, missing]), fun name => ?_⟩
    rw [lookupFrom]
    simp [missing, held?]

end Table

/-- After any operations on a fresh table, every scope but the outermost lies in an earlier one, and
none holds a name twice. An operation changes the scope at hand alone, or nothing where it is
refused. A look-up finds the symbol in the first scope on the way out that holds the name. -/
theorem lookup_along_chain_afterAll (operations : List Table.Operation) :
    let table := Table.afterAll operations
    (table.parent? 0 = none ∧ ∀ scope, 0 < scope → scope < table.scopes.length →
        ∃ parent < scope, table.parent? scope = some parent) ∧
      table.current < table.scopes.length ∧
      (∀ scope, ((table.symbolsOf scope).map (·.name)).Nodup) ∧
      (∀ operation,
        (∀ scope < table.scopes.length, scope ≠ table.current →
          (table.perform operation).2.scopes[scope]? = table.scopes[scope]?) ∧
        ∀ name, (table.perform operation).1 = .error name →
          (table.perform operation).2 = table ∧ ∃ symbol, operation = .insert symbol ∧
            symbol.name = name ∧ name ∈ (table.symbolsOf table.current).map (·.name)) ∧
      (∀ symbol, symbol.name ∈ (table.symbolsOf table.current).map (·.name) →
        (table.perform (.insert symbol)).1 = .error symbol.name) ∧
      (table.current = 0 → (table.perform .pop).2 = table) ∧
      ∀ scope, ∃ chain, (∀ way, table.Chain scope way ↔ way = chain) ∧ ∀ name,
        (∀ symbol, table.lookupFrom scope name = some symbol ↔
          ∃ inner holder outer, chain = inner ++ holder :: outer ∧
            (symbol ∈ table.symbolsOf holder ∧ symbol.name = name) ∧
            ∀ around ∈ inner, ∀ other ∈ table.symbolsOf around, other.name ≠ name) ∧
        (table.lookupFrom scope name = none ↔
          ∀ around ∈ chain, ∀ other ∈ table.symbolsOf around, other.name ≠ name) := by
  intro table
  have lawful : table.Lawful := Table.lawful_afterAll operations
  refine ⟨⟨lawful.parent?_zero, fun scope => lawful.exists_parent⟩, lawful.current_lt, lawful.nodup,
    fun operation => ⟨fun scope => Table.getElem?_perform lawful operation, fun name refused => ?_⟩,
    fun symbol taken => ?_, fun outermost => ?_, fun scope => ?_⟩
  · cases operation with
    | push => simp [Table.perform] at refused
    | pop => simp [Table.perform] at refused
    | insert symbol =>
        cases inserted : table.insert symbol with
        | ok after => simp [Table.perform, inserted] at refused
        | error other =>
            obtain rfl : other = name := by simpa [Table.perform, inserted] using refused
            obtain ⟨rfl, taken⟩ := Table.insert_eq_error_iff.mp inserted
            exact ⟨by simp [Table.perform, inserted], symbol, rfl, rfl, taken⟩
  · rw [Table.perform, Table.insert_eq_error_iff.mpr ⟨rfl, taken⟩]
  · rw [Table.perform, Table.pop, outermost, lawful.parent?_zero]
  · obtain ⟨chain, way, searched⟩ := Table.exists_chain lawful.toWellFormed scope
    have onlyWay (other : List Nat) : table.Chain scope other ↔ other = chain :=
      ⟨fun isWay => isWay.unique way, fun same => same ▸ way⟩
    refine ⟨chain, onlyWay, fun name => ⟨fun symbol => ?_, ?_⟩⟩
    · rw [searched, List.findSome?_eq_some_iff]
      simp only [lawful.held?_eq_some_iff, Table.held?_eq_none_iff]
    · rw [searched, List.findSome?_eq_none_iff]
      simp only [Table.held?_eq_none_iff]

end Offside
