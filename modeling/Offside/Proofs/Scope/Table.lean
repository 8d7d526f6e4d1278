import Mathlib.Data.List.Basic
import Offside.Symbol.Table

/-!
# Scopes and look-up

The scopes around a scope, from the inside out, and the one among them that holds a name. Scopes are
numbered in the order of opening, so in a well-formed table every scope lies in one with a smaller
number.
-/

namespace Offside

namespace Table

theorem name_of_find? {symbols : List Symbol} {name : String} {symbol : Symbol}
    (found : symbols.find? (·.name = name) = some symbol) : symbol.name = name := by
  simpa using List.find?_some found

variable {scope : Nat} {table : Table}

theorem name_of_lookupFrom {name : String} {symbol : Symbol}
    (found : table.lookupFrom scope name = some symbol) : symbol.name = name := by
  fun_induction table.lookupFrom scope name with
  | case1 => simp at found
  | case2 scope holder _ inner held =>
      obtain rfl : inner = symbol := by simpa using found
      exact name_of_find? held
  | case3 => simp at found
  | case4 scope holder _ _ parent _ _ induction => exact induction found
  | case5 => simp at found

def enclosing (table : Table) (scope : Nat) : List Nat :=
  match table.scopes[scope]? with
  | none => []
  | some found =>
      match found.parent with
      | none => [scope]
      | some parent => if parent < scope then scope :: table.enclosing parent else [scope]
termination_by scope

def held? (table : Table) (name : String) (scope : Nat) : Option Symbol :=
  table.scopes[scope]?.bind (·.find? name)

/-- The scope that holds a name, and its symbol. -/
def locate (table : Table) (scope : Nat) (name : String) : Option (Nat × Symbol) :=
  (table.enclosing scope).findSome? fun holder => (table.held? name holder).map (holder, ·)

theorem global?_eq_held? (table : Table) (name : String) :
    table.global? name = table.held? name 0 := by
  rw [global?, globals, held?]
  cases table.scopes[0]? <;> rfl

theorem enclosing_eq_cons {parent : Nat} {holder : Scope}
    (opened : table.scopes[scope]? = some holder) (isChild : holder.parent = some parent)
    (inside : parent < scope) : table.enclosing scope = scope :: table.enclosing parent := by
  rw [enclosing]
  simp [opened, isChild, inside]

theorem enclosing_eq_singleton {holder : Scope} (opened : table.scopes[scope]? = some holder)
    (orphan : holder.parent = none) : table.enclosing scope = [scope] := by
  rw [enclosing]
  simp [opened, orphan]

theorem opened_of_mem_enclosing {around : Nat} (member : around ∈ table.enclosing scope) :
    around ≤ scope ∧ table.scopes[around]?.isSome := by
  fun_induction table.enclosing scope with
  | case1 => simp at member
  | case2 scope holder opened orphan =>
      obtain rfl : around = scope := by simpa using member
      simp [opened]
  | case3 scope holder opened parent isChild inside induction =>
      rcases List.mem_cons.mp member with rfl | outer
      · simp [opened]
      · obtain ⟨earlier, isSome⟩ := induction outer
        exact ⟨by omega, isSome⟩
  | case4 scope holder opened parent isChild outside =>
      obtain rfl : around = scope := by simpa using member
      simp [opened]

theorem exists_enclosing_eq_cons {holder : Scope} (opened : table.scopes[scope]? = some holder) :
    ∃ outer, table.enclosing scope = scope :: outer ∧ ∀ around ∈ outer, around < scope := by
  rw [enclosing]
  cases isChild : holder.parent with
  | none => exact ⟨[], by simp [opened, isChild]⟩
  | some parent =>
      by_cases inside : parent < scope
      · refine ⟨table.enclosing parent, by simp [opened, isChild, inside], ?_⟩
        intro around member
        exact Nat.lt_of_le_of_lt (opened_of_mem_enclosing member).1 inside
      · exact ⟨[], by simp [opened, isChild, inside]⟩

theorem lookupFrom_eq_map_locate (table : Table) (scope : Nat) (name : String) :
    table.lookupFrom scope name = (table.locate scope name).map (·.2) := by
  fun_induction table.lookupFrom scope name with
  | case1 scope missing => simp [locate, enclosing, missing]
  | case2 scope holder opened symbol held =>
      obtain ⟨outer, chain, _⟩ := exists_enclosing_eq_cons opened
      rw [locate, chain]
      simp [held?, opened, held]
  | case3 scope holder opened absent orphan =>
      rw [locate, enclosing_eq_singleton opened orphan]
      simp [held?, opened, absent]
  | case4 scope holder opened absent parent isChild inside induction =>
      rw [induction, locate, locate, enclosing_eq_cons opened isChild inside]
      simp [held?, opened, absent]
  | case5 scope holder opened absent parent isChild outside =>
      rw [locate, enclosing]
      simp [opened, held?, absent, isChild, outside]

theorem enclosing_congr {before after : Table} (same : ∀ around ≤ scope,
      after.scopes[around]?.map (·.parent) = before.scopes[around]?.map (·.parent)) :
    after.enclosing scope = before.enclosing scope := by
  fun_induction before.enclosing scope with
  | case1 scope missing =>
      have missing' : after.scopes[scope]? = none := by
        simpa [missing] using same scope (Nat.le_refl scope)
      rw [enclosing, missing']
  | case2 scope holder opened orphan =>
      obtain ⟨holder', opened', sameParent⟩ :
          ∃ holder', after.scopes[scope]? = some holder' ∧ holder'.parent = holder.parent := by
        simpa [opened] using same scope (Nat.le_refl scope)
      exact enclosing_eq_singleton opened' (sameParent.trans orphan)
  | case3 scope holder opened parent isChild inside induction =>
      obtain ⟨holder', opened', sameParent⟩ :
          ∃ holder', after.scopes[scope]? = some holder' ∧ holder'.parent = holder.parent := by
        simpa [opened] using same scope (Nat.le_refl scope)
      rw [enclosing_eq_cons opened' (sameParent.trans isChild) inside,
        induction fun around earlier => same around (by omega)]
  | case4 scope holder opened parent isChild outside =>
      obtain ⟨holder', opened', sameParent⟩ :
          ∃ holder', after.scopes[scope]? = some holder' ∧ holder'.parent = holder.parent := by
        simpa [opened] using same scope (Nat.le_refl scope)
      rw [enclosing, opened']
      simp [sameParent, isChild, outside]

/-- Every scope lies in an earlier one, and the one at hand was opened. -/
structure WellFormed (table : Table) : Prop where
  current_lt : table.current < table.scopes.length
  parent_lt : ∀ {scope parent : Nat} {holder : Scope}, table.scopes[scope]? = some holder →
    holder.parent = some parent → parent < scope

theorem wellFormed_empty : empty.WellFormed where
  current_lt := by decide
  parent_lt := by
    intro scope parent holder opened isChild
    cases scope with
    | zero =>
        obtain rfl : (⟨none, []⟩ : Scope) = holder := by simpa [empty] using opened
        simp at isChild
    | succ scope => simp [empty] at opened

theorem getElem?_push (table : Table) (scope : Nat) :
    table.push.scopes[scope]? =
      if scope = table.scopes.length then some ⟨some table.current, []⟩
      else table.scopes[scope]? := by
  rw [push, List.getElem?_append]
  rcases Nat.lt_trichotomy scope table.scopes.length with earlier | rfl | later
  · simp [earlier, Nat.ne_of_lt earlier]
  · simp
  · simp [Nat.not_lt.mpr (Nat.le_of_lt later), Nat.ne_of_gt later]
    omega

@[simp]
theorem push_current (table : Table) : table.push.current = table.scopes.length := rfl

@[simp]
theorem length_push (table : Table) : table.push.scopes.length = table.scopes.length + 1 := by
  simp [push]

namespace WellFormed

variable {table : Table}

theorem push (formed : table.WellFormed) : table.push.WellFormed where
  current_lt := by simp
  parent_lt := by
    intro scope parent holder opened isChild
    rw [getElem?_push] at opened
    split at opened
    · obtain rfl : (⟨some table.current, []⟩ : Scope) = holder := by simpa using opened
      obtain rfl : table.current = parent := by simpa using isChild
      have := formed.current_lt
      omega
    · exact formed.parent_lt opened isChild

theorem push_current_ne_zero (formed : table.WellFormed) : table.push.current ≠ 0 :=
  Nat.ne_of_gt (Nat.zero_lt_of_lt formed.current_lt)

/-- The scope at hand. -/
theorem exists_current (formed : table.WellFormed) :
    ∃ holder, table.scopes[table.current]? = some holder :=
  ⟨_, List.getElem?_eq_getElem formed.current_lt⟩

end WellFormed

end Table

end Offside
