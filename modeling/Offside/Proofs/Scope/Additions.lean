import Offside.Proofs.Scope.CheckVisits

/-!
# What bodies add to tables

The statements of functions declare values only. So whatever else a finished table holds was held
already when a statement was reached, and is found under the same names.
-/

namespace Offside

namespace Table

/-- A table, and a later one that holds nothing more than values. -/
def Gains (before after : Table) : Prop :=
  ∀ ⦃name : String⦄ ⦃scope : Nat⦄ ⦃symbol : Symbol⦄, after.held? name scope = some symbol →
    before.held? name scope = some symbol ∨ ∃ ty, symbol.kind = .value ty

namespace Gains

variable {before middle after : Table}

theorem refl (table : Table) : Gains table table := fun _ _ _ found => .inl found

theorem trans (left : Gains before middle) (right : Gains middle after) : Gains before after := by
  intro name scope symbol found
  rcases right found with earlier | isValue
  · exact left earlier
  · exact .inr isValue

/-- A scope that is opened is empty. -/
theorem push (table : Table) : Gains table table.push := by
  intro name scope symbol found
  left
  rw [held?, getElem?_push] at found
  split at found
  · simp [Scope.find?] at found
  · exact found

theorem pop (table : Table) : Gains table table.pop := by
  intro name scope symbol found
  rw [held?, pop_scopes] at found
  exact .inl found

theorem of_insert {symbol : Symbol} {ty : Ty} (isValue : symbol.kind = .value ty)
    (inserted : before.insert symbol = .ok after) : Gains before after := by
  rw [Table.insert] at inserted
  split at inserted
  · simp at inserted
  · obtain rfl := Except.ok.inj inserted
    intro name scope found isFound
    obtain ⟨holder, opened, isHeld⟩ := Option.bind_eq_some_iff.mp isFound
    rw [List.getElem?_modify] at opened
    obtain ⟨original, isOriginal, rfl⟩ := Option.map_eq_some_iff.mp opened
    by_cases here : before.current = scope
    · rw [if_pos here, Scope.find?, List.find?_append, Option.or_eq_some_iff] at isHeld
      rcases isHeld with earlier | ⟨_, isNew⟩
      · exact .inl (by simp [held?, isOriginal, Scope.find?, earlier])
      · obtain rfl := List.mem_singleton.mp (List.mem_of_find?_eq_some isNew)
        exact .inr ⟨ty, isValue⟩
    · rw [if_neg here] at isHeld
      exact .inl (by simp [held?, isOriginal, isHeld])

end Gains

theorem lookupFrom_eq_findSome? (table : Table) (scope : Nat) (name : String) :
    table.lookupFrom scope name = (table.enclosing scope).findSome? (table.held? name) := by
  rw [lookupFrom_eq_map_locate, locate, List.map_findSome?]
  congr 1
  funext holder
  cases held : table.held? name holder <;> simp [held]

theorem findSome?_held?_of_gains {pending : List (List String)} {table final : Table}
    {scopes : List Nat} {name : String} {symbol : Symbol}
    (chain : List.Forall₂ (Continues table final) scopes pending) (gained : Gains table final)
    (noValue : ∀ ty, symbol.kind ≠ .value ty)
    (found : scopes.findSome? (final.held? name) = some symbol) :
    scopes.findSome? (table.held? name) = some symbol := by
  induction chain with
  | nil => simp at found
  | @cons scope later scopes pending continues _ induction =>
      obtain ⟨stays, _⟩ := held?_of_continues continues name
      rw [List.findSome?_cons] at found ⊢
      cases now : table.held? name scope with
      | some held =>
          rw [stays held now] at found
          exact found
      | none =>
          cases finally' : final.held? name scope with
          | none =>
              rw [finally'] at found
              exact induction found
          | some held =>
              rw [finally'] at found
              obtain rfl := Option.some.inj found
              rcases gained finally' with earlier | ⟨ty, isValue⟩
              · rw [now] at earlier
                contradiction
              · exact absurd isValue (noValue ty)

/-- What is no value in a finished table was the same while values were added. -/
theorem lookup_eq_of_gains {pending : List (List String)} {table final : Table} {name : String}
    {symbol : Symbol} (formed : table.WellFormed) (rest : Completes pending table final)
    (gained : Gains table final) (noValue : ∀ ty, symbol.kind ≠ .value ty)
    (found : final.lookupFrom table.current name = some symbol) :
    table.lookup name = some symbol := by
  rw [lookupFrom_eq_findSome?, rest.enclosing_eq formed.current_lt] at found
  rw [lookup, lookupFrom_eq_findSome?]
  exact findSome?_held?_of_gains rest.chain gained noValue found

end Table

namespace Check

open Outcome
open Table (Gains)

variable {table after : Table}

theorem gains_of_declare {symbol : Symbol} {ty : Ty} (isValue : symbol.kind = .value ty)
    (declared : declare table symbol = .ok after) : Gains table after := by
  simp only [declare, error_ite_eq_ok, mapError_eq_ok] at declared
  exact .of_insert isValue declared.2

theorem Runs.gains {names : List String} {visits : List Visit}
    (runs : Runs names table visits after) : Gains table after := by
  induction runs with
  | refl => exact .refl _
  | declares declared => exact gains_of_declare rfl declared
  | reaches _ _ _ induction => exact induction
  | block _ _ induction => exact (Gains.push _).trans (induction.trans (.pop _))
  | append _ _ first second => exact first.trans second

theorem Runs.gains_of_reached {names : List String} {visits : List Visit} {site : Site}
    {moment : Moment} (runs : Runs names table visits after)
    (reached : .reaches site moment ∈ visits) : Gains moment.table after := by
  induction runs with
  | refl => cases reached
  | declares => cases reached
  | reaches _ _ inside induction =>
      rcases List.mem_cons.mp reached with same | later
      · obtain ⟨_, rfl⟩ := Visit.reaches.inj same
        exact inside.gains
      · exact induction later
  | block _ _ induction => exact (induction (by simpa using reached)).trans (.pop _)
  | append _ right first second =>
      rcases List.mem_append.mp reached with earlier | later
      · exact (first earlier).trans right.gains
      · exact second later

theorem gains_of_reached {kind : UnitKind} {fragments : List Fragment} {body : List Statement}
    {site : Site} {moment : Moment} (checked : checkUnit kind fragments body = .ok table)
    (reached : .reaches site moment ∈ visits kind fragments body) : Gains moment.table table := by
  obtain ⟨start, _, runs⟩ := runs_unit checked
  exact runs.gains_of_reached reached

/-- What is no value stands at the top level. -/
theorem mem_globals_of_lookupFrom {kind : UnitKind} {fragments : List Fragment}
    {body : List Statement} (checked : checkUnit kind fragments body = .ok table) {scope : Nat}
    {name : String} {symbol : Symbol} (found : table.lookupFrom scope name = some symbol)
    (noValue : ∀ ty, symbol.kind ≠ .value ty) : symbol ∈ table.globals := by
  obtain ⟨start, isStart, runs⟩ := runs_unit checked
  obtain ⟨_, single⟩ := fills_of_declareAll isStart
  rw [Table.lookupFrom_eq_findSome?] at found
  obtain ⟨holder, _, held⟩ := List.exists_of_findSome?_eq_some found
  rcases runs.gains held with earlier | ⟨ty, isValue⟩
  · obtain ⟨opened, isOpened, _⟩ := Option.bind_eq_some_iff.mp earlier
    have bound := (List.getElem?_eq_some_iff.mp isOpened).1
    rw [single] at bound
    obtain rfl := Nat.lt_one_iff.mp bound
    rw [← Table.global?_eq_held?] at held
    exact List.mem_of_find?_eq_some held
  · exact absurd isValue (noValue ty)

end Check

end Offside
