import Mathlib.Data.List.Nodup
import Offside.Proofs.Scope.CheckVisits

/-!
# The scopes that a check opens

A check numbers the scopes that it opens in order, without gaps, and opens one scope for each block:
no two of them are opened at the same place of the tree.
-/

namespace Offside

namespace Check

open Outcome

def opened (visits : List Visit) : List (Site × Nat) :=
  visits.filterMap fun
    | .opens site scope => some (site, scope)
    | .reaches _ _ => none

/-- The opened scopes are numbered in order, from a number up to another. -/
structure Counts (first : Nat) (visits : List Visit) (last : Nat) : Prop where
  le : first ≤ last
  scopes_eq : (opened visits).map (·.2) = List.range' first (last - first)

namespace Counts

theorem nil (number : Nat) : Counts number [] number := ⟨Nat.le_refl number, by simp [opened]⟩

theorem eq_of_nil {first last : Nat} (counts : Counts first [] last) : last = first := by
  have ordered := counts.le
  have none : last - first = 0 := by simpa [opened] using congrArg List.length counts.scopes_eq.symm
  omega

theorem append {first middle last : Nat} {visits visits' : List Visit}
    (left : Counts first visits middle) (right : Counts middle visits' last) :
    Counts first (visits ++ visits') last := by
  refine ⟨Nat.le_trans left.le right.le, ?_⟩
  have ordered := left.le
  have ordered' := right.le
  have split : last - first = (middle - first) + (last - middle) := by omega
  have reached : middle = first + (middle - first) := by omega
  calc (opened (visits ++ visits')).map (·.2)
      = (opened visits).map (·.2) ++ (opened visits').map (·.2) := by simp [opened]
    _ = List.range' first (middle - first) ++
          List.range' (first + (middle - first)) (last - middle) := by
        rw [left.scopes_eq, right.scopes_eq, ← reached]
    _ = List.range' first (last - first) := by rw [split, List.range'_append_1]

theorem opens {first last : Nat} {visits : List Visit} (site : Site)
    (rest : Counts (first + 1) visits last) :
    Counts first (.opens site first :: visits) last := by
  have ordered := rest.le
  refine ⟨by omega, ?_⟩
  have split : last - first = (last - (first + 1)) + 1 := by omega
  rw [split, List.range'_succ, ← rest.scopes_eq]
  simp [opened]

theorem reaches {first last : Nat} {visits : List Visit} (site : Site) (moment : Moment)
    (rest : Counts first visits last) : Counts first (.reaches site moment :: visits) last :=
  ⟨rest.le, rest.scopes_eq⟩

end Counts

theorem Runs.counts {names : List String} {table after : Table} {visits : List Visit}
    (runs : Runs names table visits after) :
    Counts table.scopes.length visits after.scopes.length := by
  induction runs with
  | refl => exact .nil _
  | declares declared =>
      rw [length_of_declare declared]
      exact .nil _
  | reaches _ _ _ induction => exact .reaches _ _ induction
  | block _ _ induction =>
      rw [Table.length_push] at induction
      rw [Table.pop_scopes]
      exact .opens _ induction
  | append _ _ first second => exact first.append second

/-- The scopes opened in a unit are all but the outermost one, in order. -/
theorem counts_visits {kind : UnitKind} {fragments : List Fragment} {body : List Statement}
    {table : Table} (checked : checkUnit kind fragments body = .ok table) :
    Counts 1 (visits kind fragments body) table.scopes.length := by
  obtain ⟨start, isStart, runs⟩ := runs_unit checked
  have single : start.scopes.length = 1 := (fills_of_declareAll isStart).2
  exact single ▸ runs.counts

/-- The opened blocks stand at different places inside a site, from a position on. -/
structure Spreads (site : Site) (first : Nat) (visits : List Visit) : Prop where
  nodup : ((opened visits).map (·.1)).Nodup
  inside : ∀ place ∈ (opened visits).map (·.1), ∃ position, first ≤ position ∧
    position :: site <:+ place

namespace Spreads

variable {site : Site} {position scope : Nat} {visits visits' : List Visit}

theorem nil (site : Site) (position : Nat) : Spreads site position [] :=
  ⟨by simp [opened], by simp [opened]⟩

theorem reaches {place : Site} {moment : Moment} (rest : Spreads site position visits) :
    Spreads site position (.reaches place moment :: visits) :=
  ⟨rest.nodup, rest.inside⟩

theorem given {ε α : Type} {outcome : Except ε α} {next : α → List Visit}
    (rest : ∀ value, Spreads site position (next value)) :
    Spreads site position (Outcome.given outcome next) := by
  cases outcome with
  | ok value => exact rest value
  | error cause => exact nil site position

theorem next (left : Spreads (position :: site) 0 visits)
    (right : Spreads site (position + 1) visits') :
    Spreads site position (visits ++ visits') := by
  have split : (opened (visits ++ visits')).map (·.1) =
      (opened visits).map (·.1) ++ (opened visits').map (·.1) := by simp [opened]
  constructor
  · rw [split]
    refine List.nodup_append.mpr ⟨left.nodup, right.nodup, ?_⟩
    rintro place isLeft _ isRight rfl
    obtain ⟨inner, _, leftSuffix⟩ := left.inside place isLeft
    obtain ⟨later, isLater, rightSuffix⟩ := right.inside place isRight
    have same := (List.suffix_of_suffix_length_le ((List.suffix_cons _ _).trans leftSuffix)
      rightSuffix (by simp)).eq_of_length (by simp)
    have : position = later := (List.cons.inj same).1
    omega
  · intro place member
    rw [split, List.mem_append] at member
    rcases member with isLeft | isRight
    · obtain ⟨inner, _, leftSuffix⟩ := left.inside place isLeft
      exact ⟨position, Nat.le_refl position, (List.suffix_cons _ _).trans leftSuffix⟩
    · obtain ⟨later, isLater, rightSuffix⟩ := right.inside place isRight
      exact ⟨later, by omega, rightSuffix⟩

theorem block (left : Spreads (position :: site) 0 visits)
    (right : Spreads site (position + 1) visits') :
    Spreads site position (.opens (position :: site) scope :: (visits ++ visits')) := by
  have rest := left.next right
  have split : (opened (.opens (position :: site) scope :: (visits ++ visits'))).map (·.1) =
      (position :: site) :: (opened (visits ++ visits')).map (·.1) := by simp [opened]
  constructor
  · rw [split]
    refine List.nodup_cons.mpr ⟨?_, rest.nodup⟩
    intro member
    rw [opened, List.filterMap_append, List.map_append, List.mem_append] at member
    rcases member with isInside | isLater
    · obtain ⟨inner, _, suffix⟩ := left.inside _ isInside
      have shorter := suffix.length_le
      simp only [List.length_cons] at shorter
      omega
    · obtain ⟨later, isLater, suffix⟩ := right.inside _ isLater
      have : later = position := (List.cons.inj (suffix.eq_of_length (by simp))).1
      omega
  · rw [split]
    intro place member
    rcases List.mem_cons.mp member with rfl | member
    · exact ⟨position, Nat.le_refl position, List.suffix_rfl⟩
    · exact rest.inside place member

/-- A block that nothing stands after. -/
theorem lastBlock (left : Spreads (position :: site) 0 visits) :
    Spreads site position (.opens (position :: site) scope :: visits) := by
  simpa using left.block (nil site (position + 1))

theorem along {σ ε α : Type} {step : σ → α → Except ε σ} {visits : Nat → σ → α → List Visit}
    (each : ∀ position state item, Spreads (position :: site) 0 (visits position state item)) :
    (items : List α) → (position : Nat) → (state : σ) →
      Spreads site position (Outcome.along step visits position state items)
  | [], position, _ => nil site position
  | item :: items, position, state =>
      (each position state item).next (given fun next => along each items (position + 1) next)

end Spreads

mutual

/-- The blocks of a statement stand at different places inside it. -/
theorem spreads_visitsForm (around : Surroundings) (pending : List (List String)) (site : Site)
    (table : Table) : (form : Form) → Spreads site 0 (visitsForm around pending site form table)
  | .branch _ body orelse =>
      .block (spreads_visitsBody around pending (0 :: site) 0 table.push body)
        (.given fun _ => .lastBlock (spreads_visitsBody around pending (1 :: site) 0 _ orelse))
  | .whileLoop _ body _ =>
      .given fun inside => .lastBlock (spreads_visitsBody inside pending (0 :: site) 0 _ body)
  | .forLoop _ _ body _ =>
      .given fun _ => .given fun inside => .lastBlock
        (.given fun _ => spreads_visitsBody inside pending (0 :: site) 0 _ body)
  | .select _ cases =>
      .given fun ty => spreads_visitsCases around pending site 0 ty table cases
  | .function _ | .classDef _ | .assign _ _ | .declare _ _ _ | .jump _ _ | .ret _ | .expr _ | .pass
  | .import_ _ => .nil site 0

theorem spreads_visitsBody (around : Surroundings) (pending : List (List String)) (site : Site)
    (position : Nat) (table : Table) :
    (body : List Statement) →
      Spreads site position (visitsBody around pending site position body table)
  | [] => .nil site position
  | ⟨_, form⟩ :: others =>
      .reaches (.next (spreads_visitsForm around _ (position :: site) table form)
        (.given fun next => spreads_visitsBody around pending site (position + 1) next others))

theorem spreads_visitsCases (around : Surroundings) (pending : List (List String)) (site : Site)
    (position : Nat) (subject : Ty) (table : Table) :
    (cases : List Case) →
      Spreads site position (visitsCases around pending site position subject cases table)
  | [] => .nil site position
  | ⟨_, body, _⟩ :: others =>
      .reaches (.block (spreads_visitsBody around pending (position :: site) 0 table.push body)
        (.given fun next =>
          spreads_visitsCases around pending site (position + 1) subject next.pop others))

end

theorem spreads_visitsFunction (owner : Option String) (site : Site) (line : Nat)
    (decl : FunctionDef) (table : Table) :
    Spreads site 0 (visitsFunction owner site line decl table) :=
  .lastBlock (.given fun (around, inside) =>
    spreads_visitsBody around [[]] (0 :: site) 0 inside decl.body)

theorem spreads_visits (kind : UnitKind) (fragments : List Fragment) (body : List Statement) :
    Spreads [] 0 (visits kind fragments body) := by
  refine .given fun table => .along (fun position table statement => ?_) body 0 table
  rw [visitsTop]
  split
  · exact spreads_visitsFunction none [position] _ _ table
  · split
    · refine .along (fun inner table statement => ?_) _ 0 table
      rw [visitsMember]
      split
      · exact spreads_visitsFunction _ _ _ _ table
      · exact .nil _ 0
    · exact .nil _ 0
  · exact .nil _ 0

end Check

end Offside
