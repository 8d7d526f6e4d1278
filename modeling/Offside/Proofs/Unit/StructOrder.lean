import Mathlib.Logic.Relation
import Offside.Proofs.Unit.Containment

/-!
# Structs behind what they contain

The structs of a unit form a graph: one points to another if it has a field of its type, or of an
array of it. Putting them in order walks this graph depth first. The finished structs are closed
under containment at every moment, and the names that are not free belong to structs on the way to
the one that is being added; so the walk either finishes or has come around a cycle.
-/

namespace Offside

namespace Lower

open Outcome Relation

/-- Whether values of a type are those of a declared type, or arrays of them. -/
inductive Holds (name : String) : Ty → Prop
  | named : Holds name (.named name)
  | array {item : Ty} {size : Nat} : Holds name item → Holds name (.array item size)

theorem contained?_eq_some_iff {ty : Ty} {name : String} :
    contained? ty = some name ↔ Holds name ty := by
  constructor
  · intro found
    fun_induction contained? ty with
    | case1 other =>
        obtain rfl := Option.some.inj found
        exact .named
    | case2 item size induction => exact .array (induction found)
    | case3 => exact nomatch found
  · intro holds
    induction holds with
    | named => rfl
    | array _ induction => exact induction

/-- Whether one of some structs contains another of them by value. -/
structure Contains (structs : List Symbol) (whole part : Symbol) : Prop where
  whole_mem : whole ∈ structs
  part_mem : part ∈ structs
  holds : ∃ field ∈ fieldsOf whole, Holds part.name field.ty

/-- Whether some of the structs contain each other in a circle. -/
def Circular (structs : List Symbol) : Prop := ∃ symbol, TransGen (Contains structs) symbol symbol

/-- Whether each struct of a list comes after all that it contains. -/
def Settled (structs list : List Symbol) : Prop :=
  ∀ front symbol back, list = front ++ symbol :: back →
    ∀ part, Contains structs symbol part → part ∈ front

section

variable {structs : List Symbol} {free : List String} {finished after : List Symbol}
  {symbol part : Symbol}

theorem mem_containedIn_iff (distinct : (structs.map (·.name)).Nodup) (isGiven : symbol ∈ structs) :
    part ∈ containedIn structs symbol ↔ Contains structs symbol part := by
  constructor
  · intro member
    obtain ⟨field, isField, found⟩ := List.mem_filterMap.mp member
    cases isNamed : contained? field.ty with
    | none => simp [isNamed] at found
    | some name =>
        rw [isNamed] at found
        obtain rfl : part.name = name := by simpa using List.find?_some found
        exact ⟨isGiven, mem_of_mem_containedIn member, field, isField,
          contained?_eq_some_iff.mp isNamed⟩
  · rintro ⟨_, isPart, field, isField, holds⟩
    refine List.mem_filterMap.mpr ⟨field, isField, ?_⟩
    rw [contained?_eq_some_iff.mpr holds]
    cases found : structs.find? (·.name = part.name) with
    | none => simpa using List.find?_eq_none.mp found part isPart
    | some other =>
        have sameName : other.name = part.name := by simpa using List.find?_some found
        have same : other = part :=
          List.inj_on_of_nodup_map distinct (List.mem_of_find?_eq_some found) isPart sameName
        exact found.trans (congrArg some same)

theorem Settled.concat (settled : Settled structs finished)
    (parts : ∀ part, Contains structs symbol part → part ∈ finished) :
    Settled structs (finished ++ [symbol]) := by
  intro front other back isSplit part contains
  rcases List.eq_nil_or_concat back with rfl | ⟨back, last, rfl⟩
  · obtain ⟨rfl, isLast⟩ := List.append_inj' isSplit rfl
    obtain rfl : symbol = other := by simpa using isLast
    exact parts part contains
  · have regrouped : finished ++ [symbol] = (front ++ other :: back) ++ [last] := by
      simpa using isSplit
    obtain ⟨isFinished, _⟩ := List.append_inj' regrouped rfl
    exact settled front other back isFinished part contains

theorem Adds.subset (adds : Adds structs free finished after) (areGiven : finished ⊆ structs) :
    after ⊆ structs := by
  intro symbol member
  rcases adds.new_of_mem symbol member with earlier | ⟨isGiven, _⟩
  · exact areGiven earlier
  · exact isGiven

/-- Adding a struct keeps the finished ones settled. -/
theorem settled_addStruct (distinct : (structs.map (·.name)).Nodup)
    (added : addStruct structs free finished symbol = .ok after) (areFree : free.Nodup)
    (isGiven : symbol ∈ structs) (areGiven : finished ⊆ structs)
    (settled : Settled structs finished) : Settled structs after := by
  fun_induction addStruct structs free finished symbol generalizing after with
  | case1 free finished symbol isFinished =>
      obtain rfl := Except.ok.inj added
      exact settled
  | case2 free finished symbol unfinished isFree _ induction =>
      simp only [bind_eq_ok, pure_eq_ok] at added
      obtain ⟨inner, folded, rfl⟩ := added
      have partsFree : (free.erase symbol.name).Nodup := areFree.erase _
      have step : inner ⊆ structs ∧ Settled structs inner := by
        refine foldlM_preserves_of_mem (fun list => list ⊆ structs ∧ Settled structs list) _ ?_
          ⟨areGiven, settled⟩ folded
        rintro state part next isPart ⟨areGiven, settled⟩ isNext
        have given := mem_of_mem_containedIn isPart
        exact ⟨(adds_addStruct isNext partsFree given).1.subset areGiven,
          induction state part isNext partsFree given areGiven settled⟩
      have named := (adds_of_foldlM (fun part isPart {_ _} isNext =>
        adds_addStruct isNext partsFree (mem_of_mem_containedIn isPart)) folded).2
      refine step.2.concat fun part contains => ?_
      obtain ⟨other, isOther, sameName⟩ :=
        List.mem_map.mp (named part ((mem_containedIn_iff distinct isGiven).mpr contains))
      obtain rfl := List.inj_on_of_nodup_map distinct (step.1 isOther) contains.part_mem sameName
      exact isOther
  | case3 => simp at added

theorem Settled.mem_front {list front back : List Symbol} (settled : Settled structs list)
    (isSplit : list = front ++ symbol :: back) (contains : TransGen (Contains structs) symbol part) :
    part ∈ front := by
  induction contains with
  | single step => exact settled front symbol back isSplit _ step
  | @tail middle part _ step induction =>
      obtain ⟨before, between, rfl⟩ := List.append_of_mem induction
      have earlier := settled before middle (between ++ symbol :: back) (by simpa using isSplit) part
        step
      exact List.mem_append_left _ earlier

theorem Settled.not_circular {list : List Symbol} (settled : Settled structs list)
    (isPerm : list.Perm structs) (distinct : structs.Nodup) : ¬ Circular structs := by
  rintro ⟨symbol, circle⟩
  have isGiven : symbol ∈ structs := by
    obtain ⟨_, step, _⟩ := TransGen.head'_iff.mp circle
    exact step.whole_mem
  obtain ⟨front, back, rfl⟩ := List.append_of_mem (isPerm.mem_iff.mpr isGiven)
  have again := settled.mem_front rfl circle
  have once : (front ++ symbol :: back).Nodup := isPerm.nodup_iff.mpr distinct
  exact (List.nodup_append.mp once).2.2 symbol again symbol List.mem_cons_self rfl

theorem circle_of_addStruct (distinct : (structs.map (·.name)).Nodup) {fault : Fault}
    (failed : addStruct structs free finished symbol = .error fault) (isGiven : symbol ∈ structs)
    (onTheWay : ∀ other ∈ structs, other.name ∉ free → TransGen (Contains structs) other symbol) :
    ∃ other, fault = .lowering (.containsItself other.name) ∧
      TransGen (Contains structs) other other := by
  fun_induction addStruct structs free finished symbol with
  | case1 => cases failed
  | case2 free finished symbol unfinished isFree _ induction =>
      cases folded : (containedIn structs symbol).foldlM
          (fun finished part => addStruct structs (free.erase symbol.name) finished part)
          finished with
      | ok inner =>
          rw [folded] at failed
          cases failed
      | error other =>
          rw [folded] at failed
          obtain rfl := Except.error.inj failed
          obtain ⟨part, isPart, before, failedPart⟩ := exists_error_of_foldlM folded
          have contains := (mem_containedIn_iff distinct isGiven).mp isPart
          refine induction before part failedPart contains.part_mem fun ancestor => ?_
          intro isAncestor taken
          by_cases sameName : ancestor.name = symbol.name
          · obtain rfl := List.inj_on_of_nodup_map distinct isAncestor isGiven sameName
            exact .single contains
          · have taken : ancestor.name ∉ free :=
              fun isFree => taken ((List.mem_erase_of_ne sameName).mpr isFree)
            exact (onTheWay ancestor isAncestor taken).tail contains
  | case3 free finished symbol unfinished isTaken =>
      obtain rfl := Except.error.inj failed
      exact ⟨symbol, rfl, onTheWay symbol isGiven isTaken⟩

theorem circle_of_orderStructs (distinct : (structs.map (·.name)).Nodup) {fault : Fault}
    (failed : orderStructs structs = .error fault) :
    ∃ symbol, fault = .lowering (.containsItself symbol.name) ∧
      TransGen (Contains structs) symbol symbol := by
  obtain ⟨symbol, isGiven, finished, failedHere⟩ := exists_error_of_foldlM failed
  refine circle_of_addStruct distinct failedHere isGiven fun other isOther taken => ?_
  exact absurd (List.mem_map_of_mem isOther) taken

theorem settled_of_orderStructs (distinct : (structs.map (·.name)).Nodup) {ordered : List Symbol}
    (isOrdered : orderStructs structs = .ok ordered) : Settled structs ordered := by
  have start : [] ⊆ structs ∧ Settled structs [] := ⟨List.nil_subset _, by simp [Settled]⟩
  refine (foldlM_preserves_of_mem (fun list => list ⊆ structs ∧ Settled structs list) _ ?_ start
    isOrdered).2
  rintro state symbol next isGiven ⟨areGiven, settled⟩ isNext
  exact ⟨(adds_addStruct isNext distinct isGiven).1.subset areGiven,
    settled_addStruct distinct isNext distinct isGiven areGiven settled⟩

/-- Structs with different names cannot be put in order exactly if some contain each other in a
circle, one of which is named. Otherwise the order lists every struct once, after all that it
contains. -/
theorem orderStructs_fails_iff_circular (distinct : (structs.map (·.name)).Nodup) :
    ((∃ fault, orderStructs structs = .error fault) ↔ Circular structs) ∧
    (∀ fault, orderStructs structs = .error fault →
      ∃ symbol, fault = .lowering (.containsItself symbol.name) ∧
        TransGen (Contains structs) symbol symbol) ∧
    ∀ ordered, orderStructs structs = .ok ordered →
      ordered.Perm structs ∧ Settled structs ordered := by
  refine ⟨⟨?_, ?_⟩, fun fault => circle_of_orderStructs distinct, fun ordered isOrdered =>
    ⟨perm_of_orderStructs distinct isOrdered, settled_of_orderStructs distinct isOrdered⟩⟩
  · rintro ⟨fault, failed⟩
    obtain ⟨symbol, _, circle⟩ := circle_of_orderStructs distinct failed
    exact ⟨symbol, circle⟩
  · intro circular
    cases outcome : orderStructs structs with
    | error fault => exact ⟨fault, rfl⟩
    | ok ordered =>
        have settled := settled_of_orderStructs distinct outcome
        exact absurd circular
          (settled.not_circular (perm_of_orderStructs distinct outcome) distinct.of_map)

end

def gridStruct : Symbol := .plain "Grid" (.struct [⟨"rows", .array (.array (.named "Cell") 2) 2⟩] [])

/-- A struct that holds the one it is an item of. -/
def cellStruct : Symbol := .plain "Cell" (.struct [⟨"at", .ptr .int⟩, ⟨"of", .named "Grid"⟩] [])

theorem orderStructs_fails_iff_circular_throughArrays :
    (([gridStruct, cellStruct].map (·.name)).Nodup) ∧
      ∃ symbol, orderStructs [gridStruct, cellStruct] =
          .error (.lowering (.containsItself symbol.name)) ∧
        TransGen (Contains [gridStruct, cellStruct]) symbol symbol := by
  have distinct : ([gridStruct, cellStruct].map (·.name)).Nodup := by decide
  have holdsCells : Contains [gridStruct, cellStruct] gridStruct cellStruct :=
    ⟨by simp, by simp, ⟨_, .head _, .array (.array .named)⟩⟩
  have holdsGrid : Contains [gridStruct, cellStruct] cellStruct gridStruct :=
    ⟨by simp, by simp, ⟨_, .tail _ (.head _), .named⟩⟩
  have circular : Circular [gridStruct, cellStruct] :=
    ⟨gridStruct, .tail (.single holdsCells) holdsGrid⟩
  obtain ⟨fails, named, _⟩ := orderStructs_fails_iff_circular distinct
  obtain ⟨fault, failed⟩ := fails.mpr circular
  obtain ⟨symbol, rfl, circle⟩ := named fault failed
  exact ⟨distinct, symbol, failed, circle⟩

end Lower

end Offside
