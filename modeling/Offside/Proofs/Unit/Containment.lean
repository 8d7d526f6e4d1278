import Mathlib.Data.List.Nodup
import Mathlib.Data.List.Perm.Basic
import Offside.Lower.Aggregate
import Offside.Proofs.Outcome

/-!
# The order of structs

Structs are put in order by adding one after the other, each behind those it contains. Whatever is
added on the way is one of the given structs and carries a name that was free, so no name comes
twice and the order lists every given struct once.
-/

namespace Offside

namespace Lower

open Outcome

/-- Finished structs after given ones were added under free names. -/
structure Adds (structs : List Symbol) (free : List String) (finished after : List Symbol) :
    Prop where
  keeps : finished ⊆ after
  new_of_mem : ∀ symbol ∈ after, symbol ∈ finished ∨ (symbol ∈ structs ∧ symbol.name ∈ free)
  nodup : (finished.map (·.name)).Nodup → (after.map (·.name)).Nodup

namespace Adds

variable {structs : List Symbol} {free : List String} {finished middle after : List Symbol}

theorem refl (structs : List Symbol) (free : List String) (finished : List Symbol) :
    Adds structs free finished finished :=
  ⟨List.Subset.refl _, fun _ member => .inl member, id⟩

theorem trans (first : Adds structs free finished middle)
    (second : Adds structs free middle after) : Adds structs free finished after := by
  refine ⟨List.Subset.trans first.keeps second.keeps, ?_, second.nodup ∘ first.nodup⟩
  intro symbol member
  rcases second.new_of_mem symbol member with earlier | isNew
  · exact first.new_of_mem symbol earlier
  · exact .inr isNew

theorem concat {symbol : Symbol} (parts : Adds structs (free.erase symbol.name) finished after)
    (distinct : free.Nodup) (isFree : symbol.name ∈ free)
    (unfinished : symbol.name ∉ finished.map (·.name)) (isGiven : symbol ∈ structs) :
    Adds structs free finished (after ++ [symbol]) := by
  refine ⟨List.Subset.trans parts.keeps (List.subset_append_left _ _), ?_, ?_⟩
  · intro other member
    rcases List.mem_append.mp member with inAfter | isLast
    · rcases parts.new_of_mem other inAfter with earlier | ⟨isStruct, isOther⟩
      · exact .inl earlier
      · exact .inr ⟨isStruct, List.mem_of_mem_erase isOther⟩
    · obtain rfl := List.mem_singleton.mp isLast
      exact .inr ⟨isGiven, isFree⟩
  · intro names
    have absent : symbol.name ∉ after.map (·.name) := by
      intro member
      obtain ⟨other, isOther, sameName⟩ := List.mem_map.mp member
      rcases parts.new_of_mem other isOther with earlier | ⟨_, isErased⟩
      · exact unfinished (List.mem_map.mpr ⟨other, earlier, sameName⟩)
      · rw [sameName] at isErased
        exact distinct.not_mem_erase isErased
    rw [List.map_append, List.map_singleton, ← List.concat_eq_append]
    exact (parts.nodup names).concat absent

end Adds

theorem adds_of_foldlM {structs : List Symbol} {free : List String}
    {step : List Symbol → Symbol → Except Fault (List Symbol)} {items : List Symbol}
    (adds : ∀ item ∈ items, ∀ {state next}, step state item = .ok next →
      Adds structs free state next ∧ item.name ∈ next.map (·.name))
    {finished after : List Symbol} (folded : items.foldlM step finished = .ok after) :
    Adds structs free finished after ∧ ∀ item ∈ items, item.name ∈ after.map (·.name) := by
  induction items generalizing finished with
  | nil =>
      obtain rfl : finished = after := by simpa using folded
      exact ⟨.refl _ _ _, nofun⟩
  | cons item items induction =>
      rw [List.foldlM_cons, bind_eq_ok] at folded
      obtain ⟨next, isNext, later⟩ := folded
      obtain ⟨first, isFinished⟩ := adds item List.mem_cons_self isNext
      obtain ⟨others, areFinished⟩ :=
        induction (fun other member => adds other (List.mem_cons_of_mem _ member)) later
      refine ⟨first.trans others, ?_⟩
      intro other member
      rcases List.mem_cons.mp member with rfl | isLater
      · exact List.map_subset _ others.keeps isFinished
      · exact areFinished other isLater

theorem mem_of_mem_containedIn {structs : List Symbol} {symbol part : Symbol}
    (member : part ∈ containedIn structs symbol) : part ∈ structs := by
  obtain ⟨field, _, found⟩ := List.mem_filterMap.mp member
  cases isNamed : contained? field.ty with
  | none => simp [isNamed] at found
  | some name =>
      rw [isNamed] at found
      exact List.mem_of_find?_eq_some found

theorem adds_addStruct {structs : List Symbol} {free : List String} {finished after : List Symbol}
    {symbol : Symbol} (added : addStruct structs free finished symbol = .ok after)
    (distinct : free.Nodup) (isGiven : symbol ∈ structs) :
    Adds structs free finished after ∧ symbol.name ∈ after.map (·.name) := by
  fun_induction addStruct structs free finished symbol generalizing after with
  | case1 free finished symbol isFinished =>
      obtain rfl := Except.ok.inj added
      exact ⟨.refl _ _ _, by simpa using isFinished⟩
  | case2 free finished symbol unfinished isFree _ induction =>
      simp only [bind_eq_ok, pure_eq_ok] at added
      obtain ⟨inner, folded, rfl⟩ := added
      -- The name is taken from the free ones before the parts are added, so none of them has it.
      have parts : Adds structs (free.erase symbol.name) finished inner :=
        (adds_of_foldlM (fun part isPart {state next} isNext => induction state part isNext
          (distinct.erase _) (mem_of_mem_containedIn isPart)) folded).1
      have isNew : symbol.name ∉ finished.map (·.name) := by simpa using unfinished
      exact ⟨parts.concat distinct isFree isNew isGiven, by simp⟩
  | case3 => simp at added

/-- Structs with different names are put in order without loss or repetition. -/
theorem perm_of_orderStructs {structs ordered : List Symbol}
    (distinct : (structs.map (·.name)).Nodup) (isOrdered : orderStructs structs = .ok ordered) :
    ordered.Perm structs := by
  obtain ⟨adds, areFinished⟩ := adds_of_foldlM
    (fun symbol isGiven {_ _} isNext => adds_addStruct isNext distinct isGiven) isOrdered
  have areGiven : ∀ symbol ∈ ordered, symbol ∈ structs := by
    intro symbol member
    rcases adds.new_of_mem symbol member with earlier | ⟨isGiven, _⟩
    · exact absurd earlier List.not_mem_nil
    · exact isGiven
  have nodup : ordered.Nodup := (adds.nodup List.nodup_nil).of_map
  refine (List.perm_ext_iff_of_nodup nodup distinct.of_map).mpr fun symbol => ⟨areGiven symbol, ?_⟩
  intro isGiven
  obtain ⟨other, isOther, sameName⟩ := List.mem_map.mp (areFinished symbol isGiven)
  obtain rfl := List.inj_on_of_nodup_map distinct (areGiven other isOther) isGiven sameName
  exact isOther

end Lower

end Offside
