import Offside.Proofs.Library.Loading

/-!
# Names of modules

Modules are known by the dotted paths of imports, whose components are identifiers. The C file of a
module is named by the same components with underscores between them, so it is a name without
slashes.
-/

namespace Offside

namespace Library

theorem map_of_plain {chars : List Char} (plain : '.' ∉ chars) :
    chars.map (fun char => if char = '.' then '_' else char) = chars := by
  refine (List.map_congr_left fun char member => ?_).trans (List.map_id chars)
  have differs : char ≠ '.' := fun isDot => plain (isDot ▸ member)
  exact if_neg differs

/-- Dots between parts without dots become underscores. -/
theorem map_intercalate_dot : {parts : List (List Char)} → (∀ part ∈ parts, '.' ∉ part) →
    (['.'].intercalate parts).map (fun char => if char = '.' then '_' else char) =
      ['_'].intercalate parts
  | [], _ => rfl
  | [part], plain => by
      simpa using map_of_plain (plain part (List.mem_singleton.mpr rfl))
  | part :: other :: parts, plain => by
      obtain ⟨first, others⟩ := List.forall_mem_cons.mp plain
      rw [List.intercalate_cons_cons, List.intercalate_cons_cons, List.map_append,
        List.map_append, map_of_plain first, map_intercalate_dot others]
      rfl

theorem notMem_intercalate {char between : Char} (differ : char ≠ between) :
    {parts : List (List Char)} → (∀ part ∈ parts, char ∉ part) →
      char ∉ [between].intercalate parts
  | [], _ => List.not_mem_nil
  | [part], plain => by simpa using plain part
  | part :: other :: parts, plain => by
      obtain ⟨first, others⟩ := List.forall_mem_cons.mp plain
      rw [List.intercalate_cons_cons]
      simp [first, differ, notMem_intercalate differ others]

/-- The components of the path of a module name its C file. -/
theorem cFile_of_parts {module : Module} {parts : List String}
    (areIdentifiers : ∀ part ∈ parts, IsIdentifier part.toList)
    (isPath : module.path = ".".intercalate parts) :
    module.cFile = "_".intercalate parts ++ ".c" := by
  have renamed : module.path.map (fun char => if char = '.' then '_' else char) =
      "_".intercalate parts := by
    apply String.toList_inj.mp
    rw [isPath, String.toList_map, String.toList_intercalate, String.toList_intercalate]
    refine map_intercalate_dot fun chars member => ?_
    obtain ⟨part, isPart, rfl⟩ := List.mem_map.mp member
    exact (areIdentifiers part isPart).dot_notMem
  rw [Module.cFile, renamed]

theorem slash_notMem_cFile {settings : Settings} {state : State} (sound : Sound settings state)
    {module : Module} (member : module ∈ state.compiled) : '/' ∉ module.cFile.toList := by
  obtain ⟨request, named, isPath⟩ := sound.dotted module member
  rw [cFile_of_parts named isPath, String.toList_append, String.toList_intercalate,
    List.mem_append, not_or]
  refine ⟨notMem_intercalate (by decide) fun chars isPart => ?_, by decide⟩
  obtain ⟨part, member, rfl⟩ := List.mem_map.mp isPart
  exact (named part member).notMem (by decide)

end Library

end Offside
