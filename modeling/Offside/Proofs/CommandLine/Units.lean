import Mathlib
import Offside.Proofs.CommandLine.Session
import Offside.Proofs.File.Written
import Offside.Proofs.Library.Naming

/-!
# Which units are kept

A run that succeeds writes the C text of the source and then that of each module, beside the result
and under a name that is made of the module's path. Where two units have one place, the later is
written over the earlier.
-/

namespace Offside

open Outcome

namespace CommandLine

theorem written_of_writeOutput {origin : FileTree} {before after : Session}
    {files : List (Path × String)} (written : origin.Written before.tree files) {path : Path}
    {text : String} (gives : Gives (writeOutput path text) before () after) :
    origin.Written after.tree (files ++ [(path, text)]) := by
  -- the directories of the path may be made before the file is written
  obtain ⟨made, grows, told, gives⟩ : ∃ made, before.tree.Grows (fun _ => False) made ∧ ∃ told,
      Gives (do
        let session ← get
        let tree ← (session.tree.write path text.toUTF8).mapError (Failure.write path)
        set { session with tree := tree } : Running Unit) ⟨made, told⟩ () after := by
    rw [writeOutput] at gives
    cases isParent : path.parent? with
    | none =>
        simp only [isParent] at gives
        exact ⟨before.tree, .refl _ before.tree, before.told, gives⟩
    | some parent =>
        simp only [isParent] at gives
        split at gives
        · obtain ⟨session, _, isSession, gives⟩ := Gives.bind_iff.mp gives
          obtain ⟨rfl, rfl⟩ := Gives.get_iff.mp isSession
          obtain ⟨_, _, isSet, gives⟩ := Gives.bind_iff.mp gives
          obtain rfl := Gives.set_iff.mp isSet
          obtain ⟨_, _, isMade, gives⟩ := Gives.bind_iff.mp gives
          obtain ⟨_, rfl⟩ := Gives.lift_iff.mp isMade
          exact ⟨_, FileTree.grows_makeChain _ parent.ancestors before.tree, before.told, gives⟩
        · exact ⟨before.tree, .refl _ before.tree, before.told, gives⟩
  simp only [Gives.bind_iff, Gives.get_iff, Gives.lift_iff, Gives.set_iff, mapError_eq_ok] at gives
  obtain ⟨_, _, ⟨rfl, rfl⟩, tree, _, ⟨isTree, rfl⟩, rfl⟩ := gives
  exact written.write grows isTree

theorem written_of_forM {origin : FileTree} {output : Path} {before after : Session}
    {files : List (Path × String)} (written : origin.Written before.tree files)
    (modules : List Library.Module)
    (gives : Gives (modules.forM fun module => writeOutput (modulePath output module) module.text)
      before () after) :
    origin.Written after.tree (files ++ modules.map fun module =>
      (modulePath output module, module.text)) := by
  induction modules generalizing before files with
  | nil =>
      obtain ⟨_, rfl⟩ := Gives.pure_iff.mp gives
      simpa using written
  | cons module modules induction =>
      obtain ⟨_, middle, first, others⟩ := Gives.bind_iff.mp gives
      simpa using induction (written_of_writeOutput written first) others

/-- The C texts of a source and its modules, in the order of writing. -/
def units (options : Options) (text : String) (modules : List Library.Module) :
    List (Path × String) :=
  (mainPath options, text) ::
    modules.map fun module => (modulePath ⟨options.output⟩ module, module.text)

theorem written_of_writeUnits {options : Options} {text : String} {modules : List Library.Module}
    {before after : Session}
    (gives : Gives (writeUnits ⟨options.output⟩ (mainPath options) text modules) before () after) :
    before.tree.Written after.tree (units options text modules) := by
  rw [writeUnits, Gives.bind_iff] at gives
  obtain ⟨_, middle, first, others⟩ := gives
  exact written_of_forM (written_of_writeOutput (.nil before.tree) first) modules others

theorem slash_notMem_cFile {world : World} {options : Options} {unit : Compiled}
    {state : Library.State} (compiles : Compiles world options unit state) :
    ∀ module ∈ state.compiled, '/' ∉ module.cFile.toList := by
  obtain ⟨source, input, current, fragments, _, _, loaded, _⟩ := compiles
  intro module member
  have sound := (Library.ends_fragmentsFor
    (Library.sound_empty (settingsOf world options input)) source current).1.sound
  have reached : ((Library.fragmentsFor (settingsOf world options input) source current).run
      .empty).2 = state := congrArg Prod.snd loaded
  rw [reached] at sound
  exact Library.slash_notMem_cFile sound member

/-- Where the C texts of a source and of modules are. -/
structure Placed (tree : FileTree) (options : Options) (modules : List Library.Module)
    (root directory : Position) (name : String) : Prop where
  main : tree.resolve (mainPath options) = .ok (root ++ [name])
  named : (mainPath options).pieces.getLast? = some name
  module : ∀ module ∈ modules,
    tree.resolve (modulePath ⟨options.output⟩ module) = .ok (directory ++ [module.cFile])
  beside : (mainPath options).parent? = Path.parent? ⟨options.output⟩ → root = directory

theorem exists_placed {origin tree : FileTree} {options : Options} {text : String}
    {modules : List Library.Module} (written : origin.Written tree (units options text modules))
    (plain : ∀ module ∈ modules, '/' ∉ module.cFile.toList) :
    ∃ root directory name, Placed tree options modules root directory name := by
  obtain ⟨root, name, main⟩ := written.leads _ List.mem_cons_self
  have entered (module : Library.Module) (member : module ∈ modules) :
      ∃ directory, tree.Enters ((Path.parent? ⟨options.output⟩).getD ⟨""⟩) directory ∧
        tree.resolve (modulePath ⟨options.output⟩ module) = .ok (directory ++ [module.cFile]) := by
    obtain ⟨directory, _, leads⟩ :=
      written.leads _ (List.mem_cons_of_mem _ (List.mem_map_of_mem member))
    obtain ⟨rfl, enters⟩ := leads.join (plain module member)
    exact ⟨directory, enters, leads.resolve_eq⟩
  by_cases some : ∃ directory, tree.Enters ((Path.parent? ⟨options.output⟩).getD ⟨""⟩) directory
  · obtain ⟨directory, enters⟩ := some
    refine ⟨root, directory, name, main.resolve_eq, main.getLast?_pieces, ?_, ?_⟩
    · intro module member
      obtain ⟨other, enters', resolved⟩ := entered module member
      rwa [enters.unique enters']
    · intro sameParent
      exact (sameParent ▸ main.parent).unique enters
  -- without a directory to put them in, there are no modules
  · refine ⟨root, root, name, main.resolve_eq, main.getLast?_pieces, ?_, fun _ => rfl⟩
    intro module member
    obtain ⟨directory, enters, _⟩ := entered module member
    exact absurd ⟨directory, enters⟩ some

section

variable {origin tree : FileTree} {options : Options} {text : String}
  {modules : List Library.Module} {root directory : Position} {name : String}

theorem Placed.resolve_eq_main_iff (placed : Placed tree options modules root directory name)
    {module : Library.Module} (member : module ∈ modules) :
    tree.resolve (modulePath ⟨options.output⟩ module) = tree.resolve (mainPath options) ↔
      root = directory ∧ module.cFile = name := by
  rw [placed.module module member, placed.main, Except.ok.injEq, ← List.concat_eq_append,
    ← List.concat_eq_append, List.concat_inj, eq_comm (a := directory)]

theorem Placed.resolve_eq_iff (placed : Placed tree options modules root directory name)
    {module other : Library.Module} (member : module ∈ modules) (isOther : other ∈ modules) :
    tree.resolve (modulePath ⟨options.output⟩ module) =
      tree.resolve (modulePath ⟨options.output⟩ other) ↔ module.cFile = other.cFile := by
  rw [placed.module module member, placed.module other isOther]
  simp

/-- All units are kept exactly when different ones have different places. -/
theorem readText_units_iff (written : origin.Written tree (units options text modules))
    (placed : Placed tree options modules root directory name) :
    (tree.readText (mainPath options) = .ok text ∧ ∀ module ∈ modules,
        tree.readText (modulePath ⟨options.output⟩ module) = .ok module.text) ↔
      (root = directory → ∀ module ∈ modules, module.cFile = name → module.text = text) ∧
        ∀ module ∈ modules, ∀ other ∈ modules, module.cFile = other.cFile →
          module.text = other.text := by
  have kept := written.forall_readText_iff
  simp only [units, List.forall_mem_cons, List.forall_mem_map] at kept
  rw [kept]
  constructor
  · rintro ⟨_, agree⟩
    refine ⟨fun same module member isName => ?_, fun module member other isOther same => ?_⟩
    · exact (agree module member).1 ((placed.resolve_eq_main_iff member).mpr ⟨same, isName⟩)
    · exact (agree module member).2 other isOther ((placed.resolve_eq_iff member isOther).mpr same)
  · rintro ⟨withMain, withOther⟩
    have overMain (module : Library.Module) (member : module ∈ modules)
        (same : tree.resolve (modulePath ⟨options.output⟩ module) =
          tree.resolve (mainPath options)) : module.text = text := by
      obtain ⟨isRoot, isName⟩ := (placed.resolve_eq_main_iff member).mp same
      exact withMain isRoot module member isName
    refine ⟨⟨fun _ => trivial, fun module member same => ?_⟩, fun module member => ⟨?_, ?_⟩⟩
    · exact (overMain module member same.symm).symm
    · exact overMain module member
    · intro other isOther same
      exact withOther module member other isOther ((placed.resolve_eq_iff member isOther).mp same)

end

/-! ## Runs -/

/-- In a tree without links, a run that succeeds leaves in each file the last unit written to its
place. All units are kept exactly when modules of one name have one text, and so has the source with
each module of its name in its directory. -/
theorem units_kept_iff {world : World} {words : List String} {options : Options}
    (asked : Options.ofWords words = .ok options) (succeeds : (run world words).code = 0) :
    ∃ unit state root directory name, Compiles world options unit state ∧
      Placed (run world words).tree options state.compiled root directory name ∧
      world.tree.Written (run world words).tree (units options unit.text state.compiled) ∧
      (((run world words).tree.readText (mainPath options) = .ok unit.text ∧
          ∀ module ∈ state.compiled,
            (run world words).tree.readText (modulePath ⟨options.output⟩ module) =
              .ok module.text) ↔
        (root = directory → ∀ module ∈ state.compiled, module.cFile = name →
          module.text = unit.text) ∧
        ∀ module ∈ state.compiled, ∀ other ∈ state.compiled, module.cFile = other.cFile →
          module.text = other.text) := by
  obtain ⟨after, executes, sameTree⟩ := exists_execute_of_run asked succeeds
  obtain ⟨unit, state, ready, reached, compiles, sameReady, writes, sameReached⟩ :=
    exists_writeUnits_of_execute executes
  have written : world.tree.Written (run world words).tree
      (units options unit.text state.compiled) := by
    have fromReady := written_of_writeUnits writes
    rwa [sameReady, ← sameReached, ← sameTree] at fromReady
  obtain ⟨root, directory, name, placed⟩ := exists_placed written (slash_notMem_cFile compiles)
  exact ⟨unit, state, root, directory, name, compiles, placed, written,
    readText_units_iff written placed⟩

/-- Two modules known by paths that differ in a dot and an underscore. -/
def alikeNames : World where
  tree := {
    root := .directory [("a", .directory [("b.pyr", .file "x:int".toUTF8)]),
      ("a_b.pyr", .file "".toUTF8)]
    home := [] }
  input := "import a.b\nimport a_b".toUTF8
  runCompiler := fun _ _ => none
  bundled := ⟨""⟩

def libraryOptions : Options where
  input := none
  output := "m.c"
  emit := "c"
  isLibrary := true
  support := none
  modulePaths := []
  compiler := "cc"
  dumpTokens := false
  dumpOutline := false
  dumpOutput := false
  verbose := false

theorem ofWords_libraryOptions :
    Options.ofWords ["--lib", "-o", "m.c"] = .ok libraryOptions := by cbv

theorem exists_alike_of_compiles {unit : Compiled} {state : Library.State}
    (compiles : Compiles alikeNames libraryOptions unit state) :
    ∃ module ∈ state.compiled, ∃ other ∈ state.compiled, module.cFile = other.cFile ∧
      module.text ≠ other.text := by
  obtain ⟨source, input, current, fragments, isSource, isCurrent, loaded, _⟩ := compiles
  have isRead : (readSource alikeNames libraryOptions).toOption =
      some ("import a.b\nimport a_b", none) := by decide +kernel
  obtain ⟨rfl, rfl⟩ : source = "import a.b\nimport a_b" ∧ input = none := by
    simpa [isSource, Except.toOption] using isRead
  obtain rfl : none = current := Except.ok.inj isCurrent
  have reached : ((Library.fragmentsFor (settingsOf alikeNames libraryOptions none)
      "import a.b\nimport a_b" none).run .empty).2 = state := congrArg Prod.snd loaded
  have areTexts : state.compiled.map (fun module => (module.cFile, module.text)) =
      [("a_b.c", "#include <stdio.h>\n#include <stdlib.h>\n#include \"pyrinas.h\"\n\nint x;\n\n"),
        ("a_b.c", "#include <stdio.h>\n#include <stdlib.h>\n#include \"pyrinas.h\"\n")] := by
    rw [← reached]
    decide +kernel
  obtain ⟨module, others, areModules, isModule, others'⟩ := List.map_eq_cons_iff.mp areTexts
  obtain ⟨other, rfl, isOther⟩ := List.map_eq_singleton_iff.mp others'
  simp only [Prod.mk.injEq] at isModule isOther
  refine ⟨module, by simp [areModules], other, by simp [areModules], ?_, ?_⟩
  · rw [isModule.1, isOther.1]
  · rw [isModule.2, isOther.2]
    decide

theorem units_kept_iff_alikeNames :
    Options.ofWords ["--lib", "-o", "m.c"] = .ok libraryOptions ∧
      (run alikeNames ["--lib", "-o", "m.c"]).code = 0 ∧
      ∃ unit state, Compiles alikeNames libraryOptions unit state ∧
        ¬ ((run alikeNames ["--lib", "-o", "m.c"]).tree.readText (mainPath libraryOptions) =
            .ok unit.text ∧
          ∀ module ∈ state.compiled,
            (run alikeNames ["--lib", "-o", "m.c"]).tree.readText (modulePath ⟨"m.c"⟩ module) =
              .ok module.text) := by
  have asked := ofWords_libraryOptions
  have succeeds : (run alikeNames ["--lib", "-o", "m.c"]).code = 0 := by decide +kernel
  obtain ⟨unit, state, root, directory, name, compiles, _, _, kept⟩ :=
    units_kept_iff asked succeeds
  refine ⟨asked, succeeds, unit, state, compiles, fun all => ?_⟩
  obtain ⟨module, isModule, other, isOther, sameName, differ⟩ := exists_alike_of_compiles compiles
  exact differ ((kept.mp all).2 module isModule other isOther sameName)

end CommandLine

end Offside
