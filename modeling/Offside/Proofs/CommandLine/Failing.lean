import Offside.Proofs.CommandLine.Units

/-!
# Runs that fail before they write

A run reads the source, resolves and compiles the modules it needs and compiles the source before it
writes the first file, and it writes nothing in a format that it does not know. So a run that cannot
get as far leaves the files as they are.
-/

namespace Offside

open Outcome

namespace CommandLine

/-- Whether an action fails and leaves the files as they are. -/
def Stops {α : Type} (action : Running α) (before : Session) : Prop :=
  (∃ failure, (action.run before).1 = .error failure) ∧ (action.run before).2.tree = before.tree

theorem Stops.bind {α β : Type} {action : Running α} {next : α → Running β} {before : Session}
    (quiet : Quiet action)
    (stops : ∀ value after, Gives action before value after → Stops (next value) after) :
    Stops (action >>= next) before := by
  have sequence : (action >>= next).run before =
      ExceptT.bindCont next (action.run before).1 (action.run before).2 := rfl
  rw [Stops, sequence]
  cases ended : (action.run before).1 with
  | error failure => exact ⟨⟨failure, rfl⟩, quiet before⟩
  | ok value =>
      obtain ⟨fails, same⟩ := stops value _ ⟨ended, rfl⟩
      exact ⟨fails, same.trans (quiet before)⟩

/-- Whether a run can read its source, and all that it needs compiles. -/
def Ready (world : World) (options : Options) : Prop :=
  (∃ unit state, Compiles world options unit state) ∧ (options.emit = "c" ∨ options.emit = "exe")

theorem stops_execute {world : World} {options : Options} (unready : ¬ Ready world options)
    (before : Session) : Stops (execute world options) before := by
  rw [execute]
  refine .bind (.lift _) fun read _ isSource => ?_
  obtain ⟨source, input⟩ := read
  refine .bind (.lift _) fun current _ isCurrent => ?_
  refine .bind (quiet_loadImports _ _ _ _) fun loaded _ loads => ?_
  obtain ⟨fragments, state⟩ := loaded
  refine .bind (quiet_tellStep _ _) fun _ _ _ => ?_
  refine .bind (.lift _) fun unit _ isUnit => ?_
  refine .bind (quiet_tellDumps _) fun _ _ _ => ?_
  rw [Gives.lift_iff] at isSource
  rw [Gives.lift_iff, mapError_eq_ok] at isCurrent isUnit
  -- Everything has succeeded by now but for the choice of the format.
  have compiles : Compiles world options unit state :=
    ⟨source, input, current, fragments, isSource.1, isCurrent.1, loaded_of_gives loads, isUnit.1⟩
  split
  · rename_i isC
    exact absurd ⟨⟨unit, state, compiles⟩, .inl isC⟩ unready
  · rename_i isExe
    exact absurd ⟨⟨unit, state, compiles⟩, .inr isExe⟩ unready
  · exact ⟨⟨_, rfl⟩, rfl⟩

/-- A run that cannot get as far as writing fails, and leaves a tree without links as it was. -/
theorem files_kept_of_unready {world : World} {words : List String} {options : Options}
    (asked : Options.ofWords words = .ok options) (unready : ¬ Ready world options) :
    ∃ failure told,
      ((execute world options).run).run ⟨world.tree, ""⟩ = (.error failure, ⟨world.tree, told⟩) ∧
        run world words = ⟨1, "", told ++ failure.report, world.tree⟩ := by
  obtain ⟨⟨failure, fails⟩, same⟩ := stops_execute unready ⟨world.tree, ""⟩
  rcases ended : ((execute world options).run).run ⟨world.tree, ""⟩ with ⟨outcome, tree, told⟩
  obtain rfl : outcome = .error failure := (congrArg Prod.fst ended).symm.trans fails
  obtain rfl : tree = world.tree := (congrArg (·.2.tree) ended).symm.trans same
  refine ⟨failure, told, rfl, ?_⟩
  simp only [run, asked, ended]

/-- Files in which a module needs one that is faulty. -/
def faultyModule : World where
  tree := {
    root := .directory [("a.pyr", .file "import b".toUTF8), ("b.pyr", .file "import".toUTF8)]
    home := [] }
  input := "import a".toUTF8
  runCompiler := fun _ _ => none
  bundled := ⟨""⟩

theorem files_kept_of_unready_faultyModule :
    Options.ofWords ["--lib", "-o", "m.c"] = .ok libraryOptions ∧
      ¬ Ready faultyModule libraryOptions ∧
      (run faultyModule ["--lib", "-o", "m.c"]).tree = faultyModule.tree := by
  have asked := ofWords_libraryOptions
  have unready : ¬ Ready faultyModule libraryOptions := by
    rintro ⟨⟨_, state, source, input, current, fragments, isSource, isCurrent, loaded, _⟩, _⟩
    have isRead : (readSource faultyModule libraryOptions).toOption = some ("import a", none) := by
      decide +kernel
    obtain ⟨rfl, rfl⟩ : source = "import a" ∧ input = none := by
      simpa [isSource, Except.toOption] using isRead
    obtain rfl : none = current := Except.ok.inj isCurrent
    have unloaded : (((Library.fragmentsFor (settingsOf faultyModule libraryOptions none)
        "import a" none).run).run .empty).1.toOption.isSome = false := by decide +kernel
    rw [loaded] at unloaded
    cases unloaded
  obtain ⟨failure, told, _, ended⟩ := files_kept_of_unready asked unready
  exact ⟨asked, unready, congrArg Outcome.tree ended⟩

end CommandLine

end Offside
