import Offside.CommandLine.Run
import Offside.Proofs.Outcome

/-!
# Sessions

What a command line does step by step. A run that succeeds has read and compiled everything, and
then changes the files only where it writes C texts: telling what happens and starting the C
compiler leave them as they are.
-/

namespace Offside

open Outcome

namespace CommandLine

/-- Whether an action succeeds with a result and leaves a session. -/
def Gives {α : Type} (action : Running α) (before : Session) (result : α) (after : Session) :
    Prop :=
  (action.run before).1 = .ok result ∧ (action.run before).2 = after

namespace Gives

variable {α β : Type} {action : Running α} {next : α → Running β} {before after : Session}

/-- A sequence succeeds exactly when both of its parts do. -/
@[simp]
theorem bind_iff {result : β} :
    Gives (action >>= next) before result after ↔
      ∃ value middle, Gives action before value middle ∧
        Gives (next value) middle result after := by
  have sequence : (action >>= next).run before =
      ExceptT.bindCont next (action.run before).1 (action.run before).2 := rfl
  rw [Gives, sequence]
  cases ended : (action.run before).1 with
  | error failure =>
      show Except.error failure = _ ∧ _ ↔ _
      simp [Gives, ended]
  | ok value =>
      show Gives (next value) (action.run before).2 result after ↔ _
      constructor
      · intro gives
        exact ⟨value, _, ⟨ended, rfl⟩, gives⟩
      · rintro ⟨other, middle, ⟨isOther, rfl⟩, gives⟩
        obtain rfl := Except.ok.inj (ended.symm.trans isOther)
        exact gives

@[simp]
theorem pure_iff {value result : α} :
    Gives (pure value) before result after ↔ value = result ∧ before = after := by
  show Except.ok value = _ ∧ before = _ ↔ _
  simp

@[simp]
theorem not_throw {failure : Failure} {result : α} :
    ¬ Gives (throw failure) before result after := by
  show ¬ (Except.error failure = _ ∧ before = _)
  simp

@[simp]
theorem lift_iff {outcome : Except Failure α} {result : α} :
    Gives (liftM outcome) before result after ↔ outcome = .ok result ∧ before = after := by
  show outcome = _ ∧ before = _ ↔ _
  simp

@[simp]
theorem get_iff {result : Session} :
    Gives get before result after ↔ before = result ∧ before = after := by
  show Except.ok before = _ ∧ before = _ ↔ _
  simp

@[simp]
theorem set_iff {session : Session} {result : PUnit} :
    Gives (set session) before result after ↔ session = after := by
  show Except.ok PUnit.unit = _ ∧ session = _ ↔ _
  simp

@[simp]
theorem modify_iff {change : Session → Session} {result : PUnit} :
    Gives (modify change) before result after ↔ change before = after := by
  show Except.ok PUnit.unit = _ ∧ change before = _ ↔ _
  simp

end Gives

/-- Whether an action leaves the files as they are, also where it fails. -/
def Quiet {α : Type} (action : Running α) : Prop :=
  ∀ before, (action.run before).2.tree = before.tree

namespace Quiet

variable {α β : Type} {action : Running α} {next : α → Running β}

theorem tree_eq (quiet : Quiet action) {before after : Session} {result : α}
    (gives : Gives action before result after) : after.tree = before.tree := by
  rw [← gives.2]
  exact quiet before

theorem pure (value : α) : Quiet (pure value) := fun _ => rfl

theorem throw (failure : Failure) : Quiet (throw failure : Running α) := fun _ => rfl

theorem lift (outcome : Except Failure α) : Quiet (liftM outcome) := fun _ => rfl

theorem get : Quiet get := fun _ => rfl

theorem bind (first : Quiet action) (others : ∀ value, Quiet (next value)) :
    Quiet (action >>= next) := by
  intro before
  show (ExceptT.bindCont next (action.run before).1 (action.run before).2).2.tree = before.tree
  cases (action.run before).1 with
  | error failure => exact first before
  | ok value => exact (others value _).trans (first before)

theorem ite {guard : Prop} [Decidable guard] {action other : Running α} (holds : Quiet action)
    (fails : Quiet other) : Quiet (if guard then action else other) := by
  split
  · exact holds
  · exact fails

theorem forM {act : α → Running Unit} (quiet : ∀ item, Quiet (act item)) :
    (items : List α) → Quiet (items.forM act)
  | [] => pure ()
  | item :: items => (quiet item).bind fun _ => forM quiet items

end Quiet

theorem quiet_tell (line : String) : Quiet (tell line) := fun _ => rfl

theorem quiet_tellStep (options : Options) (line : String) : Quiet (tellStep options line) :=
  .ite (quiet_tell line) (.pure ())

theorem quiet_tellDumps (dumps : Dumps) : Quiet (tellDumps dumps) := by
  simp only [tellDumps]
  refine .bind ?_ fun _ => .bind ?_ fun _ => ?_
  all_goals
    split
    · exact quiet_tell _
    · exact .pure ()

theorem quiet_buildExecutable (world : World) (options : Options) (sources : List Path)
    (libraries : List String) : Quiet (buildExecutable world options sources libraries) := by
  rw [buildExecutable]
  refine .bind .get fun session => .ite (.bind (.throw _) fun _ => ?_) ?_
  all_goals
    refine .bind (quiet_tellStep _ _) fun _ => ?_
    split
    · exact .pure ()
    · exact .throw _
    · exact .bind .get fun _ => .throw _

/-- What options ask for when the source is compiled. -/
def requestOf (options : Options) : Request where
  kind := unitKind options
  wantsTokens := options.dumpTokens
  wantsOutline := options.dumpOutline
  wantsOutput := options.dumpOutput

/-- Where the modules are looked for that a source imports. -/
def settingsOf (world : World) (options : Options) (input : Option Path) : Library.Settings where
  tree := world.tree
  roots := Library.roots (baseDirectory world.tree input) (options.modulePaths.map (⟨·⟩))
  support := (requestOf options).support

/-- The path of the C file of the source. -/
def mainPath (options : Options) : Path :=
  if options.emit = "exe" then ⟨options.output ++ ".c"⟩ else ⟨options.output⟩

/-- Whether the source compiles to a unit with the modules it needs. -/
def Compiles (world : World) (options : Options) (unit : Compiled) (state : Library.State) : Prop :=
  ∃ source input current fragments,
    readSource world options = .ok (source, input) ∧
    input.mapM world.tree.canonical = .ok current ∧
    ((Library.fragmentsFor (settingsOf world options input) source current).run).run .empty =
      (.ok fragments, state) ∧
    compile (requestOf options) fragments source = .ok unit

theorem quiet_loadImports (options : Options) (settings : Library.Settings) (source : String)
    (current : Option Path) : Quiet (loadImports options settings source current) :=
  .bind (.forM (fun _ => quiet_tellStep _ _) _) fun _ => .bind (.lift _) fun _ => .pure _

theorem loaded_of_gives {options : Options} {settings : Library.Settings} {source : String}
    {current : Option Path} {before after : Session} {fragments : List Fragment}
    {state : Library.State}
    (gives : Gives (loadImports options settings source current) before (fragments, state) after) :
    ((Library.fragmentsFor settings source current).run).run .empty = (.ok fragments, state) := by
  rw [loadImports] at gives
  generalize ((Library.fragmentsFor settings source current).run).run .empty = ended at gives ⊢
  obtain ⟨outcome, reached⟩ := ended
  simp only [Gives.bind_iff, Gives.lift_iff, Gives.pure_iff, mapError_eq_ok, Prod.mk.injEq] at gives
  obtain ⟨_, told, tells, _, _, ⟨rfl, rfl⟩, ⟨rfl, rfl⟩, rfl⟩ := gives
  rfl

/-- A run that succeeds compiles everything and then writes it. -/
theorem exists_writeUnits_of_execute {world : World} {options : Options} {before after : Session}
    (gives : Gives (execute world options) before () after) :
    ∃ unit state ready written, Compiles world options unit state ∧ ready.tree = before.tree ∧
      Gives (writeUnits ⟨options.output⟩ (mainPath options) unit.text state.compiled) ready ()
        written ∧ after.tree = written.tree := by
  simp only [execute, Gives.bind_iff, Gives.lift_iff, mapError_eq_ok] at gives
  obtain ⟨⟨source, input⟩, _, ⟨isSource, rfl⟩, current, _, ⟨isCurrent, rfl⟩, ⟨fragments, state⟩,
    loaded, loads, _, told, tells, unit, _, ⟨isUnit, rfl⟩, _, ready, dumps, gives⟩ := gives
  have compiles : Compiles world options unit state :=
    ⟨source, input, current, fragments, isSource, isCurrent, loaded_of_gives loads, isUnit⟩
  have same : ready.tree = before.tree := by
    rw [(quiet_tellDumps _).tree_eq dumps, (quiet_tellStep _ _).tree_eq tells,
      (quiet_loadImports _ _ _ _).tree_eq loads]
  refine ⟨unit, state, ready, ?_⟩
  split at gives
  · rename_i isC
    obtain ⟨_, written, writes, tells⟩ := Gives.bind_iff.mp gives
    refine ⟨written, compiles, same, ?_, (quiet_tellStep _ _).tree_eq tells⟩
    rwa [mainPath, if_neg (by simp [isC])]
  · rename_i isExe
    simp only [Gives.bind_iff] at gives
    obtain ⟨_, written, writes, _, built, builds, tells⟩ := gives
    have sameBuilt := (quiet_buildExecutable _ _ _ _).tree_eq builds
    refine ⟨written, compiles, same, ?_, ((quiet_tellStep _ _).tree_eq tells).trans sameBuilt⟩
    rwa [mainPath, if_pos isExe]
  · exact absurd gives Gives.not_throw

theorem exists_execute_of_run {world : World} {words : List String} {options : Options}
    (asked : Options.ofWords words = .ok options) (succeeds : (run world words).code = 0) :
    ∃ after, Gives (execute world options) ⟨world.tree, ""⟩ () after ∧
      (run world words).tree = after.tree := by
  simp only [run, asked] at succeeds ⊢
  rcases ended : ((execute world options).run).run ⟨world.tree, ""⟩ with ⟨outcome, after⟩
  rw [ended] at succeeds
  cases outcome with
  | error failure => simp at succeeds
  | ok done => exact ⟨after, ⟨congrArg Prod.fst ended, congrArg Prod.snd ended⟩, rfl⟩

end CommandLine

end Offside
