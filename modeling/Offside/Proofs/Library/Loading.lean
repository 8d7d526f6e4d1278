import Mathlib.Data.List.Nodup
import Offside.Library.Load
import Offside.Proofs.Grammar.Imports

/-!
# What loading keeps

Loading compiles the files that a source needs, each after those that it imports. A load may fail at
any depth; what it has compiled until then stays, the files that were being compiled no longer
count as such, and the next load goes on from there.
-/

namespace Offside

namespace Library

/-- Whether an action ends in a state, and with a result, that fulfil conditions. -/
def Ends {α : Type} (action : Loading α) (before : State) (always : State → Prop)
    (result : α → State → Prop) : Prop :=
  always (action.run before).2 ∧
    ∀ value, (action.run before).1 = .ok value → result value (action.run before).2

namespace Ends

variable {α β : Type} {action : Loading α} {next : α → Loading β} {before : State}
  {always always' : State → Prop} {result : α → State → Prop} {result' : β → State → Prop}

theorem pure {value : α} (holds : always before) (isResult : result value before) :
    Ends (pure value) before always result := by
  refine ⟨holds, fun other isOther => ?_⟩
  obtain rfl := Except.ok.inj isOther
  exact isResult

theorem throw {failure : Failure} (holds : always before) :
    Ends (throw failure) before always result := ⟨holds, nofun⟩

theorem bind (first : Ends action before always result)
    (follow : ∀ {value middle}, always middle → result value middle →
      Ends (next value) middle always result') : Ends (action >>= next) before always result' := by
  obtain ⟨holds, isResult⟩ := first
  have sequence : (action >>= next).run before =
      ExceptT.bindCont next (action.run before).1 (action.run before).2 := rfl
  rw [Ends, sequence]
  cases ended : (action.run before).1 with
  | error failure => exact ⟨holds, nofun⟩
  | ok value => exact follow holds (isResult value ended)

theorem lift {outcome : Except Failure α} (holds : always before)
    (follow : ∀ value, outcome = .ok value → Ends (next value) before always result') :
    Ends (liftM outcome >>= next) before always result' := by
  cases outcome with
  | error failure => exact ⟨holds, nofun⟩
  | ok value => exact follow value rfl

theorem lift_last {outcome : Except Failure α} (holds : always before)
    (isResult : ∀ value, outcome = .ok value → result value before) :
    Ends (liftM outcome) before always result := ⟨holds, isResult⟩

theorem get {next : State → Loading β} (ends : Ends (next before) before always result') :
    Ends (get >>= next) before always result' := ends

theorem modify {change : State → State} {next : PUnit → Loading β}
    (ends : Ends (next ⟨⟩) (change before) always result') :
    Ends (modify change >>= next) before always result' := ends

theorem within {file : Path} (ends : Ends action (before.enter file)
      (fun inner => always inner.leave) fun value inner => result value inner.leave) :
    Ends (within file action) before always result := ends

theorem mono {wider : α → State → Prop} (ends : Ends action before always result)
    (holds : ∀ {after}, always after → always' after)
    (isResult : ∀ {value after}, result value after → wider value after) :
    Ends action before always' wider :=
  ⟨holds ends.1, fun value isValue => isResult (ends.2 value isValue)⟩

end Ends

/-- The files of the compiled modules, in the order of finishing. -/
def State.files (state : State) : List Path := state.compiled.map (·.file)

theorem State.files_finish (state : State) (module : Module) (fragment : Fragment) :
    (state.finish module fragment).files = state.files ++ [module.file] := by
  simp [State.files, State.finish]

/-- Whether an import has its file among those given, if it has one. -/
def Settled (settings : Settings) (files : List Path) (current : Option Path)
    (request : Import) : Prop :=
  Catalog.covers request.path = false →
    ∃ file ∈ files, locate settings.tree settings.roots request.path current = .ok file

/-- Whether a file can be read, and its imports have files among those given. -/
def Grounded (settings : Settings) (earlier : List Path) (file : Path) : Prop :=
  ∃ source requests, settings.tree.readText file = .ok source ∧ imports source = .ok requests ∧
    ∀ request ∈ requests, Check.isMarkerModule request.dotted = false →
      Settled settings earlier (some file) request

/-- Whether something is what the compilation of a file exports, under a path. -/
def Offers (settings : Settings) (file : Path) (fragment : Fragment) : Prop :=
  ∃ source dependencies compiled, settings.tree.readText file = .ok source ∧
    compile { kind := .library, support := settings.support } dependencies source = .ok compiled ∧
    fragment = retag ⟨fragment.path, compiled.exports⟩ fragment.path

/-- What is offered between loads is what the compiled files export, each compiled once. -/
structure Sound (settings : Settings) (state : State) : Prop where
  offered_eq : (state.loaded.map fun entry => (entry.1, entry.2.path)) =
    state.compiled.map fun module => (module.file, module.path)
  offers : ∀ entry ∈ state.loaded, Offers settings entry.1 entry.2
  distinct : state.files.Nodup
  grounded : ∀ (earlier : List Module) (module : Module) (later : List Module),
    state.compiled = earlier ++ module :: later →
    Grounded settings (earlier.map (·.file)) module.file
  dotted : ∀ module ∈ state.compiled, ∃ request : Import, request.IsNamed ∧
    module.path = request.dotted

theorem sound_empty (settings : Settings) : Sound settings .empty :=
  ⟨rfl, nofun, List.nodup_nil, by simp [State.empty], nofun⟩

variable {settings : Settings} {state : State}

theorem Sound.loaded_eq (sound : Sound settings state) :
    state.loaded.map (·.1) = state.files := by
  simpa [Function.comp_def, State.files] using congrArg (List.map Prod.fst) sound.offered_eq

theorem Sound.congr {state' : State} (sound : Sound settings state)
    (loaded_eq : state'.loaded = state.loaded) (compiled_eq : state'.compiled = state.compiled) :
    Sound settings state' := by
  have files_eq : state'.files = state.files := by rw [State.files, State.files, compiled_eq]
  refine ⟨?_, ?_, ?_, ?_, ?_⟩
  · rw [loaded_eq, compiled_eq, sound.offered_eq]
  · rw [loaded_eq]
    exact sound.offers
  · rw [files_eq]
    exact sound.distinct
  · rw [compiled_eq]
    exact sound.grounded
  · rw [compiled_eq]
    exact sound.dotted

theorem Sound.finish (sound : Sound settings state) {request : Import}
    (named : request.IsNamed) {file : Path} {text : String}
    {symbols : List Symbol} (isNew : file ∉ state.files)
    (offers : Offers settings file ⟨request.dotted, symbols⟩)
    (grounded : Grounded settings state.files file) :
    Sound settings (state.finish ⟨request.dotted, file, text⟩ ⟨request.dotted, symbols⟩) := by
  refine ⟨?_, ?_, ?_, ?_, ?_⟩
  · simp [State.finish, sound.offered_eq]
  · exact List.forall_mem_append.mpr ⟨sound.offers, by simpa using offers⟩
  · rw [State.files_finish]
    exact sound.distinct.append (List.nodup_singleton _) (by simpa using isNew)
  · intro earlier other later split
    rcases List.eq_nil_or_concat later with rfl | ⟨later, last, rfl⟩
    · obtain ⟨rfl, isModule⟩ := List.append_inj' split rfl
      obtain rfl := List.singleton_inj.mp isModule
      exact grounded
    · rw [List.concat_eq_append, ← List.cons_append, ← List.append_assoc] at split
      obtain ⟨isSplit, _⟩ := List.append_inj' split rfl
      exact sound.grounded earlier other later isSplit
  · intro module member
    rcases List.mem_append.mp member with earlier | isNew
    · exact sound.dotted module earlier
    · rw [List.mem_singleton.mp isNew]
      exact ⟨request, named, rfl⟩

theorem State.fragment?_mono {before after : State} (more : before.loaded <+: after.loaded)
    {file : Path} {fragment : Fragment} (known : before.fragment? file = some fragment) :
    after.fragment? file = some fragment := by
  obtain ⟨others, isMore⟩ := more
  obtain ⟨entry, found, rfl⟩ := Option.map_eq_some_iff.mp known
  simp [State.fragment?, ← isMore, found]

/-- What a file offers is known exactly when the file was compiled. -/
theorem Sound.isSome_fragment?_iff (sound : Sound settings state) (file : Path) :
    (state.fragment? file).isSome ↔ file ∈ state.files := by
  rw [← sound.loaded_eq, State.fragment?, Option.isSome_map, List.find?_isSome]
  simp

/-- Whether one sound state becomes another by compiling only given files. -/
structure Advances (settings : Settings) (free : List Path) (before after : State) : Prop where
  sound : Sound settings after
  active_eq : after.active = before.active
  files_eq : ∃ more, after.files = before.files ++ more ∧ more ⊆ free
  loaded_prefix : before.loaded <+: after.loaded

namespace Advances

variable {settings : Settings} {free : List Path} {before middle after : State}

theorem of_eq (sound : Sound settings before) (active_eq : after.active = before.active)
    (loaded_eq : after.loaded = before.loaded) (compiled_eq : after.compiled = before.compiled) :
    Advances settings free before after := by
  refine ⟨sound.congr loaded_eq compiled_eq, active_eq, ⟨[], ?_, List.nil_subset free⟩, ?_⟩
  · rw [State.files, State.files, compiled_eq, List.append_nil]
  · exact loaded_eq ▸ List.prefix_rfl

theorem refl (sound : Sound settings before) : Advances settings free before before :=
  .of_eq sound rfl rfl rfl

theorem trans (first : Advances settings free before middle)
    (second : Advances settings free middle after) : Advances settings free before after := by
  obtain ⟨more, isMore, allowed⟩ := first.files_eq
  obtain ⟨others, areOthers, allowedOthers⟩ := second.files_eq
  refine ⟨second.sound, second.active_eq.trans first.active_eq, ⟨more ++ others, ?_, ?_⟩,
    first.loaded_prefix.trans second.loaded_prefix⟩
  · rw [areOthers, isMore, List.append_assoc]
  · exact List.append_subset.mpr ⟨allowed, allowedOthers⟩

theorem mono {free' : List Path} (advances : Advances settings free before after)
    (subset : free ⊆ free') : Advances settings free' before after := by
  obtain ⟨more, isMore, allowed⟩ := advances.files_eq
  exact ⟨advances.sound, advances.active_eq, ⟨more, isMore, List.Subset.trans allowed subset⟩,
    advances.loaded_prefix⟩

theorem finish {request : Import}
    (named : request.IsNamed) {file : Path} {text : String}
    {symbols : List Symbol} (advances : Advances settings free before after) (isFree : file ∈ free)
    (isNew : file ∉ after.files) (offers : Offers settings file ⟨request.dotted, symbols⟩)
    (grounded : Grounded settings after.files file) :
    Advances settings free before
      (after.finish ⟨request.dotted, file, text⟩ ⟨request.dotted, symbols⟩) := by
  obtain ⟨more, isMore, allowed⟩ := advances.files_eq
  refine ⟨advances.sound.finish named isNew offers grounded, advances.active_eq,
    ⟨more ++ [file], ?_, ?_⟩, advances.loaded_prefix.trans (List.prefix_append _ _)⟩
  · rw [State.files_finish, isMore, List.append_assoc]
  · exact List.append_subset.mpr ⟨allowed, by simpa using isFree⟩

theorem leave {file : Path}
    (inside : Advances settings (without free file) (before.enter file) after) :
    Advances settings free before after.leave := by
  refine ⟨inside.sound.congr rfl rfl, ?_, (inside.mono (List.filter_subset_self free)).files_eq,
    inside.loaded_prefix⟩
  rw [State.leave, inside.active_eq, State.enter]
  exact List.dropLast_concat

theorem notMem_files {file : Path}
    (inside : Advances settings (without free file) before after) (isNew : file ∉ before.files) :
    file ∉ after.files := by
  obtain ⟨more, isMore, allowed⟩ := inside.files_eq
  rw [isMore, List.mem_append]
  rintro (earlier | later)
  · exact isNew earlier
  · simpa [without] using allowed later

end Advances

/-! ## Imports -/

variable {free : List Path} {current : Option Path} {request : Import} {requests : List Import}
  {fragment : Fragment} {found : List Fragment} {loader : Import → Loading Fragment}

/-- Whether an import got what the file of its module offers, under its own path. -/
def Served (settings : Settings) (state : State) (current : Option Path) (request : Import)
    (fragment : Fragment) : Prop :=
  Catalog.covers request.path = false →
    ∃ file first, locate settings.tree settings.roots request.path current = .ok file ∧
      state.fragment? file = some first ∧ fragment = retag first request.dotted

theorem Served.mono {after : State} (served : Served settings state current request fragment)
    (more : state.loaded <+: after.loaded) :
    Served settings after current request fragment := by
  intro isFile
  obtain ⟨file, first, located, known, isFragment⟩ := served isFile
  exact ⟨file, first, located, State.fragment?_mono more known, isFragment⟩

/-- Only free files are compiled, and an import gets what its file offers. -/
def LoadsWell (settings : Settings) (free : List Path) (current : Option Path)
    (load : Import → Loading Fragment) : Prop :=
  ∀ (request : Import) {before : State}, request.IsNamed → Sound settings before →
    Ends (load request) before (Advances settings free before) fun fragment after =>
      fragment.path = request.dotted ∧ Served settings after current request fragment

/-- What was found for some imports: each path once, with what it got. -/
structure Gathered (settings : Settings) (state : State) (current : Option Path)
    (requests : List Import) (found : List Fragment) : Prop where
  distinct : (found.map (·.path)).Nodup
  complete : ∀ request ∈ requests, Check.isMarkerModule request.dotted = false →
    ∃ fragment ∈ found, fragment.path = request.dotted
  served : ∀ fragment ∈ found, ∃ request ∈ requests, request.IsNamed ∧
    request.dotted = fragment.path ∧ Served settings state current request fragment

/-- Imports of one dotted path ask for the same file. -/
theorem Gathered.served_of_path (gathered : Gathered settings state current requests found)
    (named : request.IsNamed) (member : fragment ∈ found)
    (isPath : fragment.path = request.dotted) :
    Served settings state current request fragment := by
  obtain ⟨other, _, otherNamed, sameDotted, served⟩ := gathered.served fragment member
  have samePath : other.path = request.path :=
    eq_of_dotted_eq otherNamed named (sameDotted.trans isPath)
  rw [Served, Import.dotted, samePath] at served
  exact served

/-- Imports are settled once all that they need is gathered. -/
theorem Gathered.settled (gathered : Gathered settings state current requests found)
    (sound : Sound settings state) (named : ∀ request ∈ requests, request.IsNamed) :
    ∀ request ∈ requests, Check.isMarkerModule request.dotted = false →
      Settled settings state.files current request := by
  intro request member notMarker isFile
  obtain ⟨fragment, isFound, isPath⟩ := gathered.complete request member notMarker
  obtain ⟨file, first, located, known, _⟩ :=
    gathered.served_of_path (named request member) isFound isPath isFile
  exact ⟨file, (sound.isSome_fragment?_iff file).mp (by simp [known]), located⟩

/-- What an import needs is added, unless it is there already. -/
theorem ends_gatherOne (loads : LoadsWell settings free current loader) (named : request.IsNamed)
    {before : State} (sound : Sound settings before)
    (gathered : Gathered settings before current requests found) :
    Ends (gatherOne loader found request) before (Advances settings free before) fun found after =>
      Gathered settings after current (requests ++ [request]) found := by
  rw [gatherOne]
  split
  · rename_i passed
    refine .pure (.refl sound) ⟨gathered.distinct, ?_, fun fragment member => ?_⟩
    · refine List.forall_mem_append.mpr ⟨gathered.complete, fun other isLast notMarker => ?_⟩
      obtain rfl := List.mem_singleton.mp isLast
      simpa [notMarker] using passed
    · obtain ⟨other, earlier, served⟩ := gathered.served fragment member
      exact ⟨other, List.mem_append_left _ earlier, served⟩
  · rename_i needed
    refine (loads request named sound).bind fun {fragment after} advances loaded =>
      .pure advances ⟨?_, ?_, ?_⟩
    · rw [List.map_append]
      refine gathered.distinct.append (List.nodup_singleton _) ?_
      simp_all
    · refine List.forall_mem_append.mpr ⟨fun other earlier notMarker => ?_, ?_⟩
      · obtain ⟨known, isKnown, isPath⟩ := gathered.complete other earlier notMarker
        exact ⟨known, List.mem_append_left _ isKnown, isPath⟩
      · intro other isLast _
        obtain rfl := List.mem_singleton.mp isLast
        exact ⟨fragment, List.mem_concat_self, loaded.1⟩
    · refine List.forall_mem_append.mpr ⟨fun known isKnown => ?_, fun new isNew => ?_⟩
      · obtain ⟨other, earlier, named, isPath, served⟩ := gathered.served known isKnown
        exact ⟨other, List.mem_append_left _ earlier, named, isPath,
          served.mono advances.loaded_prefix⟩
      · obtain rfl := List.mem_singleton.mp isNew
        exact ⟨request, List.mem_concat_self, named, loaded.1.symm, loaded.2⟩

theorem ends_gather (loads : LoadsWell settings free current loader)
    (named : ∀ request ∈ requests, request.IsNamed) {before : State}
    (sound : Sound settings before) :
    Ends (gather loader requests) before (Advances settings free before) fun found after =>
      Gathered settings after current requests found := by
  -- The induction is on the imports that are left, after those for which something was found.
  suffices left : ∀ (done : List Import) (found : List Fragment),
      Gathered settings before current done found →
      Ends (requests.foldlM (gatherOne loader) found) before (Advances settings free before)
        fun found after => Gathered settings after current (done ++ requests) found from
    left [] [] ⟨List.nodup_nil, nofun, nofun⟩
  induction requests generalizing before with
  | nil =>
      intro done found gathered
      rw [List.append_nil]
      exact .pure (.refl sound) gathered
  | cons request requests induction =>
      intro done found gathered
      obtain ⟨first, others⟩ := List.forall_mem_cons.mp named
      rw [List.foldlM_cons]
      refine (ends_gatherOne loads first sound gathered).bind
        fun {found middle} advances gathered => ?_
      have rest := induction others advances.sound _ found gathered
      rw [List.append_assoc] at rest
      exact ⟨advances.trans rest.1, rest.2⟩

/-- A file is compiled once all that it imports is settled. -/
theorem ends_compileFile {file : Path} (named : request.IsNamed)
    (loads : LoadsWell settings (without free file) (some file) loader) {before : State}
    (sound : Sound settings before) (isFree : file ∈ free) (isNew : file ∉ before.files) :
    Ends (compileFile settings loader request.dotted file) before (Advances settings free before)
      fun fragment after =>
        fragment = retag fragment request.dotted ∧ after.fragment? file = some fragment := by
  have begun : Advances settings free before (before.begin request.dotted file) :=
    .of_eq sound rfl rfl rfl
  have entered : Sound settings ((before.begin request.dotted file).enter file) :=
    sound.congr rfl rfl
  rw [compileFile]
  refine .modify (.lift begun fun source isSource => ?_)
  -- Whatever fails in between, the file is left again.
  have inside : Ends (within file do
      let requests ← importsFor source (some file)
      let dependencies ← gather loader requests
      (compile { kind := .library, support := settings.support } dependencies source).mapError
        (Failure.compile request.dotted file)) (before.begin request.dotted file)
      (Advances settings free before)
      fun compiled after => file ∉ after.files ∧
        Offers settings file (retag ⟨request.dotted, compiled.exports⟩ request.dotted) ∧
        Grounded settings after.files file := by
    have left {inner : State} (advances : Advances settings (without free file)
        ((before.begin request.dotted file).enter file) inner) :
        Advances settings free before inner.leave := begun.trans advances.leave
    refine .within (.lift (left (.refl entered)) fun requests areRequests => ?_)
    have isRead : imports source = .ok requests := Outcome.mapError_eq_ok.mp areRequests
    have named := isNamed_of_imports isRead
    refine ((ends_gather loads named entered).bind fun {found inner} advances gathered =>
      .lift_last advances fun compiled isCompiled => ?_).mono left id
    have isText := Outcome.mapError_eq_ok.mp isSource
    exact ⟨advances.notMem_files isNew,
      ⟨source, found, compiled, isText, Outcome.mapError_eq_ok.mp isCompiled, by simp [retag]⟩,
      source, requests, isText, isRead, gathered.settled advances.sound named⟩
  refine inside.bind fun {compiled after} advances ready => .modify (.pure ?_ ⟨?_, ?_⟩)
  · exact advances.finish named isFree ready.1 ready.2.1 ready.2.2
  · simp [retag]
  · have unknown : after.fragment? file = none := by
      simpa [ready.1] using advances.sound.isSome_fragment?_iff file
    rw [State.fragment?, Option.map_eq_none_iff] at unknown
    simp [State.fragment?, State.finish, unknown]

theorem path_of_fragment {path : List String} {fragment : Fragment}
    (offered : Catalog.fragment path = .ok fragment) : fragment.path = ".".intercalate path := by
  unfold Catalog.fragment at offered
  split at offered
  · split at offered
    · rw [← Except.ok.inj offered]
    · simp at offered
  · simp at offered

/-- Loading an import compiles only free files, and serves the import. -/
theorem loadsWell_load (settings : Settings) (free : List Path) (current : Option Path) :
    LoadsWell settings free current (load settings free current) := by
  intro request before named sound
  rw [load]
  split
  · rename_i covered
    rw [fromCatalog]
    refine .lift (.refl sound) fun fragment offered => .modify (.pure (.of_eq sound rfl rfl rfl) ?_)
    refine ⟨path_of_fragment (Outcome.mapError_eq_ok.mp offered), ?_⟩
    simp [Served, covered]
  · refine .lift (.refl sound) fun file located => ?_
    split
    · rename_i isFree
      -- What a file imports is loaded without the file, so the recursion is on the free files.
      have := length_without_lt isFree
      refine .get ?_
      cases offered : before.fragment? file with
      | some first =>
          exact .pure (.refl sound) ⟨rfl, fun _ => ⟨file, first, located, offered, rfl⟩⟩
      | none =>
          have loads := loadsWell_load settings (without free file) (some file)
          have isNew : file ∉ before.files := by
            simpa [offered] using sound.isSome_fragment?_iff file
          refine (ends_compileFile named loads sound isFree isNew).mono id ?_
          intro fragment after compiled
          exact ⟨congrArg Fragment.path compiled.1,
            fun _ => ⟨file, fragment, located, compiled.2, compiled.1⟩⟩
    · exact .get (.throw (.refl sound))
termination_by free.length

/-- The state after a call for what a source imports, also where it fails. -/
def afterCall (settings : Settings) (state : State) (call : String × Option Path) : State :=
  ((fragmentsFor settings call.1 call.2).run.run state).2

/-- A call compiles only free files of the tree, and gathers what its source imports. -/
theorem ends_fragmentsFor (sound : Sound settings state) (source : String) (current : Option Path) :
    Ends (fragmentsFor settings source current) state
      (Advances settings ((filesOf settings.tree).filter (· ∉ state.active)) state)
      fun found after => ∃ requests, imports source = .ok requests ∧
        Gathered settings after current requests found := by
  rw [fragmentsFor]
  refine .lift (.refl sound) fun requests areRequests => .get ?_
  have isRead : imports source = .ok requests := Outcome.mapError_eq_ok.mp areRequests
  exact (ends_gather (loadsWell_load settings _ current) (isNamed_of_imports isRead) sound).mono id
    fun gathered => ⟨requests, isRead, gathered⟩

/-- A call compiles only files of the tree. -/
theorem advances_afterCall (sound : Sound settings state) (call : String × Option Path) :
    Advances settings (filesOf settings.tree) state (afterCall settings state call) :=
  (ends_fragmentsFor sound call.1 call.2).1.mono (List.filter_subset_self _)

theorem sound_afterCalls (settings : Settings) (calls : List (String × Option Path)) :
    Sound settings (calls.foldl (afterCall settings) .empty) := by
  have start := sound_empty settings
  generalize State.empty = state at start
  induction calls generalizing state with
  | nil => exact start
  | cons call calls induction => exact induction _ (advances_afterCall start call).sound

/-- A call leaves the files that are being compiled as they were. Since the first call no file was
compiled twice, exactly the compiled files offer something, and every module was finished after
those that it imports. -/
theorem compiled_after_imports (settings : Settings) (calls : List (String × Option Path))
    (call : String × Option Path) :
    let state := calls.foldl (afterCall settings) .empty
    let next := afterCall settings state call
    next.active = state.active ∧ (next.compiled.map (·.file)).Nodup ∧
      next.loaded.map (·.1) = next.compiled.map (·.file) ∧
      ∀ (earlier : List Module) (module : Module) (later : List Module),
        next.compiled = earlier ++ module :: later →
        Grounded settings (earlier.map (·.file)) module.file := by
  intro state next
  have advances : Advances settings _ state next :=
    advances_afterCall (sound_afterCalls settings calls) call
  exact ⟨advances.active_eq, advances.sound.distinct, advances.sound.loaded_eq,
    advances.sound.grounded⟩

end Library

end Offside
