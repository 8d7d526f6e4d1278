import Mathlib.Data.List.Chain
import Mathlib.Logic.Relation
import Offside.Proofs.Library.Loading
import Offside.Proofs.Library.Locating

/-!
# Cycles of imports

Loading goes from file to file along imports and stops where it comes back to a file that is being
compiled. It goes no deeper than there are files, it reports a cycle only where it has followed one,
and it succeeds only where there is none.
-/

namespace Offside

namespace Library

/-- Whether a source, which may have a file, imports the module in a file. -/
def Imports (settings : Settings) (source : String) (current : Option Path) (file : Path) : Prop :=
  ∃ requests, imports source = .ok requests ∧ ∃ request ∈ requests,
    Check.isMarkerModule request.dotted = false ∧ Catalog.covers request.path = false ∧
      locate settings.tree settings.roots request.path current = .ok file

/-- Whether the source in one file imports the module in another. -/
def Leads (settings : Settings) (file other : Path) : Prop :=
  ∃ source, settings.tree.readText file = .ok source ∧ Imports settings source (some file) other

/-- Whether a source needs a file, by imports at any depth. -/
def Reaches (settings : Settings) (source : String) (current : Option Path) (file : Path) : Prop :=
  ∃ first, Imports settings source current first ∧
    Relation.ReflTransGen (Leads settings) first file

/-- Whether files go round: the last is the first again, and each imports the next. -/
structure Circular (settings : Settings) (files : List Path) : Prop where
  closed : ∃ file inner, files = file :: inner ++ [file]
  chain : files.IsChain (Leads settings)

variable {settings : Settings} {state : State} {file : Path} {current : Option Path}

/-- A compiled file comes after every file that it imports. -/
theorem Sound.idxOf_lt (sound : Sound settings state) {other : Path} (compiled : file ∈ state.files)
    (leads : Leads settings file other) :
    other ∈ state.files ∧ state.files.idxOf other < state.files.idxOf file := by
  obtain ⟨module, isModule, rfl⟩ := List.mem_map.mp compiled
  obtain ⟨earlier, later, split⟩ := List.append_of_mem isModule
  obtain ⟨source, requests, isSource, areRequests, settled⟩ :=
    sound.grounded earlier module later split
  obtain ⟨source', isSource', requests', areRequests', request, member, notMarker, notCovered,
    located⟩ := leads
  obtain rfl : source = source' := Except.ok.inj (isSource.symm.trans isSource')
  obtain rfl : requests = requests' := Except.ok.inj (areRequests.symm.trans areRequests')
  obtain ⟨found, isEarlier, located'⟩ := settled request member notMarker notCovered
  obtain rfl : other = found := Except.ok.inj (located.symm.trans located')
  have files_eq : state.files =
      earlier.map (·.file) ++ module.file :: later.map (·.file) := by
    rw [State.files, split, List.map_append, List.map_cons]
  have isLater : module.file ∉ earlier.map (·.file) := by
    have distinct := sound.distinct
    rw [files_eq] at distinct
    intro twice
    exact List.disjoint_of_nodup_append distinct twice List.mem_cons_self
  have earlier_lt : (earlier.map (·.file)).idxOf other < (earlier.map (·.file)).length :=
    List.idxOf_lt_length_iff.mpr isEarlier
  rw [files_eq, List.idxOf_append_of_mem isEarlier, List.idxOf_append_of_notMem isLater]
  exact ⟨List.mem_append_left _ isEarlier, by omega⟩

/-- No compiled file imports itself through others. -/
theorem Sound.not_transGen_self (sound : Sound settings state) (compiled : file ∈ state.files) :
    ¬ Relation.TransGen (Leads settings) file file := by
  have earlier {other : Path} (leads : Relation.TransGen (Leads settings) file other) :
      other ∈ state.files ∧ state.files.idxOf other < state.files.idxOf file := by
    induction leads with
    | single leads => exact sound.idxOf_lt compiled leads
    | tail _ leads induction =>
        have next := sound.idxOf_lt induction.1 leads
        exact ⟨next.1, next.2.trans induction.2⟩
  intro cycle
  exact (earlier cycle).2.false

/-- All that a source needs was compiled once its own imports were. -/
theorem Sound.mem_files_of_reaches (sound : Sound settings state) {source : String}
    (imported : ∀ file, Imports settings source current file → file ∈ state.files)
    (reaches : Reaches settings source current file) : file ∈ state.files := by
  obtain ⟨first, isFirst, leads⟩ := reaches
  induction leads with
  | refl => exact imported first isFirst
  | tail _ leads induction => exact (sound.idxOf_lt induction leads).1

/-! ## Loading to a depth -/

/-- Loads a module, with a given way to load what it imports. -/
def loadBy (settings : Settings) (deeper : Option Path → Import → Loading Fragment)
    (current : Option Path) (request : Import) : Loading Fragment := do
  if Catalog.covers request.path then fromCatalog request
  else
    let file ← locate settings.tree settings.roots request.path current
    let state ← get
    if file ∈ state.active then throw (.cycle (cycleOf state.active file))
    else match state.fragment? file with
      | some fragment => return retag fragment request.dotted
      | none => compileFile settings (deeper (some file)) request.dotted file

/-- Loads a module with only so many loads inside each other. -/
def loadTo (settings : Settings) (deeper : Option Path → Import → Loading Fragment) :
    Nat → Option Path → Import → Loading Fragment
  | 0 => deeper
  | depth + 1 => loadBy settings (loadTo settings deeper depth)

/-- What a source imports, with only so many loads inside each other. -/
def fragmentsTo (settings : Settings) (deeper : Option Path → Import → Loading Fragment)
    (depth : Nat) (source : String) (current : Option Path) : Loading (List Fragment) := do
  let requests ← importsFor source current
  gather (loadTo settings deeper depth current) requests

/-- Two actions that do the same in a state, or fail for a reason. -/
structure Agrees {α : Type} (reason : Failure → Prop) (state : State) (action other : Loading α) :
    Prop where
  run_eq : action.run state = other.run state
  reason : ∀ failure, (action.run state).1 = .error failure → reason failure

namespace Agrees

variable {α β : Type} {reason : Failure → Prop} {state : State}

theorem pure (value : α) : Agrees reason state (pure value) (pure value) := by
  refine ⟨rfl, fun failure failed => ?_⟩
  have isOk : (Except.ok value : Except Failure α) = .error failure := failed
  simp at isOk

theorem throw {failure : Failure} (isReason : reason failure) :
    Agrees reason state (throw failure : Loading α) (throw failure) := by
  refine ⟨rfl, fun other isOther => ?_⟩
  obtain rfl := Except.error.inj isOther
  exact isReason

theorem bind {action other : Loading α} {next next' : α → Loading β}
    (first : Agrees reason state action other)
    (follow : ∀ value, Agrees reason (action.run state).2 (next value) (next' value)) :
    Agrees reason state (action >>= next) (other >>= next') := by
  have sequence : (action >>= next).run state =
      ExceptT.bindCont next (action.run state).1 (action.run state).2 := rfl
  have sequence' : (other >>= next').run state =
      ExceptT.bindCont next' (action.run state).1 (action.run state).2 := by
    rw [first.run_eq]
    rfl
  have reasons := first.reason
  cases ended : (action.run state).1 with
  | error failure =>
      rw [ended] at sequence sequence' reasons
      refine ⟨sequence.trans sequence'.symm, fun other failed => ?_⟩
      rw [sequence] at failed
      obtain rfl : failure = other := Except.error.inj failed
      exact reasons failure rfl
  | ok value =>
      rw [ended] at sequence sequence'
      refine ⟨?_, fun failure failed => (follow value).reason failure ?_⟩
      · rw [sequence, sequence']
        exact (follow value).run_eq
      · rw [sequence] at failed
        exact failed

theorem lift {outcome : Except Failure α} {next next' : α → Loading β}
    (reasons : ∀ failure, outcome = .error failure → reason failure)
    (follow : ∀ value, outcome = .ok value → Agrees reason state (next value) (next' value)) :
    Agrees reason state (liftM outcome >>= next) (liftM outcome >>= next') := by
  cases outcome with
  | error failure => exact throw (reasons failure rfl)
  | ok value => exact follow value rfl

theorem lift_last {outcome : Except Failure α}
    (reasons : ∀ failure, outcome = .error failure → reason failure) :
    Agrees reason state (liftM outcome) (liftM outcome) := ⟨rfl, reasons⟩

theorem get_left {next : State → Loading β} {other : Loading β}
    (agrees : Agrees reason state (next state) other) :
    Agrees reason state (get >>= next) other := ⟨agrees.run_eq, agrees.reason⟩

theorem get_right {next : State → Loading β} {action : Loading β}
    (agrees : Agrees reason state action (next state)) :
    Agrees reason state action (get >>= next) := ⟨agrees.run_eq, agrees.reason⟩

theorem modify {change : State → State} {next next' : PUnit → Loading β}
    (agrees : Agrees reason (change state) (next ⟨⟩) (next' ⟨⟩)) :
    Agrees reason state (modify change >>= next) (modify change >>= next') :=
  ⟨agrees.run_eq, agrees.reason⟩

theorem within {file : Path} {action other : Loading α}
    (inside : Agrees reason (state.enter file) action other) :
    Agrees reason state (within file action) (within file other) := by
  refine ⟨?_, inside.reason⟩
  exact congrArg (fun ended : Except Failure α × State => (ended.1, ended.2.leave)) inside.run_eq

end Agrees

theorem LoadsWell.advances_gatherOne {free : List Path} {load : Import → Loading Fragment}
    (loads : LoadsWell settings free current load) (found : List Fragment) {request : Import}
    (named : request.IsNamed) (sound : Sound settings state) :
    Advances settings free state ((gatherOne load found request).run state).2 := by
  have ends : Ends (gatherOne load found request) state (Advances settings free state)
      fun _ _ => True := by
    rw [gatherOne]
    split
    · exact .pure (.refl sound) trivial
    · exact (loads request named sound).bind fun advances _ => .pure advances trivial
  exact ends.1

theorem Agrees.gather {reason : Failure → Prop} {settings : Settings} {free : List Path}
    {current : Option Path} {load other : Import → Loading Fragment}
    (loads : LoadsWell settings free current load) {requests : List Import} {state : State}
    (named : ∀ request ∈ requests, request.IsNamed)
    (alike : ∀ request ∈ requests, Check.isMarkerModule request.dotted = false →
      ∀ {later : State}, Sound settings later → later.active = state.active →
        Agrees reason later (load request) (other request))
    (sound : Sound settings state) :
    Agrees reason state (gather load requests) (gather other requests) := by
  rw [Library.gather, Library.gather]
  generalize ([] : List Fragment) = found
  -- The state moves on with every import, but what is being compiled stays.
  induction requests generalizing found state with
  | nil => exact .pure found
  | cons request requests induction =>
      have one : Agrees reason state (gatherOne load found request)
          (gatherOne other found request) := by
        rw [gatherOne, gatherOne]
        split
        · exact .pure found
        · rename_i needed
          have notMarker : Check.isMarkerModule request.dotted = false :=
            (Bool.or_eq_false_iff.mp (Bool.eq_false_iff.mpr needed)).1
          exact (alike request List.mem_cons_self notMarker sound rfl).bind fun _ => .pure _
      obtain ⟨first, others⟩ := List.forall_mem_cons.mp named
      have moves := loads.advances_gatherOne found first sound
      rw [List.foldlM_cons, List.foldlM_cons]
      refine one.bind fun found' => ?_
      refine induction others ?_ moves.sound found'
      intro request' member notMarker later soundLater isActive
      exact alike request' (List.mem_cons_of_mem _ member) notMarker soundLater
        (isActive.trans moves.active_eq)

theorem Failure.cycle_of_message {failure : Failure} {text : String}
    (reads : failure.message = "import cycle: " ++ text) :
    ∃ files, failure = .cycle files ∧ text = " -> ".intercalate (files.map (·.text)) := by
  -- No other message starts with the same letter.
  have starts : failure.message.toList.head? = some 'i' := by simp [reads]
  cases failure with
  | cycle files =>
      have same : "import cycle: " ++ " -> ".intercalate (files.map (·.text)) =
        "import cycle: " ++ text := reads
      exact ⟨files, rfl, by simpa using same.symm⟩
  | catalog fault =>
      cases fault
      all_goals
        unfold message headline Catalog.Fault.message at starts
        simp [cause?] at starts
  | imports file fault =>
      cases file
      all_goals
        unfold message headline at starts
        simp [cause?] at starts
  | _ =>
      unfold message headline at starts
      simp [cause?] at starts

/-- Whether a failure, if it reports a cycle, shows one. -/
def Shows (settings : Settings) (failure : Failure) : Prop :=
  ∀ files, failure = .cycle files → Circular settings files

/-- Whether the innermost file that is being compiled makes an import. -/
structure Comes (settings : Settings) (active : List Path) (current : Option Path)
    (request : Import) : Prop where
  chain : active.IsChain (Leads settings)
  last : ∀ file ∈ active.getLast?, current = some file ∧ ∃ source requests,
    settings.tree.readText file = .ok source ∧ imports source = .ok requests ∧ request ∈ requests
  notMarker : Check.isMarkerModule request.dotted = false

theorem Comes.chain_append {active : List Path} {request : Import}
    (comes : Comes settings active current request)
    (notCovered : Catalog.covers request.path = false)
    (located : locate settings.tree settings.roots request.path current = .ok file) :
    (active ++ [file]).IsChain (Leads settings) := by
  refine comes.chain.append (List.isChain_singleton file) ?_
  intro last isLast next isNext
  obtain rfl : file = next := by simpa using isNext
  obtain ⟨rfl, source, requests, isSource, areRequests, member⟩ := comes.last last isLast
  exact ⟨source, isSource, requests, areRequests, request, member, comes.notMarker, notCovered,
    located⟩

/-- A chain that comes back to one of its files ends in a cycle. -/
theorem circular_cycleOf {active : List Path} (chain : (active ++ [file]).IsChain (Leads settings))
    (isActive : file ∈ active) : Circular settings (cycleOf active file) := by
  obtain ⟨front, inner, rfl, isFirst⟩ := List.eq_append_cons_of_mem isActive
  have skipped : (front ++ file :: inner).dropWhile (· ≠ file) = file :: inner := by
    rw [List.dropWhile_append_of_pos]
    · simp
    · intro other member
      simpa using fun same : other = file => isFirst (same ▸ member)
  rw [cycleOf, skipped]
  refine ⟨⟨file, inner, rfl⟩, chain.suffix ⟨front, ?_⟩⟩
  rw [← List.append_assoc]

theorem shows_mapError {α ε : Type} {outcome : Except ε α} {rename : ε → Failure}
    (plain : ∀ fault files, rename fault ≠ .cycle files) :
    ∀ failure, outcome.mapError rename = .error failure → Shows settings failure := by
  intro failure failed files isCycle
  cases outcome with
  | ok value => simp [Except.mapError] at failed
  | error fault =>
      obtain rfl := Except.error.inj failed
      exact absurd isCycle (plain fault files)

/-- A file is compiled alike when its imports are gathered alike. -/
theorem agrees_compileFile {load other : Import → Loading Fragment} {path : String}
    (gathers : ∀ source requests, settings.tree.readText file = .ok source →
      imports source = .ok requests →
      Agrees (Shows settings) ((state.begin path file).enter file) (gather load requests)
        (gather other requests)) :
    Agrees (Shows settings) state (compileFile settings load path file)
      (compileFile settings other path file) := by
  rw [compileFile, compileFile]
  refine .modify (.lift (shows_mapError (by simp)) fun source isSource => ?_)
  refine .bind (.within (.lift (shows_mapError (by simp)) fun requests areRequests => ?_)) ?_
  · refine .bind ?_ fun _ => .lift_last (shows_mapError (by simp))
    exact gathers source requests (Outcome.mapError_eq_ok.mp isSource)
      (Outcome.mapError_eq_ok.mp areRequests)
  · exact fun _ => .modify (.pure _)

theorem without_filter (files active : List Path) (file : Path) :
    without (files.filter (· ∉ active)) file = files.filter (· ∉ active ++ [file]) := by
  rw [without, List.filter_filter]
  refine List.filter_congr fun other _ => ?_
  simp [and_comm]

/-- A load never goes deeper than there are free files, and a cycle that it reports is one. -/
theorem agrees_load (deeper : Option Path → Import → Loading Fragment) {depth : Nat}
    {request : Import} (sound : Sound settings state)
    (deep : ((filesOf settings.tree).filter (· ∉ state.active)).length < depth)
    (comes : Comes settings state.active current request) :
    Agrees (Shows settings) state
      (load settings ((filesOf settings.tree).filter (· ∉ state.active)) current request)
      (loadTo settings deeper depth current request) := by
  induction depth generalizing current request state with
  | zero => omega
  | succ depth induction =>
      rw [load, loadTo, loadBy]
      split
      · rw [fromCatalog]
        exact .lift (shows_mapError (by simp)) fun _ _ => .modify (.pure _)
      · rename_i covered
        have notCovered : Catalog.covers request.path = false := by simpa using covered
        refine .lift (fun failure failed files isCycle => ?_) fun file located => ?_
        · exact absurd (failed.trans (by rw [isCycle])) (locate_ne_cycle _ _ _ _ files)
        have chain := comes.chain_append notCovered located
        have isFile : file ∈ filesOf settings.tree := mem_filesOf_of_locate located
        by_cases isActive : file ∈ state.active
        · have notFree : file ∉ (filesOf settings.tree).filter (· ∉ state.active) := by
            simp [isActive]
          rw [dif_neg notFree]
          refine .get_left (.get_right ?_)
          rw [if_pos isActive]
          refine .throw fun files isCycle => ?_
          obtain rfl := Failure.cycle.inj isCycle
          exact circular_cycleOf chain isActive
        · have isFree : file ∈ (filesOf settings.tree).filter (· ∉ state.active) := by
            simpa [isActive] using isFile
          rw [dif_pos isFree]
          refine .get_left (.get_right ?_)
          rw [if_neg isActive]
          cases state.fragment? file with
          | some fragment => exact .pure _
          | none =>
              refine agrees_compileFile fun source requests isSource areRequests => ?_
              rw [without_filter]
              have shorter := length_without_lt isFree
              rw [without_filter] at shorter
              have entered : Sound settings ((state.begin request.dotted file).enter file) :=
                sound.congr rfl rfl
              refine .gather (loadsWell_load settings _ (some file))
                (isNamed_of_imports areRequests) ?_ entered
              intro inner member notMarker later soundLater isActive'
              have isStack : later.active = state.active ++ [file] := isActive'
              rw [← isStack] at chain shorter ⊢
              refine induction soundLater (by omega) ⟨chain, ?_, notMarker⟩
              intro last isLast
              obtain rfl : file = last := by simpa [isStack] using isLast
              exact ⟨rfl, source, requests, isSource, areRequests, member⟩

theorem active_afterCalls (settings : Settings) (calls : List (String × Option Path)) :
    (calls.foldl (afterCall settings) .empty).active = [] := by
  have start : Sound settings .empty ∧ State.empty.active = [] := ⟨sound_empty settings, rfl⟩
  generalize State.empty = state at start
  induction calls generalizing state with
  | nil => exact start.2
  | cons call calls induction =>
      have advances := advances_afterCall start.1 call
      exact induction _ ⟨advances.sound, advances.active_eq.trans start.2⟩

theorem agrees_fragmentsFor (sound : Sound settings state) (idle : state.active = [])
    (deeper : Option Path → Import → Loading Fragment) (source : String) (current : Option Path) :
    Agrees (Shows settings) state (fragmentsFor settings source current)
      (fragmentsTo settings deeper ((filesOf settings.tree).length + 1) source current) := by
  rw [fragmentsFor, fragmentsTo]
  refine .lift (shows_mapError (by simp)) fun requests areRequests => .get_left ?_
  have named := isNamed_of_imports (Outcome.mapError_eq_ok.mp areRequests)
  refine .gather (loadsWell_load settings _ current) named ?_ sound
  intro request _ notMarker later soundLater isActive
  rw [← isActive]
  have stillIdle : later.active = [] := isActive.trans idle
  have shorter := List.length_filter_le (· ∉ later.active) (filesOf settings.tree)
  refine agrees_load deeper soundLater (by omega) ⟨?_, ?_, notMarker⟩
  · rw [stillIdle]
    exact .nil
  · rw [stillIdle]
    rintro _ ⟨⟩

/-- After any calls on a tree without links, a call for what a source imports ends: loads never lie
deeper inside each other than there are files. If it succeeds, no file that the source needs imports
itself through others; the message of a cycle names files that go round. -/
theorem ends_acyclic_or_shows_cycle (settings : Settings) (calls : List (String × Option Path))
    (source : String) (current : Option Path) :
    let state := calls.foldl (afterCall settings) .empty
    let ended := (fragmentsFor settings source current).run state
    (∀ deeper, (fragmentsTo settings deeper ((filesOf settings.tree).length + 1) source
        current).run state = ended) ∧
      (∀ fragments, ended.1 = .ok fragments → ∀ file, Reaches settings source current file →
        ¬ Relation.TransGen (Leads settings) file file) ∧
      ∀ failure text, ended.1 = .error failure → failure.message = "import cycle: " ++ text →
        ∃ files, text = " -> ".intercalate (files.map (·.text)) ∧ Circular settings files := by
  intro state ended
  have sound : Sound settings state := sound_afterCalls settings calls
  have idle : state.active = [] := active_afterCalls settings calls
  refine ⟨fun deeper => ?_, fun fragments isOk file reaches => ?_, ?_⟩
  · exact (agrees_fragmentsFor sound idle deeper source current).run_eq.symm
  · obtain ⟨advances, gathers⟩ := ends_fragmentsFor sound source current
    obtain ⟨requests, areRequests, gathered⟩ := gathers fragments isOk
    apply advances.sound.not_transGen_self
    refine advances.sound.mem_files_of_reaches ?_ reaches
    rintro first ⟨others, areOthers, request, member, notMarker, notCovered, located⟩
    obtain rfl : requests = others := Except.ok.inj (areRequests.symm.trans areOthers)
    obtain ⟨found, isCompiled, located'⟩ := gathered.settled advances.sound
      (isNamed_of_imports areRequests) request member notMarker notCovered
    obtain rfl : first = found := Except.ok.inj (located.symm.trans located')
    exact isCompiled
  · intro failure text isFailure reads
    obtain ⟨files, rfl, isText⟩ := Failure.cycle_of_message reads
    have agrees := agrees_fragmentsFor sound idle (fun _ _ => throw .emptyPath) source current
    exact ⟨files, isText, agrees.reason _ isFailure files rfl⟩

end Library

end Offside
