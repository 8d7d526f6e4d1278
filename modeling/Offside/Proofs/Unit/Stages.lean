import Offside.Proofs.Grammar.Sources
import Offside.Proofs.Scope.Walk
import Offside.Proofs.Token.Balance
import Offside.Proofs.Unit.Rejections

/-!
# Faults and their stages

All stages share one type of faults. Later stages read texts with the earlier ones: the grammar cuts
quoted annotations into tokens, and the check and the lowering parse the texts whose sizes are asked
for. Each of them tells what stops such a reading as a fault of its own, in the words of the stage
that failed, so the fault of a unit names the stage that was under way.
-/

namespace Offside

open Outcome

/-- The stage at which a compilation stops, after all earlier ones went through. -/
inductive StopsAt (request : Request) (modules : List Fragment) (source : String) :
    Stage → Fault → Prop
  | scanning {fault : Fault} : tokenize source = .error fault →
      StopsAt request modules source .scanning fault
  | parsing {tokens : List Token} {fault : Fault} : tokenize source = .ok tokens →
      parseTokens tokens = .error fault → StopsAt request modules source .parsing fault
  | checking {tokens : List Token} {body : List Statement} {fault : Fault} :
      tokenize source = .ok tokens → parseTokens tokens = .ok body →
      analyze request.kind modules body = .error fault →
      StopsAt request modules source .checking fault
  | lowering {tokens : List Token} {body : List Statement} {table : Table} {fault : Fault} :
      tokenize source = .ok tokens → parseTokens tokens = .ok body →
      analyze request.kind modules body = .ok table →
      generate table request.support request.kind body = .error fault →
      StopsAt request modules source .lowering fault

variable {fault : Fault} {source : String}

/-- A compilation fails with the fault of the first stage that does. -/
theorem compile_eq_error_iff {request : Request} {modules : List Fragment} :
    compile request modules source = .error fault ↔
      ∃ stage, StopsAt request modules source stage fault := by
  constructor
  · intro failed
    unfold compile at failed
    cases scanned : tokenize source with
    | error cause =>
        rw [scanned] at failed
        obtain rfl := Except.error.inj failed
        exact ⟨_, .scanning scanned⟩
    | ok tokens =>
        rw [scanned, ok_bind] at failed
        cases parsed : parseTokens tokens with
        | error cause =>
            rw [parsed] at failed
            obtain rfl := Except.error.inj failed
            exact ⟨_, .parsing scanned parsed⟩
        | ok body =>
            rw [parsed, ok_bind] at failed
            cases checked : analyze request.kind modules body with
            | error cause =>
                rw [checked] at failed
                obtain rfl := Except.error.inj failed
                exact ⟨_, .checking scanned parsed checked⟩
            | ok table =>
                rw [checked, ok_bind] at failed
                cases lowered : generate table request.support request.kind body with
                | error cause =>
                    rw [lowered] at failed
                    obtain rfl := Except.error.inj failed
                    exact ⟨_, .lowering scanned parsed checked lowered⟩
                | ok unit =>
                    rw [lowered] at failed
                    exact nomatch failed
  · rintro ⟨_, stops⟩
    unfold compile
    cases stops with
    | scanning scanned => rw [scanned, error_bind]
    | parsing scanned parsed => rw [scanned, ok_bind, parsed, error_bind]
    | checking scanned parsed checked =>
        rw [scanned, ok_bind, parsed, ok_bind, checked, error_bind]
    | lowering scanned parsed checked lowered =>
        rw [scanned, ok_bind, parsed, ok_bind, checked, ok_bind, lowered, error_bind]

/-- A source cannot be scanned exactly if its last token stands for a fault. -/
theorem tokenize_cases (source : String) :
    (∃ fault, tokenize source = .error (.scanning fault) ∧
      Grammar.scanFault? (Token.ofSource source) = some fault) ∨
    (tokenize source = .ok (Token.ofSource source) ∧
      Grammar.scanFault? (Token.ofSource source) = none) := by
  have closes : Token.Closes 0 (Token.ofSource source) :=
    .of_scans (Token.scans_ofSource source) (by simp)
  obtain ⟨front, last, scanned, ends, inside⟩ := closes.ends
  have before : Grammar.scanFault? front = none := by
    refine List.find?_eq_none.mpr fun token member isError => inside token member (.inr ?_)
    simpa using isError
  rw [Grammar.scanFault?] at before
  rw [tokenize, scanned, List.getLast?_concat, Grammar.scanFault?, List.find?_append, before]
  by_cases isError : last.kind = .error
  · exact .inl ⟨last, by simp [isError], by simp [isError]⟩
  · exact .inr ⟨by simp [isError], by simp [isError]⟩

theorem scanFault?_of_error (failed : tokenize source = .error fault) :
    ∃ token, fault = .scanning token ∧
      Grammar.scanFault? (Token.ofSource source) = some token := by
  rcases tokenize_cases source with ⟨token, isFault, found⟩ | ⟨isTokens, _⟩
  · rw [failed] at isFault
    exact ⟨token, Except.error.inj isFault, found⟩
  · rw [failed] at isTokens
    cases isTokens

theorem scanFault?_of_ok {tokens : List Token} (scanned : tokenize source = .ok tokens) :
    tokens = Token.ofSource source ∧ Grammar.scanFault? (Token.ofSource source) = none := by
  rcases tokenize_cases source with ⟨token, isFault, _⟩ | ⟨isTokens, sound⟩
  · rw [scanned] at isFault
    cases isFault
  · rw [scanned] at isTokens
    exact ⟨Except.ok.inj isTokens, sound⟩

theorem stage_of_tokenize (failed : tokenize source = .error fault) : fault.stage = .scanning := by
  obtain ⟨token, rfl, _⟩ := scanFault?_of_error failed
  rfl

/-- Whether a fault has the place that faults of its stage are told with. -/
def Fault.isPlaced : Fault → Bool
  | .parsing _ place => place.isSome
  | .checking _ line => line.isSome
  | _ => true

theorem Fault.endingAt_of_parsing {last : Token} (isParsing : fault.stage = .parsing) :
    (fault.endingAt last).stage = .parsing ∧ (fault.endingAt last).isPlaced = true := by
  cases fault with
  | parsing reason place => cases place <;> exact ⟨rfl, rfl⟩
  | _ => cases isParsing

theorem stage_of_parseTokens {tokens : List Token} (scanned : tokenize source = .ok tokens)
    (failed : parseTokens tokens = .error fault) :
    fault.stage = .parsing ∧ fault.isPlaced = true := by
  obtain ⟨rfl, sound⟩ := scanFault?_of_ok scanned
  rw [parseTokens, sound] at failed
  obtain ⟨refusal, refused, rfl⟩ := mapError_eq_error.mp failed
  exact Fault.endingAt_of_parsing (Grammar.refused_sourceBody _ _ refused)

theorem stage_of_analyze {kind : UnitKind} {modules : List Fragment} {body : List Statement}
    (failed : analyze kind modules body = .error fault) :
    fault.stage = .checking ∧ fault.isPlaced = true := by
  have rejects := Check.passes_checkUnit kind modules body fault failed
  cases fault with
  | checking cause line => exact ⟨rfl, rejects.1⟩
  | _ => exact rejects.elim

theorem stage_of_generate (table : Table) (support : String) (kind : UnitKind)
    (body : List Statement) : FailsAt .lowering (generate table support kind body) := by
  refine Lower.failsFor_lowerUnit (fun _ isSteady => isSteady.1) support kind ?_
  exact .foldlM body _ fun statement _ state => Lower.failsAt_addFunctions table state statement

theorem StopsAt.stage_eq {request : Request} {modules : List Fragment} {stage : Stage}
    (stops : StopsAt request modules source stage fault) : fault.stage = stage := by
  cases stops with
  | scanning failed => exact stage_of_tokenize failed
  | parsing scanned failed => exact (stage_of_parseTokens scanned failed).1
  | checking _ _ failed => exact (stage_of_analyze failed).1
  | lowering _ _ _ failed => exact stage_of_generate _ _ _ _ _ failed

/-- How the fault of a quoted annotation shows in the stages that read it. -/
structure Resurfaces (text : String) (inner : Fault) : Prop where
  parsing : ∀ {token : Token}, token.kind = .string → token.text = text → ∀ rest,
    ∃ reason, Grammar.typeExpr Grammar.quotedType (token :: rest) =
        .error (.parsing reason (some token)) ∧
      reason.message token = inner.bare
  checking : ∀ table, ∃ cause,
    Check.sizeofType table (.constant (.str text)) = .error (.checking cause) ∧
      cause.message = inner.bare
  lowering : ∃ cause,
    Lower.sizeofType (.constant (.str text)) = .error (.lowering cause) ∧
      cause.message = inner.bare

theorem parseType_of_quotedType {text : String} {inner : Fault}
    (failed : Grammar.quotedType text = .error inner) (line : Nat) :
    parseType text line =
      .error (.parsing (.invalidQuoted inner.bare) (some ⟨.string, some text, line, 1⟩)) := by
  rw [parseType, failed]
  rfl

theorem resurfaces_of_parseType {text : String} {line : Nat} {inner : Fault}
    (failed : parseType text line = .error inner) :
    inner.stage = .parsing ∧ Resurfaces text inner := by
  obtain ⟨fault, refused, rfl⟩ := mapError_eq_error.mp failed
  have inSize := parseType_of_quotedType refused 0
  refine ⟨rfl, ⟨?_, ?_, ?_⟩⟩
  · intro token isString isText rest
    refine ⟨.invalidQuoted fault.bare, ?_, ?_⟩
    · rw [Grammar.typeExpr]
      simp only [isString, isText, refused, Fault.inQuoted]
    · subst isText
      rfl
  · intro table
    refine ⟨.quotedType _, ?_, rfl⟩
    rw [Check.sizeofType]
    simp only [inSize, error_bind]
    rfl
  · refine ⟨.quotedType _, ?_, rfl⟩
    simp only [Lower.sizeofType, inSize]
    rfl

theorem quotedType_of_tokenize {text : String} {inner : Fault}
    (failed : tokenize text = .error inner) : Grammar.quotedType text = .error inner := by
  obtain ⟨token, rfl, found⟩ := scanFault?_of_error failed
  rw [Grammar.quotedType]
  simp only [found]

theorem stage_of_quotedType {text : String} {tokens : List Token}
    (scanned : tokenize text = .ok tokens) : FailsAt .parsing (Grammar.quotedType text) := by
  obtain ⟨_, sound⟩ := scanFault?_of_ok scanned
  rw [Grammar.quotedType]
  simp only [sound]
  split
  · rename_i fault refused
    have isParsing := (Grammar.leaves_typeExpr _ _).refused fault refused
    exact .error (Fault.endingAt_of_parsing isParsing).1
  · exact .ite (.ok _) (.error rfl)

/-- Every stage fails with faults of its own, whatever it reads with the other stages. So the fault
of a compilation tells the stage that failed, and faults inside quoted annotations are told in the
words of the stage that met them. -/
theorem faults_tell_their_stage :
    (∀ request modules source fault, compile request modules source = .error fault ↔
      StopsAt request modules source fault.stage fault) ∧
    (∀ source fault, tokenize source = .error fault → fault.stage = .scanning) ∧
    (∀ source tokens fault, tokenize source = .ok tokens → parseTokens tokens = .error fault →
      fault.stage = .parsing ∧ fault.isPlaced = true) ∧
    (∀ kind modules body fault, analyze kind modules body = .error fault →
      fault.stage = .checking ∧ fault.isPlaced = true) ∧
    (∀ table support kind body fault, generate table support kind body = .error fault →
      fault.stage = .lowering) ∧
    (∀ text tokens inner, tokenize text = .ok tokens → Grammar.quotedType text = .error inner →
      inner.stage = .parsing) ∧
    (∀ text line inner, parseType text line = .error inner →
      inner.stage = .parsing ∧ Resurfaces text inner) ∧
    (∀ text line inner, tokenize text = .error inner → parseType text line =
      .error (.parsing (.invalidQuoted inner.bare) (some ⟨.string, some text, line, 1⟩))) := by
  refine ⟨?_, fun _ _ => stage_of_tokenize, fun _ _ _ => stage_of_parseTokens,
    fun _ _ _ _ => stage_of_analyze, stage_of_generate,
    fun _ _ _ scanned => stage_of_quotedType scanned _, fun _ _ _ => resurfaces_of_parseType,
    fun _ line _ failed => parseType_of_quotedType (quotedType_of_tokenize failed) line⟩
  intro request modules source fault
  rw [compile_eq_error_iff]
  constructor
  · rintro ⟨stage, stops⟩
    rw [stops.stage_eq]
    exact stops
  · intro stops
    exact ⟨_, stops⟩

/-- The stage of a fault that a compilation ends with. -/
def Outcome.stage? (outcome : Except Fault Compiled) : Option Stage :=
  match outcome with
  | .ok _ => none
  | .error fault => some fault.stage

/-- A mark that starts no token stops the stage that comes to read it, and an interface has no C
form. -/
theorem faults_tell_their_stage_strayMark :
    (∃ fault, StopsAt {} [] "!" .scanning fault) ∧
    (∃ fault, StopsAt {} [] "x: '!'" .parsing fault) ∧
    (∃ fault, StopsAt {} [] "def main():\n\tsizeof('!')\n" .checking fault) ∧
    (∃ fault, StopsAt {} [] "class I:\n\tpass\ndef main():\n\ti: I\n" .lowering fault) := by
  have stops {source : String} {stage : Stage}
      (failed : Outcome.stage? (compile {} [] source) = some stage) :
      ∃ fault, StopsAt {} [] source stage fault := by
    cases outcome : compile {} [] source with
    | ok compiled =>
        rw [outcome] at failed
        exact nomatch failed
    | error fault =>
        rw [outcome] at failed
        obtain rfl := Option.some.inj failed
        exact ⟨fault, (faults_tell_their_stage.1 _ _ _ _).mp outcome⟩
  exact ⟨stops (by decide +kernel), stops (by decide +kernel), stops (by decide +kernel),
    stops (by decide +kernel)⟩

end Offside
