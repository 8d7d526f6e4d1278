import Offside.Compile
import Offside.Proofs.Scope.Agreement
import Offside.Proofs.Scope.Opened

/-!
# Checking and lowering in step

A check and a lowering go through the tree in the same order, so a lowering enters for each block
the scope that was opened for it.
-/

namespace Offside

namespace Lower

open Outcome
open Table (Completes Grows)

variable {table final after : Table} {outside : List Object} {walk : Walk} {site : Site}
  {body : List Statement}

/-- A lowered block enters and leaves the scope that its check opened. -/
theorem follows_block {α β : Type} {names : List String} {pending : List (List String)}
    {expected expected' : List Check.Visit} {visits : Walk → List Visit}
    {visits' : α × Walk → List Visit} {lowered : Walk → Except Fault (α × Walk)}
    {next : α × Walk → Except Fault β} {condition : β → Prop} (formed : table.WellFormed)
    (kept : Keeps table walk) (grown : Grows names table.push after)
    (rest : Completes pending after.pop final) (inner : ∀ inside, Keeps table.push inside →
      Follows outside final expected (visits inside) (lowered inside) fun result =>
        Keeps after result.2) (outer : ∀ result, Keeps after.pop (result.2.leave final) →
      Follows outside final expected' (visits' result) (next result) condition) :
    Follows outside final (.opens site table.push.current :: (expected ++ expected'))
      (given (walk.enter final) fun inside =>
        .enters site inside.scope :: (visits inside ++ given (lowered inside) visits'))
      (walk.enter final >>= fun inside => lowered inside >>= next) condition := by
  have closing := rest.before_pop grown
  have opening := closing.before_growth formed.push grown
  rw [kept.enter opening, given_ok, ok_bind]
  refine .cons (.opens site table.scopes.length) ?_
  refine (inner _ (Keeps.push table walk)).append fun result _ keptResult => ?_
  exact outer result (keptResult.leave grown closing)

theorem follows_last_block {α β : Type} {names : List String} {pending : List (List String)}
    {expected : List Check.Visit} {visits : Walk → List Visit}
    {lowered : Walk → Except Fault (α × Walk)} {next : α × Walk → Except Fault β}
    {condition : β → Prop} (formed : table.WellFormed) (kept : Keeps table walk)
    (grown : Grows names table.push after) (rest : Completes pending after.pop final)
    (inner : ∀ inside, Keeps table.push inside →
      Follows outside final expected (visits inside) (lowered inside) fun result =>
        Keeps after result.2) (outer : ∀ result, Keeps after.pop (result.2.leave final) →
      ∃ value, next result = .ok value ∧ condition value) :
    Follows outside final (.opens site table.push.current :: expected)
      (given (walk.enter final) fun inside => .enters site inside.scope :: visits inside)
      (walk.enter final >>= fun inside => lowered inside >>= next) condition := by
  have nothing (result : α × Walk) (keptResult : Keeps after.pop (result.2.leave final)) :
      Follows outside final [] [] (next result) condition := by
    obtain ⟨value, isValue, holds⟩ := outer result keptResult
    rw [isValue]
    exact .ok holds
  simpa using follows_block formed kept grown rest inner nothing

mutual

theorem follows_form {outside : List Object} {final : Table} {checked : Check.Surroundings}
    {around : Surroundings} {line : Nat} {site : Site} {table after : Table} {walk : Walk}
    {objects : List Object} {later : List String} {outer : List (List String)}
    (same : around.table = final) (formed : table.WellFormed) (inside : table.current ≠ 0)
    (kept : Keeps table walk) (shown : Shows outside table objects) :
    (form : Form) → Check.checkForm checked line form table = .ok after →
      Completes (later :: outer) after final →
      Follows outside final
        (Check.visitsForm checked ((form.declares ++ later) :: outer) site form table)
        (visitsForm around objects site form walk) (lowerForm around line form walk)
        fun result => Keeps after result.2
  | .branch test body orelse, accepted, rest => by
      simp only [Check.checkForm, bind_eq_ok, pure_eq_ok] at accepted
      obtain ⟨_, _, first, isFirst, second, isSecond, rfl⟩ := accepted
      subst same
      have left := Check.grows_of_checkBody body formed.push isFirst
      have leftOut := left.of_block formed
      have right := Check.grows_of_checkBody orelse leftOut.wellFormed.push isSecond
      have between : Completes (later :: outer) first.pop around.table :=
        rest.before_growth leftOut.wellFormed (right.of_block leftOut.wellFormed)
      simp only [Check.visitsForm, isFirst, given_ok, visitsForm, lowerForm]
      refine .given (steady_lower _ _ _) fun _ _ => ?_
      refine follows_block formed kept left between (fun walk keptWalk => ?_) ?_
      · exact follows_body rfl formed.push formed.push_current_ne_zero keptWalk
          (shown.push formed) body isFirst (between.before_pop left)
      rintro ⟨code, next⟩ keptNext
      simp only [visitsElse_eq, lowerElse_eq, bind_assoc, pure_bind]
      refine follows_last_block leftOut.wellFormed keptNext right rest (fun walk keptWalk => ?_) ?_
      · have shown' : Shows outside first.pop.push objects :=
          (shown.grow formed nofun leftOut).push leftOut.wellFormed
        exact follows_body rfl leftOut.wellFormed.push leftOut.wellFormed.push_current_ne_zero
          keptWalk shown' orelse isSecond (rest.before_pop right)
      · rintro ⟨code', next'⟩ keptNext'
        exact ⟨_, rfl, keptNext'⟩
  | .whileLoop test body label, accepted, rest => by
      simp only [Check.checkForm, bind_eq_ok, onLine_eq_ok, pure_eq_ok] at accepted
      obtain ⟨_, _, within, isWithin, last, isLast, rfl⟩ := accepted
      subst same
      have grown := Check.grows_of_checkBody body formed.push isLast
      simp only [Check.visitsForm, isWithin, given_ok, visitsForm, lowerForm]
      refine .given (steady_lower _ _ _) fun _ _ => ?_
      refine follows_last_block formed (kept.inLoop around label) grown rest ?_ ?_
      · intro walk keptWalk
        exact follows_body (inLoop_table around label _) formed.push formed.push_current_ne_zero
          keptWalk (shown.push formed) body isLast (rest.before_pop grown)
      · rintro ⟨code, next⟩ keptNext
        exact ⟨_, rfl, keptNext⟩
  | .forLoop target iter body label, accepted, rest => by
      simp only [Check.checkForm, bind_eq_ok, onLine_eq_ok, pure_eq_ok] at accepted
      obtain ⟨item, isItem, within, isWithin, first, isFirst, last, isLast, rfl⟩ := accepted
      subst same
      have declared := Check.grows_of_declare formed.push isFirst
      have filled := Check.fills_of_declare formed.push isFirst
      have grown := declared.trans (Check.grows_of_checkBody body declared.wellFormed isLast)
      have shown' := shows_loopObjects kept shown formed iter declared
      have inside' : first.current ≠ 0 := by
        rw [declared.current_eq]
        exact formed.push_current_ne_zero
      simp only [Check.visitsForm, isItem, isWithin, isFirst, given_ok, visitsForm, lowerForm]
      refine .given (steady_counting _ _ _ _) ?_
      rintro ⟨counted, next⟩ counts
      refine follows_last_block formed ((kept.counting counts).inLoop around label) grown rest ?_ ?_
      · intro walk keptWalk
        exact follows_body (inLoop_table around label _) declared.wellFormed inside'
          (keptWalk.fill filled) shown' body isLast (rest.before_pop grown)
      · rintro ⟨code, next⟩ keptNext
        exact ⟨_, rfl, keptNext⟩
  | .select subject cases, accepted, rest => by
      simp only [Check.checkForm, bind_eq_ok, onLine_eq_ok] at accepted
      obtain ⟨ty, isTy, accepted⟩ := accepted
      have shown' : Shows outside table (keptObject (around.view walk) subject walk ++ objects) :=
        shown.made _ fun object isKept => by
          rw [Object.isMade, isMade_of_mem_keptObject isKept]
      simp only [Check.visitsForm, isTy, given_ok, visitsForm, lowerForm]
      refine .given (steady_lowerSubject _ _ _) ?_
      rintro ⟨lowered, next⟩ lowers
      refine .last (follows_cases same formed inside (kept.lowerSubject lowers) shown' cases
        accepted rest) ?_
      rintro ⟨arms, last⟩ keptLast
      exact ⟨_, rfl, keptLast⟩
  | .declare target written value, accepted, rest => by
      rw [Check.checkForm, onLine_eq_ok] at accepted
      obtain ⟨name, _, rfl, _, declared⟩ := Check.declare_of_declareVariable accepted
      exact .quiet (steady_lowerDeclare _ _ _ _) fun _ =>
        kept.fill (Check.fills_of_declare formed declared)
  | .assign target value, accepted, rest => by
      obtain rfl : table = after := by simp_all [Check.checkForm]
      exact .quiet (steady_lowerAssign _ _ _ _) fun _ => kept
  | .jump jump label, accepted, rest => by
      obtain rfl : table = after := by simp_all [Check.checkForm]
      exact .quiet (steady_lowerJump _ _ _) fun _ => kept
  | .ret value, accepted, rest => by
      obtain rfl : table = after := by simp_all [Check.checkForm]
      exact .quiet (steady_lowerReturn _ _ _) fun _ => kept
  | .expr value, accepted, rest => by
      obtain rfl : table = after := by simp_all [Check.checkForm]
      rcases lowerForm_expr around line value walk with ⟨_, silent⟩ | lowered
      · rw [silent]
        exact .ok kept
      · rw [lowered]
        exact .quiet (steady_lower _ _ _) fun _ => kept
  | .pass, accepted, rest => by
      obtain rfl : table = after := by simp_all [Check.checkForm]
      exact .ok kept
  | .import_ request, accepted, _ => by simp [Check.checkForm] at accepted
  | .function decl, accepted, _ => by simp [Check.checkForm] at accepted
  | .classDef decl, accepted, _ => by simp [Check.checkForm] at accepted

theorem follows_body {outside : List Object} {final : Table} {checked : Check.Surroundings}
    {around : Surroundings} {site : Site} {position : Nat} {table after : Table} {walk : Walk}
    {objects : List Object} {outer : List (List String)}
    (same : around.table = final) (formed : table.WellFormed) (inside : table.current ≠ 0)
    (kept : Keeps table walk) (shown : Shows outside table objects) :
    (body : List Statement) → Check.checkBody checked body table = .ok after →
      Completes ([] :: outer) after final →
      Follows outside final (Check.visitsBody checked outer site position body table)
        (visitsBody around objects site position body walk) (lowerBody around body walk)
        fun result => Keeps after result.2
  | [], accepted, rest => by
      obtain rfl : table = after := by simpa [Check.checkBody] using accepted
      exact .ok kept
  | ⟨line, form⟩ :: others, accepted, rest => by
      simp only [Check.checkBody, bind_eq_ok] at accepted
      obtain ⟨middle, isMiddle, accepted⟩ := accepted
      have left := Check.grows_of_checkForm form formed isMiddle
      have right := Check.grows_of_checkBody others left.wellFormed accepted
      have between : Completes (declaredIn others :: outer) middle final := by
        simpa using rest.before_growth left.wellFormed right
      have start := between.before_growth formed left
      simp only [Check.visitsBody, isMiddle, given_ok, visitsBody, lowerBody]
      rw [kept.scope_eq]
      refine .cons (.reaches formed start (fits_usesOf kept shown isMiddle)) ?_
      refine .append (follows_form same formed inside kept shown form isMiddle between) ?_
      rintro ⟨code, next⟩ _ keptNext
      have shown' := shows_declaredObjects (around.view walk) kept shown formed inside isMiddle
      have inside' : middle.current ≠ 0 := by rwa [left.current_eq]
      refine .last (follows_body same left.wellFormed inside' keptNext shown' others accepted rest)
        ?_
      rintro ⟨code', last⟩ keptLast
      exact ⟨_, rfl, keptLast⟩

theorem follows_cases {outside : List Object} {final : Table} {checked : Check.Surroundings}
    {around : Surroundings} {site : Site} {position : Nat} {table after : Table} {walk : Walk}
    {objects : List Object} {shownMentions : List Mention} {ty : Ty} {subject : Subject}
    {later : List String} {outer : List (List String)}
    (same : around.table = final) (formed : table.WellFormed) (inside : table.current ≠ 0)
    (kept : Keeps table walk) (shown : Shows outside table objects) :
    (cases : List Case) → Check.checkCases checked ty cases table = .ok after →
      Completes (later :: outer) after final →
      Follows outside final
        (Check.visitsCases checked (later :: outer) site position ty cases table)
        (visitsCases around objects shownMentions site position subject cases walk)
        (lowerCases around subject cases walk) fun result => Keeps after result.2
  | [], accepted, rest => by
      obtain rfl : table = after := by simpa [Check.checkCases] using accepted
      exact .ok kept
  | ⟨pattern, body, line⟩ :: others, accepted, rest => by
      simp only [Check.checkCases, bind_eq_ok] at accepted
      obtain ⟨_, _, first, isFirst, accepted⟩ := accepted
      subst same
      have left := Check.grows_of_checkBody body formed.push isFirst
      have leftOut := left.of_block formed
      have right := (Check.runs_cases [] [] 0 others accepted).grows leftOut.wellFormed
      have between : Completes (later :: outer) first.pop around.table :=
        rest.before_growth leftOut.wellFormed right
      have start : Completes (later :: outer) table around.table :=
        between.before_growth formed leftOut
      have fits : ∀ use ∈ patternUses (around.view walk) objects shownMentions pattern,
          Fits outside table use := by
        intro use member
        cases pattern with
        | wildcard => simp [patternUses] at member
        | value expr =>
            obtain rfl := List.mem_singleton.mp member
            exact ⟨shown, by simp⟩
      simp only [Check.visitsCases, isFirst, given_ok, visitsCases, lowerCases]
      rw [kept.scope_eq]
      refine .cons (.reaches formed start fits) ?_
      refine .given (steady_lowerPattern _ _ _) fun _ _ => ?_
      refine follows_block formed kept left between (fun walk keptWalk => ?_) ?_
      · exact follows_body rfl formed.push formed.push_current_ne_zero keptWalk
          (shown.push formed) body isFirst (between.before_pop left)
      rintro ⟨code, next⟩ keptNext
      have inside' : first.pop.current ≠ 0 := by rwa [leftOut.current_eq]
      refine .last (follows_cases rfl leftOut.wellFormed inside' keptNext
        (shown.grow formed nofun leftOut) others accepted rest) ?_
      rintro ⟨arms, last⟩ keptLast
      exact ⟨_, rfl, keptLast⟩

end

theorem steady_enterFunction (owner : Option String) (decl : FunctionDef) {inner : Walk}
    (enters : walk.enter table = .ok inner) : Steady (enterFunction table owner decl walk) := by
  simp only [enterFunction, enters]
  refine .bind (steady_signatureOf _ _ _) fun signature _ => ?_
  refine .bind (steady_lowerParameters _ _ _ _) fun params _ => ?_
  exact .ite (.bind (.ok _) fun _ _ => .pure _) (.bind (external_typeOf _ _).steady fun _ _ =>
    .pure _)

theorem shows_outermost (formed : table.WellFormed) (outermost : table.current = 0)
    (plain : ∀ object ∈ outside, object.isMade = false) : Shows outside table outside := by
  obtain ⟨holder, opened⟩ := formed.exists_current
  obtain ⟨outer, chain, earlier⟩ := Table.exists_enclosing_eq_cons opened
  have alone : outer = [] := by
    cases outer with
    | nil => rfl
    | cons scope _ =>
        have := earlier scope (by simp)
        omega
  have nothing : localObjects table = [] := by
    rw [localObjects, chain, alone]
    simp [scopeObjects, outermost]
  rw [Shows, nothing, List.nil_append]
  exact List.filter_eq_self.mpr (by simpa using plain)

theorem follows_function {owner : Option String} {line : Nat} {decl : FunctionDef}
    (plain : ∀ object ∈ outside, object.isMade = false) (formed : table.WellFormed)
    (outermost : table.current = 0) (kept : Keeps table walk)
    (accepted : Check.checkFunction owner line decl table = .ok after)
    (rest : Completes [[]] after final) :
    Follows outside final (Check.visitsFunction owner site line decl table)
      (accountOf final owner site outside decl walk).visits (lowerFunction final owner decl walk)
      fun result => Keeps after result.2 := by
  simp only [Check.checkFunction_eq, bind_eq_ok, pure_eq_ok] at accepted
  obtain ⟨⟨around, inside⟩, isEntered, last, isLast, rfl⟩ := accepted
  have runs := Check.runs_of_enterFunction isEntered
  have declared := runs.grows formed.push
  have filled : table.push.Fills inside := ⟨⟨_, declared⟩, runs.counts.eq_of_nil⟩
  have grown := declared.trans (Check.grows_of_checkBody decl.body declared.wellFormed isLast)
  have closing := rest.before_pop grown
  have opening := closing.before_growth formed.push grown
  have enters := kept.enter opening
  simp only [Check.visitsFunction, isEntered, given_ok, accountOf, lowerFunction_eq]
  refine .given (steady_enterFunction owner decl enters) fun entered lowersTo => ?_
  obtain ⟨_, _, _, isInner, isTable⟩ := exists_of_enterFunction lowersTo
  have isWalk := Except.ok.inj (isInner.symm.trans enters)
  rw [isWalk]
  refine .cons (.opens _ _) ?_
  have keptInside := (Keeps.push table walk).fill filled
  have shown : Shows outside inside (parameterObjects decl table.scopes.length ++ outside) := by
    have := ((shows_outermost formed outermost plain).push formed).grow formed.push
      (fun _ => formed.push_current_ne_zero) declared
    simpa [parameterObjects, Function.comp_def] using this
  have notOutermost : inside.current ≠ 0 := by
    rw [declared.current_eq]
    exact formed.push_current_ne_zero
  refine .last (follows_body isTable declared.wellFormed notOutermost keptInside shown decl.body
    isLast closing) ?_
  rintro ⟨code, next⟩ keptNext
  exact ⟨_, rfl, keptNext.leave grown closing⟩

theorem follows_along {outside : List Object} {final : Table}
    {check : Table → Statement → Except Fault Table}
    {checkVisits : Nat → Table → Statement → List Check.Visit}
    {add : Functions × Walk → Statement → Except Fault (Functions × Walk)}
    {addAccounts : Nat → Functions × Walk → Statement → List Account}
    (grown : ∀ table statement next, table.WellFormed → check table statement = .ok next →
      Grows [] table next)
    (step : ∀ position table state statement next, table.WellFormed → table.current = 0 →
      Keeps table state.2 → check table statement = .ok next → Completes [[]] next final →
      Follows outside final (checkVisits position table statement)
        ((addAccounts position state statement).flatMap (·.visits)) (add state statement)
        fun result => Keeps next result.2) :
    (statements : List Statement) → {position : Nat} → {table last : Table} →
      {state : Functions × Walk} → table.WellFormed → table.current = 0 → Keeps table state.2 →
      statements.foldlM check table = .ok last → Completes [[]] last final →
      Follows outside final (along check checkVisits position table statements)
        ((along add addAccounts position state statements).flatMap (·.visits))
        (statements.foldlM add state) fun result => Keeps last result.2
  | [], position, table, last, state, formed, outermost, kept, folded, rest => by
      obtain rfl : table = last := by simpa using folded
      exact .ok kept
  | statement :: statements, position, table, last, state, formed, outermost, kept, folded,
      rest => by
      rw [List.foldlM_cons, bind_eq_ok] at folded
      obtain ⟨next, isNext, folded⟩ := folded
      have left := grown table statement next formed isNext
      have right : Grows [] next last :=
        foldlM_preserves (Grows [] next)
          (fun earlier isLater => earlier.trans (grown _ _ _ earlier.wellFormed isLater))
          statements (.refl left.wellFormed) folded
      have between : Completes [[]] next final := rest.before_growth left.wellFormed right
      simp only [along, isNext, given_ok, List.flatMap_append, flatMap_given, List.foldlM_cons]
      refine .append (step _ _ _ _ _ formed outermost kept isNext between) fun state' _ kept' => ?_
      exact follows_along grown step statements left.wellFormed (left.current_eq.trans outermost)
        kept' folded rest

theorem follows_member {owner : String} {position : Nat} {state : Functions × Walk}
    {statement : Statement} (plain : ∀ object ∈ outside, object.isMade = false)
    (formed : table.WellFormed) (outermost : table.current = 0) (kept : Keeps table state.2)
    (accepted : Check.checkMethod owner table statement = .ok after)
    (rest : Completes [[]] after final) :
    Follows outside final (Check.visitsMember owner site position table statement)
      ((accountsOfMember final owner site outside position state statement).flatMap (·.visits))
      (addMember final owner state statement) fun result => Keeps after result.2 := by
  obtain ⟨line, form⟩ := statement
  cases form with
  | function decl =>
      simp only [accountsOfMember, List.flatMap_singleton, addMember, addMethod]
      refine .last (follows_function plain formed outermost kept accepted rest) ?_
      rintro ⟨lowered, next⟩ keptNext
      exact ⟨_, rfl, keptNext⟩
  | _ =>
      obtain rfl : table = after := by simpa [Check.checkMethod] using accepted
      exact .ok kept

theorem follows_top {position : Nat} {state : Functions × Walk} {statement : Statement}
    (plain : ∀ object ∈ outside, object.isMade = false) (formed : table.WellFormed)
    (outermost : table.current = 0) (kept : Keeps table state.2)
    (accepted : Check.checkTop table statement = .ok after) (rest : Completes [[]] after final) :
    Follows outside final (Check.visitsTop position table statement)
      ((accountsOfTop final outside position state statement).flatMap (·.visits))
      (addFunctions final state statement) fun result => Keeps after result.2 := by
  obtain ⟨line, form⟩ := statement
  cases form with
  | function decl =>
      simp only [accountsOfTop, List.flatMap_singleton, addFunctions]
      refine .last (follows_function plain formed outermost kept accepted rest) ?_
      rintro ⟨lowered, next⟩ keptNext
      dsimp only
      split
      · exact ⟨_, rfl, keptNext⟩
      · exact ⟨_, rfl, keptNext⟩
  | classDef decl =>
      simp only [Check.checkTop] at accepted
      simp only [Check.visitsTop, accountsOfTop, addFunctions, foldlM_methods]
      split at accepted
      · rename_i isStruct
        simp only [isStruct, if_true]
        refine follows_along (fun _ _ _ => Check.grows_of_checkMethod) ?_ decl.body formed outermost
          kept accepted rest
        intro position table state statement next formed outermost kept accepted rest
        exact follows_member plain formed outermost kept accepted rest
      · rename_i isOther
        obtain rfl : table = after := by simpa using accepted
        simp only [isOther, if_false]
        exact .ok kept
  | _ =>
      obtain rfl : table = after := by simp_all [Check.checkTop]
      exact .ok kept

theorem isMade_of_mem_fileObjects : ∀ object ∈ fileObjects table body, object.isMade = false := by
  intro object member
  simp only [fileObjects, List.mem_reverse, List.mem_append, List.mem_map, List.mem_filterMap]
    at member
  rcases member with ⟨symbol, _, rfl⟩ | ⟨statement, _, declared⟩
  · rfl
  · rw [fileObject?] at declared
    split at declared
    · obtain ⟨symbol, _, rfl⟩ := Option.map_eq_some_iff.mp declared
      rfl
    · simp at declared

/-- The lowering of the functions of a checked unit follows the check. -/
theorem follows_unit {kind : UnitKind} {fragments : List Fragment}
    (accepted : Check.checkUnit kind fragments body = .ok table) :
    table.WellFormed ∧ table.current = 0 ∧
      Follows (fileObjects table body) table (Check.visits kind fragments body)
        (visits table body) (body.foldlM (addFunctions table) (⟨[], []⟩, .start))
        fun result => Keeps table result.2 := by
  simp only [Check.checkUnit, bind_eq_ok] at accepted
  obtain ⟨start, isStart, folded⟩ := accepted
  obtain ⟨⟨names, grown⟩, single⟩ := Check.fills_of_declareAll isStart
  have outermost : start.current = 0 := grown.current_eq
  have second : Grows [] start table :=
    foldlM_preserves (Grows [] start)
      (fun earlier isLater => earlier.trans (Check.grows_of_checkTop earlier.wellFormed isLater))
      body (.refl grown.wellFormed) folded
  have finished : table.current = 0 := second.current_eq.trans outermost
  refine ⟨second.wellFormed, finished, ?_⟩
  simp only [Check.visits, isStart, given_ok]
  refine follows_along (fun _ _ _ => Check.grows_of_checkTop) ?_ body grown.wellFormed outermost ?_
    folded (.refl second.wellFormed finished)
  · intro position table state statement next formed outermost kept accepted rest
    exact follows_top isMade_of_mem_fileObjects formed outermost kept accepted rest
  · exact ⟨outermost.symm, single.symm⟩

/-- A matching lowering enters the scopes that the check opened. -/
theorem entered_eq_opened {expected : List Check.Visit} {visits : List Visit}
    (matching : List.Forall₂ (Agrees outside final) expected visits) :
    entered visits = Check.opened expected := by
  induction matching with
  | nil => rfl
  | cons agrees _ induction =>
      cases agrees with
      | opens site scope => exact congrArg ((site, scope) :: ·) induction
      | reaches _ _ _ => exact induction

/-- A unit fails for the faults of its functions, or for steady ones. -/
theorem failsFor_lowerUnit {allowed : Fault → Prop}
    (included : ∀ fault, IsSteady fault → allowed fault) (support : String) (kind : UnitKind)
    (functions : FailsFor allowed (body.foldlM (addFunctions table) (⟨[], []⟩, .start))) :
    FailsFor allowed (lowerUnit table support kind body) := by
  have widened {α : Type} {outcome : Except Fault α} (steady : Steady outcome) :
      FailsFor allowed outcome := steady.mono included
  refine .bind (widened (external_orderStructs _).steady) fun ordered _ => ?_
  refine .bind (.mapM _ fun _ _ => widened (external_structDef table _).steady) fun structs _ => ?_
  refine .bind (widened (external_lowerExternals table).steady) fun externals _ => ?_
  refine .bind (.mapM _ fun _ _ => widened (steady_lowerGlobal? table _)) fun globals _ => ?_
  refine .bind (widened (external_lowerPrototypes table).steady) fun prototypes _ => ?_
  exact .bind functions fun _ _ => .pure _

theorem functions_of_lowerUnit {support : String} {kind : UnitKind} {unit : C.Unit}
    (lowered : lowerUnit table support kind body = .ok unit) :
    ∃ functions walk, body.foldlM (addFunctions table) (⟨[], []⟩, .start) = .ok (functions, walk) ∧
      unit.functions = functions.others ∧
      unit.entry = if kind = .library then [] else functions.entry := by
  simp only [lowerUnit, bind_eq_ok, pure_eq_ok] at lowered
  obtain ⟨_, _, _, _, _, _, _, _, _, _, ⟨functions, walk⟩, folded, rfl⟩ := lowered
  exact ⟨functions, walk, folded, rfl, rfl⟩

end Lower

/-- The C form of a unit enters, block for block, the scopes that its check opened: it never reports
a mismatch, and unless it fails for another cause it enters every scope but the outermost one, once
and in order. -/
theorem enters_opened_scopes {kind : UnitKind} {modules : List Fragment} {body : List Statement}
    {table : Table} (analyzed : analyze kind modules body = .ok table) :
    table.current = 0 ∧
      ((Check.opened (Check.visits kind modules body)).map (·.1)).Nodup ∧
      Lower.entered (Lower.visits table body) <+: Check.opened (Check.visits kind modules body) ∧
      ∀ (support : String) (target : UnitKind),
        generate table support target body ≠ .error (.lowering .scopeMismatch) ∧
          ∀ unit, generate table support target body = .ok unit →
            Lower.entered (Lower.visits table body) =
                Check.opened (Check.visits kind modules body) ∧
              (Lower.entered (Lower.visits table body)).map (·.2) =
                List.range' 1 (table.scopes.length - 1) := by
  obtain ⟨_, outermost, follows⟩ := Lower.follows_unit analyzed
  refine ⟨outermost, (Check.spreads_visits kind modules body).nodup, ?_,
    fun support target => ⟨?_, fun unit generated => ?_⟩⟩
  · obtain ⟨reached, later, all, matching⟩ := follows.reached
    rw [Lower.entered_eq_opened matching, all]
    exact ⟨Check.opened later, by simp [Check.opened]⟩
  · intro failed
    have steady := Lower.failsFor_lowerUnit (fun _ => id) support target follows.steady
    exact (steady _ failed).2 rfl
  · obtain ⟨functions, walk, folded, _, _⟩ :=
      Lower.functions_of_lowerUnit generated
    have same := Lower.entered_eq_opened (follows.finished _ folded).1
    exact ⟨same, by rw [same]; exact (Check.counts_visits analyzed).scopes_eq⟩

/-- A function with a chain of alternatives, a loop and cases. -/
def nestedBlocks : List Statement :=
  let skip : List Statement := [⟨3, .pass⟩]
  let always : Expr := .constant (.bool true)
  [⟨1, .function ⟨"main", [], none,
    [⟨2, .branch always skip [⟨4, .branch always skip []⟩]⟩,
     ⟨6, .whileLoop always [⟨7, .jump .leave none⟩] none⟩,
     ⟨8, .select (.constant (.int 1)) [⟨.value (.constant (.int 2)), skip, 9⟩,
       ⟨.wildcard, skip, 11⟩]⟩]⟩⟩]

theorem enters_opened_scopes_nestedBlocks :
    ∃ table unit, analyze .program [] nestedBlocks = .ok table ∧
      generate table defaultSupport .program nestedBlocks = .ok unit ∧
      Lower.entered (Lower.visits table nestedBlocks) =
        Check.opened (Check.visits .program [] nestedBlocks) := by
  refine ⟨_, _, rfl, rfl, ?_⟩
  exact (((enters_opened_scopes rfl).2.2.2 defaultSupport .program).2 _ rfl).1

end Offside
