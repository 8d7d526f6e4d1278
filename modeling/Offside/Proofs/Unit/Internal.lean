import Offside.Proofs.Scope.Walk
import Offside.Proofs.Typing.Calls
import Offside.Proofs.Typing.Final

/-!
# Internal failures of a lowering

A unit that a check accepts fails to be lowered for an internal cause only where a call is to blame
that has a type all the same. The only such call asks for the size of a declared type whose name is
that of a type constructor: a check takes the name for the declared type, and a lowering takes it
for the constructor, which makes no sense without arguments.
-/

namespace Offside

open Outcome

namespace Lower

variable {outcome : Except Fault α} {statement : Statement} {owner : Option String}
  {decl : FunctionDef}

def constructorNames : List String := ["ptr", "array", "Result", "Final"]

theorem mem_constructorNames {word : String} {fault : AnnotationFault}
    (failed : Ty.ofName word = .error fault) :
    word ∈ constructorNames ∧ fault = .needsArguments word := by
  by_cases isWord : word ∈ constructorNames
  · refine ⟨isWord, ?_⟩
    simp only [constructorNames, List.mem_cons, List.not_mem_nil, or_false] at isWord
    rcases isWord with rfl | rfl | rfl | rfl <;> exact (Except.error.inj failed).symm
  · simp only [constructorNames, List.mem_cons, List.not_mem_nil, or_false, not_or] at isWord
    obtain ⟨notPtr, notArray, notResult, notFinal⟩ := isWord
    obtain ⟨ty, isType⟩ : ∃ ty, Ty.ofName word = .ok ty := by
      simp only [Ty.ofName, notPtr, notArray, notResult, notFinal, decide_false, Bool.or_self,
        Bool.false_eq_true, if_false]
      repeat' split
      all_goals exact ⟨_, rfl⟩
    exact nomatch isType.symm.trans failed

def sizeOfWord (word : String) : Call := ⟨.name "sizeof", [.name word]⟩

theorem eq_sizeof_of_kind {id : String} {builtin : Builtin}
    (known : Builtin.find? id = some builtin) (kind : builtin.kind = .sizeOf) : id = "sizeof" := by
  have named : builtin.name = id := by simpa using List.find?_some known
  obtain rfl : builtin = .fixed "sizeof" 1 .sizeOf :=
    Builtin.eq_of_kind known (by decide) (kind ▸ rfl) (kind ▸ rfl)
  exact named.symm

variable {table : Table} {body : List Statement} {α : Type} {kind : UnitKind}
  {fragments : List Fragment}

theorem word_of_sizeofType {operand : Expr} {found : Ty} {fault : Fault}
    (sized : Check.sizeofType table operand = .ok found)
    (failed : sizeofType operand = .error fault) :
    ∃ word ∈ constructorNames, operand = .name word ∧
      fault = .lowering (.malformedType (.needsArguments word)) ∧
      ∃ symbol, table.lookup word = some symbol ∧ isAggregate symbol = true := by
  cases operand with
  | name word =>
      obtain ⟨refusal, isRefused, rfl⟩ : ∃ refusal, Ty.ofName word = .error refusal ∧
          fault = .lowering (.malformedType refusal) := by
        cases outcome : Ty.ofName word with
        | error refusal =>
            have isFault : .lowering (.malformedType refusal) = fault := by
              simpa [sizeofType, outcome, Except.mapError] using failed
            exact ⟨refusal, rfl, isFault.symm⟩
        | ok ty => simp [sizeofType, outcome, Except.mapError] at failed
      obtain ⟨isWord, rfl⟩ := mem_constructorNames isRefused
      refine ⟨word, isWord, rfl, rfl, ?_⟩
      cases looked : table.lookup word with
      | none => simp [Check.sizeofType, looked, isRefused] at sized
      | some symbol =>
          refine ⟨symbol, rfl, ?_⟩
          by_contra notDeclared
          simp [isAggregate] at notDeclared
          simp [Check.sizeofType, looked, isRefused, notDeclared] at sized
  | constant value =>
      cases value with
      | str text =>
          cases read : parseType text 0 with
          | error detail => simp [Check.sizeofType, read] at sized
          | ok written =>
              simp only [Check.sizeofType, read, bind_eq_ok, mapError_eq_ok] at sized
              obtain ⟨ty, isTy, _⟩ := sized
              simp [sizeofType, read, isTy, Except.mapError] at failed
      | _ => simp [Check.sizeofType] at sized
  | _ => simp [Check.sizeofType] at sized

/-- What a call that has a type is to blame for. -/
theorem word_of_breaks {call : Call} {fault : Fault} (breaks : Breaks call fault)
    (typed : Check.TypedCall table call) :
    ∃ word ∈ constructorNames, call = sizeOfWord word ∧
      fault = .lowering (.malformedType (.needsArguments word)) ∧
      ∃ symbol, table.lookup word = some symbol ∧ isAggregate symbol = true := by
  obtain ⟨asked, ty, isTyped⟩ := typed
  obtain ⟨callee, isCallee, called⟩ := Check.called_of_typeIn isTyped
  -- What is called by the name of a builtin is the builtin.
  have builtinCalled {id : String} {builtin : Builtin} {args : List Expr}
      (known : Builtin.find? id = some builtin)
      (isCallee : Check.callee? table (.name id) = some callee)
      (called : Check.Called table asked args callee ty) :
      Check.Accepts table builtin.kind args ty ∧ builtin.acceptsArity args.length = true := by
    obtain rfl : Check.Callee.builtin builtin = callee := by
      simpa [Check.callee?, known] using isCallee
    cases called with
    | builtin isKnown isTyped =>
        exact ⟨Check.accepts_of_builtinType isTyped,
          Check.acceptsArity_of_builtinType isKnown isTyped⟩
  cases breaks with
  | @form callee args notCallee => cases callee <;> simp_all [Expr.isCallee, Check.callee?]
  | range known kind =>
      have accepts := (builtinCalled known isCallee called).1
      rw [kind] at accepts
      cases accepts with
      | single isKind _ _ => simp at isKind
  | arity known notAccepted _ =>
      have accepted := (builtinCalled known isCallee called).2
      cases notAccepted.symm.trans accepted
  | @size id builtin operand others fault known kind failed =>
      have accepts := (builtinCalled known isCallee called).1
      rw [kind] at accepts
      cases accepts with
      | size sized =>
          obtain ⟨word, isWord, rfl, isFault, declared⟩ := word_of_sizeofType sized failed
          refine ⟨word, isWord, ?_, isFault, declared⟩
          rw [sizeOfWord, eq_sizeof_of_kind known kind]
      | single isKind _ _ => simp at isKind

/-! ## Statements -/

/-- A fault that is not internal, or that a typed call is to blame for. -/
def TracedTo (calls : List (Site × Call)) (fault : Fault) : Prop :=
  fault = .lowering .scopeMismatch ∨ (fault.isInternal = true →
    ∃ site call table, (site, call) ∈ calls ∧ Breaks call fault ∧ Check.TypedCall table call)

/-- A computation that fails with such faults alone. -/
abbrev Traces {α : Type} (calls : List (Site × Call)) (outcome : Except Fault α) : Prop :=
  FailsFor (TracedTo calls) outcome

theorem Traces.within {calls calls' : List (Site × Call)} (traces : Traces calls outcome)
    (subset : calls ⊆ calls') : Traces calls' outcome := by
  refine traces.mono fun cause traced => traced.imp_right fun found isInternal => ?_
  obtain ⟨site, call, table, member, breaks, typed⟩ := found isInternal
  exact ⟨site, call, table, subset member, breaks, typed⟩

theorem External.traces (external : External outcome) (calls : List (Site × Call)) :
    Traces calls outcome := by
  refine external.mono fun cause isExternal => .inr fun isInternal => ?_
  simp [isExternal] at isInternal

/-- Calls of one statement that have types. -/
theorem Blames.traces {calls : List Call} (blames : Blames calls outcome)
    (typed : ∀ call ∈ calls, Check.TypedCall table call) (site : Site) :
    Traces (callsAt site calls) outcome := by
  refine blames.mono fun cause blamed => .inr fun isInternal => ?_
  obtain ⟨call, member, breaks⟩ := blamed isInternal
  exact ⟨site, call, table, List.mem_map_of_mem member, breaks, typed call member⟩

theorem Blames.external {calls : List Call} (blames : Blames calls outcome) (silent : calls = []) :
    External outcome := by
  refine blames.mono fun cause blamed => ?_
  by_contra isInternal
  obtain ⟨call, member, _⟩ := blamed (by simpa using isInternal)
  simp [silent] at member

theorem traces_enter (calls : List (Site × Call)) (table : Table) (walk : Walk) :
    Traces calls (walk.enter table) := .ite (.ok _) (.error (.inl rfl))

theorem blames_lowerDeclare {after : Table} {target : Expr} {written : TypeExpr}
    {value : Option Expr} (declared : Check.declareVariable table target written value = .ok after)
    (view : View) :
    Blames (target.calls ++ callsIn? value) (lowerDeclare view target written value) := by
  simp only [Check.declareVariable, bind_eq_ok, Check.annotatedOf, mapError_eq_ok] at declared
  obtain ⟨name, isName, annotated, isAnnotated, _⟩ := declared
  cases target with
  | name id =>
      rw [lowerDeclare, isAnnotated]
      refine .bind (.ok _) fun written _ => ?_
      refine .bind ((external_declarator _ written.ty _).blames _) fun declared _ => ?_
      cases value with
      | none => exact .pure _
      | some value =>
          have inside (place : Place) : Blames (callsIn? (some value)) (lower view place value) :=
            (blames_lower view place value).within (List.subset_append_left _ _)
          dsimp only
          split
          · exact .error (by rintro ⟨⟩)
          · exact .ite (.pure _) (.bind (inside _) fun _ _ => .pure _)
  | _ => cases isName

theorem rangeCall?_eq (iter : Expr) : rangeCall? iter = (Check.rangeCall? iter).map (·.2) := by
  fun_cases rangeCall? iter <;> simp_all [Check.rangeCall?]

/-- A range has one bound or two. -/
theorem length_of_range {id : String} {builtin : Builtin} {bounds : List Expr}
    (known : Builtin.find? id = some builtin) (kind : builtin.kind = .range)
    (accepted : builtin.acceptsArity bounds.length = true) :
    (∃ stop, bounds = [stop]) ∨ ∃ start stop, bounds = [start, stop] := by
  obtain rfl : builtin = ⟨"range", 1, 2, .range⟩ :=
    Builtin.eq_of_kind known (by decide) (kind ▸ rfl) (kind ▸ rfl)
  simp only [Builtin.acceptsArity, Bool.and_eq_true, decide_eq_true_eq] at accepted
  rcases bounds with _ | ⟨first, _ | ⟨second, _ | _⟩⟩
  · simp at accepted
  · exact .inl ⟨first, rfl⟩
  · exact .inr ⟨first, second, rfl⟩
  · simp at accepted

theorem traces_counting {iter : Expr} {item : Ty}
    (typed : Check.iterationType table iter = .ok item) (site : Site) (view : View)
    (target : String) (walk : Walk) :
    Traces (callsAt site iter.calls) (counting view target iter walk) := by
  rw [Check.iterationType] at typed
  cases isRange : Check.rangeCall? iter with
  | none =>
      simp only [isRange, bind_eq_ok] at typed
      obtain ⟨_, isTyped, _⟩ := typed
      have inside : Traces (callsAt site iter.calls) (lower view .operand iter) :=
        (blames_lower view .operand iter).traces (Check.typed_calls iter isTyped) site
      rw [counting, rangeCall?_eq, isRange]
      dsimp only [Option.map_none]
      split
      · exact .error (.inr (by rintro ⟨⟩))
      · refine .bind inside fun array _ => ?_
        exact .bind ((external_declarator _ _ _).traces _) fun _ _ => .pure _
      · exact .error (.inr (by rintro ⟨⟩))
  | some pair =>
      obtain ⟨builtin, bounds⟩ := pair
      obtain ⟨id, rfl, known, kind⟩ := Check.eq_call_of_rangeCall? isRange
      simp only [isRange, ite_error_eq_ok, bind_eq_ok] at typed
      obtain ⟨arity, _, checked, _⟩ := typed
      have blamed :
          Blames (callsIn bounds) (counting view target (.call (.name id) bounds) walk) := by
        rw [counting, rangeCall?_eq, isRange]
        rcases length_of_range known kind arity with ⟨stop, rfl⟩ | ⟨start, stop, rfl⟩
        · exact .bind ((blames_lower view .operand stop).within (List.subset_append_left _ _))
            fun _ _ => .pure _
        · have first := blames_lower view .operand start
          refine .bind (first.within (List.subset_append_left _ _)) fun low _ => ?_
          refine .bind ((blames_lower view .operand stop).within ?_) fun high _ => .pure _
          exact List.Subset.trans (List.subset_append_left _ _) (List.subset_append_right _ _)
      have typed := Check.typed_callsIn (Check.checked_of_checkBounds checked)
      refine (blamed.traces typed site).within ?_
      exact List.map_subset _ (List.subset_cons_of_subset _ (List.subset_append_right _ _))

def LabelsKnown (labels : List (Option String)) (names : List (String × String)) : Prop :=
  ∀ label, some label ∈ labels → ∃ found, names.find? (·.1 = label) = some found

theorem LabelsKnown.inLoop {around inside : Check.Surroundings} {surroundings : Surroundings}
    (known : LabelsKnown around.loops surroundings.loops) {label : Option String}
    (entered : around.inLoop label = .ok inside) (walk : Walk) :
    LabelsKnown inside.loops (surroundings.inLoop label walk).2.1.loops := by
  cases label with
  | none =>
      obtain rfl := Except.ok.inj entered
      intro word member
      exact known word (by simpa using member)
  | some word =>
      simp only [Check.Surroundings.inLoop, error_ite_eq_ok, Except.ok.injEq] at entered
      obtain ⟨_, rfl⟩ := entered
      intro other member
      by_cases same : word = other
      · exact ⟨_, List.find?_cons_of_pos (by simpa using same)⟩
      · obtain ⟨found, isFound⟩ := known other (by simpa [Ne.symm same] using member)
        exact ⟨found, by simpa [Surroundings.inLoop, Walk.fresh, same] using isFound⟩

theorem external_lowerJump {around : Check.Surroundings} {surroundings : Surroundings}
    (known : LabelsKnown around.loops surroundings.loops) {jump : Jump} {label : Option String}
    (checked : Check.checkJump around jump label = .ok ()) :
    External (lowerJump surroundings jump label) := by
  cases label with
  | none => exact .ok _
  | some word =>
      simp only [Check.checkJump, error_ite_eq_ok, ite_error_eq_ok] at checked
      obtain ⟨found, isFound⟩ := known word (by simpa using checked.2)
      rw [lowerJump, isFound]
      exact .ok _

mutual

/-- An accepted statement fails for what its calls are to blame for. -/
theorem traces_lowerForm {around : Check.Surroundings} {surroundings : Surroundings}
    (known : LabelsKnown around.loops surroundings.loops) {line : Nat} {table after : Table}
    (site : Site) (walk : Walk) :
    (form : Form) → Check.checkForm around line form table = .ok after →
      Traces (form.calls site) (lowerForm surroundings line form walk)
  | .declare target written value, accepted => by
      simp only [Check.checkForm, onLine_eq_ok] at accepted
      have traces := (blames_lowerDeclare accepted (surroundings.view walk)).traces
        (Check.typedCalls_of_declareVariable accepted) site
      exact .bind traces fun _ _ => .pure _
  | .assign target value, accepted => by
      simp only [Check.checkForm, bind_eq_ok, onLine_eq_ok] at accepted
      obtain ⟨_, checked, _⟩ := accepted
      have traces := (blames_lowerAssign (surroundings.view walk) line target value).traces
        (Check.typedCalls_of_checkAssign checked) site
      exact .bind traces fun _ _ => .pure _
  | .branch test body orelse, accepted => by
      simp only [Check.checkForm, bind_eq_ok, onLine_eq_ok] at accepted
      obtain ⟨_, checked, _, isBody, _, isElse, _⟩ := accepted
      have condition := (blames_lower (surroundings.view walk) .operand test).traces
        (Check.checked_of_checkCondition checked).calls site
      rw [Form.calls, lowerForm]
      simp only [lowerElse_eq]
      have chosen (inside : Walk) := traces_lowerBody known (0 :: site) 0 inside body isBody
      have others (inside : Walk) := traces_lowerBody known (1 :: site) 0 inside orelse isElse
      refine .bind (condition.within ?_) fun test _ => ?_
      · exact List.subset_append_of_subset_left _ (List.subset_append_left _ _)
      refine .bind (traces_enter _ _ _) fun inside _ => ?_
      refine .bind ((chosen inside).within ?_) fun lowered _ => ?_
      · exact List.subset_append_of_subset_left _ (List.subset_append_right _ _)
      refine .bind (.bind (traces_enter _ _ _) fun inside _ => ?_) fun arms _ => .pure _
      exact .bind ((others inside).within (List.subset_append_right _ _)) fun _ _ => .pure _
  | .whileLoop test body label, accepted => by
      simp only [Check.checkForm, bind_eq_ok, onLine_eq_ok] at accepted
      obtain ⟨_, checked, _, entered, _, isBody, _⟩ := accepted
      have condition := (blames_lower (surroundings.view walk) .operand test).traces
        (Check.checked_of_checkCondition checked).calls site
      rw [Form.calls, lowerForm]
      refine .bind (condition.within (List.subset_append_left _ _)) fun test _ => ?_
      refine .bind (traces_enter _ _ _) fun inside _ => .bind ?_ fun _ _ => .pure _
      exact (traces_lowerBody (known.inLoop entered walk) (0 :: site) 0 inside body isBody).within
        (List.subset_append_right _ _)
  | .forLoop target iter body label, accepted => by
      simp only [Check.checkForm, bind_eq_ok, onLine_eq_ok] at accepted
      obtain ⟨_, typed, _, entered, _, _, _, isBody, _⟩ := accepted
      have counted := traces_counting typed site (surroundings.view walk) target walk
      rw [Form.calls, lowerForm]
      refine .bind (counted.within (List.subset_append_left _ _)) fun counting _ => ?_
      refine .bind (traces_enter _ _ _) fun inside _ => .bind ?_ fun _ _ => .pure _
      exact (traces_lowerBody (known.inLoop entered counting.2) (0 :: site) 0 inside body
        isBody).within (List.subset_append_right _ _)
  | .jump jump label, accepted => by
      simp only [Check.checkForm, bind_eq_ok, onLine_eq_ok] at accepted
      obtain ⟨_, checked, _⟩ := accepted
      exact .bind ((external_lowerJump known checked).traces _) fun _ _ => .pure _
  | .ret value, accepted => by
      simp only [Check.checkForm, bind_eq_ok, onLine_eq_ok] at accepted
      obtain ⟨_, checked, _⟩ := accepted
      have traces := (blames_lowerReturn surroundings (surroundings.view walk) value).traces
        (Check.typedCalls_of_checkReturn checked) site
      exact .bind traces fun _ _ => .pure _
  | .expr value, accepted => by
      simp only [Check.checkForm, bind_eq_ok, onLine_eq_ok] at accepted
      obtain ⟨_, typed, _⟩ := accepted
      have traces := (blames_lower (surroundings.view walk) .operand value).traces
        (Check.typed_calls value typed) site
      rcases lowerForm_expr surroundings line value walk with ⟨_, silent⟩ | written
      · rw [silent]
        exact .ok _
      · rw [written]
        exact .bind traces fun _ _ => .pure _
  | .pass, _ => .pure _
  | .select subject cases, accepted => by
      simp only [Check.checkForm, bind_eq_ok, onLine_eq_ok] at accepted
      obtain ⟨_, typed, areCases⟩ := accepted
      have traces := (blames_lowerSubject (surroundings.view walk) subject walk).traces
        (Check.checked_of_subjectType typed).calls site
      rw [Form.calls, lowerForm]
      refine .bind (traces.within (List.subset_append_left _ _)) fun kept _ => ?_
      refine .bind ?_ fun arms _ => .pure _
      exact (traces_lowerCases known site 0 kept.1 kept.2 cases areCases).within
        (List.subset_append_right _ _)
  | .import_ _, accepted => nomatch accepted
  | .function _, accepted => nomatch accepted
  | .classDef _, accepted => nomatch accepted

theorem traces_lowerBody {around : Check.Surroundings} {surroundings : Surroundings}
    (known : LabelsKnown around.loops surroundings.loops) {table after : Table} (site : Site)
    (position : Nat) (walk : Walk) :
    (body : List Statement) → Check.checkBody around body table = .ok after →
      Traces (bodyCalls site position body) (lowerBody surroundings body walk)
  | [], _ => .pure _
  | ⟨line, form⟩ :: others, accepted => by
      simp only [Check.checkBody, bind_eq_ok] at accepted
      obtain ⟨_, isFirst, areOthers⟩ := accepted
      rw [bodyCalls, lowerBody]
      have first := traces_lowerForm known (position :: site) walk form isFirst
      refine .bind (first.within (List.subset_append_left _ _)) fun lowered _ => ?_
      refine .bind ?_ fun rest _ => .pure _
      exact (traces_lowerBody known site (position + 1) lowered.2 others areOthers).within
        (List.subset_append_right _ _)

theorem traces_lowerCases {around : Check.Surroundings} {surroundings : Surroundings}
    (known : LabelsKnown around.loops surroundings.loops) {subject : Ty} {table after : Table}
    (site : Site) (position : Nat) (kept : Subject) (walk : Walk) :
    (cases : List Case) → Check.checkCases around subject cases table = .ok after →
      Traces (caseCalls site position cases) (lowerCases surroundings kept cases walk)
  | [], _ => .pure _
  | ⟨pattern, body, line⟩ :: others, accepted => by
      simp only [Check.checkCases, bind_eq_ok, onLine_eq_ok] at accepted
      obtain ⟨_, checked, _, isBody, areOthers⟩ := accepted
      have condition := (blames_lowerPattern (surroundings.view walk) kept pattern).traces
        (Check.typedCalls_of_checkPattern checked) (position :: site)
      rw [caseCalls, lowerCases]
      have chosen (inside : Walk) :=
        traces_lowerBody known (position :: site) 0 inside body isBody
      have later (last : Walk) := traces_lowerCases known site (position + 1) kept
        (last.leave surroundings.table) others areOthers
      refine .bind (condition.within ?_) fun test _ => ?_
      · exact List.subset_append_of_subset_left _ (List.subset_append_left _ _)
      refine .bind (traces_enter _ _ _) fun inside _ => ?_
      refine .bind ((chosen inside).within ?_) fun lowered _ => ?_
      · exact List.subset_append_of_subset_left _ (List.subset_append_right _ _)
      exact .bind ((later lowered.2).within (List.subset_append_right _ _)) fun _ _ => .pure _

end

theorem exists_subset_numbered (listed : Nat → Statement → List α) (member : statement ∈ body) :
    ∃ position, listed position statement ⊆ numbered listed 0 body := by
  obtain ⟨position, isThere⟩ := List.mem_iff_getElem?.mp member
  refine ⟨position, fun item isListed => List.mem_flatMap.mpr ⟨(statement, position), ?_, isListed⟩⟩
  exact List.mk_mem_zipIdx_iff_getElem?.mpr isThere

theorem exists_site_of_defines (defines : Defines body owner decl) :
    ∃ site, bodyCalls (0 :: site) 0 decl.body ⊆ unitCalls body := by
  cases defines with
  | function member =>
      obtain ⟨position, subset⟩ := exists_subset_numbered topCalls member
      exact ⟨[position], subset⟩
  | method member isStruct inside =>
      obtain ⟨position, subset⟩ := exists_subset_numbered topCalls member
      obtain ⟨inner, subset'⟩ := exists_subset_numbered (memberCalls [position]) inside
      simp only [topCalls, if_pos isStruct] at subset
      exact ⟨[inner, position], List.Subset.trans subset' subset⟩

theorem external_lowerParameters {line : Nat} {found : Signature}
    (isSignature : Check.signatureOf decl owner.isSome line = .ok found) (table : Table)
    (signature : Signature) : External (lowerParameters table owner decl signature) := by
  have each (params : List Parameter) : External ((params.zip signature.params).mapM
      fun written => parameter table written.2 written.1.name) :=
    .mapM _ fun _ _ => external_parameter table _ _
  cases owner with
  | none => exact each decl.params
  | some owner =>
      simp only [Check.signatureOf, bind_eq_ok] at isSignature
      obtain ⟨_, areParams, _⟩ := isSignature
      rw [lowerParameters]
      cases isList : decl.params with
      | nil => simp [Check.parametersOf, isList] at areParams
      | cons receiver params => exact .bind (each params) fun _ _ => .pure _

theorem traces_lowerFunction (accepted : Check.checkUnit kind fragments body = .ok table)
    (defines : Defines body owner decl) (walk : Walk) :
    Traces (unitCalls body) (lowerFunction table owner decl walk) := by
  obtain ⟨site, subset⟩ := exists_site_of_defines defines
  obtain ⟨_, before, _, checked⟩ := Check.checkFunction_of_defines accepted defines
  simp only [Check.checkFunction_eq, Check.enterFunction, bind_eq_ok, pure_eq_ok] at checked
  obtain ⟨_, ⟨_, _, _, _, _, _, _, _, rfl⟩, _, isBody, _⟩ := checked
  obtain ⟨_, signature, isSignature, isKnown⟩ := signatureOf_of_defines accepted defines
  have params := (external_lowerParameters isSignature table signature).traces (unitCalls body)
  have outermost : LabelsKnown [] [] := by simp [LabelsKnown]
  rw [lowerFunction, isKnown, ok_bind]
  refine .bind params fun _ _ => .ite (.bind (.ok _) fun _ _ => ?_)
    (.bind ((external_typeOf table _).traces _) fun _ _ => ?_)
  all_goals
    refine .bind (traces_enter _ _ _) fun inside _ => .bind ?_ fun _ _ => .pure _
    exact (traces_lowerBody outermost (0 :: site) 0 inside decl.body isBody).within subset

theorem traces_addFunctions (accepted : Check.checkUnit kind fragments body = .ok table)
    (member : statement ∈ body) (state : Functions × Walk) :
    Traces (unitCalls body) (addFunctions table state statement) := by
  obtain ⟨line, form⟩ := statement
  cases form with
  | function decl =>
      refine .bind (traces_lowerFunction accepted (.function member) state.2) fun _ _ => ?_
      exact .ite (.pure _) (.pure _)
  | classDef owner =>
      by_cases isStruct : owner.kind = .struct
      · simp only [addFunctions, if_pos isStruct, foldlM_methods]
        refine .foldlM _ _ fun statement inside state => ?_
        obtain ⟨line, form⟩ := statement
        cases form with
        | function decl =>
            have defines := Defines.method member isStruct inside
            exact .bind (traces_lowerFunction accepted defines state.2) fun _ _ => .pure _
        | _ => exact .ok _
      · simp only [addFunctions, if_neg isStruct]
        exact .ok _
  | _ => exact .ok _

theorem calls_of_isInitializer {value : Expr} (initial : Check.isInitializer value = true) :
    value.calls = [] := by
  fun_cases Check.isInitializer value <;> simp_all [Check.isInitializer, Expr.calls]

theorem external_lowerGlobal? (accepted : Check.checkUnit kind fragments body = .ok table)
    (member : statement ∈ body) : External (lowerGlobal? table statement) := by
  obtain ⟨line, form⟩ := statement
  cases form with
  | declare target written value =>
      cases target with
      | name name =>
          obtain ⟨annotated, _, isAnnotated, _, starts⟩ := Check.starts_of_declare accepted member
          simp only [Check.annotatedOf, mapError_eq_ok] at isAnnotated
          simp only [lowerGlobal?, isAnnotated]
          refine .bind (.ok _) fun _ _ => .bind (external_declarator _ _ _) fun _ _ => ?_
          cases value with
          | none => exact .pure _
          | some value =>
              have silent := calls_of_isInitializer (starts value rfl).1
              have blames := blames_lower ⟨table, 0⟩ .operand value
              exact .bind (blames.external silent) fun _ _ => .pure _
      | _ => exact .pure _
  | _ => exact .pure _

/-- An accepted unit fails for what its calls are to blame for. -/
theorem traces_lowerUnit (accepted : Check.checkUnit kind fragments body = .ok table)
    (support : String) (target : UnitKind) :
    Traces (unitCalls body) (lowerUnit table support target body) := by
  have globals (statement : Statement) (member : statement ∈ body) :
      Traces (unitCalls body) (lowerGlobal? table statement) :=
    (external_lowerGlobal? accepted member).traces _
  refine .bind ((external_orderStructs _).traces _) fun ordered _ => ?_
  refine .bind (.mapM _ fun _ _ => (external_structDef table _).traces _) fun structs _ => ?_
  refine .bind ((external_lowerExternals table).traces _) fun externals _ => ?_
  refine .bind (.mapM body globals) fun defined _ => ?_
  refine .bind ((external_lowerPrototypes table).traces _) fun prototypes _ => ?_
  refine .bind (.foldlM body _ fun _ member => traces_addFunctions accepted member) fun _ _ => ?_
  exact .pure _

end Lower

/-- The lowering of an accepted unit fails for what its source says, or for one internal cause: an
annotation without the arguments it needs, which is the name of a type constructor under which a
type is declared whose size a function asks for. -/
theorem internal_failure_names_constructor {kind : UnitKind} {modules : List Fragment}
    {body : List Statement} {table : Table} (analyzed : analyze kind modules body = .ok table)
    {support : String} {target : UnitKind} {fault : Fault}
    (failed : generate table support target body = .error fault) :
    ∃ cause, fault = .lowering cause ∧ (cause.isInternal = true →
      ∃ word ∈ Lower.constructorNames, cause = .malformedType (.needsArguments word) ∧
        ∃ site moment symbol, (site, Lower.sizeOfWord word) ∈ unitCalls body ∧
          .reaches site moment ∈ Check.visits kind modules body ∧
          moment.table.lookup word = some symbol ∧ Lower.isAggregate symbol = true) := by
  obtain ⟨_, _, follows⟩ := Lower.follows_unit analyzed
  obtain ⟨isStage, notMismatch⟩ :=
    Lower.failsFor_lowerUnit (fun _ => id) support target follows.steady fault failed
  have traced := (Lower.traces_lowerUnit analyzed support target fault failed).resolve_left
    notMismatch
  cases fault with
  | lowering cause =>
      refine ⟨cause, rfl, fun isInternal => ?_⟩
      obtain ⟨site, call, _, member, breaks, typed⟩ := traced isInternal
      obtain ⟨word, isWord, rfl, isFault, _⟩ := Lower.word_of_breaks breaks typed
      -- The call has a type somewhere; where the check reaches it, the name is the declared type.
      obtain ⟨moment, reached, admitted⟩ := Check.admitted_unit analyzed _ _ member
      have typedThere : Check.TypedCall moment.table (Lower.sizeOfWord word) := by
        cases admitted with
        | typed typed => exact typed
        | range isRange _ => cases isRange
      obtain ⟨_, _, same, _, symbol, isFound, declared⟩ :=
        Lower.word_of_breaks breaks typedThere
      obtain rfl : word = _ := by simpa [Lower.sizeOfWord] using same
      exact ⟨word, isWord, Fault.lowering.inj isFault, site, moment, symbol, member, reached,
        isFound, declared⟩
  | _ => cases isStage

/-- A struct under the name of a type constructor, whose size is asked for. -/
def sizeOfPtr : List Statement :=
  [⟨1, .classDef ⟨"ptr", [], .struct, [⟨2, .declare (.name "x") (.name "int") none⟩]⟩⟩,
   ⟨4, .function ⟨"main", [], none,
    [⟨5, .declare (.name "n") (.name "int") (some (.call (.name "sizeof") [.name "ptr"]))⟩,
     ⟨6, .expr (.call (.name "print") [.name "n"])⟩]⟩⟩]

theorem internal_failure_names_constructor_ptr :
    ∃ table cause site moment symbol, analyze .program [] sizeOfPtr = .ok table ∧
      generate table defaultSupport .program sizeOfPtr = .error (.lowering cause) ∧
      cause.isInternal = true ∧ cause.message = "type 'ptr' needs type arguments" ∧
      (site, Lower.sizeOfWord "ptr") ∈ unitCalls sizeOfPtr ∧
      .reaches site moment ∈ Check.visits .program [] sizeOfPtr ∧
      moment.table.lookup "ptr" = some symbol ∧ Lower.isAggregate symbol = true := by
  let outer : Scope :=
    ⟨none, [.plain "ptr" (.struct [⟨"x", .int⟩] []), .function "main" ⟨[], .none⟩]⟩
  let table : Table := ⟨[outer, ⟨some 0, [.value "n" .int false]⟩], 0⟩
  have analyzed : analyze .program [] sizeOfPtr = .ok table := by with_unfolding_all rfl
  have failed : generate table defaultSupport .program sizeOfPtr =
      .error (.lowering (.malformedType (.needsArguments "ptr"))) := by with_unfolding_all rfl
  obtain ⟨cause, same, internal⟩ := internal_failure_names_constructor analyzed failed
  obtain rfl := Fault.lowering.inj same
  obtain ⟨word, _, isCause, site, moment, symbol, member, reached, isFound, declared⟩ :=
    internal rfl
  obtain rfl : "ptr" = word := by simpa using isCause
  exact ⟨table, _, site, moment, symbol, analyzed, failed, rfl, by decide, member, reached,
    isFound, declared⟩

end Offside
