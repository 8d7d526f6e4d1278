import Offside.Proofs.Scope.Declared
import Offside.Proofs.Scope.Identifiers

/-!
# Identifiers that a lowering comes across

The identifiers in the code of a function are those that its lowering comes across, in order and
with the same objects in scope.
-/

namespace Offside

namespace Lower

open Outcome

variable {around : Surroundings} {walk : Walk}

def Use.occurrences (use : Use) : List C.Occurrence :=
  use.mentions.map fun mention => ⟨mention.emitted, (use.own ++ use.around).map (·.name)⟩

def Visit.occurrences : Visit → List C.Occurrence
  | .enters _ _ => []
  | .reaches _ _ uses => uses.flatMap (·.occurrences)

theorem occurrences_of_names {own around : List Object} {mentions : List Mention} {code : C.Expr}
    (same : code.names = mentions.map Mention.emitted) :
    (⟨own, around, mentions⟩ : Use).occurrences =
      code.occurrences ((own ++ around).map (·.name)) := by
  rw [C.Expr.occurrences, same, List.map_map]
  rfl

theorem occurrences_of_lower {own around : List Object} {view : View} {place : Place} {expr : Expr}
    {code : C.Expr} (lowered : lower view place expr = .ok code) :
    (⟨own, around, mentions view expr⟩ : Use).occurrences =
      code.occurrences ((own ++ around).map (·.name)) :=
  occurrences_of_names (names_of_lower expr lowered)

theorem occurrences_defaultInitial (visible : List String) (table : Table) (isConst : Bool)
    (declared : C.Declarator) (ty : Ty) :
    (C.Stmt.define ⟨isConst, declared, defaultInitial table ty⟩).occurrences visible = [] := by
  rw [defaultInitial.eq_def]
  split
  · rfl
  · rfl
  · split <;> rfl
  · rfl

theorem occurrences_of_lowerDeclare (objects : List Object) {target : Expr} {written : TypeExpr}
    {value : Option Expr} {definition : C.Definition}
    (lowered : lowerDeclare (around.view walk) target written value = .ok definition) :
    (usesOf around objects (.declare target written value) walk).flatMap Use.occurrences =
        (C.Stmt.define definition).occurrences (objects.map (·.name)) ∧
      (declaredObjects (around.view walk) (.declare target written value) walk).map (·.name) =
        [definition.declarator.name] := by
  rw [lowerDeclare.eq_def] at lowered
  split at lowered
  · rename_i name
    simp only [bind_eq_ok] at lowered
    obtain ⟨annotated, _, declared, declares, lowered⟩ := lowered
    have named := name_of_declarator declares
    split at lowered
    · obtain rfl := Except.ok.inj lowered
      exact ⟨(occurrences_defaultInitial _ _ _ _ _).symm, by rw [named]; rfl⟩
    · rename_i value
      split at lowered
      · simp at lowered
      · split at lowered
        · rename_i isMade
          obtain rfl := Except.ok.inj lowered
          exact ⟨by simp [usesOf, isMade, C.Stmt.occurrences], by rw [named]; rfl⟩
        · rename_i notMade
          obtain ⟨code, isCode, rfl⟩ := by simpa using lowered
          refine ⟨?_, by rw [named]; rfl⟩
          simp only [usesOf, notMade, Bool.false_eq_true, if_false, List.flatMap_cons,
            List.flatMap_nil, List.append_nil, C.Stmt.occurrences, occurrences_of_lower isCode,
            named]
          rfl
  · simp at lowered

theorem occurrences_of_lowerReturn (objects : List Object) {value : Option Expr} {stmt : C.Stmt}
    (lowered : lowerReturn around (around.view walk) value = .ok stmt) :
    (usesOf around objects (.ret value) walk).flatMap Use.occurrences =
        stmt.occurrences (objects.map (·.name)) ∧
      stmt.declared = [] := by
  rw [lowerReturn.eq_def] at lowered
  split at lowered
  · rename_i isEntry
    obtain rfl := Except.ok.inj lowered
    cases value <;> simp [usesOf, isEntry, exitSuccess, C.Stmt.occurrences, C.Expr.occurrences,
      C.Expr.names, C.Stmt.declared]
  · rename_i notEntry
    split at lowered
    · obtain rfl := Except.ok.inj lowered
      exact ⟨rfl, rfl⟩
    · rename_i value
      simp only [usesOf, notEntry, Bool.false_eq_true, if_false, List.flatMap_cons,
        List.flatMap_nil, List.append_nil]
      split at lowered
      · rename_i isNone
        obtain rfl := Except.ok.inj lowered
        obtain ⟨isNone, _⟩ := by simpa using isNone
        cases value with
        | constant constant => exact ⟨rfl, rfl⟩
        | _ => simp [Expr.isNone] at isNone
      · obtain ⟨code, isCode, rfl⟩ := by simpa using lowered
        exact ⟨occurrences_of_lower isCode, rfl⟩

theorem armOccurrences_elseArms (visible : List String) {orelse : List Statement}
    {code : List C.Stmt} (empty : orelse = [] → code = []) :
    C.armOccurrences visible (elseArms orelse code) = C.bodyOccurrences visible code := by
  rw [elseArms.eq_def]
  split
  · rw [empty rfl]
    rfl
  · rw [C.bodyOccurrences, C.bodyOccurrences, List.append_nil, C.Stmt.occurrences]
  · rw [C.armOccurrences, C.armOccurrences, List.append_nil]

theorem occurrences_of_lowerPattern {view : View} {objects : List Object} {shown : List Mention}
    {subject : Subject} {pattern : Pattern} {condition : Option C.Expr}
    (same : subject.shown.names = shown.map Mention.emitted)
    (lowered : lowerPattern view subject pattern = .ok condition) (body : List C.Stmt)
    (arms : List C.Arm) :
    C.armOccurrences (objects.map (·.name)) (⟨condition, body⟩ :: arms) =
      (patternUses view objects shown pattern).flatMap Use.occurrences ++
        C.bodyOccurrences (objects.map (·.name)) body ++
          C.armOccurrences (objects.map (·.name)) arms := by
  cases pattern with
  | wildcard =>
      obtain rfl := Except.ok.inj lowered
      rfl
  | value expr =>
      obtain ⟨code, isCode, rfl⟩ := by simpa [lowerPattern] using lowered
      have names : (compared subject.isText .eq subject.shown code).names =
          (shown ++ mentions view expr).map Mention.emitted := by
        rw [names_compared, same, names_of_lower expr isCode, List.map_append]
      rw [C.armOccurrences, patternUses, List.flatMap_cons, List.flatMap_nil, List.append_nil,
        occurrences_of_names names, List.nil_append]

theorem occurrences_of_countsBy (objects : List Object) (body : List Statement)
    (label : Option String) {target : String} {iter : Expr} {next : Walk} {counted : Counting}
    (counts : CountsBy (around.view walk) target iter walk counted next) (code : List C.Stmt)
    (name : Option String) :
    (C.Stmt.countLoop counted.counter counted.start counted.stop (counted.opening ++ code)
        name).occurrences (objects.map (·.name)) =
      (usesOf around objects (.forLoop target iter body label) walk).flatMap Use.occurrences ++
        C.bodyOccurrences ((loopObjects target iter walk ++ objects).map (·.name)) code := by
  have noNames (visible : List String) (value : Nat) : (number value).occurrences visible = [] :=
    rfl
  cases counts with
  | upTo isRange lowered =>
      simp only [usesOf, isRange, loopObjects, counterObject, Option.isSome_some, if_true,
        mentionsEach, List.map_cons, List.map_nil, List.flatMap_cons, List.flatMap_nil,
        List.append_nil, occurrences_of_lower lowered, C.Stmt.occurrences, noNames,
        List.nil_append]
      rfl
  | between isRange loweredStart loweredStop =>
      simp only [usesOf, isRange, loopObjects, counterObject, Option.isSome_some, if_true,
        mentionsEach, List.map_cons, List.map_nil, List.flatMap_cons, List.flatMap_nil,
        List.append_nil, occurrences_of_lower loweredStart, occurrences_of_lower loweredStop,
        C.Stmt.occurrences, List.nil_append]
      rfl
  | positions noRange lowered declares =>
      rename_i item size array declared
      have names : (C.Expr.index array (.name (walk.fresh "_i").1)).names =
          (mentions (around.view walk) iter ++ [Mention.made (walk.fresh "_i").1]).map
            Mention.emitted := by
        rw [C.Expr.names, names_of_lower iter lowered, List.map_append]
        rfl
      simp only [usesOf, noRange, loopObjects, counterObject, Option.isSome_none,
        Bool.false_eq_true, if_false, List.flatMap_cons, List.flatMap_nil, List.append_nil,
        occurrences_of_names names, C.Stmt.occurrences, noNames, List.nil_append,
        C.bodyOccurrences_append, C.bodyOccurrences, name_of_declarator declares,
        C.declaredAfter, C.Stmt.declared]
      rfl

/-- The conditions of a match statement show its subject or where it is kept. -/
theorem occurrences_of_lowersTo (objects : List Object) (cases : List Case) {subject : Expr}
    {next : Walk} {made : Subject} (lowers : LowersTo (around.view walk) subject walk made next)
    (arms : List C.Arm) :
    made.shown.names = (shownMentions (around.view walk) subject walk).map Mention.emitted ∧
      C.bodyOccurrences (objects.map (·.name)) [.select made.value made.kept arms] =
        (usesOf around objects (.select subject cases) walk).flatMap Use.occurrences ++
          C.armOccurrences ((keptObject (around.view walk) subject walk ++ objects).map (·.name))
            arms ∧
      C.declaredAfter [.select made.value made.kept arms] =
        (keptObject (around.view walk) subject walk).map (·.name) := by
  cases lowers with
  | shown notKept isCode =>
      refine ⟨?_, ?_, by rw [notKept]; rfl⟩
      · rw [shownMentions, notKept]
        exact names_of_lower subject isCode
      · simp only [C.bodyOccurrences, C.Stmt.occurrences, usesOf, notKept, List.isEmpty_nil,
          if_true, List.flatMap_nil, List.append_nil, List.nil_append]
  | kept isKept isCode declares =>
      have named := name_of_declarator declares
      refine ⟨?_, ?_, by rw [isKept, ← named]; rfl⟩
      · rw [shownMentions, isKept, ← named]
        rfl
      · simp only [C.bodyOccurrences, C.Stmt.occurrences, usesOf, isKept, List.isEmpty_cons,
          Bool.false_eq_true, if_false, List.flatMap_cons, List.flatMap_nil, List.append_nil,
          occurrences_of_lower isCode, named]
        rfl

mutual

/-- The code of a statement names what its lowering comes across. -/
theorem occurrences_of_lowerForm (objects : List Object) (site : Site) {around : Surroundings}
    {line : Nat} {walk next : Walk} {code : List C.Stmt} :
    (form : Form) → lowerForm around line form walk = .ok (code, next) →
      C.bodyOccurrences (objects.map (·.name)) code =
          (usesOf around objects form walk).flatMap Use.occurrences ++
            (visitsForm around objects site form walk).flatMap Visit.occurrences ∧
        C.declaredAfter code = (declaredObjects (around.view walk) form walk).map (·.name)
  | .declare target written value, lowered => by
      simp only [lowerForm, bind_eq_ok, pure_eq_ok, Prod.mk.injEq] at lowered
      obtain ⟨definition, isDefinition, rfl, rfl⟩ := lowered
      obtain ⟨uses, declared⟩ := occurrences_of_lowerDeclare objects isDefinition
      rw [C.bodyOccurrences, C.bodyOccurrences, uses, declared]
      exact ⟨rfl, rfl⟩
  | .assign target value, lowered => by
      simp only [lowerForm, lowerAssign, bind_eq_ok, pure_eq_ok, Prod.mk.injEq] at lowered
      obtain ⟨stmt, isStmt, rfl, rfl⟩ := lowered
      split at isStmt
      · simp at isStmt
      · obtain ⟨first, isFirst, second, isSecond, rfl⟩ := by simpa using isStmt
        refine ⟨?_, rfl⟩
        simp only [C.bodyOccurrences, C.Stmt.occurrences, usesOf, visitsForm, List.flatMap_cons,
          List.flatMap_nil, List.append_nil, occurrences_of_lower isFirst,
          occurrences_of_lower isSecond, List.nil_append]
  | .branch test body orelse, lowered => by
      simp only [lowerForm, lowerElse_eq, bind_eq_ok, pure_eq_ok, Prod.exists,
        Prod.mk.injEq] at lowered
      obtain ⟨condition, isCondition, first, isFirst, inner, within, isInner, arms, _,
        ⟨second, isSecond, other, after, isOther, rfl, rfl⟩, rfl, rfl⟩ := lowered
      have empty : orelse = [] → other = [] := by
        rintro rfl
        obtain ⟨rfl, _⟩ := by simpa [lowerBody] using isOther
        rfl
      refine ⟨?_, rfl⟩
      simp only [C.bodyOccurrences, C.Stmt.occurrences, C.armOccurrences,
        armOccurrences_elseArms _ empty, usesOf, visitsForm, isCondition, isFirst, isInner,
        visitsElse_eq, isSecond, given_ok, List.flatMap_cons, List.flatMap_append,
        List.flatMap_nil, List.append_nil, Visit.occurrences, List.nil_append,
        occurrences_of_lower isCondition, List.append_assoc,
        occurrences_of_lowerBody objects (0 :: site) 0 body isInner,
        occurrences_of_lowerBody objects (1 :: site) 0 orelse isOther]
  | .whileLoop test body label, lowered => by
      simp only [lowerForm, bind_eq_ok, pure_eq_ok, Prod.exists, Prod.mk.injEq] at lowered
      obtain ⟨condition, isCondition, first, isFirst, inner, within, isInner, rfl, rfl⟩ := lowered
      refine ⟨?_, rfl⟩
      simp only [C.bodyOccurrences, C.Stmt.occurrences, usesOf, visitsForm, isCondition, isFirst,
        given_ok, List.flatMap_cons, List.flatMap_nil, List.append_nil, Visit.occurrences,
        List.nil_append, occurrences_of_lower isCondition,
        occurrences_of_lowerBody objects (0 :: site) 0 body isInner]
  | .forLoop target iter body label, lowered => by
      simp only [lowerForm, bind_eq_ok, pure_eq_ok, Prod.exists, Prod.mk.injEq] at lowered
      obtain ⟨counted, second, counts, first, isFirst, inner, within, isInner, rfl, rfl⟩ := lowered
      refine ⟨?_, rfl⟩
      rw [C.bodyOccurrences, C.bodyOccurrences, List.append_nil,
        occurrences_of_countsBy objects body label (countsBy_of_counting counts) inner]
      simp only [visitsForm, counts, isFirst, given_ok, List.flatMap_cons, Visit.occurrences,
        List.nil_append, occurrences_of_lowerBody _ (0 :: site) 0 body isInner]
  | .jump jump label, lowered => by
      simp only [lowerForm, bind_eq_ok, pure_eq_ok, Prod.mk.injEq] at lowered
      obtain ⟨stmt, isStmt, rfl, rfl⟩ := lowered
      rw [lowerJump.eq_def] at isStmt
      split at isStmt
      · obtain rfl := Except.ok.inj isStmt
        exact ⟨rfl, rfl⟩
      · split at isStmt
        · obtain rfl := Except.ok.inj isStmt
          exact ⟨rfl, rfl⟩
        · simp at isStmt
  | .ret value, lowered => by
      simp only [lowerForm, bind_eq_ok, pure_eq_ok, Prod.mk.injEq] at lowered
      obtain ⟨stmt, isStmt, rfl, rfl⟩ := lowered
      obtain ⟨uses, declared⟩ := occurrences_of_lowerReturn objects isStmt
      rw [C.bodyOccurrences, C.bodyOccurrences, uses, C.declaredAfter, declared]
      exact ⟨rfl, rfl⟩
  | .expr value, lowered => by
      rcases lowerForm_expr around line value walk with ⟨⟨text, rfl⟩, same⟩ | same
      · obtain ⟨rfl, rfl⟩ := by simpa [same] using lowered
        exact ⟨rfl, rfl⟩
      · obtain ⟨code, isCode, rfl, rfl⟩ := by simpa [same] using lowered
        refine ⟨?_, rfl⟩
        simp only [C.bodyOccurrences, C.Stmt.occurrences, usesOf, visitsForm, List.flatMap_cons,
          List.flatMap_nil, List.append_nil, occurrences_of_lower isCode, List.nil_append]
  | .pass, lowered => by
      obtain ⟨rfl, rfl⟩ := by simpa [lowerForm] using lowered
      exact ⟨rfl, rfl⟩
  | .select subject cases, lowered => by
      simp only [lowerForm, bind_eq_ok, pure_eq_ok, Prod.exists, Prod.mk.injEq] at lowered
      obtain ⟨made, middle, lowers, arms, last, areArms, rfl, rfl⟩ := lowered
      obtain ⟨shown, occurrences, declared⟩ :=
        occurrences_of_lowersTo objects cases (lowersTo_of_lowerSubject lowers) arms
      refine ⟨?_, declared⟩
      rw [occurrences, occurrences_of_lowerCases _ _ site 0 shown cases areArms]
      simp only [visitsForm, lowers, given_ok]
  | .import_ _, lowered | .function _, lowered | .classDef _, lowered => by
      simp [lowerForm] at lowered

theorem occurrences_of_lowerBody (objects : List Object) (site : Site) (position : Nat)
    {around : Surroundings} {walk next : Walk} {code : List C.Stmt} :
    (body : List Statement) → lowerBody around body walk = .ok (code, next) →
      C.bodyOccurrences (objects.map (·.name)) code =
        (visitsBody around objects site position body walk).flatMap Visit.occurrences
  | [], lowered => by
      obtain ⟨rfl, _⟩ := by simpa [lowerBody] using lowered
      rfl
  | ⟨line, form⟩ :: others, lowered => by
      simp only [lowerBody, bind_eq_ok, pure_eq_ok, Prod.exists, Prod.mk.injEq] at lowered
      obtain ⟨first, middle, isFirst, rest, last, isRest, rfl, rfl⟩ := lowered
      obtain ⟨uses, declared⟩ := occurrences_of_lowerForm objects (position :: site) form isFirst
      rw [C.bodyOccurrences_append, uses, declared, ← List.map_append]
      simp only [visitsBody, isFirst, given_ok, List.flatMap_cons, List.flatMap_append,
        Visit.occurrences, List.append_assoc,
        occurrences_of_lowerBody _ site (position + 1) others isRest]

theorem occurrences_of_lowerCases (objects : List Object) (shown : List Mention) (site : Site)
    (position : Nat) {around : Surroundings} {subject : Subject} {walk next : Walk}
    {arms : List C.Arm} (same : subject.shown.names = shown.map Mention.emitted) :
    (cases : List Case) → lowerCases around subject cases walk = .ok (arms, next) →
      C.armOccurrences (objects.map (·.name)) arms =
        (visitsCases around objects shown site position subject cases walk).flatMap
          Visit.occurrences
  | [], lowered => by
      obtain ⟨rfl, _⟩ := by simpa [lowerCases] using lowered
      rfl
  | ⟨pattern, body, line⟩ :: others, lowered => by
      simp only [lowerCases, bind_eq_ok, pure_eq_ok, Prod.exists, Prod.mk.injEq] at lowered
      obtain ⟨condition, isCondition, first, isFirst, inner, within, isInner, rest, last, isRest,
        rfl, rfl⟩ := lowered
      rw [occurrences_of_lowerPattern same isCondition]
      simp only [visitsCases, isCondition, isFirst, isInner, given_ok, List.flatMap_cons,
        List.flatMap_append, Visit.occurrences, List.append_assoc, List.nil_append,
        occurrences_of_lowerBody objects (position :: site) 0 body isInner,
        occurrences_of_lowerCases objects shown site (position + 1) same others isRest]

end

/-- The lowering gives the definition, and comes across its identifiers. -/
structure Account.Covers (visible : List String) (account : Account)
    (definition : C.FunctionDef) : Prop where
  gives : ∃ walk, account.outcome = .ok (definition, walk)
  occurrences_eq :
    definition.occurrences visible = account.visits.flatMap Visit.occurrences

theorem covers_accountOf {kind : UnitKind} {fragments : List Fragment} {body : List Statement}
    {table : Table} {owner : Option String} {decl : FunctionDef} {next : Walk}
    {definition : C.FunctionDef} (site : Site) (outside : List Object)
    (accepted : Check.checkUnit kind fragments body = .ok table) (defines : Defines body owner decl)
    (lowered : lowerFunction table owner decl walk = .ok (definition, next)) :
    (accountOf table owner site outside decl walk).Covers (outside.map (·.name)) definition := by
  refine ⟨⟨next, lowered⟩, ?_⟩
  simp only [lowerFunction_eq, bind_eq_ok, pure_eq_ok, Prod.exists, Prod.mk.injEq] at lowered
  obtain ⟨entered, isEntered, code, after, isCode, rfl, rfl⟩ := lowered
  have params : entered.params.map (·.name) = decl.params.map (·.name) := by
    obtain ⟨line, signature, isSignature, isKnown⟩ := signatureOf_of_defines accepted defines
    obtain ⟨found, isFound, areParams, _⟩ := exists_of_enterFunction isEntered
    obtain rfl : signature = found := by simpa [isKnown] using isFound
    exact names_of_lowerParameters isSignature areParams
  have names : (parameterObjects decl entered.walk.scope ++ outside).map (·.name) =
      (entered.params.map (·.name)).reverse ++ outside.map (·.name) := by
    rw [params, List.map_append, parameterObjects, List.map_reverse, List.map_map]
    rfl
  have closed (visible : List String) :
      C.bodyOccurrences visible (entered.close owner decl code).body =
        C.bodyOccurrences visible code := by
    rw [Entered.close]
    split
    · rw [C.bodyOccurrences_append]
      exact List.append_nil _
    · rfl
  simp only [accountOf, isEntered, given_ok, List.flatMap_cons, Visit.occurrences, List.nil_append]
  rw [← occurrences_of_lowerBody _ (0 :: site) 0 decl.body isCode, names, C.FunctionDef.occurrences,
    closed]
  rfl

/-- Functions were added to others, each of them covered by an account. -/
def Yields (visible : List String) (state : Functions × Walk) (accounts : List Account)
    (next : Functions × Walk) : Prop :=
  ∀ definition ∈ next.1.others ++ next.1.entry, definition ∈ state.1.others ++ state.1.entry ∨
    ∃ account ∈ accounts, account.Covers visible definition

namespace Yields

variable {visible : List String} {state middle next : Functions × Walk}
  {accounts others : List Account}

theorem refl (state : Functions × Walk) : Yields visible state [] state :=
  fun _ member => .inl member

theorem trans (left : Yields visible state accounts middle)
    (right : Yields visible middle others next) :
    Yields visible state (accounts ++ others) next := by
  intro definition member
  rcases right definition member with earlier | ⟨account, isAccount, covered⟩
  · rcases left definition earlier with first | ⟨account, isAccount, covered⟩
    · exact .inl first
    · exact .inr ⟨account, List.mem_append_left _ isAccount, covered⟩
  · exact .inr ⟨account, List.mem_append_right _ isAccount, covered⟩

/-- A function that is covered was added. -/
theorem single {account : Account} {lowered : C.FunctionDef}
    (covered : account.Covers visible lowered)
    (added : ∀ definition ∈ next.1.others ++ next.1.entry,
      definition ∈ state.1.others ++ state.1.entry ∨ definition = lowered) :
    Yields visible state [account] next := by
  intro definition member
  rcases added definition member with earlier | rfl
  · exact .inl earlier
  · exact .inr ⟨account, List.mem_singleton_self account, covered⟩

end Yields

theorem yields_along {visible : List String}
    {add : Functions × Walk → Statement → Except Fault (Functions × Walk)}
    {addAccounts : Nat → Functions × Walk → Statement → List Account} :
    (statements : List Statement) → {position : Nat} → {state last : Functions × Walk} →
      (∀ statement ∈ statements, ∀ position state next, add state statement = .ok next →
        Yields visible state (addAccounts position state statement) next) →
      statements.foldlM add state = .ok last →
      Yields visible state (along add addAccounts position state statements) last
  | [], position, state, last, _, folded => by
      obtain rfl : state = last := by simpa using folded
      exact .refl state
  | statement :: statements, position, state, last, step, folded => by
      rw [List.foldlM_cons, bind_eq_ok] at folded
      obtain ⟨next, isNext, folded⟩ := folded
      obtain ⟨first, others⟩ := List.forall_mem_cons.mp step
      simp only [along, isNext, given_ok]
      exact (first position state next isNext).trans (yields_along statements others folded)

section Unit

variable {kind : UnitKind} {fragments : List Fragment} {body : List Statement} {table : Table}

theorem yields_member (accepted : Check.checkUnit kind fragments body = .ok table)
    {owner : ClassDef} {line : Nat} (isOwner : ⟨line, .classDef owner⟩ ∈ body)
    (isStruct : owner.kind = .struct) {site : Site} {outside : List Object} {position : Nat}
    {state next : Functions × Walk} {statement : Statement} (inside : statement ∈ owner.body)
    (added : addMember table owner.name state statement = .ok next) :
    Yields (outside.map (·.name)) state
      (accountsOfMember table owner.name site outside position state statement) next := by
  obtain ⟨line', form⟩ := statement
  cases form with
  | function decl =>
      simp only [addMember, addMethod, bind_eq_ok, pure_eq_ok, Prod.exists] at added
      obtain ⟨lowered, after, isLowered, rfl⟩ := added
      refine .single (covers_accountOf _ _ accepted (.method isOwner isStruct inside) isLowered) ?_
      grind
  | _ =>
      obtain rfl := Except.ok.inj added
      exact .refl state

theorem yields_top (accepted : Check.checkUnit kind fragments body = .ok table)
    {outside : List Object} {position : Nat} {state next : Functions × Walk}
    {statement : Statement} (member : statement ∈ body)
    (added : addFunctions table state statement = .ok next) :
    Yields (outside.map (·.name)) state (accountsOfTop table outside position state statement)
      next := by
  obtain ⟨line, form⟩ := statement
  cases form with
  | function decl =>
      simp only [addFunctions, bind_eq_ok, Prod.exists] at added
      obtain ⟨lowered, after, isLowered, added⟩ := added
      refine .single (covers_accountOf _ _ accepted (.function member) isLowered) ?_
      split at added
      · obtain rfl := Except.ok.inj added
        grind
      · obtain rfl := Except.ok.inj added
        grind
  | classDef decl =>
      simp only [addFunctions, foldlM_methods] at added
      rw [accountsOfTop]
      split at added
      · rename_i isStruct
        simp only [isStruct, if_true]
        refine yields_along decl.body ?_ added
        intro statement inside position state next added
        exact yields_member accepted member isStruct inside added
      · rename_i isOther
        obtain rfl := Except.ok.inj added
        simp only [isOther, if_false]
        exact .refl state
  | _ =>
      obtain rfl := Except.ok.inj added
      exact .refl state

theorem exists_account {functions : Functions} {walk : Walk} {definition : C.FunctionDef}
    (accepted : Check.checkUnit kind fragments body = .ok table)
    (folded : body.foldlM (addFunctions table) (⟨[], []⟩, .start) = .ok (functions, walk))
    (member : definition ∈ functions.others ++ functions.entry) :
    ∃ account ∈ accounts table body,
      account.Covers ((fileObjects table body).map (·.name)) definition := by
  have yields : Yields ((fileObjects table body).map (·.name)) (⟨[], []⟩, .start)
      (accounts table body) (functions, walk) :=
    yields_along body (fun _ isTop _ _ _ added => yields_top accepted isTop added) folded
  rcases yields definition member with none | found
  · simp at none
  · exact found

end Unit

end Lower

end Offside
