import Offside.Proofs.Scope.LowerVisits

/-!
# Cases of a match statement

A statement is lowered in the scope in which the one after it is lowered, whatever scopes are
entered in between. So the patterns of all cases of a match statement mean what they mean where the
statement stands, and each case becomes the alternative at its position.
-/

namespace Offside

namespace Lower

open Outcome

variable {walk next : Walk} {view : View}

theorem scope_of_leave {table : Table} {inside last : Walk}
    (entered : walk.enter table = .ok inside) (same : last.scope = inside.scope) :
    (last.leave table).scope = walk.scope := by
  simp only [Walk.enter, ite_error_eq_ok, Bool.and_eq_true, decide_eq_true_eq,
    Except.ok.injEq] at entered
  obtain ⟨⟨_, isChild⟩, rfl⟩ := entered
  simp [Walk.leave, same, isChild]

theorem scope_of_inLoop (around : Surroundings) (label : Option String) (walk : Walk) :
    (around.inLoop label walk).2.2.scope = walk.scope := by
  cases label <;> rfl

theorem scope_of_counting {target : String} {iter : Expr} {counted : Counting}
    (counts : counting view target iter walk = .ok (counted, next)) : next.scope = walk.scope := by
  cases countsBy_of_counting counts <;> rfl

theorem scope_of_lowerSubject {subject : Expr} {kept : Subject}
    (lowers : lowerSubject view subject walk = .ok (kept, next)) : next.scope = walk.scope := by
  cases lowersTo_of_lowerSubject lowers <;> rfl

mutual

/-- A statement is lowered from a scope to the same scope. -/
theorem scope_of_lowerForm {around : Surroundings} {line : Nat} {code : List C.Stmt}
    {walk next : Walk} :
    (form : Form) → lowerForm around line form walk = .ok (code, next) → next.scope = walk.scope
  | .declare _ _ _, lowers | .assign _ _, lowers | .jump _ _, lowers | .ret _, lowers => by
      simp only [lowerForm, bind_eq_ok, pure_eq_ok, Prod.mk.injEq] at lowers
      obtain ⟨_, _, _, rfl⟩ := lowers
      rfl
  | .branch test body orelse, lowers => by
      simp only [lowerForm, lowerElse_eq, bind_eq_ok, pure_eq_ok, Prod.mk.injEq] at lowers
      obtain ⟨_, _, inside, entered, ⟨_, last⟩, isBody, _,
        ⟨inside', entered', ⟨_, last'⟩, isElse, rfl⟩, _, rfl⟩ := lowers
      rw [scope_of_leave entered' (scope_of_lowerBody orelse isElse),
        scope_of_leave entered (scope_of_lowerBody body isBody)]
  | .whileLoop test body label, lowers => by
      simp only [lowerForm, bind_eq_ok, pure_eq_ok, Prod.mk.injEq] at lowers
      obtain ⟨_, _, inside, entered, ⟨_, last⟩, isBody, _, rfl⟩ := lowers
      rw [scope_of_leave entered (scope_of_lowerBody body isBody), scope_of_inLoop]
  | .forLoop target iter body label, lowers => by
      simp only [lowerForm, bind_eq_ok, pure_eq_ok, Prod.mk.injEq] at lowers
      obtain ⟨⟨_, middle⟩, counts, inside, entered, ⟨_, last⟩, isBody, _, rfl⟩ := lowers
      rw [scope_of_leave entered (scope_of_lowerBody body isBody), scope_of_inLoop,
        scope_of_counting counts]
  | .expr value, lowers => by
      rcases lowerForm_expr around line value walk with ⟨_, silent⟩ | written
      · obtain ⟨_, rfl⟩ := by simpa [silent] using lowers
        rfl
      · obtain ⟨_, _, _, rfl⟩ := by simpa [written] using lowers
        rfl
  | .pass, lowers => by
      obtain ⟨_, rfl⟩ := by simpa [lowerForm] using lowers
      rfl
  | .select subject cases, lowers => by
      simp only [lowerForm, bind_eq_ok, pure_eq_ok, Prod.mk.injEq] at lowers
      obtain ⟨⟨kept, middle⟩, isSubject, ⟨_, after⟩, areCases, _, rfl⟩ := lowers
      rw [scope_of_lowerCases cases areCases, scope_of_lowerSubject isSubject]
  | .import_ _, lowers => by simp [lowerForm] at lowers
  | .function _, lowers => by simp [lowerForm] at lowers
  | .classDef _, lowers => by simp [lowerForm] at lowers

theorem scope_of_lowerBody {around : Surroundings} {code : List C.Stmt} {walk next : Walk} :
    (body : List Statement) → lowerBody around body walk = .ok (code, next) →
      next.scope = walk.scope
  | [], lowers => by
      obtain ⟨_, rfl⟩ := by simpa [lowerBody] using lowers
      rfl
  | ⟨line, form⟩ :: others, lowers => by
      simp only [lowerBody, bind_eq_ok, pure_eq_ok, Prod.mk.injEq] at lowers
      obtain ⟨⟨_, middle⟩, isFirst, ⟨_, last⟩, areOthers, _, rfl⟩ := lowers
      rw [scope_of_lowerBody others areOthers, scope_of_lowerForm form isFirst]

theorem scope_of_lowerCases {around : Surroundings} {subject : Subject} {arms : List C.Arm}
    {walk next : Walk} :
    (cases : List Case) → lowerCases around subject cases walk = .ok (arms, next) →
      next.scope = walk.scope
  | [], lowers => by
      obtain ⟨_, rfl⟩ := by simpa [lowerCases] using lowers
      rfl
  | ⟨_, body, _⟩ :: others, lowers => by
      simp only [lowerCases, bind_eq_ok, pure_eq_ok, Prod.mk.injEq] at lowers
      obtain ⟨_, _, inside, entered, ⟨_, last⟩, isBody, ⟨_, after⟩, areOthers, _, rfl⟩ := lowers
      rw [scope_of_lowerCases others areOthers]
      exact scope_of_leave entered (scope_of_lowerBody body isBody)

end

theorem lowerPattern_cases {subject : Subject} {pattern : Pattern} {condition : Option C.Expr}
    (lowers : lowerPattern view subject pattern = .ok condition) :
    (pattern = .wildcard ∧ condition = none) ∨
      ∃ expr code, pattern = .value expr ∧ lower view .operand expr = .ok code ∧
        condition = some (compared subject.isText .eq subject.shown code) := by
  cases pattern with
  | wildcard => exact .inl ⟨rfl, (Except.ok.inj lowers).symm⟩
  | value expr =>
      simp only [lowerPattern, bind_eq_ok, pure_eq_ok] at lowers
      obtain ⟨code, isCode, rfl⟩ := lowers
      exact .inr ⟨expr, code, rfl, isCode, rfl⟩

/-- An alternative that a case becomes. -/
structure BecomesArm (around : Surroundings) (view : View) (subject : Subject) (case : Case)
    (arm : C.Arm) : Prop where
  condition : lowerPattern view subject case.pattern = .ok arm.condition
  body : ∃ walk next, lowerBody around case.body walk = .ok (arm.body, next)

/-- Each case becomes an alternative, with its pattern lowered where the statement stands. -/
theorem becomesArm_of_lowerCases {around : Surroundings} {subject : Subject} {cases : List Case}
    {arms : List C.Arm} (lowers : lowerCases around subject cases walk = .ok (arms, next)) :
    List.Forall₂ (BecomesArm around (around.view walk) subject) cases arms := by
  induction cases generalizing walk arms with
  | nil =>
      obtain ⟨rfl, _⟩ := by simpa [lowerCases] using lowers
      exact .nil
  | cons case others induction =>
      obtain ⟨pattern, body, line⟩ := case
      simp only [lowerCases, bind_eq_ok, pure_eq_ok, Prod.mk.injEq] at lowers
      obtain ⟨condition, isCondition, inside, entered, ⟨code, last⟩, isBody, ⟨rest, after⟩,
        areOthers, rfl, rfl⟩ := lowers
      refine .cons ⟨isCondition, inside, last, isBody⟩ ?_
      have back := scope_of_leave entered (scope_of_lowerBody body isBody)
      have sameView : around.view (last.leave around.table) = around.view walk := by
        rw [Surroundings.view, Surroundings.view, back]
      rw [← sameView]
      exact induction areOthers

theorem exists_of_lowerSelect {around : Surroundings} {line : Nat} {subject : Expr}
    {cases : List Case} {code : List C.Stmt}
    (lowers : lowerForm around line (.select subject cases) walk = .ok (code, next)) :
    ∃ kept arms middle, LowersTo (around.view walk) subject walk kept middle ∧
      code = [.select kept.value kept.kept arms] ∧
      List.Forall₂ (BecomesArm around (around.view walk) kept) cases arms := by
  simp only [lowerForm, bind_eq_ok, pure_eq_ok, Prod.mk.injEq] at lowers
  obtain ⟨⟨kept, middle⟩, isSubject, ⟨arms, after⟩, areCases, rfl, _⟩ := lowers
  have sameView : around.view middle = around.view walk := by
    rw [Surroundings.view, Surroundings.view, scope_of_lowerSubject isSubject]
  refine ⟨kept, arms, middle, lowersTo_of_lowerSubject isSubject, rfl, ?_⟩
  exact sameView ▸ becomesArm_of_lowerCases areCases

end Lower

end Offside
