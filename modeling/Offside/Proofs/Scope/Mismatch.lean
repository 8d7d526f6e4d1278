import Offside.Proofs.Scope.Causes
import Offside.Proofs.Scope.LowerVisits

/-!
# Who reports a mismatch of scopes

Lowering reports that the scopes of a table do not fit a tree only where it enters a scope.
Everything else that it does, from the C forms of types and expressions to those of whole
declarations, fails for other causes or not at all. Under any table it fails as a lowering, whatever
it reads with the grammar.
-/

namespace Offside

namespace Lower

open Outcome

/-- A fault of a lowering that tells of no mismatch of scopes. -/
def IsSteady (fault : Fault) : Prop := fault.stage = .lowering ∧ fault ≠ .lowering .scopeMismatch

/-- A computation that fails as a lowering, but not for a mismatch of scopes. -/
abbrev Steady {α : Type} (outcome : Except Fault α) : Prop := FailsFor IsSteady outcome

theorem isSteady {cause : Cause} (different : cause ≠ .scopeMismatch) :
    IsSteady (.lowering cause) :=
  ⟨rfl, fun same => different (Fault.lowering.inj same)⟩

/-- What stops the reading of a quoted type is told as a fault of the lowering. -/
theorem steady_sizeofType (operand : Expr) : Steady (sizeofType operand) := by
  rw [sizeofType.eq_def]
  split
  · split
    · exact .error (isSteady (by rintro ⟨⟩))
    · exact .mapError fun _ _ => isSteady (by rintro ⟨⟩)
  · exact .mapError fun _ _ => isSteady (by rintro ⟨⟩)
  · exact .error (isSteady (by rintro ⟨⟩))

/-- No call is to blame for a mismatch of scopes. -/
theorem Breaks.isSteady {call : Call} {fault : Fault} (breaks : Breaks call fault) :
    IsSteady fault := by
  cases breaks with
  | form _ => exact Lower.isSteady (by rintro ⟨⟩)
  | range _ _ => exact Lower.isSteady (by rintro ⟨⟩)
  | arity _ _ isCause => rcases isCause with rfl | rfl <;> exact Lower.isSteady (by rintro ⟨⟩)
  | size _ _ failed => exact steady_sizeofType _ _ failed

theorem External.steady {α : Type} {outcome : Except Fault α} (external : External outcome) :
    Steady outcome := by
  refine external.mono fun fault isExternal => ⟨Fault.stage_of_isInternal isExternal, ?_⟩
  rintro rfl
  cases isExternal

theorem Blames.steady {α : Type} {calls : List Call} {outcome : Except Fault α}
    (blames : Blames calls outcome) : Steady outcome := by
  refine blames.mono fun fault blamed => ?_
  cases isInternal : fault.isInternal with
  | true =>
      obtain ⟨call, _, breaks⟩ := blamed isInternal
      exact breaks.isSteady
  | false =>
      refine ⟨Fault.stage_of_isInternal isInternal, ?_⟩
      rintro rfl
      cases isInternal

/-- The C form of an expression does not depend on the scopes of blocks. -/
theorem steady_lower (view : View) (place : Place) (expr : Expr) :
    Steady (lower view place expr) := (blames_lower view place expr).steady

theorem steady_lowerGlobal? (table : Table) (statement : Statement) :
    Steady (lowerGlobal? table statement) := by
  rw [lowerGlobal?.eq_def]
  split
  · refine .bind (.mapError fun _ _ => isSteady (by rintro ⟨⟩)) fun annotated _ => ?_
    refine .bind (external_declarator table _ _).steady fun declared _ => ?_
    split
    · exact .bind (steady_lower _ _ _) fun _ _ => .pure _
    · exact .pure _
  · exact .pure _

theorem steady_signatureOf (table : Table) (owner : Option String) (decl : FunctionDef) :
    Steady (signatureOf table owner decl) := by
  simp only [signatureOf]
  split
  · exact .ok _
  · exact .error (isSteady (by rintro ⟨⟩))

theorem steady_lowerParameters (table : Table) (owner : Option String) (decl : FunctionDef)
    (signature : Signature) : Steady (lowerParameters table owner decl signature) := by
  have rest (params : List Parameter) : Steady ((params.zip signature.params).mapM
      fun written => parameter table written.2 written.1.name) :=
    .mapM _ fun _ _ => (external_parameter table _ _).steady
  simp only [lowerParameters]
  split
  · exact rest decl.params
  · split
    · exact .error (isSteady (by rintro ⟨⟩))
    · exact .bind (rest _) fun _ _ => .pure _

theorem steady_lowerDeclare (view : View) (target : Expr) (written : TypeExpr)
    (value : Option Expr) : Steady (lowerDeclare view target written value) := by
  rw [lowerDeclare.eq_def]
  split
  · refine .bind (.mapError fun _ _ => isSteady (by rintro ⟨⟩)) fun annotated _ => ?_
    refine .bind (external_declarator _ _ _).steady fun declared _ => ?_
    split
    · exact .pure _
    · split
      · exact .error (isSteady (by rintro ⟨⟩))
      · exact .ite (.pure _) (.bind (steady_lower view _ _) fun _ _ => .pure _)
  · exact .error (isSteady (by rintro ⟨⟩))

theorem steady_lowerAssign (view : View) (line : Nat) (target value : Expr) :
    Steady (lowerAssign view line target value) :=
  (blames_lowerAssign view line target value).steady

theorem steady_lowerReturn (around : Surroundings) (view : View) (value : Option Expr) :
    Steady (lowerReturn around view value) := (blames_lowerReturn around view value).steady

theorem steady_lowerJump (around : Surroundings) (jump : Jump) (label : Option String) :
    Steady (lowerJump around jump label) := by
  rw [lowerJump.eq_def]
  split
  · exact .ok _
  · split
    · exact .ok _
    · exact .error (isSteady (by rintro ⟨⟩))

theorem steady_counting (view : View) (target : String) (iter : Expr) (walk : Walk) :
    Steady (counting view target iter walk) := by
  rw [counting]
  split
  · exact .bind (steady_lower view _ _) fun _ _ => .pure _
  · refine .bind (steady_lower view _ _) fun start _ => ?_
    exact .bind (steady_lower view _ _) fun _ _ => .pure _
  · exact .error (isSteady (by rintro ⟨⟩))
  · split
    · exact .error (isSteady (by rintro ⟨⟩))
    · refine .bind (steady_lower view _ _) fun array _ => ?_
      exact .bind (external_declarator _ _ _).steady fun _ _ => .pure _
    · exact .error (isSteady (by rintro ⟨⟩))

theorem steady_lowerSubject (view : View) (subject : Expr) (walk : Walk) :
    Steady (lowerSubject view subject walk) := (blames_lowerSubject view subject walk).steady

theorem steady_lowerPattern (view : View) (subject : Subject) (pattern : Pattern) :
    Steady (lowerPattern view subject pattern) := (blames_lowerPattern view subject pattern).steady

theorem Steady.failsAt {α : Type} {outcome : Except Fault α} (steady : Steady outcome) :
    FailsAt .lowering outcome := steady.mono fun _ isSteady => isSteady.1

/-- The one place that reports a mismatch of scopes. -/
theorem failsAt_enter (table : Table) (walk : Walk) : FailsAt .lowering (walk.enter table) :=
  .ite (.ok _) (.error rfl)

mutual

theorem failsAt_lowerForm (around : Surroundings) (line : Nat) (walk : Walk) :
    (form : Form) → FailsAt .lowering (lowerForm around line form walk)
  | .declare target written value =>
      .bind (steady_lowerDeclare _ target written value).failsAt fun _ _ => .pure _
  | .assign target value =>
      .bind (steady_lowerAssign _ line target value).failsAt fun _ _ => .pure _
  | .branch test body orelse => by
      rw [lowerForm]
      simp only [lowerElse_eq]
      refine .bind (steady_lower _ _ test).failsAt fun condition _ => ?_
      refine .bind (failsAt_enter _ _) fun inside _ => ?_
      refine .bind (failsAt_lowerBody around inside body) fun chosen _ => ?_
      refine .bind (.bind (failsAt_enter _ _) fun inside _ => ?_) fun others _ => .pure _
      exact .bind (failsAt_lowerBody around inside orelse) fun _ _ => .pure _
  | .whileLoop test body label => by
      rw [lowerForm]
      refine .bind (steady_lower _ _ test).failsAt fun condition _ => ?_
      refine .bind (failsAt_enter _ _) fun inside _ => ?_
      exact .bind (failsAt_lowerBody _ inside body) fun _ _ => .pure _
  | .forLoop target iter body label => by
      rw [lowerForm]
      refine .bind (steady_counting _ target iter walk).failsAt fun counted _ => ?_
      refine .bind (failsAt_enter _ _) fun inside _ => ?_
      exact .bind (failsAt_lowerBody _ inside body) fun _ _ => .pure _
  | .jump jump label => .bind (steady_lowerJump around jump label).failsAt fun _ _ => .pure _
  | .ret value => .bind (steady_lowerReturn around _ value).failsAt fun _ _ => .pure _
  | .expr value => by
      rcases lowerForm_expr around line value walk with ⟨_, silent⟩ | written
      · rw [silent]
        exact .ok _
      · rw [written]
        exact .bind (steady_lower _ _ value).failsAt fun _ _ => .pure _
  | .pass => .pure _
  | .select subject cases => by
      rw [lowerForm]
      refine .bind (steady_lowerSubject _ subject walk).failsAt fun kept _ => ?_
      exact .bind (failsAt_lowerCases around kept.1 kept.2 cases) fun _ _ => .pure _
  | .import_ _ => .error rfl
  | .function _ => .error rfl
  | .classDef _ => .error rfl

theorem failsAt_lowerBody (around : Surroundings) (walk : Walk) :
    (body : List Statement) → FailsAt .lowering (lowerBody around body walk)
  | [] => .pure _
  | ⟨line, form⟩ :: others => by
      rw [lowerBody]
      refine .bind (failsAt_lowerForm around line walk form) fun first _ => ?_
      exact .bind (failsAt_lowerBody around first.2 others) fun _ _ => .pure _

theorem failsAt_lowerCases (around : Surroundings) (subject : Subject) (walk : Walk) :
    (cases : List Case) → FailsAt .lowering (lowerCases around subject cases walk)
  | [] => .pure _
  | ⟨pattern, body, line⟩ :: others => by
      rw [lowerCases]
      refine .bind (steady_lowerPattern _ subject pattern).failsAt fun condition _ => ?_
      refine .bind (failsAt_enter _ _) fun inside _ => ?_
      refine .bind (failsAt_lowerBody around inside body) fun chosen _ => ?_
      exact .bind (failsAt_lowerCases around subject _ others) fun _ _ => .pure _

end

theorem failsAt_lowerFunction (table : Table) (owner : Option String) (decl : FunctionDef)
    (walk : Walk) : FailsAt .lowering (lowerFunction table owner decl walk) := by
  rw [lowerFunction_eq]
  refine .bind ?_ fun entered _ => .bind (failsAt_lowerBody _ _ decl.body) fun _ _ => .pure _
  refine .bind (steady_signatureOf table owner decl).failsAt fun signature _ => ?_
  refine .bind (steady_lowerParameters table owner decl signature).failsAt fun params _ => ?_
  have entering {next : Walk → Entered} :
      FailsAt .lowering (walk.enter table >>= fun inside => pure (next inside)) :=
    .bind (failsAt_enter table walk) fun _ _ => .pure _
  exact .ite (.bind (.ok _) fun _ _ => entering)
    (.bind (external_typeOf table _).steady.failsAt fun _ _ => entering)

theorem failsAt_addFunctions (table : Table) (state : Functions × Walk) (statement : Statement) :
    FailsAt .lowering (addFunctions table state statement) := by
  rw [addFunctions.eq_def]
  split
  · exact .bind (failsAt_lowerFunction table none _ _) fun _ _ => .ite (.pure _) (.pure _)
  · refine .ite (.foldlM _ _ fun decl _ state => ?_) (.ok _)
    exact .bind (failsAt_lowerFunction table _ decl _) fun _ _ => .pure _
  · exact .ok _

end Lower

end Offside
