import Offside.Proofs.C.Callees
import Offside.Proofs.Match.Cases

/-!
# The expressions of generated code

The expressions in the statements of generated C, at any depth. Each is the C form of an expression
of the source in some scope, or is made of such forms: the item that a round of a loop starts with,
and the comparison that decides on a case.
-/

namespace Offside

namespace C

def Initial.exprs : Initial → List Expr
  | .value expr => [expr]
  | _ => []

mutual

def Stmt.exprs : Stmt → List Expr
  | .define definition => definition.initial.exprs
  | .assign target value => [target, value]
  | .expr value => [value]
  | .branch arms => armExprs arms
  | .select subject _ arms => subject :: armExprs arms
  | .whileLoop test body _ => test :: bodyExprs body
  | .countLoop _ start stop body _ => start :: stop :: bodyExprs body
  | .jump _ _ => []
  | .ret value => value.toList

def bodyExprs : List Stmt → List Expr
  | [] => []
  | first :: others => first.exprs ++ bodyExprs others

def armExprs : List Arm → List Expr
  | [] => []
  | ⟨condition, body⟩ :: others => condition.toList ++ bodyExprs body ++ armExprs others

end

theorem bodyExprs_append (first second : List Stmt) :
    bodyExprs (first ++ second) = bodyExprs first ++ bodyExprs second := by
  induction first with
  | nil => rfl
  | cons stmt others induction =>
      rw [List.cons_append, bodyExprs, bodyExprs, induction, List.append_assoc]

@[simp]
theorem bodyExprs_singleton (stmt : Stmt) : bodyExprs [stmt] = stmt.exprs := by
  simp [bodyExprs]

end C

namespace Lower

open Outcome

variable {view : View} {stmt : C.Stmt}

/-- Code that is made of C forms of expressions. -/
inductive Written (table : Table) : C.Expr → Prop
  | lowered {scope : Nat} {place : Place} {expr : Expr} {code : C.Expr} :
      lower ⟨table, scope⟩ place expr = .ok code → Written table code
  | name (name : String) : Written table (.name name)
  | number (value : Nat) : Written table (number value)
  | item {array position : C.Expr} : Written table array → Written table position →
      Written table (.index array position)
  | compared {left right : C.Expr} (areTexts : Bool) : Written table left → Written table right →
      Written table (compared areTexts .eq left right)

theorem armExprs_elseArms (orelse : List Statement) (code : List C.Stmt) :
    C.armExprs (elseArms orelse code) ⊆ C.bodyExprs code := by
  rw [elseArms.eq_def]
  split
  · exact List.nil_subset _
  · simp [C.Stmt.exprs]
  · simp [C.armExprs]

theorem written_of_lowerDeclare {target : Expr} {written : TypeExpr} {value : Option Expr}
    {definition : C.Definition} (lowers : lowerDeclare view target written value = .ok definition) :
    ∀ code ∈ definition.initial.exprs, Written view.table code := by
  rw [lowerDeclare.eq_def] at lowers
  split at lowers
  · simp only [bind_eq_ok] at lowers
    obtain ⟨annotated, _, declared, _, lowers⟩ := lowers
    split at lowers
    · obtain rfl := Except.ok.inj lowers
      rw [defaultInitial.eq_def]
      repeat' split
      all_goals exact List.forall_mem_nil _
    · split at lowers
      · simp at lowers
      · split at lowers
        · obtain rfl := Except.ok.inj lowers
          exact List.forall_mem_nil _
        · obtain ⟨code, isCode, rfl⟩ := by simpa using lowers
          simpa [C.Initial.exprs] using .lowered isCode
  · simp at lowers

theorem written_of_lowerAssign {line : Nat} {target value : Expr}
    (lowers : lowerAssign view line target value = .ok stmt) :
    ∀ code ∈ stmt.exprs, Written view.table code := by
  rw [lowerAssign.eq_def] at lowers
  split at lowers
  · simp at lowers
  · simp only [bind_eq_ok, pure_eq_ok] at lowers
    obtain ⟨place, isPlace, code, isCode, rfl⟩ := lowers
    simpa [C.Stmt.exprs] using ⟨.lowered isPlace, .lowered isCode⟩

theorem exists_jump_of_lowerJump {around : Surroundings} {jump : Jump} {label : Option String}
    (lowers : lowerJump around jump label = .ok stmt) : ∃ name, stmt = .jump jump name := by
  cases label with
  | none => exact ⟨none, (Except.ok.inj lowers).symm⟩
  | some word =>
      cases found : around.loops.find? (·.1 = word) with
      | none => simp [lowerJump, found] at lowers
      | some pair =>
          simp only [lowerJump, found, Except.ok.injEq] at lowers
          exact ⟨some pair.2, lowers.symm⟩

theorem written_of_lowerReturn {around : Surroundings} {value : Option Expr}
    (lowers : lowerReturn around view value = .ok stmt) :
    ∀ code ∈ stmt.exprs, Written view.table code := by
  rw [lowerReturn.eq_def] at lowers
  split at lowers
  · obtain rfl := Except.ok.inj lowers
    simpa [C.Stmt.exprs, exitSuccess] using .number 0
  · split at lowers
    · obtain rfl := Except.ok.inj lowers
      exact List.forall_mem_nil _
    · split at lowers
      · obtain rfl := Except.ok.inj lowers
        exact List.forall_mem_nil _
      · obtain ⟨code, isCode, rfl⟩ := by simpa using lowers
        simpa [C.Stmt.exprs] using .lowered isCode

theorem CountsBy.written {target : String} {iter : Expr} {walk next : Walk} {counted : Counting}
    (counts : CountsBy view target iter walk counted next) :
    ∀ code ∈ counted.start :: counted.stop :: C.bodyExprs counted.opening,
      Written view.table code := by
  cases counts with
  | upTo _ isStop => simpa [C.bodyExprs] using ⟨.number 0, .lowered isStop⟩
  | between _ isStart isStop => simpa [C.bodyExprs] using ⟨.lowered isStart, .lowered isStop⟩
  | positions _ isArray _ =>
      simpa [C.Stmt.exprs, C.Initial.exprs] using
        ⟨.number 0, .number _, .item (.lowered isArray) (.name _)⟩

theorem LowersTo.written {subject : Expr} {walk next : Walk} {kept : Subject}
    (lowers : LowersTo view subject walk kept next) :
    Written view.table kept.value ∧ Written view.table kept.shown := by
  cases lowers with
  | shown _ isValue => exact ⟨.lowered isValue, .lowered isValue⟩
  | kept _ isValue _ => exact ⟨.lowered isValue, .name _⟩

theorem written_of_lowerPattern {subject : Subject} {pattern : Pattern} {condition : Option C.Expr}
    (shown : Written view.table subject.shown)
    (lowers : lowerPattern view subject pattern = .ok condition) :
    ∀ code ∈ condition.toList, Written view.table code := by
  rcases lowerPattern_cases lowers with ⟨_, rfl⟩ | ⟨_, code, _, isCode, rfl⟩
  · exact nofun
  · simpa using .compared _ shown (.lowered isCode)

theorem table_of_inLoop (around : Surroundings) (label : Option String) (walk : Walk) :
    (around.inLoop label walk).2.1.table = around.table := by
  cases label <;> rfl

mutual

theorem written_of_lowerForm {around : Surroundings} {line : Nat} {walk next : Walk}
    {code : List C.Stmt} :
    (form : Form) → lowerForm around line form walk = .ok (code, next) →
      ∀ expr ∈ C.bodyExprs code, Written around.table expr
  | .declare target written value, lowers => by
      simp only [lowerForm, bind_eq_ok, pure_eq_ok, Prod.mk.injEq] at lowers
      obtain ⟨definition, isDefinition, rfl, _⟩ := lowers
      rw [C.bodyExprs_singleton]
      exact written_of_lowerDeclare isDefinition
  | .assign target value, lowers => by
      simp only [lowerForm, bind_eq_ok, pure_eq_ok, Prod.mk.injEq] at lowers
      obtain ⟨stmt, isStmt, rfl, _⟩ := lowers
      rw [C.bodyExprs_singleton]
      exact written_of_lowerAssign isStmt
  | .branch test body orelse, lowers => by
      simp only [lowerForm, lowerElse_eq, bind_eq_ok, pure_eq_ok, Prod.mk.injEq] at lowers
      obtain ⟨condition, isCondition, _, _, ⟨inner, _⟩, isInner, _,
        ⟨_, _, ⟨others, _⟩, areOthers, rfl⟩, rfl, _⟩ := lowers
      simp only [C.bodyExprs_singleton, C.Stmt.exprs, C.armExprs, Option.toList_some,
        List.singleton_append, List.forall_mem_cons, List.forall_mem_append]
      refine ⟨⟨.lowered isCondition, written_of_lowerBody body isInner⟩, fun expr member => ?_⟩
      exact written_of_lowerBody orelse areOthers expr (armExprs_elseArms orelse others member)
  | .whileLoop test body label, lowers => by
      simp only [lowerForm, bind_eq_ok, pure_eq_ok, Prod.mk.injEq] at lowers
      obtain ⟨condition, isCondition, _, _, ⟨inner, _⟩, isInner, rfl, _⟩ := lowers
      have inside := written_of_lowerBody body isInner
      rw [table_of_inLoop] at inside
      simp only [C.bodyExprs_singleton, C.Stmt.exprs, List.forall_mem_cons]
      exact ⟨.lowered isCondition, inside⟩
  | .forLoop target iter body label, lowers => by
      simp only [lowerForm, bind_eq_ok, pure_eq_ok, Prod.mk.injEq] at lowers
      obtain ⟨⟨counted, _⟩, counts, _, _, ⟨inner, _⟩, isInner, rfl, _⟩ := lowers
      have inside := written_of_lowerBody body isInner
      rw [table_of_inLoop] at inside
      have bounds := (countsBy_of_counting counts).written
      simp only [List.forall_mem_cons] at bounds
      simp only [C.bodyExprs_singleton, C.Stmt.exprs, C.bodyExprs_append, List.forall_mem_cons,
        List.forall_mem_append]
      exact ⟨bounds.1, bounds.2.1, bounds.2.2, inside⟩
  | .jump jump label, lowers => by
      simp only [lowerForm, bind_eq_ok, pure_eq_ok, Prod.mk.injEq] at lowers
      obtain ⟨stmt, isStmt, rfl, _⟩ := lowers
      obtain ⟨name, rfl⟩ := exists_jump_of_lowerJump isStmt
      exact nofun
  | .ret value, lowers => by
      simp only [lowerForm, bind_eq_ok, pure_eq_ok, Prod.mk.injEq] at lowers
      obtain ⟨stmt, isStmt, rfl, _⟩ := lowers
      rw [C.bodyExprs_singleton]
      exact written_of_lowerReturn isStmt
  | .expr value, lowers => by
      rcases lowerForm_expr around line value walk with ⟨_, silent⟩ | written
      · obtain ⟨rfl, _⟩ := by simpa [silent] using lowers
        exact nofun
      · obtain ⟨value, isValue, rfl, _⟩ := by simpa [written] using lowers
        simpa [C.Stmt.exprs] using .lowered isValue
  | .pass, lowers => by
      obtain ⟨rfl, _⟩ := by simpa [lowerForm] using lowers
      exact nofun
  | .select subject cases, lowers => by
      simp only [lowerForm, bind_eq_ok, pure_eq_ok, Prod.mk.injEq] at lowers
      obtain ⟨⟨kept, middle⟩, isSubject, ⟨arms, _⟩, areCases, rfl, _⟩ := lowers
      obtain ⟨isValue, isShown⟩ := (lowersTo_of_lowerSubject isSubject).written
      simp only [C.bodyExprs_singleton, C.Stmt.exprs, List.forall_mem_cons]
      exact ⟨isValue, written_of_lowerCases isShown cases areCases⟩
  | .import_ _, lowers => by simp [lowerForm] at lowers
  | .function _, lowers => by simp [lowerForm] at lowers
  | .classDef _, lowers => by simp [lowerForm] at lowers

theorem written_of_lowerBody {around : Surroundings} {walk next : Walk} {code : List C.Stmt} :
    (body : List Statement) → lowerBody around body walk = .ok (code, next) →
      ∀ expr ∈ C.bodyExprs code, Written around.table expr
  | [], lowers => by
      obtain ⟨rfl, _⟩ := by simpa [lowerBody] using lowers
      exact nofun
  | ⟨line, form⟩ :: others, lowers => by
      simp only [lowerBody, bind_eq_ok, pure_eq_ok, Prod.mk.injEq] at lowers
      obtain ⟨⟨first, _⟩, isFirst, ⟨rest, _⟩, areOthers, rfl, _⟩ := lowers
      rw [C.bodyExprs_append, List.forall_mem_append]
      exact ⟨written_of_lowerForm form isFirst, written_of_lowerBody others areOthers⟩

theorem written_of_lowerCases {around : Surroundings} {subject : Subject} {walk next : Walk}
    {arms : List C.Arm} (shown : Written around.table subject.shown) :
    (cases : List Case) → lowerCases around subject cases walk = .ok (arms, next) →
      ∀ expr ∈ C.armExprs arms, Written around.table expr
  | [], lowers => by
      obtain ⟨rfl, _⟩ := by simpa [lowerCases] using lowers
      exact nofun
  | ⟨pattern, body, _⟩ :: others, lowers => by
      simp only [lowerCases, bind_eq_ok, pure_eq_ok, Prod.mk.injEq] at lowers
      obtain ⟨condition, isCondition, _, _, ⟨inner, _⟩, isInner, ⟨rest, _⟩, areOthers, rfl, _⟩ :=
        lowers
      simp only [C.armExprs, List.forall_mem_append]
      exact ⟨⟨written_of_lowerPattern shown isCondition, written_of_lowerBody body isInner⟩,
        written_of_lowerCases shown others areOthers⟩

end

end Lower

end Offside
