import Offside.Proofs.C.Callees
import Offside.Proofs.Match.Cases

/-!
# How often a subject is evaluated

The code of a match statement writes its subject down once, before all conditions, or else in every
condition. It does the latter for names, members and literals, and for what is of no known type.
-/

namespace Offside

def Pattern.value? : Pattern → Option Expr
  | .wildcard => none
  | .value expr => some expr

def comparedValues (cases : List Case) : List Expr := cases.filterMap (·.pattern.value?)

/-- The expressions of a chain outside its blocks: the kept subject, and the conditions. -/
def C.headExprs (subject : Expr) (kept : Option Declarator) (arms : List Arm) : List Expr :=
  (kept.map fun _ => subject).toList ++ arms.filterMap (·.condition)

namespace Lower

/-- The conditions compare the subject with the patterns. -/
theorem exists_patterns {around : Surroundings} {view : View} {kept : Subject} {cases : List Case}
    {arms : List C.Arm} (become : List.Forall₂ (BecomesArm around view kept) cases arms) :
    ∃ patterns, List.Forall₂ (fun expr pattern => lower view .operand expr = .ok pattern)
        (comparedValues cases) patterns ∧
      arms.filterMap (·.condition) = patterns.map (compared kept.isText .eq kept.shown) := by
  induction become with
  | nil => exact ⟨[], .nil, rfl⟩
  | @cons case arm cases arms becomes _ induction =>
      obtain ⟨patterns, lowered, conditions⟩ := induction
      obtain ⟨condition, body⟩ := arm
      obtain ⟨pattern, _, _⟩ := case
      rcases lowerPattern_cases becomes.condition with ⟨rfl, rfl⟩ | ⟨_, code, rfl, isCode, rfl⟩
      · exact ⟨patterns, lowered, conditions⟩
      · refine ⟨code :: patterns, .cons isCode lowered, ?_⟩
        simp only [List.filterMap_cons, conditions, List.map_cons]

/-- Lists hold a common beginning once if it is empty or there is one list. -/
theorem flatMap_append_perm_iff {α β : Type} (own : List α) (part : β → List α) (items : List β) :
    (items.flatMap fun item => own ++ part item).Perm (own ++ items.flatMap part) ↔
      own = [] ∨ items.length = 1 := by
  have counted : (items.flatMap fun item => own ++ part item).length =
      items.length * own.length + (items.flatMap part).length := by
    induction items with
    | nil => simp
    | cons item items induction =>
        simp only [List.flatMap_cons, List.length_append, induction, List.length_cons,
          Nat.succ_mul]
        omega
  constructor
  · intro same
    have lengths := same.length_eq
    rw [counted, List.length_append, Nat.add_right_cancel_iff] at lengths
    by_cases isEmpty : own = []
    · exact .inl isEmpty
    · have positive : 0 < own.length := List.length_pos_of_ne_nil isEmpty
      exact .inr (Nat.eq_of_mul_eq_mul_right positive (by rw [lengths, Nat.one_mul]))
  · rintro (rfl | isSingle)
    · exact .rfl
    · obtain ⟨item, rfl⟩ := List.length_eq_one_iff.mp isSingle
      simp

end Lower

/-- What the subject of an accepted match statement calls is called once in the code of subject and
conditions exactly if the subject is kept, calls nothing, or is compared with one pattern. It is
kept unless it is a name, a member or a literal, or of no known type. -/
theorem subject_called_once_iff {kind : UnitKind} {modules : List Fragment} {body : List Statement}
    {table : Table} (analyzed : analyze kind modules body = .ok table)
    {position scope : Nat} {site : Site} {uses : List Lower.Use} {moment : Check.Moment}
    (checked : (Check.visits kind modules body)[position]? = some (.reaches site moment))
    (reached : (Lower.visits table body)[position]? = some (.reaches site scope uses))
    {function : Check.Surroundings} {line : Nat} {subject : Expr} {cases : List Case}
    {after : Table}
    (accepted : Check.checkForm function line (.select subject cases) moment.table = .ok after)
    {around : Lower.Surroundings} {walk next : Lower.Walk} {code : List C.Stmt}
    (here : around.view walk = ⟨table, scope⟩)
    (lowered : Lower.lowerForm around line (.select subject cases) walk = .ok (code, next)) :
    ∃ value kept arms patterns, code = [.select value kept arms] ∧
      value.callees = Lower.calleesOf ⟨table, scope⟩ subject ∧
      List.Forall₂ (fun expr pattern => Lower.lower ⟨table, scope⟩ .operand expr = .ok pattern)
        (comparedValues cases) patterns ∧
      (((C.headExprs value kept arms).flatMap C.Expr.callees).Perm
          (value.callees ++ patterns.flatMap C.Expr.callees) ↔
        (Lower.isRepeatable subject = false ∧
            (Lower.staticType ⟨table, scope⟩ subject).isSome = true) ∨
          Lower.calleesOf ⟨table, scope⟩ subject = [] ∨ (comparedValues cases).length = 1) := by
  have accords := Lower.accords_of_reached analyzed checked reached
  simp only [Check.checkForm, Outcome.bind_eq_ok, Outcome.onLine_eq_ok, Check.subjectType]
    at accepted
  obtain ⟨_, ⟨ty, typed, _⟩, _⟩ := accepted
  obtain ⟨kept, arms, middle, lowersTo, rfl, become⟩ := Lower.exists_of_lowerSelect lowered
  rw [here] at lowersTo become
  obtain ⟨patterns, arePatterns, conditions⟩ := Lower.exists_patterns become
  have calls {value : C.Expr} (isValue : Lower.lower ⟨table, scope⟩ .operand subject = .ok value) :
      value.callees = Lower.calleesOf ⟨table, scope⟩ subject :=
    Lower.lowersCalls accords subject typed isValue
  cases lowersTo with
  | @shown value notKept isValue =>
      refine ⟨value, none, arms, patterns, rfl, calls isValue, arePatterns, ?_⟩
      have notOnce : ¬ (Lower.isRepeatable subject = false ∧
          (Lower.staticType ⟨table, scope⟩ subject).isSome = true) := by
        rintro ⟨notRepeatable, isTyped⟩
        simp [Lower.keptObject, notRepeatable, isTyped] at notKept
      have repeated : (C.headExprs value none arms).flatMap C.Expr.callees =
          patterns.flatMap fun pattern => value.callees ++ pattern.callees := by
        simp [C.headExprs, conditions, Lower.Subject.shown, List.flatMap_map]
      rw [repeated, Lower.flatMap_append_perm_iff, arePatterns.length_eq, ← calls isValue]
      simp [notOnce]
  | @kept value _ declared isKept isValue _ =>
      refine ⟨value, some declared, arms, patterns, rfl, calls isValue, arePatterns, ?_⟩
      have once : (C.headExprs value (some declared) arms).flatMap C.Expr.callees =
          value.callees ++ patterns.flatMap C.Expr.callees := by
        simp [C.headExprs, conditions, Lower.Subject.shown, List.flatMap_map, C.Expr.callees]
      rw [once]
      refine ⟨fun _ => .inl ?_, fun _ => .rfl⟩
      simp only [Lower.keptObject] at isKept
      split at isKept
      · simp_all
      · cases isKept

/-- A member of what a function gives. -/
def memberOfCall : Expr := .member (.call (.name "f") []) "x"

/-- Two numbers to compare it with. -/
def oneOrTwo : List Case :=
  [⟨.value (.constant (.int 1)), [⟨8, .pass⟩], 8⟩, ⟨.value (.constant (.int 2)), [⟨9, .pass⟩], 9⟩]

/-- A program that compares it with them. -/
def matchesMember : List Statement :=
  [⟨1, .classDef ⟨"P", [], .struct, [⟨2, .declare (.name "x") (.name "int") none⟩]⟩⟩,
   ⟨4, .function ⟨"f", [], some (.name "P"), [⟨5, .ret (some (.call (.name "P") []))⟩]⟩⟩,
   ⟨6, .function ⟨"main", [], none, [⟨7, .select memberOfCall oneOrTwo⟩]⟩⟩]

theorem subject_called_once_iff_memberOfCall :
    ∃ table around walk next value arms, analyze .program [] matchesMember = .ok table ∧
      Lower.lowerForm around 7 (.select memberOfCall oneOrTwo) walk =
        .ok ([.select value none arms], next) ∧
      C.armsText 0 true arms = "if (f().x == 1) \x7b\n\x7d else if (f().x == 2) \x7b\n\x7d\n" ∧
      value.callees = [.named "f"] ∧
      ¬ ((C.headExprs value none arms).flatMap C.Expr.callees).Perm value.callees := by
  let outer : Scope :=
    ⟨none, [.plain "P" (.struct [⟨"x", .int⟩] []), .function "f" ⟨[], .named "P"⟩,
      .function "main" ⟨[], .none⟩]⟩
  let table : Table :=
    ⟨[outer, ⟨some 0, []⟩, ⟨some 0, []⟩, ⟨some 2, []⟩, ⟨some 2, []⟩], 0⟩
  let moment : Check.Moment := ⟨⟨[outer, ⟨some 0, []⟩, ⟨some 0, []⟩], 2⟩, [[], []]⟩
  let around : Lower.Surroundings := ⟨table, .none, true, []⟩
  let value : C.Expr := .field (.call (.named "f") []) "x"
  let arms : List C.Arm :=
    [⟨some (.binary .eq value (.literal (.int 1))), []⟩,
      ⟨some (.binary .eq value (.literal (.int 2))), []⟩]
  have analyzed : analyze .program [] matchesMember = .ok table := by with_unfolding_all rfl
  have checked : (Check.visits .program [] matchesMember)[3]? =
      some (.reaches [0, 0, 2] moment) := by with_unfolding_all rfl
  have reached : (Lower.visits table matchesMember)[3]? = some (.reaches [0, 0, 2] 2 []) := by
    with_unfolding_all rfl
  have accepted : Check.checkForm ⟨"main", .none, []⟩ 7 (.select memberOfCall oneOrTwo)
      moment.table = .ok ⟨table.scopes, 2⟩ := by with_unfolding_all rfl
  have lowered : Lower.lowerForm around 7 (.select memberOfCall oneOrTwo) ⟨2, 2, 0⟩ =
      .ok ([.select value none arms], ⟨2, 4, 0⟩) := by with_unfolding_all rfl
  obtain ⟨_, _, _, patterns, same, calls, arePatterns, once⟩ :=
    subject_called_once_iff analyzed checked reached accepted rfl lowered
  obtain ⟨rfl, rfl, rfl⟩ := C.Stmt.select.inj (List.cons.inj same).1
  obtain rfl : patterns = [.literal (.int 1), .literal (.int 2)] := by
    obtain _ | ⟨first, _ | ⟨second, ⟨⟩⟩⟩ := arePatterns
    rw [← Except.ok.inj first, ← Except.ok.inj second]
    rfl
  refine ⟨table, around, _, _, value, arms, analyzed, lowered, by decide, rfl, fun again => ?_⟩
  rcases once.mp again with ⟨notRepeatable, _⟩ | nothing | single
  · exact nomatch notRepeatable
  · exact nomatch calls.trans nothing
  · exact nomatch single

end Offside
