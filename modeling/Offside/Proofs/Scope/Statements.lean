import Offside.Proofs.Scope.CheckVisits

/-!
# The statements of a unit

The statements in functions and methods are listed from the tree alone, at any depth and each with
its site. A check that succeeds has come across each of them, and has accepted it there.
-/

namespace Offside

mutual

def Form.statements (site : Site) : Form → List (Site × Statement)
  | .function ⟨_, _, _, body⟩ => bodyStatements (0 :: site) 0 body
  | .classDef ⟨_, _, _, body⟩ => bodyStatements (0 :: site) 0 body
  | .branch _ body orelse =>
      bodyStatements (0 :: site) 0 body ++ bodyStatements (1 :: site) 0 orelse
  | .whileLoop _ body _ => bodyStatements (0 :: site) 0 body
  | .forLoop _ _ body _ => bodyStatements (0 :: site) 0 body
  | .select _ cases => caseStatements site 0 cases
  | _ => []

def bodyStatements (site : Site) (position : Nat) : List Statement → List (Site × Statement)
  | [] => []
  | ⟨line, form⟩ :: others =>
      (position :: site, ⟨line, form⟩) :: (form.statements (position :: site) ++
        bodyStatements site (position + 1) others)

def caseStatements (site : Site) (position : Nat) : List Case → List (Site × Statement)
  | [] => []
  | ⟨_, body, _⟩ :: others =>
      bodyStatements (position :: site) 0 body ++ caseStatements site (position + 1) others

end

/-- What the statements of a block give, each told its position. -/
def numbered {α : Type} (listed : Nat → Statement → List α) (position : Nat)
    (body : List Statement) : List α :=
  (body.zipIdx position).flatMap fun (statement, position) => listed position statement

def ofMember {α : Type} (listed : Site → FunctionDef → List α) (site : Site) (position : Nat)
    (statement : Statement) : List α :=
  match statement.form with
  | .function decl => listed (position :: site) decl
  | _ => []

/-- What the functions and methods of a statement give. -/
def ofTop {α : Type} (listed : Site → FunctionDef → List α) (position : Nat)
    (statement : Statement) : List α :=
  match statement.form with
  | .function decl => listed [position] decl
  | .classDef decl =>
      if decl.kind = .struct then numbered (ofMember listed [position]) 0 decl.body else []
  | _ => []

/-- What the functions and methods of a unit give, each told its site. -/
def ofFunctions {α : Type} (listed : Site → FunctionDef → List α) (body : List Statement) :
    List α :=
  numbered (ofTop listed) 0 body

def memberStatements (site : Site) (position : Nat) (statement : Statement) :
    List (Site × Statement) :=
  match statement.form with
  | .function decl => bodyStatements (0 :: position :: site) 0 decl.body
  | _ => []

def topStatements (position : Nat) (statement : Statement) : List (Site × Statement) :=
  match statement.form with
  | .function decl => bodyStatements [0, position] 0 decl.body
  | .classDef decl =>
      if decl.kind = .struct then numbered (memberStatements [position]) 0 decl.body else []
  | _ => []

/-- The statements in the functions and methods of a unit. -/
def unitStatements (body : List Statement) : List (Site × Statement) :=
  numbered topStatements 0 body

theorem unitStatements_eq (body : List Statement) :
    unitStatements body =
      ofFunctions (fun site decl => bodyStatements (0 :: site) 0 decl.body) body := rfl

namespace Check

open Outcome

/-- Listed items hold good where a check reaches the statement that holds them. -/
def Covers {α : Type} (good : Table → α → Prop) (visits : List Visit)
    (listed : List (Site × α)) : Prop :=
  ∀ site item, (site, item) ∈ listed →
    ∃ moment, .reaches site moment ∈ visits ∧ good moment.table item

namespace Covers

variable {α : Type} {good : Table → α → Prop} {visits visits' : List Visit}
  {listed listed' : List (Site × α)}

theorem nil (visits : List Visit) : Covers good visits [] := nofun

theorem mono (covers : Covers good visits listed) (subset : visits ⊆ visits') :
    Covers good visits' listed := by
  intro site item member
  obtain ⟨moment, reached, isGood⟩ := covers site item member
  exact ⟨moment, subset reached, isGood⟩

theorem imp {weaker : Table → α → Prop} (covers : Covers good visits listed)
    (weakens : ∀ {table : Table} {item : α}, good table item → weaker table item) :
    Covers weaker visits listed := by
  intro site item member
  obtain ⟨moment, reached, isGood⟩ := covers site item member
  exact ⟨moment, reached, weakens isGood⟩

theorem both (left : Covers good visits listed) (right : Covers good visits listed') :
    Covers good visits (listed ++ listed') := by
  intro site item member
  rcases List.mem_append.mp member with isLeft | isRight
  · exact left site item isLeft
  · exact right site item isRight

theorem append (left : Covers good visits listed) (right : Covers good visits' listed') :
    Covers good (visits ++ visits') (listed ++ listed') :=
  (left.mono (List.subset_append_left _ _)).both (right.mono (List.subset_append_right _ _))

/-- The items that stand directly in a statement or case. -/
theorem own {site : Site} {moment : Moment} {own : List α}
    (isGood : ∀ item ∈ own, good moment.table item) (reached : .reaches site moment ∈ visits) :
    Covers good visits (own.map (site, ·)) := by
  intro place item member
  obtain ⟨same, isOwn, isSame⟩ := List.mem_map.mp member
  obtain ⟨rfl, rfl⟩ := Prod.mk.inj isSame
  exact ⟨moment, reached, isGood same isOwn⟩

theorem single {site : Site} {moment : Moment} {item : α} (isGood : good moment.table item) :
    Covers good [.reaches site moment] [(site, item)] := by
  intro place other member
  obtain ⟨rfl, rfl⟩ := Prod.mk.inj (List.mem_singleton.mp member)
  exact ⟨moment, List.mem_cons_self, isGood⟩

/-- What is made of covered items is covered. -/
theorem flatMap {β : Type} {derived : Table → β → Prop} {parts : α → List β}
    (covers : Covers good visits listed)
    (each : ∀ {table : Table} {item : α}, good table item →
      ∀ part ∈ parts item, derived table part) :
    Covers derived visits (listed.flatMap fun (site, item) => (parts item).map (site, ·)) := by
  intro site part member
  simp only [List.mem_flatMap, List.mem_map] at member
  obtain ⟨⟨place, item⟩, isListed, same, isPart, isSame⟩ := member
  obtain ⟨rfl, rfl⟩ := Prod.mk.inj isSame
  obtain ⟨moment, reached, isGood⟩ := covers place item isListed
  exact ⟨moment, reached, each isGood same isPart⟩

theorem along {step : Table → Statement → Except Fault Table}
    {visits : Nat → Table → Statement → List Visit} {listed : Nat → Statement → List (Site × α)}
    {statements : List Statement} {position : Nat} {table last : Table}
    (folded : statements.foldlM step table = .ok last)
    (covered : ∀ {position table statement next}, step table statement = .ok next →
      Covers good (visits position table statement) (listed position statement)) :
    Covers good (Outcome.along step visits position table statements)
      (numbered listed position statements) := by
  induction statements generalizing position table with
  | nil => exact .nil _
  | cons statement statements induction =>
      rw [List.foldlM_cons, bind_eq_ok] at folded
      obtain ⟨next, isNext, later⟩ := folded
      simp only [Outcome.along, isNext, given_ok, numbered, List.zipIdx_cons, List.flatMap_cons]
      exact (covered isNext).append (induction later)

end Covers

theorem covers_functions {α : Type} {good : Table → α → Prop}
    {listed : Site → FunctionDef → List (Site × α)}
    (each : ∀ {owner : Option String} {line : Nat} {decl : FunctionDef} {table after : Table}
      (site : Site), checkFunction owner line decl table = .ok after →
        Covers good (visitsFunction owner site line decl table) (listed site decl))
    {kind : UnitKind} {fragments : List Fragment} {body : List Statement} {table : Table}
    (checked : checkUnit kind fragments body = .ok table) :
    Covers good (visits kind fragments body) (ofFunctions listed body) := by
  have member {owner : String} {site : Site} {position : Nat} {table after : Table}
      {statement : Statement} (checked : checkMethod owner table statement = .ok after) :
      Covers good (visitsMember owner site position table statement)
        (ofMember listed site position statement) := by
    obtain ⟨line, form⟩ := statement
    cases form with
    | function decl => exact each (position :: site) checked
    | _ => exact .nil _
  have top {position : Nat} {table after : Table} {statement : Statement}
      (checked : checkTop table statement = .ok after) :
      Covers good (visitsTop position table statement) (ofTop listed position statement) := by
    obtain ⟨line, form⟩ := statement
    cases form with
    | function decl => exact each [position] checked
    | classDef decl =>
        by_cases isStruct : decl.kind = .struct
        · simp only [checkTop, if_pos isStruct] at checked
          simp only [visitsTop, ofTop, if_pos isStruct]
          exact .along checked member
        · simp only [ofTop, if_neg isStruct]
          exact .nil _
    | _ => exact .nil _
  simp only [checkUnit, bind_eq_ok] at checked
  obtain ⟨start, isStart, folded⟩ := checked
  simp only [visits, isStart, given_ok]
  exact .along folded top

def Accepted (table : Table) (statement : Statement) : Prop :=
  ∃ around after, checkForm around statement.line statement.form table = .ok after

def AcceptedIn (returns : Ty) (table : Table) (statement : Statement) : Prop :=
  ∃ around after, around.returns = returns ∧
    checkForm around statement.line statement.form table = .ok after

theorem returns_of_inLoop {around inside : Surroundings} {label : Option String}
    (entered : around.inLoop label = .ok inside) : inside.returns = around.returns := by
  cases label with
  | none =>
      obtain rfl := Except.ok.inj entered
      rfl
  | some word =>
      obtain ⟨_, isInside⟩ := error_ite_eq_ok.mp entered
      obtain rfl := Except.ok.inj isInside
      rfl

mutual

theorem accepted_form {around : Surroundings} {line : Nat} {table after : Table}
    (pending : List (List String)) (site : Site) :
    (form : Form) → checkForm around line form table = .ok after →
      Covers (AcceptedIn around.returns) (visitsForm around pending site form table)
        (form.statements site)
  | .branch test body orelse, checked => by
      simp only [checkForm, bind_eq_ok, onLine_eq_ok] at checked
      obtain ⟨_, _, first, isFirst, second, isSecond, _⟩ := checked
      have left := accepted_body pending (0 :: site) 0 body isFirst
      have right := accepted_body pending (1 :: site) 0 orelse isSecond
      simp only [Form.statements, visitsForm, isFirst, given_ok]
      refine (left.mono ?_).both (right.mono ?_)
      · exact fun visit member => by simp [member]
      · exact fun visit member => by simp [member]
  | .whileLoop test body label, checked => by
      simp only [checkForm, bind_eq_ok, onLine_eq_ok] at checked
      obtain ⟨_, _, inside, isInside, first, isFirst, _⟩ := checked
      simp only [Form.statements, visitsForm, isInside, given_ok, ← returns_of_inLoop isInside]
      exact (accepted_body pending (0 :: site) 0 body isFirst).mono (List.subset_cons_self _ _)
  | .forLoop target iter body label, checked => by
      simp only [checkForm, bind_eq_ok, onLine_eq_ok] at checked
      obtain ⟨item, isItem, inside, isInside, first, isFirst, second, isSecond, _⟩ := checked
      simp only [Form.statements, visitsForm, isItem, isInside, isFirst, given_ok,
        ← returns_of_inLoop isInside]
      exact (accepted_body pending (0 :: site) 0 body isSecond).mono (List.subset_cons_self _ _)
  | .select subject cases, checked => by
      simp only [checkForm, bind_eq_ok, onLine_eq_ok] at checked
      obtain ⟨ty, isSubject, checked⟩ := checked
      simp only [Form.statements, visitsForm, isSubject, given_ok]
      exact accepted_cases pending site 0 cases checked
  | .function _, checked => by simp [checkForm] at checked
  | .classDef _, checked => by simp [checkForm] at checked
  | .declare _ _ _, _ => .nil _
  | .assign _ _, _ => .nil _
  | .jump _ _, _ => .nil _
  | .ret _, _ => .nil _
  | .expr _, _ => .nil _
  | .pass, _ => .nil _
  | .import_ _, _ => .nil _

theorem accepted_body {around : Surroundings} {table after : Table} (pending : List (List String))
    (site : Site) (position : Nat) :
    (body : List Statement) → checkBody around body table = .ok after →
      Covers (AcceptedIn around.returns) (visitsBody around pending site position body table)
        (bodyStatements site position body)
  | [], _ => .nil _
  | ⟨line, form⟩ :: others, checked => by
      simp only [checkBody, bind_eq_ok] at checked
      obtain ⟨middle, isMiddle, rest⟩ := checked
      let here := (form.declares ++ declaredIn others) :: pending
      have first : Covers (AcceptedIn around.returns) [.reaches (position :: site) ⟨table, here⟩]
          [(position :: site, ⟨line, form⟩)] := .single ⟨around, middle, rfl, isMiddle⟩
      have inner := accepted_form here (position :: site) form isMiddle
      have later := accepted_body pending site (position + 1) others rest
      simp only [visitsBody, isMiddle, given_ok, bodyStatements]
      exact first.append (inner.append later)

theorem accepted_cases {around : Surroundings} {subject : Ty} {table after : Table}
    (pending : List (List String)) (site : Site) (position : Nat) :
    (cases : List Case) → checkCases around subject cases table = .ok after →
      Covers (AcceptedIn around.returns)
        (visitsCases around pending site position subject cases table)
        (caseStatements site position cases)
  | [], _ => .nil _
  | ⟨pattern, body, line⟩ :: others, checked => by
      simp only [checkCases, bind_eq_ok, onLine_eq_ok] at checked
      obtain ⟨_, _, first, isFirst, rest⟩ := checked
      have inner := accepted_body pending (position :: site) 0 body isFirst
      have later := accepted_cases pending site (position + 1) others rest
      simp only [visitsCases, isFirst, given_ok, caseStatements]
      refine (inner.mono ?_).both (later.mono ?_)
      · exact fun visit member => by simp [member]
      · exact fun visit member => by simp [member]

end

theorem accepted_function {owner : Option String} {line : Nat} {decl : FunctionDef}
    {table after : Table} (site : Site)
    (checked : checkFunction owner line decl table = .ok after) :
    ∃ signature, signatureOf decl owner.isSome line = .ok signature ∧
      Covers (AcceptedIn signature.returns) (visitsFunction owner site line decl table)
        (bodyStatements (0 :: site) 0 decl.body) := by
  simp only [checkFunction_eq, bind_eq_ok, pure_eq_ok] at checked
  obtain ⟨⟨around, inside⟩, isEntered, last, isLast, _⟩ := checked
  have inner := accepted_body [[]] (0 :: site) 0 decl.body isLast
  simp only [visitsFunction, isEntered, given_ok]
  simp only [enterFunction, bind_eq_ok, pure_eq_ok, Prod.mk.injEq] at isEntered
  obtain ⟨signature, isSignature, _, _, _, _, _, _, rfl, _⟩ := isEntered
  exact ⟨signature, isSignature, inner.mono (List.subset_cons_self _ _)⟩

/-- Each statement in a checked unit is accepted where the check reaches it. -/
theorem accepted_unit {kind : UnitKind} {fragments : List Fragment} {body : List Statement}
    {table : Table} (checked : checkUnit kind fragments body = .ok table) :
    Covers Accepted (visits kind fragments body) (unitStatements body) := by
  rw [unitStatements_eq]
  refine covers_functions (fun site isChecked => ?_) checked
  obtain ⟨_, _, covers⟩ := accepted_function site isChecked
  exact covers.imp fun ⟨around, after, _, accepted⟩ => ⟨around, after, accepted⟩

end Check

end Offside
