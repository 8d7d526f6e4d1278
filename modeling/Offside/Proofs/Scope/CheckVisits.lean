import Offside.Check.Unit
import Offside.Proofs.Outcome
import Offside.Proofs.Scope.Growth

/-!
# What a check comes across

The blocks that a check opens and the statements it reaches, in order, each with where it stands in
the tree.
-/

namespace Offside

/-- Positions of statements in blocks and of blocks in statements, from the inside out. -/
abbrev Site := List Nat

/-- The name that a statement declares in the block in which it stands. -/
def Form.declares : Form → List String
  | .declare (.name name) _ _ => [name]
  | _ => []

def declaredIn (body : List Statement) : List String := body.flatMap (·.form.declares)

@[simp]
theorem declaredIn_cons (statement : Statement) (others : List Statement) :
    declaredIn (statement :: others) = statement.form.declares ++ declaredIn others := rfl

namespace Check

open Outcome

variable {symbol : Symbol} {line position : Nat} {around : Surroundings} {statement : Statement}
  {fragments : List Fragment}

/-- What is known when a statement or a case is about to be checked. -/
structure Moment where
  table : Table
  /-- The names that the blocks around declare from here on, innermost first. -/
  pending : List (List String)

inductive Visit
  | opens (site : Site) (scope : Nat)
  | reaches (site : Site) (moment : Moment)

mutual

/-- What the check of a statement comes across inside the statement. -/
def visitsForm (around : Surroundings) (pending : List (List String)) (site : Site) (form : Form)
    (table : Table) : List Visit :=
  match form with
  | .branch _ body orelse =>
      .opens (0 :: site) table.push.current ::
        (visitsBody around pending (0 :: site) 0 body table.push ++
          given (checkBody around body table.push) fun table =>
            .opens (1 :: site) table.pop.push.current ::
              visitsBody around pending (1 :: site) 0 orelse table.pop.push)
  | .whileLoop _ body label =>
      given (around.inLoop label) fun inside =>
        .opens (0 :: site) table.push.current ::
          visitsBody inside pending (0 :: site) 0 body table.push
  | .forLoop target iter body label =>
      given (iterationType table iter) fun item =>
        given (around.inLoop label) fun inside =>
          .opens (0 :: site) table.push.current ::
            given (declare table.push (.value target item false)) fun table =>
              visitsBody inside pending (0 :: site) 0 body table
  | .select subject cases =>
      given (subjectType table subject) fun ty =>
        visitsCases around pending site 0 ty cases table
  | _ => []

def visitsBody (around : Surroundings) (pending : List (List String)) (site : Site)
    (position : Nat) (body : List Statement) (table : Table) : List Visit :=
  match body with
  | [] => []
  | ⟨line, form⟩ :: others =>
      let here := (form.declares ++ declaredIn others) :: pending
      .reaches (position :: site) ⟨table, here⟩ ::
        (visitsForm around here (position :: site) form table ++
          given (checkForm around line form table) fun table =>
            visitsBody around pending site (position + 1) others table)

def visitsCases (around : Surroundings) (pending : List (List String)) (site : Site)
    (position : Nat) (subject : Ty) (cases : List Case) (table : Table) : List Visit :=
  match cases with
  | [] => []
  | ⟨_, body, _⟩ :: others =>
      .reaches (position :: site) ⟨table, pending⟩ ::
        .opens (position :: site) table.push.current ::
          (visitsBody around pending (position :: site) 0 body table.push ++
            given (checkBody around body table.push) fun table =>
              visitsCases around pending site (position + 1) subject others table.pop)

end

/-- The surroundings of the body of a function, whose scope holds the parameters. -/
def enterFunction (owner : Option String) (line : Nat) (decl : FunctionDef) (table : Table) :
    Except Fault (Surroundings × Table) := do
  let signature ← signatureOf decl owner.isSome line
  let params ← parametersOf decl owner.isSome line
  let table ← onLine line (match owner with
    | some owner => declareReceiver owner decl.params table.push
    | none => .ok table.push)
  let table ← onLine line (params.foldlM (fun table (name, annotated) =>
    declare table (.value name annotated.ty annotated.immutable)) table)
  let name := match owner with
    | some owner => qualified owner decl.name
    | none => decl.name
  return (⟨name, signature.returns, []⟩, table)

/-- A function is entered, its body checked, and its scope left. -/
theorem checkFunction_eq (owner : Option String) (line : Nat) (decl : FunctionDef)
    (table : Table) :
    checkFunction owner line decl table = (do
      let (around, inside) ← enterFunction owner line decl table
      return (← checkBody around decl.body inside).pop) := by
  cases owner with
  | none => simp only [checkFunction, enterFunction, bind_assoc, pure_bind]
  | some owner => simp only [checkFunction, enterFunction, bind_assoc, pure_bind]

def visitsFunction (owner : Option String) (site : Site) (line : Nat) (decl : FunctionDef)
    (table : Table) : List Visit :=
  .opens (0 :: site) table.push.current ::
    given (enterFunction owner line decl table) fun (around, inside) =>
      visitsBody around [[]] (0 :: site) 0 decl.body inside

def visitsMember (owner : String) (site : Site) (position : Nat) (table : Table)
    (statement : Statement) : List Visit :=
  match statement.form with
  | .function decl => visitsFunction (some owner) (position :: site) statement.line decl table
  | _ => []

def visitsTop (position : Nat) (table : Table) (statement : Statement) : List Visit :=
  match statement.form with
  | .function decl => visitsFunction none [position] statement.line decl table
  | .classDef decl =>
      if decl.kind = .struct then
        along (checkMethod decl.name) (visitsMember decl.name [position]) 0 table decl.body
      else []
  | _ => []

/-- What the check of a unit comes across in its functions and methods. -/
def visits (kind : UnitKind) (fragments : List Fragment) (body : List Statement) : List Visit :=
  given (declareAll kind fragments body) fun table => along checkTop visitsTop 0 table body

open Table (Fills Grows)

variable {table after : Table}

theorem grows_of_declare (formed : table.WellFormed) (declared : declare table symbol = .ok after) :
    Grows [symbol.name] table after := by
  simp only [declare, error_ite_eq_ok, mapError_eq_ok] at declared
  exact .of_insert formed declared.2

theorem length_of_declare (declared : declare table symbol = .ok after) :
    after.scopes.length = table.scopes.length := by
  simp only [declare, error_ite_eq_ok, mapError_eq_ok] at declared
  exact Table.length_of_insert declared.2

theorem fills_of_declare (formed : table.WellFormed) (declared : declare table symbol = .ok after) :
    Fills table after := by
  simp only [declare, error_ite_eq_ok, mapError_eq_ok] at declared
  exact .of_insert formed declared.2

theorem declare_of_declareVariable {target : Expr} {written : TypeExpr} {value : Option Expr}
    (declared : declareVariable table target written value = .ok after) :
    ∃ (name : String) (annotated : Annotated),
      target = .name name ∧ table.lookupLocal name = none ∧
      declare table (.value name annotated.ty annotated.immutable) = .ok after := by
  simp only [declareVariable, bind_eq_ok] at declared
  obtain ⟨name, named, annotated, _, declared⟩ := declared
  obtain rfl : target = .name name := by
    cases target <;> simp_all [declaredName]
  have last : table.lookupLocal name = none ∧
      declare table (.value name annotated.ty annotated.immutable) = .ok after := by
    cases value with
    | some value => simp_all
    | none => simp_all
  exact ⟨name, annotated, rfl, last⟩

/-! ## Runs -/

/-- A check goes from table to table as it declares names and opens blocks. -/
inductive Runs : List String → Table → List Visit → Table → Prop
  | refl (table : Table) : Runs [] table [] table
  | declares {table after : Table} {name : String} {ty : Ty} {immutable : Bool} :
      declare table (.value name ty immutable) = .ok after → Runs [name] table [] after
  | reaches {names : List String} {table after : Table} {visits : List Visit} (site : Site)
      (pending : List (List String)) : Runs names table visits after →
      Runs names table (.reaches site ⟨table, pending⟩ :: visits) after
  | block {names : List String} {table after : Table} {visits : List Visit} (site : Site) :
      Runs names table.push visits after →
      Runs [] table (.opens site table.push.current :: visits) after.pop
  | append {first second : List String} {table middle after : Table}
      {visits visits' : List Visit} : Runs first table visits middle →
      Runs second middle visits' after → Runs (first ++ second) table (visits ++ visits') after

mutual

theorem runs_form {around : Surroundings} {line : Nat} {table after : Table}
    (pending : List (List String)) (site : Site) :
    (form : Form) → checkForm around line form table = .ok after →
      Runs form.declares table (visitsForm around pending site form table) after
  | .declare target written value, checked => by
      rw [checkForm, onLine_eq_ok] at checked
      obtain ⟨name, annotated, rfl, _, declared⟩ := declare_of_declareVariable checked
      exact .declares declared
  | .branch test body orelse, checked => by
      simp only [checkForm, bind_eq_ok, pure_eq_ok] at checked
      obtain ⟨_, _, first, isFirst, second, isSecond, rfl⟩ := checked
      simp only [visitsForm, isFirst, given_ok]
      exact .append (.block (0 :: site) (runs_body pending (0 :: site) 0 body isFirst))
        (.block (1 :: site) (runs_body pending (1 :: site) 0 orelse isSecond))
  | .whileLoop test body label, checked => by
      simp only [checkForm, bind_eq_ok, onLine_eq_ok, pure_eq_ok] at checked
      obtain ⟨_, _, inside, isInside, first, isFirst, rfl⟩ := checked
      simp only [visitsForm, isInside, given_ok]
      exact .block (0 :: site) (runs_body pending (0 :: site) 0 body isFirst)
  | .forLoop target iter body label, checked => by
      simp only [checkForm, bind_eq_ok, onLine_eq_ok, pure_eq_ok] at checked
      obtain ⟨item, isItem, inside, isInside, first, isFirst, second, isSecond, rfl⟩ := checked
      simp only [visitsForm, isItem, isInside, isFirst, given_ok]
      exact .block (0 :: site)
        (.append (.declares isFirst) (runs_body pending (0 :: site) 0 body isSecond))
  | .select subject cases, checked => by
      simp only [checkForm, bind_eq_ok, onLine_eq_ok] at checked
      obtain ⟨ty, isTyped, checked⟩ := checked
      simp only [visitsForm, isTyped, given_ok]
      exact runs_cases pending site 0 cases checked
  | .assign _ _, checked | .jump _ _, checked | .ret _, checked | .expr _, checked
  | .pass, checked => by
      obtain rfl : table = after := by simp_all [checkForm]
      exact .refl table
  | .import_ _, checked | .function _, checked | .classDef _, checked => by
      simp [checkForm] at checked

theorem runs_body {around : Surroundings} {table after : Table} (pending : List (List String))
    (site : Site) (position : Nat) :
    (body : List Statement) → checkBody around body table = .ok after →
      Runs (declaredIn body) table (visitsBody around pending site position body table) after
  | [], checked => by
      obtain rfl : table = after := by simpa [checkBody] using checked
      exact .refl table
  | ⟨line, form⟩ :: others, checked => by
      simp only [checkBody, bind_eq_ok] at checked
      obtain ⟨middle, isMiddle, rest⟩ := checked
      simp only [visitsBody, isMiddle, given_ok]
      exact .reaches _ _ (.append (runs_form _ (position :: site) form isMiddle)
        (runs_body pending site (position + 1) others rest))

theorem runs_cases {around : Surroundings} {subject : Ty} {table after : Table}
    (pending : List (List String)) (site : Site) (position : Nat) :
    (cases : List Case) → checkCases around subject cases table = .ok after →
      Runs [] table (visitsCases around pending site position subject cases table) after
  | [], checked => by
      obtain rfl : table = after := by simpa [checkCases] using checked
      exact .refl table
  | ⟨pattern, body, line⟩ :: others, checked => by
      simp only [checkCases, bind_eq_ok] at checked
      obtain ⟨_, _, first, isFirst, rest⟩ := checked
      simp only [visitsCases, isFirst, given_ok]
      have inner := runs_body pending (position :: site) 0 body isFirst
      exact .reaches _ _ (.append (.block (position :: site) inner)
        (runs_cases pending site (position + 1) others rest))

end

theorem runs_of_declare_all (params : List (String × Annotated))
    (declared : params.foldlM (fun table (name, annotated) =>
      declare table (.value name annotated.ty annotated.immutable)) table = .ok after) :
    Runs (params.map (·.1)) table [] after := by
  induction params generalizing table with
  | nil =>
      obtain rfl : table = after := by simpa using declared
      exact .refl table
  | cons param params induction =>
      rw [List.foldlM_cons, bind_eq_ok] at declared
      obtain ⟨next, isNext, declared⟩ := declared
      exact .append (.declares isNext) (induction declared)

theorem names_of_parameters {function : String} {params : List Parameter}
    {results : List (String × Annotated)}
    (resolved : params.mapM (parameterOf function) = .ok results) :
    results.map (·.1) = params.map (·.name) := by
  refine map_eq_of_mapM params ?_ resolved
  intro param _ result isResult
  rw [parameterOf] at isResult
  split at isResult
  · simp at isResult
  · obtain ⟨annotated, _, rfl⟩ := by simpa using isResult
    rfl

/-- The scope of a function holds its parameters, in order. -/
theorem runs_of_enterFunction {owner : Option String} {decl : FunctionDef} {inside : Table}
    (entered : enterFunction owner line decl table = .ok (around, inside)) :
    Runs (decl.params.map (·.name)) table.push [] inside := by
  simp only [enterFunction, bind_eq_ok, onLine_eq_ok, pure_eq_ok, Prod.mk.injEq] at entered
  obtain ⟨signature, _, params, areParams, received, isReceived, filled, isFilled, _, rfl⟩ :=
    entered
  have declared := runs_of_declare_all params isFilled
  cases owner with
  | none =>
      obtain rfl := Except.ok.inj isReceived
      rwa [names_of_parameters areParams] at declared
  | some owner =>
      cases isDecl : decl.params with
      | nil => simp [parametersOf, isDecl] at areParams
      | cons receiver others =>
          simp only [parametersOf, isDecl, Option.isSome_some, if_true] at areParams
          simp only [declareReceiver, isDecl] at isReceived
          rw [names_of_parameters areParams] at declared
          exact .append (.declares isReceived) declared

theorem runs_function {owner : Option String} {decl : FunctionDef} (site : Site)
    (checked : checkFunction owner line decl table = .ok after) :
    Runs [] table (visitsFunction owner site line decl table) after := by
  simp only [checkFunction_eq, bind_eq_ok, pure_eq_ok] at checked
  obtain ⟨⟨around, inside⟩, isEntered, last, isLast, rfl⟩ := checked
  simp only [visitsFunction, isEntered, given_ok]
  exact .block (0 :: site) (.append (runs_of_enterFunction isEntered)
    (runs_body [[]] (0 :: site) 0 decl.body isLast))

theorem runs_along {step : Table → Statement → Except Fault Table}
    {visits : Nat → Table → Statement → List Visit}
    (each : ∀ {position : Nat} {table : Table} {statement : Statement} {next : Table},
      step table statement = .ok next → Runs [] table (visits position table statement) next)
    {statements : List Statement} {last : Table}
    (folded : statements.foldlM step table = .ok last) :
    Runs [] table (along step visits position table statements) last := by
  induction statements generalizing position table with
  | nil =>
      obtain rfl : table = last := by simpa using folded
      exact .refl table
  | cons statement statements induction =>
      rw [List.foldlM_cons, bind_eq_ok] at folded
      obtain ⟨next, isNext, later⟩ := folded
      simp only [along, isNext, given_ok]
      exact .append (each isNext) (induction later)

theorem runs_member {owner : String} {site : Site}
    (checked : checkMethod owner table statement = .ok after) :
    Runs [] table (visitsMember owner site position table statement) after := by
  obtain ⟨line, form⟩ := statement
  cases form with
  | function decl => exact runs_function (position :: site) checked
  | _ =>
      obtain rfl : table = after := by simpa [checkMethod] using checked
      exact .refl table

theorem runs_top (checked : checkTop table statement = .ok after) :
    Runs [] table (visitsTop position table statement) after := by
  obtain ⟨line, form⟩ := statement
  cases form with
  | function decl => exact runs_function [position] checked
  | classDef decl =>
      by_cases isStruct : decl.kind = .struct
      · simp only [checkTop, if_pos isStruct] at checked
        simp only [visitsTop, if_pos isStruct]
        exact runs_along runs_member checked
      · obtain rfl : table = after := by simpa [checkTop, isStruct] using checked
        simp only [visitsTop, if_neg isStruct]
        exact .refl table
  | _ =>
      obtain rfl : table = after := by simp_all [checkTop]
      exact .refl table

theorem runs_unit {kind : UnitKind} {body : List Statement}
    (checked : checkUnit kind fragments body = .ok table) :
    ∃ start, declareAll kind fragments body = .ok start ∧
      Runs [] start (visits kind fragments body) table := by
  simp only [checkUnit, bind_eq_ok] at checked
  obtain ⟨start, isStart, folded⟩ := checked
  refine ⟨start, isStart, ?_⟩
  simp only [visits, isStart, given_ok]
  exact runs_along runs_top folded

theorem Runs.grows {names : List String} {visits : List Visit}
    (runs : Runs names table visits after) (formed : table.WellFormed) :
    Grows names table after := by
  induction runs with
  | refl => exact .refl formed
  | declares declared => exact grows_of_declare formed declared
  | reaches _ _ _ induction => exact induction formed
  | block _ _ induction => exact (induction formed.push).of_block formed
  | append _ _ first second =>
      have left := first formed
      exact left.trans (second left.wellFormed)

theorem grows_of_checkForm (form : Form) (formed : table.WellFormed)
    (checked : checkForm around line form table = .ok after) :
    Grows form.declares table after := (runs_form [] [] form checked).grows formed

theorem grows_of_checkBody (body : List Statement) (formed : table.WellFormed)
    (checked : checkBody around body table = .ok after) :
    Grows (declaredIn body) table after := (runs_body [] [] 0 body checked).grows formed

theorem grows_of_checkMethod {owner : String} (formed : table.WellFormed)
    (checked : checkMethod owner table statement = .ok after) : Grows [] table after := by
  have runs : Runs [] table (visitsMember owner [] 0 table statement) after := runs_member checked
  exact runs.grows formed

/-- The second round declares nothing in the outermost scope. -/
theorem grows_of_checkTop (formed : table.WellFormed)
    (checked : checkTop table statement = .ok after) : Grows [] table after := by
  have runs : Runs [] table (visitsTop 0 table statement) after := runs_top checked
  exact runs.grows formed

theorem fills_of_declareImport {request : Import} (formed : table.WellFormed)
    (declared : declareImport fragments table request = .ok after) : Fills table after := by
  simp only [declareImport] at declared
  split at declared
  · obtain rfl := Except.ok.inj declared
    exact .refl formed
  · split at declared
    · simp at declared
    · split at declared
      · exact fills_of_declare formed declared
      · refine foldlM_preserves (Fills table) ?_ request.names (.refl formed) declared
        intro state name next earlier step
        split at step
        · simp at step
        · exact earlier.trans (fills_of_declare earlier.wellFormed step)

theorem fills_of_declareTop (formed : table.WellFormed)
    (declared : declareTop fragments table statement = .ok after) : Fills table after := by
  simp only [declareTop] at declared
  split at declared
  · exact fills_of_declareImport formed (onLine_eq_ok.mp declared)
  · simp only [bind_eq_ok, onLine_eq_ok] at declared
    obtain ⟨signature, _, declared⟩ := declared
    exact fills_of_declare formed declared
  · simp only [bind_eq_ok, onLine_eq_ok] at declared
    obtain ⟨symbol, _, declared⟩ := declared
    exact fills_of_declare formed declared
  · simp only [onLine_eq_ok, bind_eq_ok] at declared
    obtain ⟨name, _, annotated, _, declared⟩ := declared
    exact fills_of_declare formed declared
  · split at declared
    · obtain rfl : table = after := by simpa using declared
      exact .refl formed
    · simp at declared

theorem fills_of_declareAll {kind : UnitKind} {body : List Statement}
    (declared : declareAll kind fragments body = .ok table) : Fills .empty table := by
  simp only [declareAll, bind_eq_ok] at declared
  obtain ⟨filled, isFilled, _, _, declared⟩ := declared
  obtain rfl : filled = table := by
    split at declared <;> simp_all
  refine foldlM_preserves (Fills .empty) ?_ body (.refl Table.wellFormed_empty) isFilled
  intro state statement next earlier step
  exact earlier.trans (fills_of_declareTop earlier.wellFormed step)

end Check

end Offside
