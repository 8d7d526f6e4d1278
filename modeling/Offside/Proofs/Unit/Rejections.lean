import Offside.Check.Unit
import Offside.Proofs.Scope.Causes

/-!
# Rejections

Whatever a check reads with the grammar, it fails with faults of its own, and a unit is rejected on
a line. It is rejected for want of a module only on account of an import at its top level, since no
other check looks for modules.
-/

namespace Offside

namespace Check

open Outcome

/-- A fault of a check, for want of a module only if that is missing. -/
@[simp]
def Rejects (missing : String → Prop) (placed : Bool) : Fault → Prop
  | .checking cause line =>
      line.isSome = placed ∧ ∀ path, cause = .unresolvedModule path → missing path
  | _ => False

/-- A check of a part of a statement that fails on no line yet. -/
abbrev Settles {α : Type} (missing : String → Prop) (outcome : Except Fault α) : Prop :=
  FailsFor (Rejects missing false) outcome

/-- A check of statements that fails with such faults. -/
abbrev Passes {α : Type} (missing : String → Prop) (outcome : Except Fault α) : Prop :=
  FailsFor (Rejects missing true) outcome

variable {missing : String → Prop}

section Expressions

variable {table : Table} {name attr callee : String} {ty other : Ty} {expr : Expr} {count : Nat}

@[simp]
theorem settles_inIntRange {number : Int} : Settles missing (inIntRange number) := by
  fun_cases inIntRange <;> simp

@[simp]
theorem settles_nameType : Settles missing (nameType table name) := by
  fun_cases nameType <;> simp

@[simp]
theorem settles_compareType : Settles missing (compareType table ty other) := by
  fun_cases compareType <;> simp

@[simp]
theorem settles_isTruth {place : TruthPlace} : Settles missing (isTruth place ty) := by
  fun_cases isTruth <;> simp

@[simp]
theorem settles_subscriptType : Settles missing (subscriptType ty other) := by
  fun_cases subscriptType <;> simp

theorem settles_qualifiedType? {outcome : Except Fault Ty}
    (found : qualifiedType? table expr attr = some outcome) : Settles missing outcome := by
  revert found
  fun_cases qualifiedType? with
  | case1 | case2 =>
      rintro ⟨⟩
      repeat' split
      all_goals simp
  | _ => exact nofun

@[simp]
theorem settles_fieldType : Settles missing (fieldType table ty attr) := by
  fun_cases fieldType <;> simp

theorem rejects_of_calledExport? {fault : Fault}
    (found : calledExport? table expr attr = some (.error fault)) :
    Rejects missing false fault := by
  revert found
  fun_cases calledExport? with
  | case1 => split <;> rintro ⟨⟩; simp
  | _ => exact nofun

@[simp]
theorem settles_calledMethod : Settles missing (calledMethod table expr ty attr) := by
  fun_cases calledMethod <;> simp

@[simp]
theorem settles_hasArity {signature : Signature} :
    Settles missing (hasArity callee signature count) := by
  fun_cases hasArity <;> simp

@[simp]
theorem settles_calledSignature {symbol : Symbol} :
    Settles missing (calledSignature symbol callee count) := by
  fun_cases calledSignature <;> simp

@[simp]
theorem settles_okType : Settles missing (okType callee ty) := by
  fun_cases okType <;> simp

@[simp]
theorem settles_fits : Settles missing (fits ty other) := by
  fun_cases fits <;> simp

@[simp]
theorem settles_carries {payload : Payload} :
    Settles missing (carries table callee payload ty) := by
  simp [carries]

@[simp]
theorem settles_sizeofType : Settles missing (sizeofType table expr) := by
  refine .bind ?_ fun ty _ => ?_
  · repeat' split
    all_goals simp
  · repeat' split
    all_goals simp

theorem settles_argumentsFit {args : List Expr}
    (typed : ∀ arg ∈ args, ∀ asked, Settles missing (typeIn table asked arg)) (position : Nat)
    (params : List Ty) : Settles missing (argumentsFit table callee position params args) := by
  induction args generalizing position params with
  | nil => simp [argumentsFit]
  | cons arg args induction =>
      cases params with
      | nil => simp [argumentsFit]
      | cons param params => simp_all [argumentsFit, inArgument]

theorem settles_builtinType {args : List Expr}
    (typed : ∀ arg ∈ args, ∀ asked, Settles missing (typeIn table asked arg)) (asked : Option Ty)
    (builtin : Builtin) : Settles missing (builtinType table asked builtin args) := by
  fun_cases builtinType <;>
    simp_all
  all_goals
    intro ty _
    cases target? ty <;> simp_all

mutual

theorem settles_typeIn :
    (expr : Expr) → (asked : Option Ty) → Settles missing (typeIn table asked expr)
  | .name id, asked => by simp [typeIn]
  | .constant value, asked => by cases value <;> simp [typeIn]
  | .binary op left right, asked => by simp [typeIn, settles_typeIn left, settles_typeIn right]
  | .unary op operand, asked => by
      have typed := settles_typeIn operand none
      rw [typeIn.eq_def]
      split <;> simp_all
  | .compare op left right, asked => by
      simp [typeIn, settles_typeIn left, settles_typeIn right]
  | .logical op left right, asked => by
      simp [typeIn, settles_typeIn left, settles_typeIn right]
  | .call callee args, asked => by
      have typed := settles_typeIn_of_mem args
      cases callee with
      | name id =>
          rw [typeIn]
          split
          · exact settles_builtinType typed _ _
          · split <;> simp [settles_argumentsFit typed]
      | member owner attr =>
          rw [typeIn]
          split
          · rename_i found
            exact .error (rejects_of_calledExport? found)
          · simp [settles_argumentsFit typed]
          · simp [settles_typeIn owner, settles_argumentsFit typed]
      | _ => simp [typeIn]
  | .member owner attr, asked => by
      rw [typeIn]
      split
      · rename_i found
        exact settles_qualifiedType? found
      · simp [settles_typeIn owner]
  | .subscript value index, asked => by
      simp [typeIn, settles_typeIn value, settles_typeIn index]

theorem settles_typeIn_of_mem :
    (args : List Expr) → ∀ arg ∈ args, ∀ asked, Settles missing (typeIn table asked arg)
  | [] => by simp
  | first :: others =>
      List.forall_mem_cons.mpr ⟨settles_typeIn first, settles_typeIn_of_mem others⟩

end

attribute [simp] settles_typeIn

@[simp]
theorem settles_typeOf : Settles missing (typeOf table expr) := settles_typeIn expr none

@[simp]
theorem settles_checkValue : Settles missing (checkValue table ty expr) := by
  simp [checkValue]

end Expressions

section Bodies

variable {table : Table} {symbol : Symbol} {expr other : Expr} {ty : Ty} {value : Option Expr}
  {around : Surroundings} {label : Option String} {line : Nat}

@[simp]
theorem settles_declaredName : Settles missing (declaredName expr) := by
  fun_cases declaredName <;> simp

@[simp]
theorem settles_declare : Settles missing (declare table symbol) := by
  fun_cases declare <;> simp

@[simp]
theorem settles_declareVariable {written : TypeExpr} :
    Settles missing (declareVariable table expr written value) := by
  cases value <;>
    simp [declareVariable, annotatedOf]

@[simp]
theorem settles_targetType : Settles missing (targetType table expr) := by
  rw [targetType.eq_def]
  repeat' split
  all_goals simp

@[simp]
theorem settles_checkAssign : Settles missing (checkAssign table expr other) := by
  refine .bind settles_targetType fun place _ => ?_
  cases place <;> simp

@[simp]
theorem settles_checkBounds {bounds : List Expr} : Settles missing (checkBounds table bounds) := by
  induction bounds with
  | nil => simp [checkBounds]
  | cons bound bounds induction => simp [checkBounds, induction]

@[simp]
theorem settles_iterationType : Settles missing (iterationType table expr) := by
  rw [iterationType]
  split
  · simp
  · refine .bind (settles_typeIn _ _) fun ty _ => ?_
    cases ty <;> simp

@[simp]
theorem settles_inLoop : Settles missing (around.inLoop label) := by
  fun_cases Surroundings.inLoop <;> simp

@[simp]
theorem settles_checkJump {jump : Jump} : Settles missing (checkJump around jump label) := by
  fun_cases checkJump <;> simp

@[simp]
theorem settles_checkReturn : Settles missing (checkReturn table around value) := by
  fun_cases checkReturn <;> simp

@[simp]
theorem settles_checkPattern {pattern : Pattern} :
    Settles missing (checkPattern table ty pattern) := by
  cases pattern <;> simp [checkPattern]

end Bodies

@[simp]
theorem passes_onLine {α : Type} {line : Nat} {outcome : Except Fault α}
    (settles : Settles missing outcome) : Passes missing (onLine line outcome) := by
  refine .mapError fun fault failed => ?_
  have rejects := settles fault failed
  cases fault with
  | checking cause place =>
      cases place with
      | none => exact ⟨rfl, rejects.2⟩
      | some other => cases rejects.1
  | _ => exact rejects

@[simp]
theorem passes_reject {α : Type} {line : Nat} {cause : Cause} :
    Passes missing (reject line cause : Except Fault α) ↔
      ∀ path, cause = .unresolvedModule path → missing path := by
  simp [reject]

mutual

theorem passes_checkForm (around : Surroundings) (line : Nat) :
    (form : Form) → (table : Table) → Passes missing (checkForm around line form table)
  | .branch test body orelse, table => by
      simp [checkForm, checkCondition, passes_checkBody around body, passes_checkBody around orelse]
  | .whileLoop test body label, table => by
      simp [checkForm, checkCondition, passes_checkBody _ body]
  | .forLoop target iter body label, table => by
      simp [checkForm, passes_checkBody _ body]
  | .select subject cases, table => by
      simp [checkForm, subjectType, passes_checkCases _ _ cases]
  | .declare _ _ _, table | .assign _ _, table | .jump _ _, table | .ret _, table | .expr _, table
  | .pass, table | .import_ _, table | .function _, table | .classDef _, table => by
      simp [checkForm]

theorem passes_checkBody (around : Surroundings) :
    (body : List Statement) → (table : Table) → Passes missing (checkBody around body table)
  | [], table => by simp [checkBody]
  | ⟨line, form⟩ :: others, table => by
      simp [checkBody, passes_checkForm around line form, passes_checkBody around others]

theorem passes_checkCases (around : Surroundings) (subject : Ty) :
    (cases : List Case) → (table : Table) → Passes missing (checkCases around subject cases table)
  | [], table => by simp [checkCases]
  | ⟨pattern, body, line⟩ :: others, table => by
      simp [checkCases, passes_checkBody around body, passes_checkCases around subject others]

end

section Units

variable {owner : String} {members : Members} {decl : FunctionDef} {isMethod : Bool} {line : Nat}
  {table : Table} {statement : Statement}
variable {fragments : List Fragment}

theorem passes_parametersOf : Passes missing (parametersOf decl isMethod line) := by
  have each (param : Parameter) : Passes missing (parameterOf decl.name param) := by
    fun_cases parameterOf <;> simp [annotatedOf]
  fun_cases parametersOf
  · simp
  · exact .mapM _ fun param _ => each param
  · exact .mapM _ fun param _ => each param

@[simp]
theorem passes_signatureOf : Passes missing (signatureOf decl isMethod line) := by
  rw [signatureOf]
  cases decl.returns <;> simp [passes_parametersOf]

@[simp]
theorem passes_addMethod : Passes missing (members.addMethod owner decl line) := by
  simp [Members.addMethod, Members.isFree]

theorem passes_structMember : Passes missing (structMember owner members statement) := by
  fun_cases structMember <;>
    simp [Members.addField, annotatedOf, Members.isFree]

theorem passes_interfaceMember : Passes missing (interfaceMember owner members statement) := by
  fun_cases interfaceMember <;> simp

theorem passes_enumMember {values : List (String × Int)} :
    Passes missing (enumMember owner values statement) := by
  fun_cases enumMember with
  | case1 name value =>
      refine passes_onLine ?_
      fun_cases addEnumMember <;> simp
  | case2 => simp
  | case3 => simp

@[simp]
theorem passes_classSymbol {decl : ClassDef} : Passes missing (classSymbol decl) := by
  fun_cases classSymbol
  · exact .bind (.foldlM _ _ fun _ _ _ => passes_enumMember) fun _ _ => .pure _
  · exact .bind (.foldlM _ _ fun _ _ _ => passes_structMember) fun _ _ => .pure _
  · exact .bind (.foldlM _ _ fun _ _ _ => passes_interfaceMember) fun _ _ => .pure _

/-- Whether some fragments lack the module of an import. -/
def Lacks (fragments : List Fragment) (request : Import) : Prop :=
  isMarkerModule request.dotted = false ∧
    ∀ fragment ∈ fragments, fragment.path ≠ request.dotted

theorem settles_declareImport {request : Import}
    (known : Lacks fragments request → missing request.dotted) :
    Settles missing (declareImport fragments table request) := by
  rw [declareImport]
  split
  · simp
  · rename_i notMarker
    split
    · rename_i isMissing
      have lacks : Lacks fragments request :=
        ⟨by simpa using notMarker, by simpa using isMissing⟩
      simpa using known lacks
    · split
      · exact settles_declare
      · refine .foldlM _ _ fun name _ table => ?_
        split
        · simp
        · exact settles_declare

theorem passes_declareTop (known : ∀ request, statement.form = .import_ request →
      Lacks fragments request → missing request.dotted) :
    Passes missing (declareTop fragments table statement) := by
  rw [declareTop]
  split
  · rename_i request isImport
    exact passes_onLine (settles_declareImport (known request isImport))
  · simp
  · simp
  · simp [annotatedOf]
  · simp

theorem failsFor_forM {ε α : Type} {allowed : ε → Prop} {check : α → Except ε Unit}
    {items : List α} (fails : ∀ item, FailsFor allowed (check item)) :
    FailsFor allowed (items.forM check) := by
  induction items with
  | nil => exact .pure ()
  | cons item items induction => exact .bind (fails item) fun _ _ => induction

theorem passes_checkImplements : Passes missing (checkImplements table statement) := by
  have provides (struct : Symbol) (base : String) :
      Settles missing (providesInterface table struct base) := by
    fun_cases providesInterface with
    | case2 =>
        refine failsFor_forM fun required => ?_
        fun_cases providesMethod <;> simp
    | _ => simp
  fun_cases checkImplements with
  | case1 _ _ _ struct => exact passes_onLine (failsFor_forM (provides struct))
  | _ => simp

theorem settles_checkEntry : Settles missing (checkEntry table) := by
  fun_cases checkEntry <;> simp

theorem passes_checkFunction {owner : Option String} :
    Passes missing (checkFunction owner line decl table) := by
  rw [checkFunction.eq_def]
  refine .bind passes_signatureOf fun signature _ => ?_
  refine .bind passes_parametersOf fun params _ => .bind ?_ fun received _ => ?_
  · cases owner with
    | none => simp
    | some owner => cases decl.params <;> simp [declareReceiver]
  refine .bind (passes_onLine (.foldlM _ _ fun _ _ _ => settles_declare)) fun entered _ => ?_
  exact .bind (passes_checkBody _ _ _) fun _ _ => .pure _

theorem passes_checkTop : Passes missing (checkTop table statement) := by
  have methods (owner : String) (table : Table) (statement : Statement) :
      Passes missing (checkMethod owner table statement) := by
    fun_cases checkMethod <;> simp [passes_checkFunction]
  fun_cases checkTop with
  | case1 => exact passes_checkFunction
  | case2 => exact .foldlM _ _ fun statement _ table => methods _ table statement
  | case4 target _ value =>
      refine .bind (passes_onLine ?_) fun _ _ => .pure _
      refine .bind settles_declaredName fun name _ => ?_
      repeat' split
      all_goals simp
  | _ => exact .pure _

/-- A unit is rejected on a line, and for want of a module only by an import. -/
theorem passes_checkUnit (kind : UnitKind) (fragments : List Fragment) (body : List Statement) :
    Passes (fun path => ∃ request ∈ importsOf body, request.dotted = path ∧
      Lacks fragments request) (checkUnit kind fragments body) := by
  refine .bind ?_ fun table _ => .foldlM _ _ fun _ _ _ => passes_checkTop
  refine .bind (.foldlM _ _ fun statement member table => passes_declareTop ?_) fun table _ => ?_
  · intro request isImport lacks
    refine ⟨request, List.mem_filterMap.mpr ⟨statement, member, ?_⟩, rfl, lacks⟩
    rw [isImport]
  · refine .bind (failsFor_forM fun _ => passes_checkImplements) fun _ _ => ?_
    simp [settles_checkEntry]

end Units

end Check

end Offside
