import Offside.Proofs.Scope.Alike
import Offside.Proofs.Typing.Calls

/-!
# Assignments to final variables

The variable in whose storage a place lies is found by going out of fields of structs and items of
arrays, but never through a pointer. A check looks for a final mark on the target of an assignment
only if the target is a name: what is a part of a final variable can be assigned to like a part of
any other.
-/

namespace Offside

def Table.isFinal (table : Table) (id : String) : Bool :=
  (table.lookup id).any fun symbol =>
    match symbol.kind with
    | .value _ => symbol.immutable
    | _ => false

/-- Whether values of a type are structs or arrays. -/
def Ty.hasParts : Ty → Bool
  | .named _ => true
  | .array _ _ => true
  | _ => false

namespace Check

open Outcome

variable {id : String} {ty : Ty} {target : Expr}

/-- The name of the variable in whose storage a place lies. -/
def root? (table : Table) : Expr → Option String
  | .name id => some id
  | .member owner _ =>
      match typeOf table owner with
      | .ok (.named _) => root? table owner
      | _ => none
  | .subscript value _ =>
      match typeOf table value with
      | .ok (.array _ _) => root? table value
      | _ => none
  | _ => none

/-- A variable in which a part lies has parts. -/
theorem hasParts_of_owner {table : Table} {owner : Expr} (typed : typeOf table owner = .ok ty)
    (hasParts : ty.hasParts = true) (isRoot : root? table owner = some id)
    (deeper : (∀ own, owner ≠ .name own) →
      ∃ ty, typeOf table (.name id) = .ok ty ∧ ty.hasParts = true) :
    ∃ ty, typeOf table (.name id) = .ok ty ∧ ty.hasParts = true := by
  by_cases isName : ∃ own, owner = .name own
  · obtain ⟨own, rfl⟩ := isName
    obtain rfl : own = id := by simpa [root?] using isRoot
    exact ⟨ty, typed, hasParts⟩
  · exact deeper fun own same => isName ⟨own, same⟩

theorem hasParts_of_root? {table : Table} {id : String} :
    {place : Expr} → root? table place = some id → (∀ id, place ≠ .name id) →
      ∃ ty, typeOf table (.name id) = .ok ty ∧ ty.hasParts = true
  | .member owner _, isRoot, _ => by
      rw [root?] at isRoot
      split at isRoot
      · exact hasParts_of_owner ‹_› rfl isRoot (hasParts_of_root? isRoot)
      · exact nomatch isRoot
  | .subscript value _, isRoot, _ => by
      rw [root?] at isRoot
      split at isRoot
      · exact hasParts_of_owner ‹_› rfl isRoot (hasParts_of_root? isRoot)
      · exact nomatch isRoot
  | .name own, _, other => absurd rfl (other own)

theorem typeOf_name {table : Table} (typed : typeOf table (.name id) = .ok ty) :
    ∃ symbol, table.lookup id = some symbol ∧ symbol.kind = .value ty := by
  simp only [typeOf, typeIn, nameType] at typed
  repeat' split at typed
  all_goals cases typed
  exact ⟨_, ‹_›, ‹_›⟩

theorem targetType_name {table : Table} :
    targetType table (.name id) = .ok ty ↔
      ∃ symbol, table.lookup id = some symbol ∧ symbol.kind = .value ty ∧
        symbol.immutable = false := by
  rw [targetType]
  cases table.lookup id with
  | none => simp
  | some symbol =>
      cases isKind : symbol.kind with
      | value found =>
          simp only [isKind, error_ite_eq_ok, Bool.not_eq_true, Option.some.injEq]
          constructor
          · rintro ⟨isMutable, same⟩
            exact ⟨symbol, rfl, Except.ok.inj same ▸ isKind, isMutable⟩
          · rintro ⟨_, rfl, isValue, isMutable⟩
            exact ⟨isMutable, congrArg _ (SymbolKind.value.inj (isKind.symm.trans isValue))⟩
      | _ => simp [isKind]

variable {table table' : Table}

/-- Final marks matter to a target only if it is a name itself. -/
theorem targetType_eq_of_part (alike : table.AlikeButFinal table')
    (isPart : ∀ id, target ≠ .name id) : targetType table target = targetType table' target := by
  cases target with
  | name id => exact absurd rfl (isPart id)
  | member owner attr =>
      cases owner with
      | name base =>
          obtain ⟨found, found', isFound, isFound', same⟩ := alike.lookup base
          rw [targetType, targetType, isFound, isFound', typeOf_eq alike]
          cases same with
          | none => rfl
          | some _ kind => cases kind <;> rfl
      | _ => rw [targetType, targetType, typeOf_eq alike] <;> simp
  | subscript value index => rw [targetType, targetType, typeOf_eq alike]
  | _ => rfl

theorem checkAssign_iff (alike : table.AlikeButFinal table') {value : Expr}
    (accepted : checkAssign table target value = .ok ()) :
    checkAssign table' target value = .ok () ↔
      ∀ id, target = .name id → table'.isFinal id = false := by
  simp only [checkAssign, bind_eq_ok] at accepted
  obtain ⟨ty, isTarget, accepted⟩ := accepted
  rw [checkValue_eq alike] at accepted
  by_cases isName : ∃ id, target = .name id
  · obtain ⟨id, rfl⟩ := isName
    obtain ⟨symbol, isFound, isValue, -⟩ := targetType_name.mp isTarget
    obtain ⟨found, found', isSame, isSame', same⟩ := alike.lookup id
    rw [isFound] at isSame
    subst isSame
    cases same with
    | some _ kind immutable immutable' =>
        obtain rfl : kind = .value ty := isValue
        have isFinal : table'.isFinal id = immutable' := by simp [Table.isFinal, isSame']
        constructor
        · intro accepted' own isOwn
          obtain rfl := Expr.name.inj isOwn
          simp only [checkAssign, bind_eq_ok] at accepted'
          obtain ⟨ty', isTarget', -⟩ := accepted'
          obtain ⟨symbol, isSymbol, -, isMutable⟩ := targetType_name.mp isTarget'
          obtain rfl := Option.some.inj (isSymbol.symm.trans isSame')
          exact isFinal.trans isMutable
        · intro unmarked
          have isMutable := isFinal.symm.trans (unmarked id rfl)
          simp only [checkAssign, bind_eq_ok]
          exact ⟨ty, targetType_name.mpr ⟨_, isSame', rfl, isMutable⟩, accepted⟩
  · have isPart (id : String) : target ≠ .name id := fun same => isName ⟨id, same⟩
    refine ⟨fun _ id same => absurd same (isPart id), fun _ => ?_⟩
    simp only [checkAssign, bind_eq_ok, ← targetType_eq_of_part alike isPart]
    exact ⟨ty, isTarget, accepted⟩

theorem hasParts_unaryType (op : UnaryOp) (ty : Ty) : (unaryType op ty).hasParts = false := by
  cases op <;> cases ty <;> rfl

theorem hasParts_of_isInitializer {asked : Option Ty} {value : Expr}
    (initial : isInitializer value = true) (typed : typeIn table asked value = .ok ty) :
    ty.hasParts = false := by
  cases value with
  | constant literal =>
      obtain rfl : constantType literal = ty := by
        cases literal <;> simp_all [typeIn]
      cases literal <;> rfl
  | unary op operand =>
      cases typedUnder_of_unary typed with
      | literal number => rfl
      | operand _ _ => exact hasParts_unaryType op _
  | _ => simp [isInitializer] at initial

theorem hasParts_of_accepts {place value : Ty} (accepts : place.accepts value = true)
    (noParts : value.hasParts = false) : place.hasParts = false := by
  by_cases same : place = value
  · rw [same, noParts]
  · simp only [Ty.accepts, same, decide_false, Bool.false_or] at accepts
    split at accepts
    · rfl
    · rfl
    · rfl
    · rfl
    · exact nomatch accepts

theorem kind_of_classSymbol {decl : ClassDef} {symbol : Symbol}
    (isSymbol : classSymbol decl = .ok symbol) : symbol.kind ≠ .value ty := by
  rw [classSymbol] at isSymbol
  split at isSymbol <;> simp only [bind_eq_ok, pure_eq_ok] at isSymbol <;>
    obtain ⟨_, _, rfl⟩ := isSymbol <;> rintro ⟨⟩

/-- An accepted global starts with a literal, or with nothing if it is not final. -/
theorem starts_of_declare {kind : UnitKind} {fragments : List Fragment} {body : List Statement}
    (accepted : checkUnit kind fragments body = .ok table) {line : Nat} {written : TypeExpr}
    {value : Option Expr} (member : (⟨line, .declare target written value⟩ : Statement) ∈ body) :
    ∃ annotated before, annotatedOf written = .ok annotated ∧
      (value = none → annotated.immutable = false) ∧
      ∀ initial, value = some initial →
        isInitializer initial = true ∧ checkValue before annotated.ty initial = .ok () := by
  simp only [checkUnit, bind_eq_ok] at accepted
  obtain ⟨start, isStart, folded⟩ := accepted
  obtain ⟨⟨_, grown⟩, _⟩ := fills_of_declareAll isStart
  obtain ⟨found, isFound, known⟩ := global?_of_declareAll isStart member
  simp only [topSymbol, onLine_eq_ok, bind_eq_ok, pure_eq_ok] at isFound
  obtain ⟨name, isName, annotated, isAnnotated, rfl⟩ := isFound
  obtain ⟨earlier, _, before, _, isBefore, isChecked, _⟩ := exists_step_of_foldlM member folded
  have isGlobal : before.global? name = _ :=
    global?_of_checkTops grown.wellFormed isBefore (known _ rfl)
  simp only [checkTop, checkGlobal, isName, isGlobal, ok_bind, bind_eq_ok, onLine_eq_ok]
    at isChecked
  obtain ⟨_, isInitial, -⟩ := isChecked
  refine ⟨annotated, before, isAnnotated, ?_, ?_⟩
  · rintro rfl
    simpa [Symbol.value] using (error_ite_eq_ok.mp isInitial).1
  · rintro initial rfl
    exact ite_error_eq_ok.mp isInitial

theorem hasParts_of_topSymbol {kind : UnitKind} {fragments : List Fragment} {body : List Statement}
    (accepted : checkUnit kind fragments body = .ok table) {statement : Statement} {symbol : Symbol}
    (member : statement ∈ body) (declares : topSymbol statement = .ok (some symbol))
    (isFinal : symbol.immutable = true) (isValue : symbol.kind = .value ty) :
    ty.hasParts = false := by
  obtain ⟨line, form⟩ := statement
  cases form with
  | function decl =>
      simp only [topSymbol, bind_eq_ok, pure_eq_ok, Option.some.injEq] at declares
      obtain ⟨signature, -, rfl⟩ := declares
      cases isFinal
  | classDef decl =>
      simp only [topSymbol, bind_eq_ok, pure_eq_ok, Option.some.injEq] at declares
      obtain ⟨_, isSymbol, rfl⟩ := declares
      exact absurd isValue (kind_of_classSymbol isSymbol)
  | declare target written value =>
      simp only [topSymbol, onLine_eq_ok, bind_eq_ok, pure_eq_ok, Option.some.injEq] at declares
      obtain ⟨name, -, annotated, isAnnotated, rfl⟩ := declares
      obtain rfl : annotated.ty = ty := SymbolKind.value.inj isValue
      obtain ⟨_, before, isAnnotated', unset, starts⟩ := starts_of_declare accepted member
      obtain rfl := Except.ok.inj (isAnnotated.symm.trans isAnnotated')
      cases value with
      | none => cases isFinal.symm.trans (unset rfl)
      | some value =>
          obtain ⟨initial, accepted⟩ := starts value rfl
          simp only [checkValue, bind_eq_ok] at accepted
          obtain ⟨found, typed, fitting⟩ := accepted
          have accepts : annotated.ty.accepts found = true := (ite_error_eq_ok.mp fitting).1
          exact hasParts_of_accepts accepts (hasParts_of_isInitializer initial typed)
  | _ => simp [topSymbol] at declares

end Check

/-- In an accepted unit, a name that is assigned to is no final variable, and a part is assigned to
only of final variables declared inside functions. Other marks only matter to assignments to a name.
-/
theorem assignments_spare_final_names {kind : UnitKind} {modules : List Fragment}
    {body : List Statement} {table : Table} (analyzed : analyze kind modules body = .ok table)
    {site : Site} {line : Nat} {target value : Expr}
    (assigned : (site, ⟨line, .assign target value⟩) ∈ unitStatements body) :
    ∃ moment, .reaches site moment ∈ Check.visits kind modules body ∧
      (∀ id, target = .name id → moment.table.isFinal id = false) ∧
      (∀ id symbol, Check.root? moment.table target = some id →
        moment.table.lookup id = some symbol → moment.table.isFinal id = true →
        ∀ statement ∈ body, Check.topSymbol statement ≠ .ok (some symbol)) ∧
      ∀ marked : Table, moment.table.AlikeButFinal marked →
        (Check.checkAssign marked target value = .ok () ↔
          ∀ id, target = .name id → marked.isFinal id = false) := by
  obtain ⟨moment, reached, around, after, accepted⟩ := Check.accepted_unit analyzed _ _ assigned
  simp only [Check.checkForm, Outcome.bind_eq_ok, Outcome.onLine_eq_ok] at accepted
  obtain ⟨_, accepted, -⟩ := accepted
  have spared := (Check.checkAssign_iff (.refl _) accepted).mp accepted
  refine ⟨moment, reached, spared, ?_, fun marked alike => Check.checkAssign_iff alike accepted⟩
  intro id symbol isRoot isFound isFinal statement member declares
  have isPart (own : String) : target ≠ .name own := by
    rintro rfl
    obtain rfl : own = id := by simpa [Check.root?] using isRoot
    simp [spared own rfl] at isFinal
  obtain ⟨ty, typed, hasParts⟩ := Check.hasParts_of_root? isRoot isPart
  obtain ⟨found, isFound', isValue⟩ := Check.typeOf_name typed
  obtain rfl : found = symbol := Option.some.inj (isFound'.symm.trans isFound)
  have isImmutable : found.immutable = true := by
    simpa [Table.isFinal, isFound, isValue] using isFinal
  simp [Check.hasParts_of_topSymbol analyzed member declares isImmutable isValue] at hasParts

/-- A function that assigns to a field of a final struct. -/
def assignsPart : List Statement :=
  [⟨1, .classDef ⟨"P", [], .struct, [⟨2, .declare (.name "x") (.name "int") none⟩]⟩⟩,
   ⟨4, .function ⟨"main", [], none,
    [⟨5, .declare (.name "p") (.generic "Final" [.name "P"]) (some (.call (.name "P") []))⟩,
     ⟨6, .assign (.member (.name "p") "x") (.constant (.int 1))⟩]⟩⟩]

theorem assignments_spare_final_names_part :
    let target : Expr := .member (.name "p") "x"
    ∃ table moment, analyze .program [] assignsPart = .ok table ∧
      .reaches [1, 0, 1] moment ∈ Check.visits .program [] assignsPart ∧
      Check.checkAssign moment.table target (.constant (.int 1)) = .ok () ∧
      Check.root? moment.table target = some "p" ∧ moment.table.isFinal "p" = true := by
  intro target
  let outer : Scope :=
    ⟨none, [.plain "P" (.struct [⟨"x", .int⟩] []), .function "main" ⟨[], .none⟩]⟩
  let inner : Scope := ⟨some 0, [.value "p" (.named "P") true]⟩
  let here : Table := ⟨[outer, inner], 1⟩
  have analyzed : analyze .program [] assignsPart = .ok ⟨[outer, inner], 0⟩ := by
    with_unfolding_all rfl
  have assigned : ([1, 0, 1], ⟨6, .assign target (.constant (.int 1))⟩) ∈
      unitStatements assignsPart :=
    List.mem_of_getElem? (rfl : (unitStatements assignsPart)[1]? = some _)
  have visited : Check.visits .program [] assignsPart =
      [.opens [0, 1] 1, .reaches [0, 0, 1] ⟨⟨[outer, ⟨some 0, []⟩], 1⟩, [["p"], []]⟩,
        .reaches [1, 0, 1] ⟨here, [[], []]⟩] := by
    with_unfolding_all rfl
  obtain ⟨moment, reached, -, -, marks⟩ := assignments_spare_final_names analyzed assigned
  have isHere : moment = ⟨here, [[], []]⟩ := by simpa [visited] using reached
  refine ⟨_, moment, analyzed, reached, ?_, ?_, ?_⟩
  · exact (marks _ (.refl _)).mpr nofun
  · rw [isHere]
    with_unfolding_all rfl
  · rw [isHere]
    with_unfolding_all rfl

end Offside
