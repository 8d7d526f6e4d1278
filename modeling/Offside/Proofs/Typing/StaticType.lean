import Offside.Check.Expression
import Offside.Lower.StaticType
import Offside.Proofs.Outcome
import Offside.Proofs.Scope.Table

/-!
# Static types agree with checked types

Types are found twice: checking finds the type of an expression or rejects it, and lowering finds a
type as far as it can. On every expression that checking accepts the two agree, except on calls that
give nothing and on signs before a value that is no number.
-/

namespace Offside

namespace Typing

open Outcome

/-- Whether a builtin is called that prints, stores or frees. -/
def givesNothing : Expr → Bool
  | .call (.name id) _ =>
      match Builtin.find? id with
      | some builtin =>
          builtin.kind = .print || builtin.kind = .store || builtin.kind = .free
      | none => false
  | _ => false

/-- Signs before an operand that is no number. -/
inductive SignedOther (table : Table) : Expr → Prop
  | operand {sign : UnaryOp} {operand : Expr} {ty : Ty} : sign ≠ .not →
      Check.typeOf table operand = .ok ty → ty.isNumeric = false →
      SignedOther table (.unary sign operand)
  | sign {sign : UnaryOp} {signed : Expr} : sign ≠ .not →
      SignedOther table signed → SignedOther table (.unary sign signed)

/-- How the type that lowering finds relates to that of checking. -/
inductive Verdict (table : Table) (expr : Expr) (ty : Ty) (found : Option Ty) : Prop
  | agree : givesNothing expr = false → ¬ SignedOther table expr → found = some ty →
      Verdict table expr ty found
  | nothing : givesNothing expr = true → ty = .none → found = none → Verdict table expr ty found
  | signed : SignedOther table expr → ty = .int →
      (∀ other, found = some other → other.isNumeric = false) → Verdict table expr ty found

namespace Verdict

variable {table : Table} {expr : Expr} {ty : Ty} {found : Option Ty}

theorem eq_some (verdict : Verdict table expr ty found) (ne_none : ty ≠ .none)
    (ne_int : ty ≠ .int) : found = some ty := by
  cases verdict with
  | agree _ _ agrees => exact agrees
  | nothing _ isNone _ => exact absurd isNone ne_none
  | signed _ isInt _ => exact absurd isInt ne_int

theorem eq_some_of_plain (verdict : Verdict table expr ty found)
    (gives : givesNothing expr = false) (plain : ¬ SignedOther table expr) : found = some ty := by
  cases verdict with
  | agree _ _ agrees => exact agrees
  | nothing gone _ _ => simp [gives] at gone
  | signed signed _ _ => exact absurd signed plain

/-- Arithmetic takes what is not known for a whole number. -/
theorem getD_eq_float_iff (verdict : Verdict table expr ty found) :
    found.getD .int = .float ↔ ty = .float := by
  cases verdict with
  | agree _ _ agrees => simp [agrees]
  | nothing _ isNone missing => simp [isNone, missing]
  | signed _ isInt other =>
      subst isInt
      cases found with
      | none => simp
      | some found =>
          have noNumber := other found rfl
          cases found <;> simp_all [Ty.isNumeric]

end Verdict

variable {table : Table} {ty : Ty} {attr : String} {owner : Expr}

theorem not_signedOther {expr : Expr}
    (unsigned : ∀ sign operand, sign ≠ .not → expr ≠ .unary sign operand) :
    ¬ SignedOther table expr := by
  intro signed
  cases signed with
  | operand isSign => exact unsigned _ _ isSign rfl
  | sign isSign => exact unsigned _ _ isSign rfl

theorem structOf?_eq_some {struct : Symbol} (found : Check.structOf? table ty = some struct) :
    Lower.structOf? table ty = some struct := by
  unfold Check.structOf? at found
  unfold Lower.structOf?
  cases named : ty.pointee.name? with
  | none => simp [named] at found
  | some name =>
      cases held : table.global? name with
      | none => simp [named, held] at found
      | some symbol =>
          simp only [named, held, Option.bind_eq_bind, Option.bind_some,
            Option.ite_none_right_eq_some, Option.some.injEq] at found
          obtain ⟨isStruct, rfl⟩ := found
          simp [held, isStruct]

theorem ne_of_structOf? {struct : Symbol} (found : Check.structOf? table ty = some struct) :
    ty ≠ .none ∧ ty ≠ .int := by
  constructor <;> rintro rfl <;> simp [Check.structOf?, Ty.pointee, Ty.name?] at found

theorem Verdict.structOf? {expr : Expr} {found : Option Ty} {struct : Symbol}
    (verdict : Verdict table expr ty found) (behind : Check.structOf? table ty = some struct) :
    found = some ty ∧ Lower.structOf? table ty = some struct := by
  obtain ⟨ne_none, ne_int⟩ := ne_of_structOf? behind
  exact ⟨verdict.eq_some ne_none ne_int, structOf?_eq_some behind⟩

theorem Verdict.element? {expr : Expr} {item : Ty} {found : Option Ty}
    (verdict : Verdict table expr ty found) (element : ty.element? = some item) :
    found = some ty := by
  apply verdict.eq_some <;> rintro rfl <;> simp [Ty.element?] at element

theorem Verdict.place {table : Table} {expr : Expr} {ty : Ty} {found : Option Ty}
    (verdict : Verdict table expr ty found) (place : expr.isPlace = true) : found = some ty := by
  have gives : givesNothing expr = false := by
    cases expr <;> simp_all [Expr.isPlace, givesNothing]
  apply verdict.eq_some_of_plain gives
  apply not_signedOther
  rintro sign operand _ rfl
  simp [Expr.isPlace] at place

theorem verdict_builtin {id : String} {builtin : Builtin} {args : List Expr} {first : Option Ty}
    (known : Builtin.find? id = some builtin)
    (typed : Check.builtinType table none builtin args = .ok ty)
    (verdict : ∀ arg others argTy, args = arg :: others →
      Check.typeIn table none arg = .ok argTy → Verdict table arg argTy first) :
    Verdict table (.call (.name id) args) ty (Lower.builtinType? builtin first) := by
  have unsigned : ¬ SignedOther table (.call (.name id) args) := not_signedOther (by simp)
  rw [Check.builtinType.eq_def] at typed
  replace typed := (error_ite_eq_ok.mp typed).2
  split at typed <;> simp only [bind_eq_ok, pure_eq_ok, ite_error_eq_ok, reduceCtorEq] at typed
  case h_1 kind =>
    obtain ⟨_, _, _, rfl⟩ := typed
    exact .nothing (by simp [givesNothing, known, kind]) rfl (by simp [Lower.builtinType?, kind])
  case h_3 arg kind =>
    obtain ⟨place, argTy, argTyped, rfl⟩ := typed
    have found := (verdict arg [] argTy rfl argTyped).place place
    exact .agree (by simp [givesNothing, known, kind]) unsigned
      (by simp [Lower.builtinType?, kind, found])
  case h_4 arg kind =>
    obtain ⟨argTy, argTyped, followed⟩ := typed
    have pointer : argTy = .ptr ty := by
      cases argTy <;> simp_all [Check.target?]
      split at followed <;> simp_all
    subst pointer
    have found := (verdict arg [] _ rfl argTyped).element? rfl
    exact .agree (by simp [givesNothing, known, kind]) unsigned
      (by simp [Lower.builtinType?, kind, found, Lower.target?])
  case h_5 kind =>
    obtain ⟨argTy, _, stored⟩ := typed
    have isNone : ty = .none := by
      split at stored
      · simp only [bind_eq_ok, pure_eq_ok] at stored
        obtain ⟨_, _, _, _, rfl⟩ := stored
        rfl
      · simp at stored
    exact .nothing (by simp [givesNothing, known, kind]) isNone
      (by simp [Lower.builtinType?, kind])
  case h_7 kind =>
    obtain ⟨_, _, _, rfl⟩ := typed
    exact .nothing (by simp [givesNothing, known, kind]) rfl (by simp [Lower.builtinType?, kind])
  -- The other kinds have types that do not depend on their arguments.
  case h_16 kind | h_17 kind =>
    obtain ⟨_, _, _, _, _, _, _, _, rfl⟩ := typed
    exact .agree (by simp [givesNothing, known, kind]) unsigned
      (by simp [Lower.builtinType?, kind])
  case h_8 kind =>
    obtain ⟨_, _, rfl⟩ := typed
    exact .agree (by simp [givesNothing, known, kind]) unsigned
      (by simp [Lower.builtinType?, kind])
  all_goals
    rename_i kind
    obtain ⟨_, _, _, _, rfl⟩ := typed
    exact .agree (by simp [givesNothing, known, kind]) unsigned
      (by simp [Lower.builtinType?, kind])

theorem verdict_negative {value : Int}
    (typed : Check.typeIn table none (.unary .neg (.constant (.int value))) = .ok ty) :
    Verdict table (.unary .neg (.constant (.int value))) ty (some .int) := by
  simp only [Check.typeIn, bind_eq_ok, pure_eq_ok] at typed
  obtain ⟨_, _, rfl⟩ := typed
  refine .agree rfl ?_ rfl
  intro signed
  cases signed with
  | operand _ operandTyped other =>
      simp only [Check.typeOf, Check.typeIn, bind_eq_ok, pure_eq_ok] at operandTyped
      obtain ⟨_, _, rfl⟩ := operandTyped
      simp [Check.constantType, Ty.isNumeric] at other
  | sign _ inner => cases inner

theorem verdict_signed {sign : UnaryOp} {operand : Expr} {operandTy : Ty} {found : Option Ty}
    (isSign : sign ≠ .not) (typed : Check.typeIn table none operand = .ok operandTy)
    (verdict : Verdict table operand operandTy found) :
    Verdict table (.unary sign operand) (if operandTy.isNumeric then operandTy else .int)
      found := by
  cases numeric : operandTy.isNumeric with
  | false =>
      refine .signed (.operand isSign typed numeric) rfl ?_
      rintro other rfl
      cases verdict with
      | agree _ _ agrees => simpa [← Option.some.inj agrees] using numeric
      | nothing _ _ missing => simp at missing
      | signed _ isInt _ => simp [isInt, Ty.isNumeric] at numeric
  | true =>
      cases verdict with
      | agree _ plain agrees =>
          refine .agree rfl ?_ agrees
          intro signed
          cases signed with
          | operand _ again other =>
              obtain rfl := Except.ok.inj (typed.symm.trans again)
              simp [numeric] at other
          | sign _ inner => exact plain inner
      | nothing _ isNone _ => simp [isNone, Ty.isNumeric] at numeric
      | signed signed isInt other =>
          exact .signed (.sign isSign signed) (by simpa using isInt) other

theorem calledType?_eq_some {symbol : Symbol} {name callee : String} {count : Nat}
    {signature : Signature} (named : symbol.name = name)
    (called : Check.calledSignature symbol callee count = .ok signature) :
    Lower.calledType? name symbol = some signature.returns := by
  cases kind : symbol.kind with
  | function found =>
      simp only [Check.calledSignature, kind, bind_eq_ok, pure_eq_ok] at called
      obtain ⟨_, _, rfl⟩ := called
      simp only [Lower.calledType?, kind]
  | struct fields methods =>
      simp only [Check.calledSignature, kind, ite_error_eq_ok, Except.ok.injEq] at called
      obtain ⟨_, rfl⟩ := called
      simp only [Lower.calledType?, kind, named]
  | _ => simp [Check.calledSignature, kind] at called

theorem name_of_exported? {module symbol : Symbol}
    (exported : module.exported? attr = some symbol) : symbol.name = attr := by
  unfold Symbol.exported? at exported
  split at exported
  · exact Table.name_of_find? exported
  · simp at exported

@[simp]
theorem View.lookup_current (table : Table) (name : String) :
    Lower.View.lookup ⟨table, table.current⟩ name = table.lookup name := rfl

/-- Checking and lowering take the same expressions for modules. -/
theorem calledExport?_of_module {base : String} {module : Symbol}
    (found : Lower.module? ⟨table, table.current⟩ owner = some (base, module)) :
    Check.calledExport? table owner attr = some (match module.exported? attr with
      | some symbol => .ok (symbol, qualified base attr)
      | none => .error (.checking (.missingExport base attr))) := by
  cases owner with
  | name id =>
      simp only [Lower.module?, View.lookup_current] at found
      simp only [Check.calledExport?]
      cases held : table.lookup id with
      | none => simp [held] at found
      | some symbol =>
          simp only [held, Option.ite_none_right_eq_some, Option.some.injEq, Prod.mk.injEq] at found
          obtain ⟨isModule, rfl, rfl⟩ := found
          cases kind : symbol.kind with
          | module exports =>
              cases exported : symbol.exported? attr <;> simp only [kind, exported]
          | _ => simp [kind, SymbolKind.isModule] at isModule
  | _ => simp [Lower.module?] at found

theorem calledExport?_of_no_module (missing : Lower.module? ⟨table, table.current⟩ owner = none) :
    Check.calledExport? table owner attr = none := by
  cases owner with
  | name id =>
      simp only [Lower.module?, View.lookup_current] at missing
      simp only [Check.calledExport?]
      cases held : table.lookup id with
      | none => rfl
      | some symbol => cases kind : symbol.kind <;> simp_all [SymbolKind.isModule]
  | _ => rfl

theorem structOf?_of_calledMethod {receiver : Ty} {method : Method × String}
    (called : Check.calledMethod table owner receiver attr = .ok method) :
    ∃ struct, Check.structOf? table receiver = some struct ∧
      struct.method? attr = some method.1 := by
  unfold Check.calledMethod at called
  cases behind : Check.structOf? table receiver with
  | none => simp [behind] at called
  | some struct =>
      cases held : struct.method? attr with
      | none => simp [behind, held] at called
      | some found =>
          simp only [behind, held, error_ite_eq_ok, Except.ok.injEq] at called
          exact ⟨struct, rfl, by rw [held, ← called.2]⟩

theorem structOf?_of_fieldType {owner : Ty} (typed : Check.fieldType table owner attr = .ok ty) :
    ∃ struct, Check.structOf? table owner = some struct ∧
      (struct.field? attr).map (·.ty) = some ty := by
  unfold Check.fieldType at typed
  cases behind : Check.structOf? table owner with
  | none => simp [behind] at typed
  | some struct =>
      cases held : struct.field? attr with
      | none =>
          simp only [behind, held] at typed
          split at typed <;> simp at typed
      | some field =>
          simp only [behind, held, Except.ok.injEq] at typed
          exact ⟨struct, rfl, by simp [held, typed]⟩

/-- Checking and lowering give qualified names one type. -/
theorem qualifiedType?_agree {outcome : Option Ty}
    (found : Lower.qualifiedType? ⟨table, table.current⟩ owner attr = some outcome) :
    ∃ checked, Check.qualifiedType? table owner attr = some checked ∧
      ∀ ty, checked = .ok ty → outcome = some ty := by
  cases owner with
  | name base =>
      simp only [Lower.qualifiedType?, View.lookup_current] at found
      simp only [Check.qualifiedType?]
      cases held : table.lookup base with
      | none => simp [held] at found
      | some symbol =>
          cases kind : symbol.kind with
          | enum members =>
              simp only [held, kind, Option.some.injEq] at found
              refine ⟨_, by simp only [kind]; rfl, ?_⟩
              rintro ty typed
              cases member : symbol.member? attr <;> simp_all
          | module exports =>
              simp only [held, kind, Option.some.injEq] at found
              refine ⟨_, by simp only [kind]; rfl, ?_⟩
              rintro ty typed
              cases exported : symbol.exported? attr with
              | none => simp [exported] at typed
              | some export_ =>
                  simp only [exported] at typed
                  split at typed <;> simp_all [Lower.variableType?]
          | _ => simp [held, kind] at found
  | _ => simp [Lower.qualifiedType?] at found

theorem qualifiedType?_eq_none
    (unqualified : Lower.qualifiedType? ⟨table, table.current⟩ owner attr = none) :
    Check.qualifiedType? table owner attr = none := by
  cases owner with
  | name base =>
      simp only [Lower.qualifiedType?, View.lookup_current] at unqualified
      simp only [Check.qualifiedType?]
      cases held : table.lookup base with
      | none => rfl
      | some symbol =>
          cases kind : symbol.kind <;> simp_all
  | _ => rfl

/-- What lowering makes of an expression that checking gives a type. -/
theorem verdict {table : Table} {expr : Expr} {ty : Ty}
    (typed : Check.typeIn table none expr = .ok ty) :
    Verdict table expr ty (Lower.staticType ⟨table, table.current⟩ expr) := by
  fun_induction Lower.staticType ⟨table, table.current⟩ expr generalizing ty with
  | case1 id =>
      refine .agree rfl (not_signedOther (by simp)) ?_
      simp only [Check.typeIn, Check.nameType] at typed
      change (table.lookup id).bind _ = _
      cases found : table.lookup id with
      | none => simp [found] at typed
      | some symbol =>
          simp only [found] at typed
          cases kind : symbol.kind <;> simp_all [Lower.variableType?]
  | case2 value =>
      refine .agree rfl (not_signedOther (by simp)) ?_
      cases value <;> simp_all [Check.typeIn, Check.constantType, Lower.constantType]
  | case3 op left right leftInduction rightInduction =>
      simp only [Check.typeIn, bind_eq_ok, pure_eq_ok] at typed
      obtain ⟨leftTy, leftTyped, rightTy, rightTyped, rfl⟩ := typed
      refine .agree rfl (not_signedOther (by simp)) ?_
      have left_iff := (leftInduction leftTyped).getD_eq_float_iff
      have right_iff := (rightInduction rightTyped).getD_eq_float_iff
      simp [Ty.arithmetic, left_iff, right_iff]
  | case4 operand =>
      have isBool : ty = .bool := by
        simp only [Check.typeIn, bind_eq_ok, pure_eq_ok, Check.unaryType] at typed
        obtain ⟨_, _, rfl⟩ := typed
        rfl
      exact .agree rfl (not_signedOther (by simp +contextual [eq_comm])) (by rw [isBool])
  | case5 sign operand isSign induction =>
      by_cases literal : ∃ value, sign = .neg ∧ operand = .constant (.int value)
      · obtain ⟨value, rfl, rfl⟩ := literal
        exact verdict_negative typed
      · rw [Check.typeIn] at typed
        · simp only [bind_eq_ok, pure_eq_ok] at typed
          obtain ⟨operandTy, operandTyped, rfl⟩ := typed
          have kept : Check.unaryType sign operandTy =
              if operandTy.isNumeric then operandTy else .int := by
            cases sign <;> simp_all [Check.unaryType]
          rw [kept]
          exact verdict_signed isSign operandTyped (induction operandTyped)
        · rintro value rfl rfl
          exact literal ⟨value, rfl, rfl⟩
  | case6 op left right =>
      simp only [Check.typeIn, bind_eq_ok, Check.compareType, ite_error_eq_ok] at typed
      obtain ⟨_, _, _, _, _, equal⟩ := typed
      exact .agree rfl (not_signedOther (by simp)) (by simpa using equal)
  | case7 op left right =>
      simp only [Check.typeIn, bind_eq_ok, pure_eq_ok] at typed
      obtain ⟨_, _, _, _, _, _, _, _, rfl⟩ := typed
      exact .agree rfl (not_signedOther (by simp)) rfl
  | case8 id args builtin known induction =>
      simp only [Check.typeIn, known] at typed
      refine verdict_builtin known typed ?_
      rintro arg others argTy rfl argTyped
      exact induction argTyped
  | case9 id args unknown =>
      have gives : givesNothing (.call (.name id) args) = false := by simp [givesNothing, unknown]
      refine .agree gives (not_signedOther (by simp)) ?_
      simp only [Check.typeIn, unknown] at typed
      change (table.lookup id).bind _ = _
      cases found : table.lookup id with
      | none => simp [found] at typed
      | some symbol =>
          simp only [found, bind_eq_ok, pure_eq_ok] at typed
          obtain ⟨signature, called, _, _, rfl⟩ := typed
          exact calledType?_eq_some (Table.name_of_lookupFrom found) called
  | case10 owner attr args _ module found =>
      refine .agree rfl (not_signedOther (by simp)) ?_
      rw [Check.typeIn, calledExport?_of_module found] at typed
      cases exported : module.exported? attr with
      | none => simp [exported] at typed
      | some symbol =>
          simp only [exported, bind_eq_ok, pure_eq_ok] at typed
          obtain ⟨signature, called, _, _, rfl⟩ := typed
          exact calledType?_eq_some (name_of_exported? exported) called
  | case11 owner attr args noModule missing induction =>
      rw [Check.typeIn, calledExport?_of_no_module noModule] at typed
      simp only [bind_eq_ok, pure_eq_ok] at typed
      obtain ⟨receiver, owned, method, called, _⟩ := typed
      obtain ⟨struct, behind, _⟩ := structOf?_of_calledMethod called
      have found := ((induction owned).structOf? behind).1
      simp [missing] at found
  | case12 owner attr args noModule receiver found induction =>
      rw [Check.typeIn, calledExport?_of_no_module noModule] at typed
      simp only [bind_eq_ok, pure_eq_ok] at typed
      obtain ⟨checked, owned, method, called, _, _, _, _, rfl⟩ := typed
      obtain ⟨struct, behind, held⟩ := structOf?_of_calledMethod called
      have verdict := induction owned
      obtain ⟨same, lowered⟩ := verdict.structOf? behind
      obtain rfl : receiver = checked := by simpa [found] using same
      exact .agree rfl (not_signedOther (by simp)) (by simp [lowered, held])
  | case13 callee args notName notMember =>
      cases callee <;> simp_all [Check.typeIn]
  | case14 owner attr outcome found =>
      refine .agree rfl (not_signedOther (by simp)) ?_
      obtain ⟨checked, qualified, agree⟩ := qualifiedType?_agree found
      rw [Check.typeIn, qualified] at typed
      exact agree ty typed
  | case15 owner attr unqualified missing induction =>
      rw [Check.typeIn, qualifiedType?_eq_none unqualified] at typed
      simp only [bind_eq_ok] at typed
      obtain ⟨owned, ownedTyped, field⟩ := typed
      obtain ⟨struct, behind, _⟩ := structOf?_of_fieldType field
      have found := ((induction ownedTyped).structOf? behind).1
      simp [missing] at found
  | case16 owner attr unqualified owned found induction =>
      rw [Check.typeIn, qualifiedType?_eq_none unqualified] at typed
      simp only [bind_eq_ok] at typed
      obtain ⟨checked, ownedTyped, field⟩ := typed
      obtain ⟨struct, behind, held⟩ := structOf?_of_fieldType field
      obtain ⟨same, lowered⟩ := (induction ownedTyped).structOf? behind
      obtain rfl : owned = checked := by simpa [found] using same
      exact .agree rfl (not_signedOther (by simp)) (by simp [lowered, held])
  | case17 value index induction =>
      simp only [Check.typeIn, bind_eq_ok, Check.subscriptType, ite_error_eq_ok] at typed
      obtain ⟨base, baseTyped, _, _, _, item⟩ := typed
      have element : base.element? = some ty := by
        cases element : base.element? with
        | none => simp [element] at item
        | some found => simp [element] at item; simp [item]
      have found := (induction baseTyped).element? element
      exact .agree rfl (not_signedOther (by simp)) (by simp [found, element])

/-- Wherever checking finds a type, lowering finds the same one, unless the expression prints,
stores or frees, or puts signs before what is no number. -/
theorem staticType_eq_some_iff {table : Table} {expr : Expr} {ty : Ty}
    (typed : Check.typeOf table expr = .ok ty) :
    (Lower.staticType ⟨table, table.current⟩ expr = some ty ↔
        givesNothing expr = false ∧ ¬ SignedOther table expr) ∧
      (givesNothing expr = true →
        ty = .none ∧ Lower.staticType ⟨table, table.current⟩ expr = none) ∧
      (SignedOther table expr → ty = .int) := by
  cases verdict typed with
  | agree gives plain agrees => simp [agrees, gives, plain]
  | nothing gone isNone missing =>
      have unsigned : ¬ SignedOther table expr := by
        intro signed
        cases signed <;> simp [givesNothing] at gone
      simp [gone, isNone, missing, unsigned]
  | signed signed isInt other =>
      have gives : givesNothing expr = false := by
        cases signed <;> rfl
      subst isInt
      have differs : Lower.staticType ⟨table, table.current⟩ expr ≠ some .int := by
        intro agrees
        have noNumber := other .int agrees
        simp [Ty.isNumeric] at noNumber
      simp [differs, gives, signed]

/-- Lowering takes a truth value with two signs for a truth value. -/
theorem staticType_signed_bool :
    let expr : Expr := .unary .neg (.unary .pos (.constant (.bool true)))
    Check.typeOf .empty expr = .ok .int ∧ SignedOther .empty expr ∧
      (Lower.staticType ⟨.empty, 0⟩ expr = some .int ↔
        givesNothing expr = false ∧ ¬ SignedOther .empty expr) :=
  ⟨rfl, .sign nofun (.operand nofun rfl rfl), (staticType_eq_some_iff rfl).1⟩

end Typing

end Offside
