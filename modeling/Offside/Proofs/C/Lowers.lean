import Mathlib.Data.List.Forall2
import Offside.Lower.Expression
import Offside.Proofs.Outcome

/-!
# What expressions become

The ways in which a C form of an expression comes about, as a relation. Whatever holds of all C
forms is shown by an induction over it, without another look at the lowering.
-/

namespace Offside

namespace Lower

open Outcome

/-- What builtins put the C form of their first argument into. -/
inductive Wraps (view : View) (builtin : Builtin) (arg : Expr) : (C.Expr → C.Expr) → Prop
  | print : builtin.kind = .print → Wraps view builtin arg fun value =>
      libraryCall .printf [.literal (.str (printed (staticType view arg) value).1),
        (printed (staticType view arg) value).2]
  | addr : builtin.kind = .addr → Wraps view builtin arg fun value => .paren (.unary .address value)
  | deref : builtin.kind = .deref → Wraps view builtin arg fun value => .paren (.unary .deref value)
  | malloc : builtin.kind = .malloc → Wraps view builtin arg fun value =>
      libraryCall .malloc [value]
  | free : builtin.kind = .free → Wraps view builtin arg fun value => libraryCall .free [value]
  | intCast : builtin.kind = .intCast → Wraps view builtin arg fun value =>
      .paren (.cast .int (.paren value))
  | floatCast : builtin.kind = .floatCast → Wraps view builtin arg fun value =>
      .paren (.cast .float (.paren value))
  | ok (slot : Payload) : builtin.kind = .ok → Wraps view builtin arg (.result .ok slot)
  | err (slot : Payload) : builtin.kind = .err → Wraps view builtin arg (.result .err slot)

inductive Lowers (view : View) : Expr → C.Expr → Prop
  | name (id : String) : Lowers view (.name id) (.name id)
  | constant (value : Constant) : Lowers view (.constant value) (.literal (literal value))
  | binary (op : BinaryOp) (isFloat : Bool) {left right : Expr} {first second : C.Expr} :
      Lowers view left first → Lowers view right second →
      Lowers view (.binary op left right) (arithmetic op isFloat first second)
  | unary (op : UnaryOp) {operand : Expr} {inner : C.Expr} : Lowers view operand inner →
      Lowers view (.unary op operand) (.paren (.unary (sign op) inner))
  | compare (op : CompareOp) (areTexts : Bool) {left right : Expr} {first second : C.Expr} :
      Lowers view left first → Lowers view right second →
      Lowers view (.compare op left right)
        (.paren (compared areTexts (comparison op) first second))
  | logical (op : LogicalOp) {left right : Expr} {first second : C.Expr} :
      Lowers view left first → Lowers view right second →
      Lowers view (.logical op left right) (between (connective op) first second)
  /-- A struct that is called is written down without its arguments. -/
  | construct {id : String} {symbol : Symbol} (args : List Expr) : Builtin.find? id = none →
      view.lookup id = some symbol → symbol.kind.isStruct = true →
      Lowers view (.call (.name id) args) (.zeroStruct id)
  | call {id : String} {symbol : Symbol} {params : List Ty} {args : List Expr}
      {codes : List C.Expr} : Builtin.find? id = none → view.lookup id = some symbol →
      called id symbol = .ok (.function params) → args.length = codes.length →
      (∀ {arg code}, (arg, code) ∈ args.zip codes → Lowers view arg code) →
      Lowers view (.call (.name id) args) (.call (.named id) codes)
  | constructExported {base attr : String} {module found : Symbol} (args : List Expr) :
      module? view (.name base) = some (base, module) → module.exported? attr = some found →
      found.kind.isStruct = true →
      Lowers view (.call (.member (.name base) attr) args) (.zeroStruct attr)
  | callExported {base attr callee : String} {module found : Symbol} {params : List Ty}
      {args : List Expr} {codes : List C.Expr} :
      module? view (.name base) = some (base, module) → module.exported? attr = some found →
      called callee found = .ok (.function params) → args.length = codes.length →
      (∀ {arg code}, (arg, code) ∈ args.zip codes → Lowers view arg code) →
      Lowers view (.call (.member (.name base) attr) args) (.call (.named attr) codes)
  | callMethod {owner : Expr} {attr struct : String} {method : Method} {isPointer : Bool}
      {receiver : C.Expr} {args : List Expr} {codes : List C.Expr} :
      module? view owner = none →
      calledMethod view owner attr = .ok (method, struct, isPointer) →
      Lowers view owner receiver → args.length = codes.length →
      (∀ {arg code}, (arg, code) ∈ args.zip codes → Lowers view arg code) →
      Lowers view (.call (.member owner attr) args)
        (.call (.named (functionName (some struct) attr))
          ((if isPointer then receiver else .unary .address receiver) :: codes))
  | qualified {base attr name : String} : qualifiedName? view (.name base) attr = some name →
      Lowers view (.member (.name base) attr) (.name name)
  | member {owner : Expr} {attr : String} {value : C.Expr} (isPointer : Bool) :
      qualifiedName? view owner attr = none → Lowers view owner value →
      Lowers view (.member owner attr)
        (if isPointer then .arrow value attr else .field value attr)
  | subscript {value index : Expr} {first second : C.Expr} :
      Lowers view value first → Lowers view index second →
      Lowers view (.subscript value index) (.index first second)
  | wrapped {id : String} {builtin : Builtin} {arg : Expr} {value : C.Expr}
      {wrap : C.Expr → C.Expr} (others : List Expr) : Builtin.find? id = some builtin →
      Wraps view builtin arg wrap → Lowers view arg value →
      Lowers view (.call (.name id) (arg :: others)) (wrap value)
  | store {id : String} {builtin : Builtin} {pointer value : Expr} {first second : C.Expr}
      (others : List Expr) : Builtin.find? id = some builtin → builtin.kind = .store →
      Lowers view pointer first → Lowers view value second →
      Lowers view (.call (.name id) (pointer :: value :: others))
        (.assign (.unary .deref (.paren first)) second)
  /-- A size, which has no operand. -/
  | size {id : String} {builtin : Builtin} {operand : Expr} {written : Ty} {ty : C.Ty}
      (others : List Expr) : Builtin.find? id = some builtin → builtin.kind = .sizeOf →
      sizeofType operand = .ok written → typeOf view.table written = .ok ty →
      Lowers view (.call (.name id) (operand :: others)) (.sizeOf ty)
  | support {id : String} {builtin : Builtin} {args : List Expr} {codes : List C.Expr} :
      Builtin.find? id = some builtin → builtin.isHelper = true → args.length = codes.length →
      (∀ {arg code}, (arg, code) ∈ args.zip codes → Lowers view arg code) →
      Lowers view (.call (.name id) args) (.call (.support builtin.name) codes)

variable {view : View} {code : C.Expr}

/-- What a called struct and a called function are. -/
theorem isStruct_of_called {callee : String} {symbol : Symbol} {found : Called}
    (isCalled : called callee symbol = .ok found) :
    (found = .struct ∧ symbol.kind.isStruct = true) ∨
      ∃ params, found = .function params ∧ symbol.kind.isStruct = false := by
  rw [called] at isCalled
  split at isCalled
  · rename_i signature kind
    obtain rfl := Except.ok.inj isCalled
    exact .inr ⟨signature.params, rfl, by rw [kind]; rfl⟩
  · rename_i fields methods kind
    obtain rfl := Except.ok.inj isCalled
    exact .inl ⟨rfl, by rw [kind]; rfl⟩
  · simp at isCalled

theorem eq_name_of_module? {owner : Expr} {base : String} {symbol : Symbol}
    (named : module? view owner = some (base, symbol)) :
    owner = .name base ∧ view.lookup base = some symbol ∧ symbol.kind.isModule := by
  cases owner with
  | name id =>
      simp only [module?] at named
      cases looked : view.lookup id with
      | none => simp [looked] at named
      | some found =>
          simp only [looked, Option.ite_none_right_eq_some, Option.some.injEq,
            Prod.mk.injEq] at named
          obtain ⟨isModule, rfl, rfl⟩ := named
          exact ⟨rfl, looked, isModule⟩
  | _ => simp [module?] at named

mutual

theorem lowers_of_lower {place : Place} :
    (expr : Expr) → {code : C.Expr} → lower view place expr = .ok code → Lowers view expr code
  | .name id, _, lowered => by
      obtain rfl := Except.ok.inj lowered
      exact .name id
  | .constant value, _, lowered => by
      obtain rfl := Except.ok.inj lowered
      exact .constant value
  | .binary op left right, _, lowered => by
      simp only [lower, bind_eq_ok, pure_eq_ok] at lowered
      obtain ⟨first, isFirst, second, isSecond, rfl⟩ := lowered
      exact .binary op _ (lowers_of_lower left isFirst) (lowers_of_lower right isSecond)
  | .unary op operand, _, lowered => by
      simp only [lower, bind_eq_ok, pure_eq_ok] at lowered
      obtain ⟨inner, isInner, rfl⟩ := lowered
      exact .unary op (lowers_of_lower operand isInner)
  | .compare op left right, _, lowered => by
      simp only [lower, bind_eq_ok, pure_eq_ok] at lowered
      obtain ⟨_, _, _, _, first, isFirst, second, isSecond, rfl⟩ := lowered
      exact .compare op _ (lowers_of_lower left isFirst) (lowers_of_lower right isSecond)
  | .logical op left right, _, lowered => by
      simp only [lower, bind_eq_ok, pure_eq_ok] at lowered
      obtain ⟨first, isFirst, second, isSecond, rfl⟩ := lowered
      exact .logical op (lowers_of_lower left isFirst) (lowers_of_lower right isSecond)
  | .call (.name id) args, code, lowered => by
      cases known : Builtin.find? id with
      | some builtin =>
          simp only [lower, known] at lowered
          exact lowers_of_lowerBuiltin known args lowered
      | none =>
          cases looked : view.lookup id with
          | none => simp [lower, known, looked] at lowered
          | some symbol =>
              simp only [lower, known, looked, bind_eq_ok] at lowered
              obtain ⟨callee, isCalled, lowered⟩ := lowered
              rcases isStruct_of_called isCalled with ⟨rfl, isStruct⟩ | ⟨params, rfl, _⟩
              · obtain rfl := Except.ok.inj lowered
                exact .construct args known looked isStruct
              · obtain ⟨codes, areCodes, rfl⟩ := by simpa using lowered
                obtain ⟨same, each⟩ :=
                  List.forall₂_iff_zip.mp (lowers_of_lowerArguments args areCodes)
                exact .call known looked isCalled same each
  | .call (.member owner attr) args, code, lowered => by
      cases named : module? view owner with
      | some pair =>
          obtain ⟨base, module⟩ := pair
          obtain ⟨rfl, _⟩ := eq_name_of_module? named
          cases exported : module.exported? attr with
          | none => simp [lower, named, exported] at lowered
          | some found =>
              simp only [lower, named, exported, bind_eq_ok] at lowered
              obtain ⟨callee, isCalled, lowered⟩ := lowered
              rcases isStruct_of_called isCalled with ⟨rfl, isStruct⟩ | ⟨params, rfl, _⟩
              · obtain rfl := Except.ok.inj lowered
                exact .constructExported args named exported isStruct
              · obtain ⟨codes, areCodes, rfl⟩ := by simpa using lowered
                obtain ⟨same, each⟩ :=
                  List.forall₂_iff_zip.mp (lowers_of_lowerArguments args areCodes)
                exact .callExported named exported isCalled same each
      | none =>
          simp only [lower, named, bind_eq_ok, pure_eq_ok] at lowered
          obtain ⟨⟨method, struct, isPointer⟩, isMethod, receiver, isReceiver, codes, areCodes,
            rfl⟩ := lowered
          obtain ⟨same, each⟩ := List.forall₂_iff_zip.mp (lowers_of_lowerArguments args areCodes)
          exact .callMethod named isMethod (lowers_of_lower owner isReceiver) same each
  | .call (.constant _) _, _, lowered | .call (.binary _ _ _) _, _, lowered
  | .call (.unary _ _) _, _, lowered | .call (.compare _ _ _) _, _, lowered
  | .call (.logical _ _ _) _, _, lowered | .call (.call _ _) _, _, lowered
  | .call (.subscript _ _) _, _, lowered => by simp [lower] at lowered
  | .member owner attr, _, lowered => by
      cases isQualified : qualifiedName? view owner attr with
      | some name =>
          obtain rfl := by simpa [lower, isQualified] using lowered
          cases owner with
          | name base => exact .qualified isQualified
          | _ => simp [qualifiedName?] at isQualified
      | none =>
          simp only [lower, isQualified, bind_eq_ok, pure_eq_ok] at lowered
          obtain ⟨value, isValue, rfl⟩ := lowered
          exact .member _ isQualified (lowers_of_lower owner isValue)
  | .subscript value index, _, lowered => by
      simp only [lower, bind_eq_ok, pure_eq_ok] at lowered
      obtain ⟨first, isFirst, second, isSecond, rfl⟩ := lowered
      exact .subscript (lowers_of_lower value isFirst) (lowers_of_lower index isSecond)

theorem lowers_of_lowerArguments {params : List Ty} :
    (args : List Expr) → {codes : List C.Expr} → lowerArguments view params args = .ok codes →
      List.Forall₂ (Lowers view) args codes
  | [], _, lowered => by
      obtain rfl := Except.ok.inj lowered
      exact .nil
  | arg :: args, _, lowered => by
      simp only [lowerArguments, bind_eq_ok, pure_eq_ok] at lowered
      obtain ⟨first, isFirst, others, areOthers, rfl⟩ := lowered
      exact .cons (lowers_of_lower arg isFirst) (lowers_of_lowerArguments args areOthers)

theorem lowers_of_lowerOperands :
    (args : List Expr) → {codes : List C.Expr} → lowerOperands view args = .ok codes →
      List.Forall₂ (Lowers view) args codes
  | [], _, lowered => by
      obtain rfl := Except.ok.inj lowered
      exact .nil
  | arg :: args, _, lowered => by
      simp only [lowerOperands, bind_eq_ok, pure_eq_ok] at lowered
      obtain ⟨first, isFirst, others, areOthers, rfl⟩ := lowered
      exact .cons (lowers_of_lower arg isFirst) (lowers_of_lowerOperands args areOthers)

theorem lowers_of_lowerBuiltin {place : Place} {id : String} {builtin : Builtin}
    (known : Builtin.find? id = some builtin) :
    (args : List Expr) → {code : C.Expr} → lowerBuiltin view place builtin args = .ok code →
      Lowers view (.call (.name id) args) code
  | [], code, lowered => by
      rw [lowerBuiltin.eq_def] at lowered
      split at lowered
      · simp at lowered
      · split at lowered <;> simp at lowered
      · split at lowered <;> simp at lowered
      · obtain ⟨isHelper, rfl⟩ := by simpa using lowered
        exact .support known isHelper rfl nofun
  | first :: others, code, lowered => by
      have wrapped {place : Place} {wrap : C.Expr → C.Expr}
          (lowered : (do let value ← lower view place first; return wrap value) = .ok code)
          (wraps : Wraps view builtin first wrap) :
          Lowers view (.call (.name id) (first :: others)) code := by
        obtain ⟨value, isValue, rfl⟩ := by simpa using lowered
        exact .wrapped others known wraps (lowers_of_lower first isValue)
      rw [lowerBuiltin.eq_def] at lowered
      split at lowered
      · simp at lowered
      · rename_i kind
        split at lowered
        · simp at lowered
        · obtain ⟨slot, _, lowered⟩ := bind_eq_ok.mp lowered
          exact wrapped lowered (by simpa [kind] using .ok slot kind)
        · simp at lowered
      · rename_i kind
        split at lowered
        · simp at lowered
        · obtain ⟨slot, _, lowered⟩ := bind_eq_ok.mp lowered
          exact wrapped lowered (by simpa [kind] using .err slot kind)
        · simp at lowered
      · dsimp only at lowered
        split at lowered
        · exact wrapped lowered (.print ‹_›)
        · exact wrapped lowered (.addr ‹_›)
        · exact wrapped lowered (.deref ‹_›)
        · rename_i kind
          simp only [bind_eq_ok] at lowered
          obtain ⟨pointer, isPointer, lowered⟩ := lowered
          cases others with
          | nil => simp at lowered
          | cons second rest =>
              obtain ⟨value, isValue, rfl⟩ := by simpa using lowered
              exact .store rest known kind (lowers_of_lower first isPointer)
                (lowers_of_lower second isValue)
        · exact wrapped lowered (.malloc ‹_›)
        · exact wrapped lowered (.free ‹_›)
        · rename_i kind
          obtain ⟨written, isWritten, ty, isType, rfl⟩ := by simpa using lowered
          exact .size others known kind isWritten isType
        · exact wrapped lowered (.intCast ‹_›)
        · exact wrapped lowered (.floatCast ‹_›)
        · obtain ⟨value, isValue, rest, areRest, rfl⟩ := by simpa using lowered
          have isHelper : builtin.isHelper = true := by
            cases kind : builtin.kind <;> simp_all [Builtin.isHelper]
          have each := (lowers_of_lowerOperands others areRest).cons (lowers_of_lower first isValue)
          obtain ⟨same, each⟩ := List.forall₂_iff_zip.mp each
          exact .support known isHelper same each

end

end Lower

end Offside
