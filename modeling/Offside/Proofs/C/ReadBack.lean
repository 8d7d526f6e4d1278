import Offside.Proofs.C.Lowers
import Offside.Proofs.C.Spelled
import Offside.Proofs.Scope.Additions
import Offside.Proofs.Scope.Identifiers
import Offside.Proofs.Scope.Walk
import Offside.Proofs.Typing.Calls

/-!
# Reading generated C back

What the C form of an expression may look like is said on trees without parentheses: each node of
the expression has a node of C for itself, whose operands stand for its own. The text of the C form
of an accepted expression is read as such a tree, unless an assignment is an operand of an operator:
that is the only form that comes without parentheses where it needs them.
-/

namespace Offside

/-- Whether values of a type have no parts and point nowhere. -/
def Ty.isSimple : Ty → Bool
  | .int | .float | .bool | .str | .none => true
  | _ => false

namespace Lower

open Outcome

/-- The operator of C for an arithmetic operator that is no call. -/
def operator : BinaryOp → C.BinaryOp
  | .add => .add
  | .sub => .sub
  | .mul => .mul
  | .div | .floorDiv => .div
  | .mod => .mod

inductive ArithmeticForm (left right : C.Tree) : BinaryOp → C.Tree → Prop
  | operator (op : BinaryOp) : ArithmeticForm left right op (.binary (operator op) left right)
  | floor : ArithmeticForm left right .floorDiv
      (.call C.LibraryFunction.floor.name [.binary .div left right])
  | fmod : ArithmeticForm left right .mod (.call C.LibraryFunction.fmod.name [left, right])

inductive ComparisonForm (left right : C.Tree) (op : CompareOp) : C.Tree → Prop
  | operator : ComparisonForm left right op (.binary (comparison op) left right)
  | strcmp : ComparisonForm left right op
      (.binary (comparison op) (.call C.LibraryFunction.strcmp.name [left, right])
        (.atom (.number "0")))

/-- A struct without content. -/
def zeroTree (tag : String) : C.Tree := .compound (.struct tag) [.atom (.number "0")]

/-- A result with a value in one of its slots. -/
def resultTree (tag : C.Tag) (slot : Payload) (value : C.Tree) : C.Tree :=
  .compound .result [.designated "type" (.atom (.name tag.name)),
    .designated "value" (.braces [.designated slot.slot value])]

inductive BuiltinForm (builtin : Builtin) : List C.Tree → C.Tree → Prop
  | print {value : C.Tree} (format : String) : builtin.kind = .print →
      BuiltinForm builtin [value] (.call C.LibraryFunction.printf.name
        [.atom (.string (C.stringLiteral format)), value])
  | printPointer {value : C.Tree} (format : String) : builtin.kind = .print →
      BuiltinForm builtin [value] (.call C.LibraryFunction.printf.name
        [.atom (.string (C.stringLiteral format)), .cast (.pointer .void) value])
  | addr {value : C.Tree} : builtin.kind = .addr →
      BuiltinForm builtin [value] (.unary .address value)
  | deref {value : C.Tree} : builtin.kind = .deref →
      BuiltinForm builtin [value] (.unary .deref value)
  | store {pointer value : C.Tree} : builtin.kind = .store →
      BuiltinForm builtin [pointer, value] (.assign (.unary .deref pointer) value)
  | malloc {value : C.Tree} : builtin.kind = .malloc →
      BuiltinForm builtin [value] (.call C.LibraryFunction.malloc.name [value])
  | free {value : C.Tree} : builtin.kind = .free →
      BuiltinForm builtin [value] (.call C.LibraryFunction.free.name [value])
  | intCast {value : C.Tree} : builtin.kind = .intCast →
      BuiltinForm builtin [value] (.cast .int value)
  | floatCast {value : C.Tree} : builtin.kind = .floatCast →
      BuiltinForm builtin [value] (.cast .float value)
  | ok {value : C.Tree} (slot : Payload) : builtin.kind = .ok →
      BuiltinForm builtin [value] (resultTree .ok slot value)
  | err {value : C.Tree} (slot : Payload) : builtin.kind = .err →
      BuiltinForm builtin [value] (resultTree .err slot value)
  | support {values : List C.Tree} : builtin.isHelper →
      BuiltinForm builtin values (.call builtin.name values)

inductive Mirrors (table : Table) : Expr → C.Tree → Prop
  | name (id : String) : Mirrors table (.name id) (.atom (.name id))
  | constant (value : Constant) : Mirrors table (.constant value) (.atom (literal value).atom)
  | binary {op : BinaryOp} {left right : Expr} {first second tree : C.Tree} :
      Mirrors table left first → Mirrors table right second →
      ArithmeticForm first second op tree → Mirrors table (.binary op left right) tree
  | unary {operand : Expr} {tree : C.Tree} (op : UnaryOp) : Mirrors table operand tree →
      Mirrors table (.unary op operand) (.unary (sign op) tree)
  | compare {op : CompareOp} {left right : Expr} {first second tree : C.Tree} :
      Mirrors table left first → Mirrors table right second →
      ComparisonForm first second op tree → Mirrors table (.compare op left right) tree
  | logical {left right : Expr} {first second : C.Tree} (op : LogicalOp) :
      Mirrors table left first → Mirrors table right second →
      Mirrors table (.logical op left right) (.binary (connective op) first second)
  | subscript {value index : Expr} {first second : C.Tree} :
      Mirrors table value first → Mirrors table index second →
      Mirrors table (.subscript value index) (.index first second)
  | member {owner : Expr} {tree : C.Tree} (access : C.Access) (attr : String) :
      Mirrors table owner tree → Mirrors table (.member owner attr) (.part access tree attr)
  | enumerator (base attr : String) :
      Mirrors table (.member (.name base) attr) (.atom (.name (C.enumerator base attr)))
  | exported (base attr : String) : Mirrors table (.member (.name base) attr) (.atom (.name attr))
  | call {id : String} {args : List Expr} {trees : List C.Tree} : Builtin.find? id = none →
      List.Forall₂ (Mirrors table) args trees →
      Mirrors table (.call (.name id) args) (.call id trees)
  | construct {id : String} : Builtin.find? id = none →
      Mirrors table (.call (.name id) []) (zeroTree id)
  | callExported {args : List Expr} {trees : List C.Tree} (base attr : String) :
      List.Forall₂ (Mirrors table) args trees →
      Mirrors table (.call (.member (.name base) attr) args) (.call attr trees)
  | constructExported (base attr : String) :
      Mirrors table (.call (.member (.name base) attr) []) (zeroTree attr)
  | callMethod {owner : Expr} {tree : C.Tree} {args : List Expr} {trees : List C.Tree}
      (struct attr : String) : Mirrors table owner tree →
      List.Forall₂ (Mirrors table) args trees →
      Mirrors table (.call (.member owner attr) args)
        (.call (functionName (some struct) attr) (tree :: trees))
  /-- A call of a method on a place, by its address. -/
  | callMethodAt {owner : Expr} {tree : C.Tree} {args : List Expr} {trees : List C.Tree}
      (struct attr : String) : Mirrors table owner tree →
      List.Forall₂ (Mirrors table) args trees →
      Mirrors table (.call (.member owner attr) args)
        (.call (functionName (some struct) attr) (.unary .address tree :: trees))
  | builtin {id : String} {builtin : Builtin} {args : List Expr} {trees : List C.Tree}
      {tree : C.Tree} : Builtin.find? id = some builtin →
      List.Forall₂ (Mirrors table) args trees → BuiltinForm builtin trees tree →
      Mirrors table (.call (.name id) args) tree
  | size {id : String} {builtin : Builtin} {operand : Expr} {written : Ty} {ty : C.Ty} :
      Builtin.find? id = some builtin → builtin.kind = .sizeOf →
      sizeofType operand = .ok written → typeOf table written = .ok ty →
      Mirrors table (.call (.name id) [operand]) (.sizeOf ty)

/-! ## C forms of accepted expressions -/

/-- The C form of an expression stands for it, with its parts guarded. -/
structure Faithful (view : View) (expr : Expr) (ty : Ty) (code : C.Expr) : Prop where
  mirrors : Mirrors view.table expr code.tree.bare
  guarded : code.Guarded
  isOperand : code.isOperand
  isOwner_or : code.isOwner ∨
    (ty.isSimple ∧ ∀ target, staticType view expr ≠ some (.ptr target))

/-- Whether every C form of an accepted expression is faithful. -/
def LowersFaithfully (table : Table) (view : View) (expr : Expr) : Prop :=
  ∀ ⦃asked : Option Ty⦄ ⦃ty : Ty⦄ ⦃place : Place⦄ ⦃code : C.Expr⦄,
    Check.typeIn table asked expr = .ok ty → lower view place expr = .ok code →
      Faithful view expr ty code

namespace Faithful

variable {view : View} {expr : Expr} {ty : Ty} {code : C.Expr}

theorem isOwner (faithful : Faithful view expr ty code) (hasParts : ty.isSimple = false) :
    code.isOwner := by
  rcases faithful.isOwner_or with isOwner | ⟨isSimple, _⟩
  · exact isOwner
  · rw [hasParts] at isSimple
    contradiction

theorem not_isStore (faithful : Faithful view expr ty code) (hasParts : ty.isSimple = false) :
    code.isStore = false := by
  have isOwner := faithful.isOwner hasParts
  have isOperand := faithful.isOperand
  cases code <;> simp_all [C.Expr.isOwner, C.Expr.isOperand, C.Expr.isStore]

end Faithful

theorem isSimple_of_target? {ty target : Ty} (isTarget : Check.target? ty = some target) :
    ty.isSimple = false := by
  cases ty with
  | ptr => rfl
  | _ => simp [Check.target?] at isTarget

theorem isSimple_of_element? {ty item : Ty} (isItem : ty.element? = some item) :
    ty.isSimple = false := by
  cases ty <;> simp [Ty.element?] at isItem <;> rfl

theorem isSimple_of_structOf? {table : Table} {ty : Ty} {struct : Symbol}
    (isStruct : Check.structOf? table ty = some struct) : ty.isSimple = false := by
  cases ty <;> simp [Check.structOf?, Ty.pointee, Ty.name?] at isStruct <;> rfl

theorem faithful_constant (view : View) (value : Constant) :
    Faithful view (.constant value) (Check.constantType value) (.literal (literal value)) where
  mirrors := .constant value
  guarded := trivial
  isOperand := rfl
  isOwner_or := by cases value <;> simp [Check.constantType, Ty.isSimple, staticType, constantType]

section Operators

variable {view : View} {left right : Expr} {leftType rightType : Ty} {first second : C.Expr}

theorem faithful_arithmetic (op : BinaryOp) (isFloat : Bool) (ty : Ty)
    (leftFaithful : Faithful view left leftType first)
    (rightFaithful : Faithful view right rightType second) :
    Faithful view (.binary op left right) ty (arithmetic op isFloat first second) := by
  have mirrors {tree : C.Tree}
      (form : ArithmeticForm first.tree.bare second.tree.bare op tree) :
      Mirrors view.table (.binary op left right) tree :=
    .binary leftFaithful.mirrors rightFaithful.mirrors form
  have apart : first.Guarded ∧ first.isOperand ∧ second.Guarded ∧ second.isOperand :=
    ⟨leftFaithful.guarded, leftFaithful.isOperand, rightFaithful.guarded, rightFaithful.isOperand⟩
  cases op with
  | floorDiv =>
      cases isFloat with
      | false => exact ⟨mirrors (.operator .floorDiv), apart, rfl, .inl rfl⟩
      | true => exact ⟨mirrors .floor, ⟨apart, trivial⟩, rfl, .inl rfl⟩
  | mod =>
      cases isFloat with
      | false => exact ⟨mirrors (.operator .mod), apart, rfl, .inl rfl⟩
      | true => exact ⟨mirrors .fmod, ⟨apart.1, apart.2.2.1, trivial⟩, rfl, .inl rfl⟩
  | _ => exact ⟨mirrors (.operator _), apart, rfl, .inl rfl⟩

theorem faithful_compared (op : CompareOp) (areTexts : Bool) (ty : Ty)
    (leftFaithful : Faithful view left leftType first)
    (rightFaithful : Faithful view right rightType second) :
    Faithful view (.compare op left right) ty
      (.paren (compared areTexts (comparison op) first second)) := by
  have mirrors {tree : C.Tree}
      (form : ComparisonForm first.tree.bare second.tree.bare op tree) :
      Mirrors view.table (.compare op left right) tree :=
    .compare leftFaithful.mirrors rightFaithful.mirrors form
  cases areTexts with
  | false =>
      exact ⟨mirrors .operator, ⟨leftFaithful.guarded, leftFaithful.isOperand,
        rightFaithful.guarded, rightFaithful.isOperand⟩, rfl, .inl rfl⟩
  | true =>
      exact ⟨mirrors .strcmp, ⟨⟨leftFaithful.guarded, rightFaithful.guarded, trivial⟩, rfl, trivial,
        rfl⟩, rfl, .inl rfl⟩

theorem faithful_logical (op : LogicalOp) (ty : Ty)
    (leftFaithful : Faithful view left leftType first)
    (rightFaithful : Faithful view right rightType second) :
    Faithful view (.logical op left right) ty (between (connective op) first second) where
  mirrors := .logical op leftFaithful.mirrors rightFaithful.mirrors
  guarded := ⟨leftFaithful.guarded, leftFaithful.isOperand, rightFaithful.guarded,
    rightFaithful.isOperand⟩
  isOperand := rfl
  isOwner_or := .inl rfl

theorem faithful_unary (op : UnaryOp) (ty : Ty) (leftFaithful : Faithful view left leftType first) :
    Faithful view (.unary op left) ty (.paren (.unary (sign op) first)) where
  mirrors := .unary op leftFaithful.mirrors
  guarded := ⟨leftFaithful.guarded, leftFaithful.isOperand⟩
  isOperand := rfl
  isOwner_or := .inl rfl

theorem faithful_subscript (ty : Ty) (leftFaithful : Faithful view left leftType first)
    (hasParts : leftType.isSimple = false) (rightFaithful : Faithful view right rightType second) :
    Faithful view (.subscript left right) ty (.index first second) where
  mirrors := .subscript leftFaithful.mirrors rightFaithful.mirrors
  guarded := ⟨leftFaithful.guarded, leftFaithful.isOwner hasParts, rightFaithful.guarded⟩
  isOperand := rfl
  isOwner_or := .inl rfl

end Operators

theorem mirrors_of_forall₂ {table : Table} {view : View} {args : List Expr} {codes : List C.Expr}
    (each : List.Forall₂ (fun arg code => ∀ asked ty, Check.typeIn table asked arg = .ok ty →
      Faithful view arg ty code) args codes)
    (typed : ∀ arg ∈ args, Check.Typed table arg) :
    List.Forall₂ (Mirrors view.table) args (C.Tree.bareAll (C.Expr.trees codes)) ∧
      C.Expr.AllGuarded codes := by
  induction each with
  | nil => exact ⟨.nil, trivial⟩
  | cons first _ induction =>
      rw [List.forall_mem_cons] at typed
      obtain ⟨⟨asked, ty, isTyped⟩, others⟩ := typed
      obtain ⟨mirrors, guarded⟩ := induction others
      have faithful := first asked ty isTyped
      exact ⟨.cons faithful.mirrors mirrors, faithful.guarded, guarded⟩

section Builtins

variable {view : View} {id : String} {builtin : Builtin} {arg : Expr} {ty argType : Ty}
  {value : C.Expr}

theorem faithful_print (known : Builtin.find? id = some builtin) (kind : builtin.kind = .print)
    (faithful : Faithful view arg argType value) :
    Faithful view (.call (.name id) [arg]) ty
      (libraryCall .printf [.literal (.str (printed (staticType view arg) value).1),
        (printed (staticType view arg) value).2]) := by
  have operand : List.Forall₂ (Mirrors view.table) [arg] [value.tree.bare] :=
    .cons faithful.mirrors .nil
  have plain (format : String) : Faithful view (.call (.name id) [arg]) ty
      (libraryCall .printf [.literal (.str format), value]) :=
    ⟨.builtin known operand (.print format kind), ⟨trivial, faithful.guarded, trivial⟩, rfl,
      .inl rfl⟩
  cases static : staticType view arg with
  | none => exact plain "%d\n"
  | some shown =>
      cases shown with
      | ptr target =>
          have isOwner : value.isOwner := by
            rcases faithful.isOwner_or with isOwner | ⟨_, noPointer⟩
            · exact isOwner
            · exact absurd static (noPointer target)
          exact ⟨.builtin known operand (.printPointer "%p\n" kind),
            ⟨trivial, ⟨faithful.guarded, isOwner⟩, trivial⟩, rfl, .inl rfl⟩
      | float => exact plain "%f\n"
      | str => exact plain "%s\n"
      | _ => exact plain "%d\n"

theorem typed_of_wraps {table : Table} {others : List Expr} {wrap : C.Expr → C.Expr}
    (wraps : Wraps view builtin arg wrap)
    (accepts : Check.Accepts table builtin.kind (arg :: others) ty) :
    others = [] ∧ Check.Typed table arg := by
  generalize isKind : builtin.kind = kind at accepts
  cases accepts with
  | malloc accepted => exact ⟨rfl, Check.typed_of_checkValue accepted⟩
  | single _ isTyped _ => exact ⟨rfl, isTyped⟩
  | _ => cases wraps <;> simp_all

theorem faithful_of_wraps {wrap : C.Expr → C.Expr} (known : Builtin.find? id = some builtin)
    (wraps : Wraps view builtin arg wrap) (faithful : Faithful view arg argType value) :
    Faithful view (.call (.name id) [arg]) ty (wrap value) := by
  have mirrors {tree : C.Tree} (form : BuiltinForm builtin [value.tree.bare] tree) :
      Mirrors view.table (.call (.name id) [arg]) tree :=
    .builtin known (.cons faithful.mirrors .nil) form
  have operand : value.Guarded ∧ value.isOperand := ⟨faithful.guarded, faithful.isOperand⟩
  cases wraps with
  | print kind => exact faithful_print known kind faithful
  | addr kind => exact ⟨mirrors (.addr kind), operand, rfl, .inl rfl⟩
  | deref kind => exact ⟨mirrors (.deref kind), operand, rfl, .inl rfl⟩
  | malloc kind => exact ⟨mirrors (.malloc kind), ⟨faithful.guarded, trivial⟩, rfl, .inl rfl⟩
  | free kind => exact ⟨mirrors (.free kind), ⟨faithful.guarded, trivial⟩, rfl, .inl rfl⟩
  | intCast kind => exact ⟨mirrors (.intCast kind), ⟨faithful.guarded, rfl⟩, rfl, .inl rfl⟩
  | floatCast kind => exact ⟨mirrors (.floatCast kind), ⟨faithful.guarded, rfl⟩, rfl, .inl rfl⟩
  | ok slot kind => exact ⟨mirrors (.ok slot kind), faithful.guarded, rfl, .inl rfl⟩
  | err slot kind => exact ⟨mirrors (.err slot kind), faithful.guarded, rfl, .inl rfl⟩

theorem faithful_store {pointer : Expr} {pointerType target valueType : Ty} {first second : C.Expr}
    (known : Builtin.find? id = some builtin) (kind : builtin.kind = .store)
    (isTarget : Check.target? pointerType = some target)
    (pointerFaithful : Faithful view pointer pointerType first)
    (valueFaithful : Faithful view arg valueType second) :
    Faithful view (.call (.name id) [pointer, arg]) .none
      (.assign (.unary .deref (.paren first)) second) := by
  have noStore := pointerFaithful.not_isStore (isSimple_of_target? isTarget)
  refine ⟨?_, ?_, rfl, .inr ⟨rfl, ?_⟩⟩
  · exact .builtin known (.cons pointerFaithful.mirrors (.cons valueFaithful.mirrors .nil))
      (.store kind)
  · exact ⟨⟨first, rfl⟩, ⟨pointerFaithful.guarded, by simp [C.Expr.isOperand, noStore]⟩,
      valueFaithful.guarded⟩
  · simp [staticType, known, builtinType?, kind]

end Builtins

/-- Whether a view finds the structs and modules of a table. -/
def View.Accords (view : View) (table : Table) : Prop :=
  ∀ ⦃name : String⦄ ⦃symbol : Symbol⦄, view.lookup name = some symbol →
    symbol.kind.isStruct ∨ symbol.kind.isModule → table.lookup name = some symbol

/-- A struct that is called takes no arguments. -/
theorem args_eq_nil_of_isStruct {table : Table} {callee : Expr} {args : List Expr} {symbol : Symbol}
    (sound : Check.Sound table ⟨callee, args⟩)
    (isCallee : Check.callee? table callee = Check.calledAs? symbol)
    (isStruct : symbol.kind.isStruct) : args = [] := by
  obtain ⟨found, isFound, takes⟩ := sound
  rw [isCallee, Check.calledAs?] at isFound
  cases kind : symbol.kind with
  | struct fields methods =>
      simp only [kind, Option.some.injEq] at isFound
      subst isFound
      exact List.length_eq_zero_iff.mp takes
  | _ => simp [kind, SymbolKind.isStruct] at isStruct

section Calls

variable {table : Table} {view : View} {args : List Expr} {ty : Ty} {asked : Option Ty}

theorem args_eq_nil_of_construct {id : String} {symbol : Symbol} (accords : view.Accords table)
    (known : Builtin.find? id = none) (looked : view.lookup id = some symbol)
    (isStruct : symbol.kind.isStruct)
    (typed : Check.typeIn table asked (.call (.name id) args) = .ok ty) : args = [] := by
  have found := accords looked (.inl isStruct)
  refine args_eq_nil_of_isStruct (Check.sound_calls _ typed ⟨.name id, args⟩ ?_) ?_ isStruct
  · simp [Expr.calls]
  · simp [Check.callee?, known, found]

theorem args_eq_nil_of_constructExported {base attr : String} {module found : Symbol}
    (accords : view.Accords table) (named : module? view (.name base) = some (base, module))
    (exported : module.exported? attr = some found) (isStruct : found.kind.isStruct)
    (typed : Check.typeIn table asked (.call (.member (.name base) attr) args) = .ok ty) :
    args = [] := by
  obtain ⟨_, looked, isModule⟩ := eq_name_of_module? named
  have isNamed : Check.namedModule? table (.name base) = some module := by
    simp [Check.namedModule?, accords looked (.inr isModule), isModule]
  refine args_eq_nil_of_isStruct
    (Check.sound_calls _ typed ⟨.member (.name base) attr, args⟩ ?_) ?_ isStruct
  · simp [Expr.calls]
  · simp [Check.callee?, isNamed, exported]

/-- The owner of a typed member names something, or has fields. -/
theorem typed_of_member {owner : Expr} {attr : String}
    (typed : Check.typeIn table asked (.member owner attr) = .ok ty) :
    (∃ base, owner = .name base) ∨ ∃ ownerType, Check.typeIn table none owner = .ok ownerType ∧
      ownerType.isSimple = false := by
  cases qualified : Check.qualifiedType? table owner attr with
  | some outcome =>
      left
      cases owner with
      | name base => exact ⟨base, rfl⟩
      | _ => simp [Check.qualifiedType?] at qualified
  | none =>
      right
      simp only [Check.typeIn, qualified, bind_eq_ok] at typed
      obtain ⟨ownerType, isTyped, isField⟩ := typed
      refine ⟨ownerType, isTyped, ?_⟩
      cases behind : Check.structOf? table ownerType with
      | none => simp [Check.fieldType, behind] at isField
      | some struct => exact isSimple_of_structOf? behind

theorem mirrors_of_qualifiedName? {base attr name : String}
    (qualified : qualifiedName? view (.name base) attr = some name) :
    Mirrors table (.member (.name base) attr) (.atom (.name name)) := by
  simp only [qualifiedName?] at qualified
  cases looked : view.lookup base with
  | none => simp [looked] at qualified
  | some symbol =>
      cases kind : symbol.kind with
      | enum members =>
          simp only [looked, kind, Option.some.injEq] at qualified
          exact qualified ▸ .enumerator base attr
      | module exports =>
          simp only [looked, kind, Option.some.injEq] at qualified
          exact qualified ▸ .exported base attr
      | _ => simp [looked, kind] at qualified

end Calls

theorem faithful_of_lowers {table : Table} {view : View} (accords : view.Accords table)
    {expr : Expr} {code : C.Expr} (lowers : Lowers view expr code) (asked : Option Ty) (ty : Ty)
    (typed : Check.typeIn table asked expr = .ok ty) : Faithful view expr ty code := by
  induction lowers generalizing asked ty with
  | name id => exact ⟨.name id, trivial, rfl, .inl rfl⟩
  | constant value =>
      obtain rfl : ty = Check.constantType value := by cases value <;> simp_all [Check.typeIn]
      exact faithful_constant view value
  | binary op isFloat _ _ left right =>
      simp only [Check.typeIn, bind_eq_ok] at typed
      obtain ⟨_, leftTyped, _, rightTyped, _⟩ := typed
      exact faithful_arithmetic op isFloat ty (left _ _ leftTyped) (right _ _ rightTyped)
  | @unary op operand _ lowersInner inner =>
      cases Check.typedUnder_of_unary typed with
      | literal number =>
          -- The check does not look at the number on its own.
          cases lowersInner
          exact faithful_unary .neg _ (faithful_constant view (.int number))
      | operand _ operandTyped => exact faithful_unary op _ (inner _ _ operandTyped)
  | compare op areTexts _ _ left right =>
      simp only [Check.typeIn, bind_eq_ok] at typed
      obtain ⟨_, leftTyped, _, rightTyped, _⟩ := typed
      exact faithful_compared op areTexts ty (left _ _ leftTyped) (right _ _ rightTyped)
  | logical op _ _ left right =>
      simp only [Check.typeIn, bind_eq_ok] at typed
      obtain ⟨_, leftTyped, _, _, _, rightTyped, _⟩ := typed
      exact faithful_logical op ty (left _ _ leftTyped) (right _ _ rightTyped)
  | construct args known looked isStruct =>
      obtain rfl := args_eq_nil_of_construct accords known looked isStruct typed
      exact ⟨.construct known, trivial, rfl, .inl rfl⟩
  | call known _ _ same _ each =>
      obtain ⟨mirrors, guarded⟩ := mirrors_of_forall₂ (List.forall₂_iff_zip.mpr ⟨same, each⟩)
        (Check.typed_of_call known typed)
      exact ⟨.call known mirrors, guarded, rfl, .inl rfl⟩
  | @constructExported base attr _ _ args named exported isStruct =>
      obtain rfl := args_eq_nil_of_constructExported accords named exported isStruct typed
      exact ⟨.constructExported base attr, trivial, rfl, .inl rfl⟩
  | @callExported base attr _ _ _ _ _ _ _ _ _ same _ each =>
      obtain ⟨mirrors, guarded⟩ := mirrors_of_forall₂ (List.forall₂_iff_zip.mpr ⟨same, each⟩)
        (Check.typed_of_memberCall typed).1
      exact ⟨.callExported base attr mirrors, guarded, rfl, .inl rfl⟩
  | @callMethod owner attr struct _ isPointer receiver _ _ _ _ lowersOwner same _ owned each =>
      obtain ⟨areTyped, receiverTyped⟩ := Check.typed_of_memberCall typed
      obtain ⟨mirrors, guarded⟩ :=
        mirrors_of_forall₂ (List.forall₂_iff_zip.mpr ⟨same, each⟩) areTyped
      -- A name that the check took for a module is a name for the lowering as well.
      obtain ⟨receiverType, faithful⟩ :
          ∃ receiverType, Faithful view owner receiverType receiver := by
        rcases receiverTyped with ⟨base, rfl⟩ | ⟨receiverType, _, isTyped, _⟩
        · cases lowersOwner
          exact ⟨.int, .name base, trivial, rfl, .inl rfl⟩
        · exact ⟨receiverType, owned _ _ isTyped⟩
      cases isPointer with
      | true => exact ⟨.callMethod struct attr faithful.mirrors mirrors,
          ⟨faithful.guarded, guarded⟩, rfl, .inl rfl⟩
      | false => exact ⟨.callMethodAt struct attr faithful.mirrors mirrors,
          ⟨⟨faithful.guarded, faithful.isOperand⟩, guarded⟩, rfl, .inl rfl⟩
  | qualified isQualified => exact ⟨mirrors_of_qualifiedName? isQualified, trivial, rfl, .inl rfl⟩
  | @member owner attr value isPointer _ lowersOwner owned =>
      obtain ⟨mirrors, guarded, isOwner⟩ : Mirrors view.table owner value.tree.bare ∧
          value.Guarded ∧ value.isOwner := by
        rcases typed_of_member typed with ⟨base, rfl⟩ | ⟨ownerType, isTyped, hasParts⟩
        · cases lowersOwner
          exact ⟨.name base, trivial, rfl⟩
        · have faithful := owned _ _ isTyped
          exact ⟨faithful.mirrors, faithful.guarded, faithful.isOwner hasParts⟩
      split
      · exact ⟨.member .throughPointer attr mirrors, ⟨guarded, isOwner⟩, rfl, .inl rfl⟩
      · exact ⟨.member .direct attr mirrors, ⟨guarded, isOwner⟩, rfl, .inl rfl⟩
  | subscript _ _ value index =>
      simp only [Check.typeIn, bind_eq_ok] at typed
      obtain ⟨base, valueTyped, position, indexTyped, isItem⟩ := typed
      have hasParts : base.isSimple = false := by
        cases item : base.element? with
        | none => simp [Check.subscriptType, item] at isItem
        | some item' => exact isSimple_of_element? item
      exact faithful_subscript ty (value _ _ valueTyped) hasParts (index _ _ indexTyped)
  | wrapped others known wraps _ inner =>
      simp only [Check.typeIn, known] at typed
      obtain ⟨rfl, _, _, isTyped⟩ := typed_of_wraps wraps (Check.accepts_of_builtinType typed)
      exact faithful_of_wraps known wraps (inner _ _ isTyped)
  | store others known kind _ _ pointer value =>
      simp only [Check.typeIn, known] at typed
      have accepts := kind ▸ Check.accepts_of_builtinType typed
      cases accepts with
      | store pointerTyped isTarget accepted =>
          obtain ⟨_, _, valueTyped⟩ := Check.typed_of_checkValue accepted
          exact faithful_store known kind isTarget (pointer _ _ pointerTyped) (value _ _ valueTyped)
  | size others known kind isWritten isType =>
      simp only [Check.typeIn, known] at typed
      have accepts := kind ▸ Check.accepts_of_builtinType typed
      cases accepts with
      | size _ =>
          refine ⟨.size known kind isWritten isType, trivial, rfl, .inr ⟨rfl, ?_⟩⟩
          simp [staticType, known, builtinType?, kind]
      | single others _ _ => exact absurd rfl others.1
  | support known isHelper same _ each =>
      simp only [Check.typeIn, known] at typed
      obtain ⟨mirrors, guarded⟩ := mirrors_of_forall₂ (List.forall₂_iff_zip.mpr ⟨same, each⟩)
        ((Check.accepts_of_builtinType typed).typed_of_isHelper isHelper)
      exact ⟨.builtin known mirrors (.support isHelper), guarded, rfl, .inl rfl⟩

theorem lowersFaithfully {table : Table} {view : View} (accords : view.Accords table)
    (expr : Expr) : LowersFaithfully table view expr :=
  fun _ _ _ _ typed lowered => faithful_of_lowers accords (lowers_of_lower expr lowered) _ _ typed

/-- A lowering in a finished table finds the structs and modules that the check found. -/
theorem accords_of_reached {kind : UnitKind} {modules : List Fragment} {body : List Statement}
    {table : Table} (accepted : Check.checkUnit kind modules body = .ok table)
    {position scope : Nat} {site : Site} {uses : List Use} {moment : Check.Moment}
    (checked : (Check.visits kind modules body)[position]? = some (.reaches site moment))
    (reached : (visits table body)[position]? = some (.reaches site scope uses)) :
    (⟨table, scope⟩ : View).Accords moment.table := by
  obtain ⟨_, _, follows⟩ := follows_unit accepted
  obtain ⟨first, isFirst, agrees⟩ := follows.exists_agrees reached
  obtain rfl : first = .reaches site moment := by simpa [checked] using isFirst.symm
  have gained := Check.gains_of_reached accepted (List.mem_of_getElem? checked)
  cases agrees with
  | reaches formed rest _ =>
      intro name symbol found isType
      refine Table.lookup_eq_of_gains formed rest gained ?_ found
      intro ty isValue
      simp [isValue, SymbolKind.isStruct, SymbolKind.isModule] at isType

end Lower

/-- The C form of an accepted expression stands for it node for node. Its text is read as just that
tree exactly if no operand of an operator is an assignment. -/
theorem reads_back_iff {kind : UnitKind} {modules : List Fragment} {body : List Statement}
    {table : Table} (analyzed : analyze kind modules body = .ok table)
    {position scope : Nat} {site : Site} {uses : List Lower.Use} {moment : Check.Moment}
    (checked : (Check.visits kind modules body)[position]? = some (.reaches site moment))
    (reached : (Lower.visits table body)[position]? = some (.reaches site scope uses))
    {expr : Expr} {asked : Option Ty} {ty : Ty} {place : Lower.Place} {code : C.Expr}
    (accepted : Check.typeIn moment.table asked expr = .ok ty)
    (lowered : Lower.lower ⟨table, scope⟩ place expr = .ok code) (legible : code.Legible) :
    Lower.Mirrors table expr code.tree.bare ∧
      (C.read code.text = some code.tree.bare ↔ code.tree.bare.Apart) := by
  have accords := Lower.accords_of_reached analyzed checked reached
  have faithful := Lower.lowersFaithfully accords expr accepted lowered
  exact ⟨faithful.mirrors, C.Expr.read_text_iff legible faithful.guarded⟩

/-- A store whose result is used as an operand. -/
def storePlusThree : Expr :=
  .binary .add (.call (.name "assign") [.name "p", .constant (.int 2)]) (.constant (.int 3))

/-- A function that prints it. -/
def printsStore : List Statement :=
  [⟨1, .function ⟨"main", [], none,
    [⟨2, .declare (.name "x") (.name "int") (some (.constant (.int 1)))⟩,
     ⟨3, .declare (.name "p") (.generic "ptr" [.name "int"])
       (some (.call (.name "addr") [.name "x"]))⟩,
     ⟨4, .expr (.call (.name "print") [storePlusThree])⟩]⟩⟩]

theorem reads_back_iff_printsStore :
    ∃ table moment scope code, analyze .program [] printsStore = .ok table ∧
      (Check.visits .program [] printsStore)[3]? = some (.reaches [2, 0, 0] moment) ∧
      Check.typeIn moment.table none storePlusThree = .ok .int ∧
      Lower.lower ⟨table, scope⟩ .operand storePlusThree = .ok code ∧
      code.text = "(*(p) = 2 + 3)" ∧ Lower.Mirrors table storePlusThree code.tree.bare ∧
      C.read code.text ≠ some code.tree.bare := by
  let inner : Scope := ⟨some 0, [.value "x" .int false, .value "p" (.ptr .int) false]⟩
  let table : Table := ⟨[⟨none, [.function "main" ⟨[], .none⟩]⟩, inner], 0⟩
  let moment : Check.Moment := ⟨{ table with current := 1 }, [[], []]⟩
  let pointer : C.Expr := .unary .deref (.paren (.name "p"))
  let code : C.Expr :=
    .paren (.binary .add (.assign pointer (.literal (.int 2))) (.literal (.int 3)))
  have analyzed : analyze .program [] printsStore = .ok table := by with_unfolding_all rfl
  have checked : (Check.visits .program [] printsStore)[3]? = some (.reaches [2, 0, 0] moment) := by
    with_unfolding_all rfl
  have reached : ∃ uses, (Lower.visits table printsStore)[3]? = some (.reaches [2, 0, 0] 1 uses) :=
    ⟨_, by with_unfolding_all rfl⟩
  have accepted : Check.typeIn moment.table none storePlusThree = .ok .int := by
    with_unfolding_all rfl
  have lowered : Lower.lower ⟨table, 1⟩ .operand storePlusThree = .ok code := by
    with_unfolding_all rfl
  have legible : code.Legible := by
    have isName : C.isName "p" := by decide
    simp [code, pointer, C.Expr.Legible, C.Literal.IsUnsigned, isName]
  obtain ⟨uses, reached⟩ := reached
  obtain ⟨mirrors, isRead⟩ := reads_back_iff analyzed checked reached accepted lowered legible
  refine ⟨table, moment, 1, code, analyzed, checked, accepted, lowered, by decide, mirrors, ?_⟩
  intro read
  obtain ⟨_, noStore, _⟩ := isRead.mp read
  contradiction

end Offside
