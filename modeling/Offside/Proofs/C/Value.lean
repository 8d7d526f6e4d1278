import Mathlib.Algebra.Order.Ring.Int
import Offside.Proofs.C.ReadBack

/-!
# Values of whole number expressions

What an expression over whole numbers is worth in the source and in generated C. The two agree when
the source divides toward zero, as C does. The source divides downward, and that is the same for a
quotient that is whole or not negative, and for no other.
-/

namespace Offside

namespace C

/-- Whether a number is an `int`, or of the type of long literals. -/
def fits (wide : Bool) (number : Int) : Bool :=
  if wide then -9223372036854775808 ≤ number && number ≤ 9223372036854775807
  else -2147483648 ≤ number && number ≤ 2147483647

/-- A whole number, with its type. -/
structure Whole where
  wide : Bool
  number : Int
deriving DecidableEq, Repr

namespace Whole

/-- A result of arithmetic, which means nothing when it overflows. -/
def checked (wide : Bool) (number : Int) : Option Whole :=
  if fits wide number then some ⟨wide, number⟩ else none

def truth (holds : Bool) : Whole := ⟨false, holds.toInt⟩

/-- The value of a literal, which is octal if it starts with a further zero. -/
def literal? (digits : List Char) : Option Whole :=
  if digits.all Char.isDigit && (digits = ['0'] || digits.head? ≠ some '0') then
    let number : Int := Nat.ofDigitChars 10 digits 0
    checked (!fits false number) number
  else none

def unary? (op : UnaryOp) (operand : Whole) : Option Whole :=
  match op with
  | .not => some (truth (operand.number = 0))
  | .neg => checked operand.wide (-operand.number)
  | .pos => some operand
  | .address | .deref => none

/-- The value of an operator on values. Division goes toward zero. -/
def binary? (op : BinaryOp) (left right : Whole) : Option Whole :=
  let wide := left.wide || right.wide
  match op with
  | .add => checked wide (left.number + right.number)
  | .sub => checked wide (left.number - right.number)
  | .mul => checked wide (left.number * right.number)
  | .div => if right.number = 0 then none else checked wide (left.number.tdiv right.number)
  | .mod => if right.number = 0 then none else checked wide (left.number.tmod right.number)
  | .eq => some (truth (left.number = right.number))
  | .ne => some (truth (left.number ≠ right.number))
  | .lt => some (truth (left.number < right.number))
  | .le => some (truth (left.number ≤ right.number))
  | .gt => some (truth (left.number > right.number))
  | .ge => some (truth (left.number ≥ right.number))
  | .and | .or => some (truth (right.number ≠ 0))

end Whole

/-- Whether the second operand is not evaluated. -/
def BinaryOp.isDecidedBy (op : BinaryOp) (left : Int) : Bool :=
  match op with
  | .and => left = 0
  | .or => left ≠ 0
  | _ => false

/-- The value of a tree over variables of type `int`. -/
def Tree.whole? (env : String → Int) : Tree → Option Whole
  | .atom (.name id) => Whole.checked false (env id)
  | .atom (.number text) => Whole.literal? text.toList
  | .paren inner => inner.whole? env
  | .unary op operand => do
      let operand ← operand.whole? env
      operand.unary? op
  | .binary op left right => do
      let left ← left.whole? env
      if op.isDecidedBy left.number then return Whole.truth (left.number ≠ 0)
      let right ← right.whole? env
      Whole.binary? op left right
  | _ => none

end C

/-- A number, if it is one of `int`. -/
def inInt (number : Int) : Option Int := if C.fits false number then some number else none

def CompareOp.holds (op : CompareOp) (left right : Int) : Bool :=
  match op with
  | .eq => left = right
  | .ne => left ≠ right
  | .lt => left < right
  | .le => left ≤ right
  | .gt => left > right
  | .ge => left ≥ right

/-- Whether the second operand is not evaluated. -/
def LogicalOp.isDecidedBy (op : LogicalOp) (left : Int) : Bool :=
  match op with
  | .and => left = 0
  | .or => left ≠ 0

/-- Arithmetic on whole numbers, with some way to divide. -/
def BinaryOp.whole? (divide : Int → Int → Option Int) (op : BinaryOp) (left right : Int) :
    Option Int :=
  match op with
  | .add => inInt (left + right)
  | .sub => inInt (left - right)
  | .mul => inInt (left * right)
  | .floorDiv => (divide left right).bind inInt
  | .div | .mod => none

/-- The value of an expression over variables of type `int`, with some way to divide. -/
def Expr.whole? (divide : Int → Int → Option Int) (env : String → Int) : Expr → Option Int
  | .name id => inInt (env id)
  | .constant (.int number) => some number
  | .binary op left right => do
      let left ← left.whole? divide env
      let right ← right.whole? divide env
      op.whole? divide left right
  | .unary op operand => do
      let operand ← operand.whole? divide env
      match op with
      | .not => return (decide (operand = 0)).toInt
      | .neg => inInt (-operand)
      | .pos => return operand
  | .compare op left right => do
      let left ← left.whole? divide env
      let right ← right.whole? divide env
      return (op.holds left right).toInt
  | .logical op left right => do
      let left ← left.whole? divide env
      if op.isDecidedBy left then return (decide (left ≠ 0)).toInt
      let right ← right.whole? divide env
      return (decide (right ≠ 0)).toInt
  | _ => none

/-- Division downward, which is what the source means. -/
def downward (left right : Int) : Option Int := if right = 0 then none else some (left.fdiv right)

def towardZero (left right : Int) : Option Int := if right = 0 then none else some (left.tdiv right)

/-- Division downward of numbers whose quotient is whole or not negative. -/
def downwardIfSame (left right : Int) : Option Int :=
  if right ∣ left ∨ 0 ≤ left * right then downward left right else none

/-- Both divisions agree exactly for quotients that are whole or not negative. -/
theorem fdiv_eq_tdiv_iff {left right : Int} (nonzero : right ≠ 0) :
    left.fdiv right = left.tdiv right ↔ right ∣ left ∨ 0 ≤ left * right := by
  have sign : 0 ≤ left * right ↔ (0 ≤ left ∧ 0 ≤ right) ∨ (left ≤ 0 ∧ right ≤ 0) :=
    mul_nonneg_iff
  rw [Int.fdiv_eq_tdiv, sign]
  by_cases whole : right ∣ left
  · simp [whole]
  · have : left ≠ 0 := by
      rintro rfl
      exact whole (Int.dvd_zero right)
    rcases Int.lt_or_gt_of_ne nonzero with negative | positive
    · rw [Int.sign_eq_neg_one_of_neg negative]
      simp only [whole, if_false, false_or]
      split <;> split <;> omega
    · rw [Int.sign_eq_one_of_pos positive]
      simp only [whole, if_false, false_or]
      split <;> split <;> omega

theorem tdiv_eq_or (left : Int) {right : Int} (nonzero : right ≠ 0) :
    left.tdiv right = left.fdiv right ∨
      (left.tdiv right = left.fdiv right + 1 ∧ left.tdiv right ≤ 0) := by
  have rounded := Int.tdiv_eq_fdiv (a := left) (b := right)
  by_cases whole : right ∣ left
  · left
    simpa [whole] using rounded
  · have : left ≠ 0 := by
      rintro rfl
      exact whole (Int.dvd_zero right)
    rcases Int.lt_or_gt_of_ne nonzero with negative | positive
    · rw [Int.sign_eq_neg_one_of_neg negative] at rounded
      simp only [whole, if_false] at rounded
      rcases Int.le_total 0 left with isPositive | isNegative
      · have := Int.tdiv_nonpos_of_nonneg_of_nonpos isPositive (Int.le_of_lt negative)
        split at rounded <;> split at rounded <;> omega
      · split at rounded <;> split at rounded <;> omega
    · rw [Int.sign_eq_one_of_pos positive] at rounded
      simp only [whole, if_false] at rounded
      rcases Int.le_total 0 left with isPositive | isNegative
      · split at rounded <;> split at rounded <;> omega
      · have flipped : left.tdiv right = -((-left).tdiv right) := by rw [Int.neg_tdiv, Int.neg_neg]
        have := Int.tdiv_nonneg (Int.neg_nonneg_of_nonpos isNegative) (Int.le_of_lt positive)
        split at rounded <;> split at rounded <;> omega

/-- Ways to divide that give the same quotients give the same values. -/
theorem Expr.whole?_mono {divide divide' : Int → Int → Option Int} {env : String → Int}
    (same : ∀ {left right quotient : Int}, divide left right = some quotient →
      divide' left right = some quotient) :
    (expr : Expr) → {value : Int} → expr.whole? divide env = some value →
      expr.whole? divide' env = some value
  | .name _, _, isValue => isValue
  | .constant (.int _), _, isValue => isValue
  | .binary op left right, value, isValue => by
      simp only [Expr.whole?, Option.bind_eq_bind, Option.bind_eq_some_iff] at isValue ⊢
      obtain ⟨first, isFirst, second, isSecond, isValue⟩ := isValue
      refine ⟨first, left.whole?_mono same isFirst, second, right.whole?_mono same isSecond, ?_⟩
      cases op with
      | floorDiv =>
          obtain ⟨quotient, isQuotient, inRange⟩ := Option.bind_eq_some_iff.mp isValue
          exact Option.bind_eq_some_iff.mpr ⟨quotient, same isQuotient, inRange⟩
      | _ => exact isValue
  | .unary op operand, value, isValue => by
      simp only [Expr.whole?, Option.bind_eq_bind, Option.bind_eq_some_iff] at isValue ⊢
      obtain ⟨inner, isInner, isValue⟩ := isValue
      exact ⟨inner, operand.whole?_mono same isInner, isValue⟩
  | .compare op left right, value, isValue => by
      simp only [Expr.whole?, Option.bind_eq_bind, Option.bind_eq_some_iff] at isValue ⊢
      obtain ⟨first, isFirst, second, isSecond, isValue⟩ := isValue
      exact ⟨first, left.whole?_mono same isFirst, second, right.whole?_mono same isSecond, isValue⟩
  | .logical op left right, value, isValue => by
      simp only [Expr.whole?, Option.bind_eq_bind, Option.bind_eq_some_iff] at isValue ⊢
      obtain ⟨first, isFirst, isValue⟩ := isValue
      refine ⟨first, left.whole?_mono same isFirst, ?_⟩
      cases decided : op.isDecidedBy first with
      | true => simpa only [decided, if_true] using isValue
      | false =>
          simp only [decided, Bool.false_eq_true, if_false, Option.bind_eq_some_iff] at isValue ⊢
          obtain ⟨second, isSecond, isValue⟩ := isValue
          exact ⟨second, right.whole?_mono same isSecond, isValue⟩

theorem towardZero_of_downwardIfSame {left right quotient : Int}
    (divided : downwardIfSame left right = some quotient) :
    towardZero left right = some quotient := by
  rw [downwardIfSame, Option.ite_none_right_eq_some, downward] at divided
  obtain ⟨same, divided⟩ := divided
  by_cases nonzero : right = 0
  · simp [nonzero] at divided
  · rw [if_neg nonzero] at divided
    rw [towardZero, if_neg nonzero, ← (fdiv_eq_tdiv_iff nonzero).mpr same]
    exact divided

theorem head?_toDigits {number : Nat} (positive : 0 < number) :
    (Nat.toDigits 10 number).head? ≠ some '0' := by
  induction number using Nat.strongRecOn with
  | ind number induction =>
      rw [Nat.toDigits_eq_if (by decide)]
      split
      · rename_i small
        have each : ∀ digit < 10, 0 < digit → [Nat.digitChar digit].head? ≠ some '0' := by decide
        exact each number small positive
      · have smaller : number / 10 < number := by omega
        have first := induction (number / 10) smaller (by omega)
        rw [List.head?_append_of_ne_nil _ Nat.toDigits_ne_nil]
        exact first

/-- A whole number is worth what it says, in the first type that holds it. -/
theorem literal?_toString {number : Int} (unsigned : 0 ≤ number)
    (inRange : Check.inIntRange (-number) = .ok ()) :
    C.Whole.literal? (toString number).toList = some ⟨!C.fits false number, number⟩ := by
  obtain ⟨natural, rfl⟩ := Int.eq_ofNat_of_zero_le unsigned
  have written : (toString (natural : Int)).toList = Nat.toDigits 10 natural :=
    C.toList_toString_nat natural
  have digits : (Nat.toDigits 10 natural).all Char.isDigit := by
    rw [List.all_eq_true]
    intro digit member
    exact Nat.isDigit_of_mem_toDigits (by decide) (by decide) member
  have decimal : Nat.toDigits 10 natural = ['0'] ∨
      (Nat.toDigits 10 natural).head? ≠ some '0' := by
    rcases Nat.eq_zero_or_pos natural with rfl | positive
    · exact .inl (Nat.toDigits_zero 10)
    · exact .inr (head?_toDigits positive)
  have bounded : (natural : Int) ≤ 2147483648 := by
    simp only [Check.inIntRange, Outcome.ite_error_eq_ok, Bool.and_eq_true, decide_eq_true_eq]
      at inRange
    omega
  have holds : C.fits (!C.fits false natural) natural := by
    cases narrow : C.fits false natural with
    | true => exact narrow
    | false =>
        simp only [C.fits, Bool.not_false, if_true, Bool.and_eq_true, decide_eq_true_eq]
        omega
  rw [C.Whole.literal?, written, Nat.ofDigitChars_ten_toDigits]
  simp [digits, decimal, C.Whole.checked, holds]

/-! ## Values of C forms -/

namespace Lower

/-- The expressions over variables of type `int` and literals in range. -/
inductive Integral (view : View) : Expr → Prop
  | name {id : String} : C.isName id → (view.lookup id).bind variableType? = some .int →
      Integral view (.name id)
  | literal {number : Int} : 0 ≤ number → Check.inIntRange (-number) = .ok () →
      Integral view (.constant (.int number))
  | arithmetic {op : BinaryOp} {left right : Expr} : op ≠ .div → op ≠ .mod → Integral view left →
      Integral view right → Integral view (.binary op left right)
  | unary {op : UnaryOp} {operand : Expr} : Integral view operand →
      Integral view (.unary op operand)
  | compare {op : CompareOp} {left right : Expr} : Integral view left → Integral view right →
      Integral view (.compare op left right)
  | logical {op : LogicalOp} {left right : Expr} : Integral view left → Integral view right →
      Integral view (.logical op left right)

theorem Integral.staticType {view : View} {expr : Expr} (integral : Integral view expr) :
    staticType view expr = some .int ∨ staticType view expr = some .bool := by
  induction integral with
  | name _ isInt => exact .inl isInt
  | literal => exact .inl rfl
  | arithmetic _ _ _ _ leftType rightType =>
      left
      rcases leftType with leftType | leftType <;> rcases rightType with rightType | rightType <;>
        simp [Lower.staticType, leftType, rightType, Ty.arithmetic]
  | @unary op _ _ operandType =>
      cases op with
      | not => exact .inr rfl
      | _ => simpa [Lower.staticType] using operandType
  | compare => exact .inr rfl
  | logical => exact .inr rfl

/-- A C form that is worth the expression with division toward zero. -/
structure Computes (view : View) (expr : Expr) (code : C.Expr) : Prop where
  lowered : ∀ place, lower view place expr = .ok code
  faithful : Faithful view expr .int code
  legible : code.Legible
  apart : code.tree.bare.Apart
  isStore : code.isStore = false
  value : ∀ {env : String → Int} {value : Int}, expr.whole? towardZero env = some value →
    ∃ wide, code.tree.bare.whole? env = some ⟨wide, value⟩

theorem checked_of_inInt {number value : Int} (wide : Bool) (inRange : inInt number = some value) :
    C.Whole.checked wide number = some ⟨wide, value⟩ := by
  rw [inInt, Option.ite_none_right_eq_some] at inRange
  obtain ⟨fits, same⟩ := inRange
  obtain rfl := Option.some.inj same
  have holds : C.fits wide number := by
    cases wide with
    | false => exact fits
    | true =>
        simp only [C.fits, Bool.false_eq_true, if_false, if_true, Bool.and_eq_true,
          decide_eq_true_eq] at fits ⊢
        omega
  rw [C.Whole.checked, if_pos holds]

/-- Arithmetic in C is arithmetic with division toward zero. -/
theorem binary?_of_whole? {op : BinaryOp} {left right value : Int} (first second : Bool)
    (isValue : op.whole? towardZero left right = some value) :
    C.Whole.binary? (operator op) ⟨first, left⟩ ⟨second, right⟩ =
      some ⟨first || second, value⟩ := by
  cases op with
  | add | sub | mul => exact checked_of_inInt _ isValue
  | floorDiv =>
      obtain ⟨quotient, isQuotient, inRange⟩ := Option.bind_eq_some_iff.mp isValue
      by_cases nonzero : right = 0
      · simp [towardZero, nonzero] at isQuotient
      · rw [towardZero, if_neg nonzero] at isQuotient
        obtain rfl := Option.some.inj isQuotient
        simp only [operator, C.Whole.binary?, nonzero, if_false]
        exact checked_of_inInt _ inRange
  | div | mod => simp [BinaryOp.whole?] at isValue

section Computing

variable {view : View} {left right : Expr} {first second : C.Expr}

theorem computes_name {id : String} (isName : C.isName id) :
    Computes view (.name id) (.name id) where
  lowered _ := rfl
  faithful := ⟨.name id, trivial, rfl, .inl rfl⟩
  legible := isName
  apart := trivial
  isStore := rfl
  value isValue := ⟨false, checked_of_inInt false isValue⟩

theorem computes_literal {number : Int} (unsigned : 0 ≤ number)
    (inRange : Check.inIntRange (-number) = .ok ()) :
    Computes view (.constant (.int number)) (.literal (.int number)) where
  lowered _ := rfl
  faithful := faithful_constant view (.int number)
  legible := unsigned
  apart := trivial
  isStore := rfl
  value isValue := by
    obtain rfl := Option.some.inj isValue
    exact ⟨_, literal?_toString unsigned inRange⟩

theorem legible_between (op : C.BinaryOp) (leftComputes : Computes view left first)
    (rightComputes : Computes view right second) :
    (between op first second).Legible ∧ (between op first second).tree.bare.Apart := by
  refine ⟨⟨leftComputes.legible, rightComputes.legible⟩, leftComputes.apart, ?_,
    rightComputes.apart, ?_⟩
  · rw [C.Expr.isAssign_bare_tree, leftComputes.isStore]
  · rw [C.Expr.isAssign_bare_tree, rightComputes.isStore]

theorem whole?_between {op : C.BinaryOp} {env : String → Int} {leftValue rightValue : C.Whole}
    (isLeft : first.tree.bare.whole? env = some leftValue)
    (undecided : op.isDecidedBy leftValue.number = false)
    (isRight : second.tree.bare.whole? env = some rightValue) :
    (between op first second).tree.bare.whole? env =
      C.Whole.binary? op leftValue rightValue := by
  have whole : (between op first second).tree.bare.whole? env =
      (C.Tree.binary op first.tree.bare second.tree.bare).whole? env := rfl
  simp [whole, C.Tree.whole?, isLeft, isRight, undecided]

theorem isDecidedBy_operator (op : BinaryOp) (left : Int) :
    (operator op).isDecidedBy left = false := by
  cases op <;> rfl

theorem isDecidedBy_comparison (op : CompareOp) (left : Int) :
    (comparison op).isDecidedBy left = false := by
  cases op <;> rfl

theorem isDecidedBy_connective (op : LogicalOp) (left : Int) :
    (connective op).isDecidedBy left = op.isDecidedBy left := by
  cases op <;> rfl

theorem computes_arithmetic {op : BinaryOp}
    (noFloat : staticType view (.binary op left right) ≠ some .float)
    (leftComputes : Computes view left first) (rightComputes : Computes view right second) :
    Computes view (.binary op left right) (between (operator op) first second) := by
  have form : arithmetic op false first second = between (operator op) first second := by
    cases op <;> rfl
  have faithful := faithful_arithmetic op false .int leftComputes.faithful rightComputes.faithful
  rw [form] at faithful
  obtain ⟨legible, apart⟩ := legible_between (operator op) leftComputes rightComputes
  refine ⟨fun place => ?_, faithful, legible, apart, rfl, fun {env value} isValue => ?_⟩
  · simp [lower, leftComputes.lowered, rightComputes.lowered, noFloat, form]
  · simp only [Expr.whole?, Option.bind_eq_bind, Option.bind_eq_some_iff] at isValue
    obtain ⟨leftValue, isLeft, rightValue, isRight, isValue⟩ := isValue
    obtain ⟨leftWide, isFirst⟩ := leftComputes.value isLeft
    obtain ⟨rightWide, isSecond⟩ := rightComputes.value isRight
    refine ⟨leftWide || rightWide, ?_⟩
    rw [whole?_between isFirst (isDecidedBy_operator op _) isSecond]
    exact binary?_of_whole? leftWide rightWide isValue

theorem computes_unary (op : UnaryOp) (computes : Computes view left first) :
    Computes view (.unary op left) (.paren (.unary (sign op) first)) := by
  have noStore : first.tree.bare.isAssign = false := by
    rw [C.Expr.isAssign_bare_tree, computes.isStore]
  refine ⟨fun place => ?_, faithful_unary op .int computes.faithful, computes.legible,
    ⟨computes.apart, noStore⟩, rfl, fun {env value} isValue => ?_⟩
  · simp [lower, computes.lowered]
  · simp only [Expr.whole?, Option.bind_eq_bind, Option.bind_eq_some_iff] at isValue
    obtain ⟨inner, isInner, isValue⟩ := isValue
    obtain ⟨wide, isFirst⟩ := computes.value isInner
    have whole : (C.Expr.paren (.unary (sign op) first)).tree.bare.whole? env =
        C.Whole.unary? (sign op) ⟨wide, inner⟩ := by
      have form : (C.Expr.paren (.unary (sign op) first)).tree.bare.whole? env =
          (C.Tree.unary (sign op) first.tree.bare).whole? env := rfl
      simp [form, C.Tree.whole?, isFirst]
    rw [whole]
    cases op with
    | not =>
        obtain rfl := Option.some.inj isValue
        exact ⟨false, rfl⟩
    | neg => exact ⟨wide, checked_of_inInt wide isValue⟩
    | pos =>
        obtain rfl := Option.some.inj isValue
        exact ⟨wide, rfl⟩

theorem computes_compare (op : CompareOp) (leftIntegral : Integral view left)
    (rightIntegral : Integral view right) (leftComputes : Computes view left first)
    (rightComputes : Computes view right second) :
    Computes view (.compare op left right) (between (comparison op) first second) := by
  have faithful := faithful_compared op false .int leftComputes.faithful rightComputes.faithful
  obtain ⟨legible, apart⟩ := legible_between (comparison op) leftComputes rightComputes
  refine ⟨fun place => ?_, faithful, legible, apart, rfl, fun {env value} isValue => ?_⟩
  · rcases leftIntegral.staticType with leftType | leftType <;>
      rcases rightIntegral.staticType with rightType | rightType <;>
      simp [lower, leftComputes.lowered, rightComputes.lowered, leftType, rightType,
        requireEquatable, isEquatable, compared, between]
  · simp only [Expr.whole?, Option.bind_eq_bind, Option.bind_eq_some_iff] at isValue
    obtain ⟨leftValue, isLeft, rightValue, isRight, isValue⟩ := isValue
    obtain rfl := Option.some.inj isValue
    obtain ⟨leftWide, isFirst⟩ := leftComputes.value isLeft
    obtain ⟨rightWide, isSecond⟩ := rightComputes.value isRight
    refine ⟨false, ?_⟩
    rw [whole?_between isFirst (isDecidedBy_comparison op _) isSecond]
    cases op <;> rfl

theorem computes_logical (op : LogicalOp) (leftComputes : Computes view left first)
    (rightComputes : Computes view right second) :
    Computes view (.logical op left right) (between (connective op) first second) := by
  have faithful := faithful_logical op .int leftComputes.faithful rightComputes.faithful
  obtain ⟨legible, apart⟩ := legible_between (connective op) leftComputes rightComputes
  refine ⟨fun place => ?_, faithful, legible, apart, rfl, fun {env value} isValue => ?_⟩
  · simp [lower, leftComputes.lowered, rightComputes.lowered]
  · simp only [Expr.whole?, Option.bind_eq_bind, Option.bind_eq_some_iff] at isValue
    obtain ⟨leftValue, isLeft, isValue⟩ := isValue
    obtain ⟨leftWide, isFirst⟩ := leftComputes.value isLeft
    have decides := isDecidedBy_connective op leftValue
    refine ⟨false, ?_⟩
    cases decided : op.isDecidedBy leftValue with
    | true =>
        simp only [decided, if_true] at isValue
        obtain rfl := Option.some.inj isValue
        have form : (between (connective op) first second).tree.bare.whole? env =
            (C.Tree.binary (connective op) first.tree.bare second.tree.bare).whole? env := rfl
        simp [form, C.Tree.whole?, isFirst, decides, decided, C.Whole.truth]
    | false =>
        simp only [decided, Bool.false_eq_true, if_false, Option.bind_eq_some_iff] at isValue
        obtain ⟨rightValue, isRight, isValue⟩ := isValue
        obtain rfl := Option.some.inj isValue
        obtain ⟨rightWide, isSecond⟩ := rightComputes.value isRight
        rw [whole?_between isFirst (decides.trans decided) isSecond]
        cases op <;> rfl

end Computing

theorem Integral.exists_computes {view : View} {expr : Expr} (integral : Integral view expr) :
    ∃ code, Computes view expr code := by
  induction integral with
  | name isName _ => exact ⟨_, computes_name isName⟩
  | literal unsigned inRange => exact ⟨_, computes_literal unsigned inRange⟩
  | @arithmetic op left right noDiv noMod leftIntegral rightIntegral leftHas rightHas =>
      obtain ⟨first, leftComputes⟩ := leftHas
      obtain ⟨second, rightComputes⟩ := rightHas
      have integral := Integral.arithmetic noDiv noMod leftIntegral rightIntegral
      refine ⟨_, computes_arithmetic ?_ leftComputes rightComputes⟩
      rcases integral.staticType with isType | isType <;> simp [isType]
  | @unary op _ _ operandHas =>
      obtain ⟨first, computes⟩ := operandHas
      exact ⟨_, computes_unary op computes⟩
  | @compare op _ _ leftIntegral rightIntegral leftHas rightHas =>
      obtain ⟨first, leftComputes⟩ := leftHas
      obtain ⟨second, rightComputes⟩ := rightHas
      exact ⟨_, computes_compare op leftIntegral rightIntegral leftComputes rightComputes⟩
  | @logical op _ _ _ _ leftHas rightHas =>
      obtain ⟨first, leftComputes⟩ := leftHas
      obtain ⟨second, rightComputes⟩ := rightHas
      exact ⟨_, computes_logical op leftComputes rightComputes⟩

/-- A quotient downward is what C computes exactly if it is whole or not negative. -/
theorem Computes.quotient_iff {view : View} {left right : Expr} {code : C.Expr}
    (computes : Computes view (.binary .floorDiv left right) code) {env : String → Int}
    {first second : Int} (isLeft : left.whole? towardZero env = some first)
    (isRight : right.whole? towardZero env = some second) (nonzero : second ≠ 0)
    (inRange : C.fits false (first.fdiv second)) :
    (code.tree.bare.whole? env).map (·.number) = some (first.fdiv second) ↔
      second ∣ first ∨ 0 ≤ first * second := by
  have fits : C.fits false (first.tdiv second) := by
    simp only [C.fits, Bool.false_eq_true, if_false, Bool.and_eq_true, decide_eq_true_eq]
      at inRange ⊢
    rcases tdiv_eq_or first nonzero with same | ⟨next, nonpositive⟩
    · rwa [same]
    · omega
  have isValue : (Expr.binary .floorDiv left right).whole? towardZero env =
      some (first.tdiv second) := by
    simp [Expr.whole?, isLeft, isRight, BinaryOp.whole?, towardZero, nonzero, inInt, fits]
  obtain ⟨wide, isCode⟩ := computes.value isValue
  rw [isCode, Option.map_some, Option.some.injEq, eq_comm]
  exact fdiv_eq_tdiv_iff nonzero

end Lower

/-- An expression over whole numbers has a C form that is read as a tree with its value, where
division goes toward zero. So the value is the meant one if each quotient is whole or not negative;
any other quotient comes out wrong. -/
theorem whole_value_of_lowered {view : Lower.View} {expr : Expr}
    (integral : Lower.Integral view expr) :
    ∃ code tree, (∀ place, Lower.lower view place expr = .ok code) ∧
      C.read code.text = some tree ∧
      (∀ env value, expr.whole? towardZero env = some value →
        (tree.whole? env).map (·.number) = some value) ∧
      (∀ env value, expr.whole? downwardIfSame env = some value →
        expr.whole? downward env = some value ∧ (tree.whole? env).map (·.number) = some value) ∧
      ∀ left right, expr = .binary .floorDiv left right → ∀ env first second,
        left.whole? towardZero env = some first → right.whole? towardZero env = some second →
        second ≠ 0 → C.fits false (first.fdiv second) →
        ((tree.whole? env).map (·.number) = some (first.fdiv second) ↔
          second ∣ first ∨ 0 ≤ first * second) := by
  obtain ⟨code, computes⟩ := integral.exists_computes
  have agrees {env : String → Int} {value : Int}
      (isValue : expr.whole? towardZero env = some value) :
      (code.tree.bare.whole? env).map (·.number) = some value := by
    obtain ⟨wide, isCode⟩ := computes.value isValue
    rw [isCode, Option.map_some]
  refine ⟨code, code.tree.bare, computes.lowered, ?_, ?_, ?_, ?_⟩
  · exact (C.Expr.read_text_iff computes.legible computes.faithful.guarded).mpr computes.apart
  · intro env value isValue
    exact agrees isValue
  · intro env value isValue
    refine ⟨expr.whole?_mono ?_ isValue, agrees (expr.whole?_mono ?_ isValue)⟩
    · intro left right quotient divided
      exact (Option.ite_none_right_eq_some.mp divided).2
    · intro left right quotient divided
      exact towardZero_of_downwardIfSame divided
  · rintro left right rfl env first second isLeft isRight nonzero inRange
    exact computes.quotient_iff isLeft isRight nonzero inRange

/-- Half of a variable, rounded downward. -/
def half : Expr := .binary .floorDiv (.name "a") (.constant (.int 2))

/-- A function that prints half of an odd number below zero. -/
def printsHalf : List Statement :=
  [⟨1, .function ⟨"main", [], none,
    [⟨2, .declare (.name "a") (.name "int") (some (.unary .neg (.constant (.int 7))))⟩,
     ⟨3, .expr (.call (.name "print") [half])⟩]⟩⟩]

theorem whole_value_of_lowered_half :
    ∃ table code tree, analyze .program [] printsHalf = .ok table ∧
      Check.typeOf { table with current := 1 } half = .ok .int ∧
      Lower.lower ⟨table, 1⟩ .operand half = .ok code ∧ code.text = "(a / 2)" ∧
      C.read code.text = some tree ∧ half.whole? downward (fun _ => -7) = some (-4) ∧
      (tree.whole? fun _ => -7).map (·.number) = some (-3) := by
  let table : Table :=
    ⟨[⟨none, [.function "main" ⟨[], .none⟩]⟩, ⟨some 0, [.value "a" .int false]⟩], 0⟩
  have analyzed : analyze .program [] printsHalf = .ok table := by with_unfolding_all rfl
  have accepted : Check.typeOf { table with current := 1 } half = .ok .int := by
    with_unfolding_all rfl
  have isInt : ((⟨table, 1⟩ : Lower.View).lookup "a").bind Lower.variableType? = some .int := by
    with_unfolding_all rfl
  have integral : Lower.Integral ⟨table, 1⟩ half :=
    .arithmetic (by decide) (by decide) (.name (by decide) isInt) (.literal (by decide) rfl)
  obtain ⟨code, tree, lowered, read, agrees, _⟩ := whole_value_of_lowered integral
  have form : Lower.lower ⟨table, 1⟩ .operand half =
      .ok (.paren (.binary .div (.name "a") (.literal (.int 2)))) := by
    with_unfolding_all rfl
  obtain rfl := Except.ok.inj ((lowered .operand).symm.trans form)
  exact ⟨table, _, tree, analyzed, accepted, form, by decide, read, by decide,
    agrees _ _ (by decide)⟩

end Offside
