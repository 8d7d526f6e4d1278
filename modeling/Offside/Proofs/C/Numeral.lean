import Mathlib.Data.List.TakeWhile
import Offside.Proofs.C.Token

/-!
# Numbers are single tokens

A whole number without a sign is written in digits, and a floating point number with digits, a point
and possibly an exponent: each is a single token of C. That the digits before an exponent are never
missing is a fact about the search for the shortest decimal, which never settles for zero.
-/

namespace Offside

namespace Number

namespace Shortest

variable {factor : Nat}

/-- What is found on a grid is not zero. -/
theorem onGrid?_ne_zero {interval : Interval} (positive : 0 < interval.low) {exponent : Int}
    (found : interval.onGrid? exponent = some factor) : factor ≠ 0 := by
  have outside (parts : Nat) (isPositive : 0 < parts) : interval.contains 0 parts = false := by
    have := Nat.mul_pos positive isPositive
    unfold Interval.contains
    split
    · simp
      omega
    · simp
  have parted : 0 < if 0 ≤ exponent then 1 else Nat.pow 10 (-exponent).toNat := by
    split
    · decide
    · exact Nat.pow_pos (by decide)
  rintro rfl
  unfold Interval.onGrid? at found
  dsimp only at found
  generalize (if 0 ≤ exponent then 1 else Nat.pow 10 (-exponent).toNat) = parts at found parted
  generalize (if 0 ≤ exponent then Nat.pow 10 exponent.toNat else 1) = step at found
  split at found
  · rename_i hits
    rw [Option.some.inj found, Nat.zero_mul, outside _ parted] at hits
    simp at hits
  · split at found <;> simp at found

theorem search_cases {interval : Interval} (positive : 0 < interval.low) (leading : Int)
    (counts : List Nat) :
    interval.search leading counts = (0, 0) ∨ (interval.search leading counts).1 ≠ 0 := by
  induction counts with
  | nil => exact .inl rfl
  | cons count counts induction =>
      unfold Interval.search
      dsimp only
      split
      · rename_i found
        exact .inr (onGrid?_ne_zero positive found)
      · exact induction

theorem low_around_pos {significand : Nat} (positive : significand ≠ 0) (exponent : Int) :
    0 < (Interval.around significand exponent).low := by
  unfold Interval.around
  dsimp only
  apply Nat.mul_pos
  · split <;> omega
  · split
    · exact Nat.pow_pos (by decide)
    · decide

theorem ofDigitChars_zeros (digits : List Char) (zeros : ∀ digit ∈ digits, digit = '0') :
    Nat.ofDigitChars 10 digits 0 = 0 := by
  induction digits with
  | nil => rfl
  | cons digit digits induction =>
      obtain ⟨rfl, others⟩ := List.forall_mem_cons.mp zeros
      exact induction others

theorem trim_ne_nil (positive : factor ≠ 0) : trim (Nat.toDigits 10 factor) ≠ [] := by
  intro isNil
  apply positive
  have zeros : ∀ digit ∈ Nat.toDigits 10 factor, digit = '0' := by
    simpa [trim, List.dropWhile_eq_nil_iff] using isNil
  rw [← Nat.ofDigitChars_ten_toDigits (n := factor), ofDigitChars_zeros _ zeros]

theorem isDigit_of_mem_trim {digit : Char} (member : digit ∈ trim (Nat.toDigits 10 factor)) :
    digit.isDigit := by
  rw [trim, List.mem_reverse] at member
  have isWritten : digit ∈ Nat.toDigits 10 factor :=
    List.mem_reverse.mp ((List.dropWhile_suffix _).subset member)
  exact Nat.isDigit_of_mem_toDigits (by decide) (by decide) isWritten

/-- The digits of a number are digits, and none are missing before an exponent. -/
theorem digits_spec {significand : Nat} (positive : significand ≠ 0) (exponent : Int) :
    (∀ digit ∈ (digits significand exponent).1, digit.isDigit) ∧
      ((digits significand exponent).1 ≠ [] ∨ (digits significand exponent).2 = 0) := by
  refine ⟨fun digit member => isDigit_of_mem_trim member, ?_⟩
  rcases search_cases (low_around_pos positive exponent) _ ((List.range 17).map (· + 1)) with
    nothing | found
  · right
    unfold digits
    dsimp only
    rw [nothing]
    rfl
  · left
    exact trim_ne_nil found

end Shortest

end Number

namespace C

variable {digits : List Char}

/-- A number as C writes it, without a sign. -/
def IsNumeral (chars : List Char) : Prop :=
  ∃ first rest, chars = first :: rest ∧ first.isDigit ∧ Token.GoesOn first rest

/-- Whether a character belongs to a number wherever it stands. -/
def isNumberChar (char : Char) : Bool := isIdentifierChar char || char = '.'

theorem isNumberChar_of_isDigit {char : Char} (digit : char.isDigit) : isNumberChar char := by
  simp [isNumberChar, isIdentifierChar, Char.isAlphanum, digit]

namespace Token.GoesOn

variable {chars : List Char}

theorem cons {previous char : Char} (plain : isNumberChar char) (goesOn : GoesOn char chars) :
    GoesOn previous (char :: chars) := by
  have continues : (isIdentifierChar char || char = '.' ||
      ((char = '+' || char = '-') && ['e', 'E', 'p', 'P'].contains previous)) = true := by
    rw [show (isIdentifierChar char || decide (char = '.')) = true from plain, Bool.true_or]
  rw [GoesOn, numberTail, if_pos continues, goesOn]

/-- Only the sign of an exponent depends on the character before it. -/
theorem of_plain (plain : ∀ char ∈ chars, isNumberChar char) (previous : Char) :
    GoesOn previous chars := by
  induction chars generalizing previous with
  | nil => rfl
  | cons char chars induction =>
      obtain ⟨first, others⟩ := List.forall_mem_cons.mp plain
      exact cons first (induction others char)

theorem append {more : List Char} (plain : ∀ char ∈ chars, isNumberChar char) {last : Char}
    (isLast : isNumberChar last) (goesOn : GoesOn last more) (previous : Char) :
    GoesOn previous (chars ++ last :: more) := by
  induction chars generalizing previous with
  | nil => exact cons isLast goesOn
  | cons char chars induction =>
      obtain ⟨first, others⟩ := List.forall_mem_cons.mp plain
      exact cons first (induction others char)

end Token.GoesOn

theorem toList_toString_nat (number : Nat) :
    (toString number).toList = Nat.toDigits 10 number := by
  rw [Nat.toString_eq_repr, Nat.toList_repr]

theorem isNumberChar_of_mem_toDigits {number : Nat} :
    ∀ char ∈ Nat.toDigits 10 number, isNumberChar char :=
  fun _ member =>
    isNumberChar_of_isDigit (Nat.isDigit_of_mem_toDigits (by decide) (by decide) member)

theorem goesOn_exponent (power : Int) : Token.GoesOn 'e' (toString power).toList := by
  rw [Int.toString_eq_repr, Int.repr_eq_if]
  split
  · rw [Nat.toList_repr]
    exact .of_plain isNumberChar_of_mem_toDigits 'e'
  · rw [String.toList_append, Nat.toList_repr]
    have digits := Token.GoesOn.of_plain (@isNumberChar_of_mem_toDigits (-power).toNat) '-'
    show Token.numberTail 'e' ('-' :: Nat.toDigits 10 (-power).toNat) = _
    rw [Token.numberTail, if_pos (by decide), digits]
    rfl

theorem isNumeral_int {value : Int} (isUnsigned : 0 ≤ value) :
    IsNumeral (toString value).toList := by
  rw [Int.toString_eq_repr, Int.repr_eq_if, if_pos isUnsigned, Nat.toList_repr]
  obtain ⟨first, rest, isDigits⟩ := List.exists_cons_of_ne_nil (@Nat.toDigits_ne_nil value.toNat 10)
  have digit (char : Char) (member : char ∈ first :: rest) : char.isDigit := by
    rw [← isDigits] at member
    exact Nat.isDigit_of_mem_toDigits (by decide) (by decide) member
  rw [isDigits]
  refine ⟨first, rest, rfl, digit first (by simp), Token.GoesOn.of_plain ?_ first⟩
  intro char member
  exact isNumberChar_of_isDigit (digit char (by simp [member]))

open Number.Shortest

theorem isDigit_of_mem_zeros {count : Nat} : ∀ char ∈ List.replicate count '0', char.isDigit := by
  intro char member
  rw [(List.mem_replicate.mp member).2]
  decide

theorem isNumeral_of_digits {more : List Char} (nonempty : digits ≠ [])
    (areDigits : ∀ digit ∈ digits, digit.isDigit)
    (goesOn : ∀ rest first, (∀ char ∈ rest, isNumberChar char) →
      Token.GoesOn first (rest ++ more)) :
    IsNumeral (digits ++ more) := by
  obtain ⟨first, rest, rfl⟩ := List.exists_cons_of_ne_nil nonempty
  obtain ⟨isFirst, others⟩ := List.forall_mem_cons.mp areDigits
  refine ⟨first, rest ++ more, rfl, isFirst, goesOn rest first ?_⟩
  exact fun char member => isNumberChar_of_isDigit (others char member)

theorem isNumeral_positional (areDigits : ∀ digit ∈ digits, digit.isDigit) (power : Int) :
    IsNumeral (positional digits power).toList := by
  have plain : ∀ digit ∈ digits, isNumberChar digit :=
    fun digit member => isNumberChar_of_isDigit (areDigits digit member)
  unfold positional
  split
  · refine ⟨'0', '.' :: (List.replicate ((-power).toNat - 1) '0' ++ digits), by simp, rfl, ?_⟩
    apply Token.GoesOn.of_plain
    refine List.forall_mem_cons.mpr ⟨by decide, List.forall_mem_append.mpr ⟨?_, plain⟩⟩
    exact fun char member => isNumberChar_of_isDigit (isDigit_of_mem_zeros char member)
  · dsimp only
    simp only [String.toList_append, String.toList_ofList]
    rw [List.append_assoc]
    apply isNumeral_of_digits
    · intro isNil
      have lengths := congrArg List.length isNil
      simp only [List.length_append, List.length_take, List.length_replicate, List.length_nil]
        at lengths
      omega
    · refine List.forall_mem_append.mpr ⟨?_, isDigit_of_mem_zeros⟩
      exact fun digit member => areDigits digit (List.mem_of_mem_take member)
    · intro rest first restPlain
      apply Token.GoesOn.of_plain
      refine List.forall_mem_append.mpr ⟨restPlain, List.forall_mem_cons.mpr ⟨by decide, ?_⟩⟩
      intro char member
      split at member
      · rw [List.mem_singleton.mp member]
        decide
      · exact plain char (List.mem_of_mem_drop member)

theorem isNumeral_scientific (areDigits : ∀ digit ∈ digits, digit.isDigit) (nonempty : digits ≠ [])
    (power : Int) : IsNumeral (scientific digits power).toList := by
  have isE : isNumberChar 'e' := by decide
  obtain ⟨first, rest, rfl⟩ := List.exists_cons_of_ne_nil nonempty
  obtain ⟨isFirst, others⟩ := List.forall_mem_cons.mp areDigits
  unfold scientific
  dsimp only
  rw [String.toList_append, String.toList_append]
  cases rest with
  | nil =>
      refine ⟨first, 'e' :: (toString power).toList, by simp, isFirst, ?_⟩
      exact .cons isE (goesOn_exponent power)
  | cons second rest =>
      refine ⟨first, ('.' :: second :: rest) ++ 'e' :: (toString power).toList, by simp, isFirst,
        ?_⟩
      apply Token.GoesOn.append _ isE (goesOn_exponent power)
      refine List.forall_mem_cons.mpr ⟨by decide, ?_⟩
      exact fun char member => isNumberChar_of_isDigit (others char member)

theorem isNumeral_finite (significand : Nat) (exponent : Int) :
    IsNumeral (Number.Binary64.finite false significand exponent).text.toList := by
  unfold Number.Binary64.text Number.Binary64.render
  dsimp only
  split
  · exact ⟨'0', ['.', '0'], rfl, rfl, .of_plain (List.all_eq_true.mp (by decide)) '0'⟩
  · rename_i positive
    obtain ⟨areDigits, isFound⟩ := digits_spec positive exponent
    generalize digits significand exponent = found at areDigits isFound
    obtain ⟨digits, power⟩ := found
    dsimp only
    rw [Number.Binary64.signText, if_neg (by decide), String.empty_append]
    split
    · exact isNumeral_positional areDigits power
    · rename_i isScientific
      refine isNumeral_scientific areDigits (isFound.resolve_right ?_) power
      rintro rfl
      exact isScientific rfl

end C

end Offside
