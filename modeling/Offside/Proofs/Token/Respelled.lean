import Mathlib.Data.List.TakeWhile
import Offside.Token.Lexeme

/-!
# Words of a text that is spelled otherwise

A text may be spelled with other characters in the places of some that are in no word, such as line
ends or letters outside ASCII. Where words stop at all of these strangers, the same words are cut
off.
-/

namespace Offside

/-- Whether a spelling keeps all characters but strangers. -/
def Respells (stranger : Char → Prop) (respell : Char → List Char) : Prop :=
  ∀ char, respell char = [char] ∨
    stranger char ∧ ∃ first others, respell char = first :: others ∧ stranger first

namespace Respells

variable {stranger : Char → Prop} {respell : Char → List Char} {keep : Char → Bool}

theorem takeWhile (respells : Respells stranger respell)
    (stops : ∀ char, stranger char → keep char = false) (chars : List Char) :
    (chars.flatMap respell).takeWhile keep = chars.takeWhile keep := by
  induction chars with
  | nil => rfl
  | cons char chars induction =>
      rcases respells char with kept | ⟨strange, first, others, spelled, isFirst⟩
      · simp [kept, List.takeWhile_cons, induction]
      · simp [spelled, stops char strange, stops first isFirst]

theorem dropWhile (respells : Respells stranger respell)
    (stops : ∀ char, stranger char → keep char = false) (chars : List Char) :
    (chars.flatMap respell).dropWhile keep = (chars.dropWhile keep).flatMap respell := by
  induction chars with
  | nil => rfl
  | cons char chars induction =>
      rcases respells char with kept | ⟨strange, first, others, spelled, isFirst⟩
      · by_cases keeps : keep char
        · simp [kept, keeps, induction]
        · simp [kept, keeps]
      · simp [spelled, stops char strange, stops first isFirst]

/-- A numeral ends at a stranger. -/
theorem readNumeral (respells : Respells stranger respell)
    (stops : ∀ char, stranger char → char.isDigit = false ∧ char ≠ '.') (chars : List Char) :
    Lexeme.readNumeral (chars.flatMap respell) =
      ((Lexeme.readNumeral chars).1, (Lexeme.readNumeral chars).2.flatMap respell) := by
  have taken := respells.takeWhile fun char strange => (stops char strange).1
  have left := respells.dropWhile fun char strange => (stops char strange).1
  unfold Lexeme.readNumeral
  rw [taken, left]
  generalize chars.dropWhile Char.isDigit = tail
  rcases tail with _ | ⟨char, rest⟩
  · rfl
  rcases respells char with kept | ⟨strange, first, others, spelled, isFirst⟩
  · by_cases point : char = '.'
    · subst point
      rcases rest with _ | ⟨next, more⟩
      · simp [kept]
      rcases respells next with keptNext | ⟨strange, first, others, spelled, isFirst⟩
      · have inner := taken (next :: more)
        have after := left (next :: more)
        by_cases digit : next.isDigit
        · simp_all
        · simp [kept, keptNext, digit]
      · simp [kept, spelled, (stops next strange).1, (stops first isFirst).1]
    · simp [kept, point]
  · simp [spelled, (stops char strange).2, (stops first isFirst).2]

/-- No stranger is part of an operator. -/
theorem readPunct? (respells : Respells stranger respell)
    (stops : ∀ char next, stranger next → Punct.ofPair? char next = none) (char : Char)
    (rest : List Char) :
    Lexeme.readPunct? char (rest.flatMap respell) =
      (Lexeme.readPunct? char rest).map fun found =>
        (found.1, found.2.1, found.2.2.flatMap respell) := by
  rcases rest with _ | ⟨next, more⟩
  · simp [Lexeme.readPunct?, Function.comp_def]
  rcases respells next with kept | ⟨strange, first, others, spelled, isFirst⟩
  · rw [List.flatMap_cons, kept, List.singleton_append, Lexeme.readPunct?, Lexeme.readPunct?]
    cases Punct.ofPair? char next with
    | some mark => rfl
    | none => simp [kept, Function.comp_def]
  · simp [Lexeme.readPunct?, spelled, stops char next strange, stops char first isFirst,
      Function.comp_def]

end Respells

end Offside
