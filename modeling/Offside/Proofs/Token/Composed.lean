import Offside.Proofs.Grammar.Printing
import Offside.Proofs.Token.Scan

/-!
# Composed texts

A text inside a line that is composed of names, numerals, brackets and commas is scanned piece by
piece. Brackets and commas end by themselves; a name or numeral is as long as the text allows, so
that what comes after it must not go on with it.
-/

namespace Offside

/-- Whether a text does not go on with the name or numeral before it. -/
def EndsWord (after : List Char) : Prop :=
  ∀ char, after.head? = some char → Lexeme.isIdentifierRest char = false ∧ char ≠ '.'

theorem endsWord_nil : EndsWord [] := nofun

theorem endsWord_cons (char : Char) (ends : Lexeme.isIdentifierRest char = false ∧ char ≠ '.')
    (after : List Char) : EndsWord (char :: after) := by
  rintro _ ⟨⟩
  exact ends

theorem isWord_iff {text : String} :
    IsWord text ↔ text.toList.head?.any Lexeme.isIdentifierStart = true ∧
      text.toList.tail.all Lexeme.isIdentifierRest = true ∧ Keyword.ofSpelling? text = none := by
  have unreserved : Keyword.ofSpelling? text = none ↔ ∀ word : Keyword, word.spelling ≠ text := by
    rw [Keyword.ofSpelling?, List.find?_eq_none]
    simp [Keyword.mem_all]
  rw [IsWord, IsIdentifier, unreserved, ← and_assoc]
  refine and_congr_left fun _ => ?_
  cases text.toList with
  | nil => simp
  | cons first rest => simp

instance (text : String) : Decidable (IsWord text) := decidable_of_iff' _ isWord_iff

namespace Lexeme

theorem isIdentifierRest_of_isDigit {char : Char} (digit : char.isDigit) :
    isIdentifierRest char := by
  simp [isIdentifierRest, Char.isAlphanum, digit]

/-- No identifier starts with a digit. -/
theorem isDigit_of_isIdentifierStart {char : Char} (starts : isIdentifierStart char) :
    char.isDigit = false := by
  simp only [isIdentifierStart, Bool.or_eq_true, decide_eq_true_eq] at starts
  rcases starts with letter | rfl
  · refine Bool.eq_false_iff.mpr fun digit => ?_
    have above := (code_of_isAlpha letter).1
    have below := (code_of_isDigit digit).2
    omega
  · decide

theorem span_append {keep : Char → Bool} {chars after : List Char}
    (kept : ∀ char ∈ chars, keep char)
    (ends : ∀ char, after.head? = some char → keep char = false) :
    (chars ++ after).takeWhile keep = chars ∧ (chars ++ after).dropWhile keep = after := by
  rw [List.takeWhile_append_of_pos kept, List.dropWhile_append_of_pos kept]
  cases after with
  | nil => simp
  | cons char after => simp [ends char rfl]

/-- An identifier is read up to its end, as a keyword if reserved. -/
theorem read_identifier {first : Char} {rest after : List Char} (starts : isIdentifierStart first)
    (continues : ∀ char ∈ rest, isIdentifierRest char) (ends : EndsWord after) :
    read first (rest ++ after) =
      match Keyword.ofSpelling? (String.ofList (first :: rest)) with
      | some reserved => (token (.keyword reserved) none (first :: rest), after)
      | none =>
          (token .identifier (some (String.ofList (first :: rest))) (first :: rest), after) := by
  have other (char : Char) (foreign : isIdentifierStart char = false) : first ≠ char := by
    rintro rfl
    simp [foreign] at starts
  obtain ⟨taken, left⟩ := span_append continues fun char isNext => (ends char isNext).1
  unfold read
  rw [if_neg (by simp [other ' ' (by decide), other '\t' (by decide), other '\r' (by decide)]),
    if_neg (other '#' (by decide)), if_neg (other '\n' (by decide)),
    if_neg (by simp [other '"' (by decide), other '\'' (by decide)]),
    if_neg (by simp [isDigit_of_isIdentifierStart starts]), if_pos starts]
  cases found : Keyword.ofSpelling? (String.ofList (first :: rest)) with
  | none => simp only [taken, left, found]
  | some reserved => simp only [taken, left, found]

theorem read_digits {first : Char} {rest after : List Char}
    (digits : ∀ char ∈ first :: rest, char.isDigit) (ends : EndsWord after) :
    read first (rest ++ after) =
      (token .number (some (String.ofList (first :: rest))) (first :: rest), after) := by
  have other (char : Char) (foreign : char.isDigit = false) : first ≠ char := by
    rintro rfl
    simpa [foreign] using digits first List.mem_cons_self
  have stops (char : Char) (isNext : after.head? = some char) : char.isDigit = false := by
    by_contra digit
    have continues := isIdentifierRest_of_isDigit (by simpa using digit)
    simp [(ends char isNext).1] at continues
  obtain ⟨taken, left⟩ := span_append digits stops
  have whole : readNumeral (first :: (rest ++ after)) = (first :: rest, after) := by
    rw [← List.cons_append, readNumeral, taken, left]
    dsimp only
    split
    · exact absurd rfl (ends '.' rfl).2
    · rfl
  unfold read
  rw [if_neg (by simp [other ' ' (by decide), other '\t' (by decide), other '\r' (by decide)]),
    if_neg (other '#' (by decide)), if_neg (other '\n' (by decide)),
    if_neg (by simp [other '"' (by decide), other '\'' (by decide)]),
    if_pos (digits first List.mem_cons_self)]
  simp only [whole]

/-- The marks that end by themselves, whatever comes after them. -/
def lone : List (Char × Punct) :=
  [('(', .leftParen), (')', .rightParen), ('[', .leftBracket), (']', .rightBracket), (',', .comma)]

theorem read_lone {char : Char} {mark : Punct} (isLone : (char, mark) ∈ lone)
    (after : List Char) : read char after = (token (.punct mark) none [char], after) := by
  simp only [lone, List.mem_cons, Prod.mk.injEq, List.not_mem_nil, or_false] at isLone
  rcases isLone with ⟨rfl, rfl⟩ | ⟨rfl, rfl⟩ | ⟨rfl, rfl⟩ | ⟨rfl, rfl⟩ | ⟨rfl, rfl⟩ <;>
    cases after <;> rfl

end Lexeme

namespace Token

/-- Whether characters inside a line are scanned as given tokens, apart from their places. -/
def ScannedAs (chars after : List Char) (imprints : List Imprint) : Prop :=
  ∀ indents line column, ∃ next,
    (scan indents line column (chars ++ after)).map imprint =
      imprints ++ (scan indents line next after).map imprint

namespace ScannedAs

variable {chars more after : List Char} {imprints others : List Imprint}

theorem append (first : ScannedAs chars (more ++ after) imprints)
    (second : ScannedAs more after others) :
    ScannedAs (chars ++ more) after (imprints ++ others) := by
  intro indents line column
  obtain ⟨middle, isFirst⟩ := first indents line column
  obtain ⟨next, isSecond⟩ := second indents line middle
  exact ⟨next, by rw [List.append_assoc, isFirst, isSecond, List.append_assoc]⟩

theorem of_read {char : Char} {rest : List Char} {kind : Kind} {text : Option String}
    {spelling : List Char}
    (read : Lexeme.read char (rest ++ after) = (.token kind text spelling, after)) :
    ScannedAs (char :: rest) after [(kind, text.getD "")] := by
  intro indents line column
  refine ⟨column + byteLength spelling, ?_⟩
  rw [List.cons_append, scan_cons, read]
  rfl

theorem space (after : List Char) : ScannedAs [' '] after [] := by
  intro indents line column
  refine ⟨column + byteLength [' '], ?_⟩
  rw [List.cons_append, scan_cons]
  rfl

theorem lone (lone : Char × Punct) (isLone : lone ∈ Lexeme.lone) (after : List Char) :
    ScannedAs [lone.1] after [lone.2.imprint] := by
  have read : Lexeme.read lone.1 ([] ++ after) = (.token (.punct lone.2) none [lone.1], after) :=
    Lexeme.read_lone isLone after
  exact of_read read

theorem between (opening closing : Char × Punct) (opens : opening ∈ Lexeme.lone)
    (closes : closing ∈ Lexeme.lone) (inside : ScannedAs chars (closing.1 :: after) imprints) :
    ScannedAs (opening.1 :: (chars ++ [closing.1])) after
      (opening.2.imprint :: (imprints ++ [closing.2.imprint])) := by
  have closed : ScannedAs (chars ++ [closing.1]) after (imprints ++ [closing.2.imprint]) :=
    append inside (lone closing closes after)
  exact append (lone opening opens _) closed

theorem word {text : String} (isWord : IsWord text) (ends : EndsWord after) :
    ScannedAs text.toList after [(.identifier, text)] := by
  obtain ⟨-, -, unreserved⟩ := isWord_iff.mp isWord
  obtain ⟨⟨first, rest, isText, starts, continues⟩, -⟩ := isWord
  have read := Lexeme.read_identifier starts continues ends
  rw [← isText, String.ofList_toList, unreserved] at read
  rw [isText]
  exact of_read read

theorem keyword {reserved : Keyword} (ends : EndsWord after) :
    ScannedAs reserved.spelling.toList after [(Kind.keyword reserved).imprint] := by
  have isIdentifier : ∃ first rest, reserved.spelling.toList = first :: rest ∧
      Lexeme.isIdentifierStart first = true ∧ rest.all Lexeme.isIdentifierRest = true := by
    cases reserved <;> exact ⟨_, _, rfl, by decide, by decide⟩
  have found : Keyword.ofSpelling? reserved.spelling = some reserved := by
    cases reserved <;> decide
  obtain ⟨first, rest, isText, starts, continues⟩ := isIdentifier
  have read := Lexeme.read_identifier starts (List.all_eq_true.mp continues) ends
  rw [← isText, String.ofList_toList, found] at read
  rw [isText]
  exact of_read read

theorem number (count : Nat) (ends : EndsWord after) :
    ScannedAs (toString count).toList after [(.number, toString count)] := by
  have digits := isDigit_of_mem_toString count
  obtain ⟨first, rest, isText⟩ := List.exists_cons_of_ne_nil (toString_nat_ne_nil count)
  rw [isText] at digits
  have read := Lexeme.read_digits digits ends
  rw [← isText, String.ofList_toList] at read
  rw [isText]
  exact of_read read

end ScannedAs

/-- A text that starts with a word is scanned as if inside a line. -/
theorem ofSource_eq_scan {text : String} {first : Char} {rest : List Char}
    (isText : text.toList = first :: rest)
    (starts : first ∉ [' ', '\t', '\n', '\r', '#']) :
    ofSource text = scan [0] 1 1 text.toList := by
  simp only [List.mem_cons, List.not_mem_nil, or_false, not_or] at starts
  obtain ⟨notSpace, notTab, notLineEnd, notReturn, notHash⟩ := starts
  have notIndented : isIndentation first = false := by simp [isIndentation, notSpace, notTab]
  have notBare : isBare (first :: rest) = false := by
    simp [isBare, notLineEnd, notReturn, notHash]
  rw [ofSource, isText, scanLine, List.takeWhile_cons_of_neg (by simp [notIndented]),
    List.dropWhile_cons_of_neg (by simp [notIndented]), if_neg (by simp [notBare])]
  simp [Shift.of, indentationWidth]

end Token

end Offside
