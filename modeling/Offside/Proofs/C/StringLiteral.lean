import Offside.Proofs.C.Token
import Offside.Proofs.Token.Composed
import Offside.Proofs.Token.Lines

/-!
# String literals

What a string literal stands for, as C reads it and as the source language reads it. C knows every
escape that is written, so it gets back the bytes of the text. The source language has no escapes by
number: where one is written for a control character, its backslash and digits are read instead.
-/

namespace Offside

namespace C

/-- The byte that a letter or mark stands for in an escape. -/
def simpleEscape? : Char → Option UInt8
  | '\'' => some 39
  | '"' => some 34
  | '?' => some 63
  | '\\' => some 92
  | 'a' => some 7
  | 'b' => some 8
  | 'f' => some 12
  | 'n' => some 10
  | 'r' => some 13
  | 't' => some 9
  | 'v' => some 11
  | _ => none

def octalDigit? (char : Char) : Option Nat :=
  if '0' ≤ char ∧ char ≤ '7' then some (char.toNat - '0'.toNat) else none

/-- Goes on with a number by octal digits, up to a count. -/
def octalTail : Nat → Nat → List Char → Nat × List Char
  | more + 1, value, char :: chars =>
      match octalDigit? char with
      | some digit => octalTail more (8 * value + digit) chars
      | none => (value, char :: chars)
  | _, value, chars => (value, chars)

/-- The byte of an escape, by letter or number, and what follows it. -/
def escape? : List Char → Option (UInt8 × List Char)
  | [] => none
  | char :: chars =>
      match octalDigit? char with
      | some digit =>
          let number := octalTail 2 digit chars
          if number.1 < 256 then some (.ofNat number.1, number.2) else none
      | none => (simpleEscape? char).map (·, chars)

theorem length_octalTail (more value : Nat) (chars : List Char) :
    (octalTail more value chars).2.length ≤ chars.length := by
  fun_induction octalTail more value chars with
  | case1 more value char chars digit _ shorter => exact Nat.le_succ_of_le shorter
  | case2 => exact Nat.le_refl _
  | case3 => exact Nat.le_refl _

theorem length_escape? {chars rest : List Char} {byte : UInt8}
    (read : escape? chars = some (byte, rest)) : rest.length < chars.length := by
  unfold escape? at read
  split at read
  · simp at read
  · rename_i char chars
    split at read
    · rename_i digit _
      have shorter := length_octalTail 2 digit chars
      simp only [Option.ite_none_right_eq_some, Option.some.injEq, Prod.mk.injEq] at read
      obtain ⟨_, _, rfl⟩ := read
      exact Nat.lt_succ_of_le shorter
    · obtain ⟨_, _, same⟩ := Option.map_eq_some_iff.mp read
      obtain ⟨_, rfl⟩ := Prod.mk.inj same
      exact Nat.lt_succ_self _

/-- The bytes of a literal in which no line ends and no quote stands alone. -/
def bytes? (chars : List Char) : Option (List UInt8) :=
  match chars with
  | [] => some []
  | char :: rest =>
      if char = '"' ∨ char = '\n' then none
      else if char = '\\' then
        match cut : escape? rest with
        | some (byte, left) =>
            have _ := length_escape? cut
            (bytes? left).map (byte :: ·)
        | none => none
      else (bytes? rest).map (String.utf8EncodeChar char ++ ·)
termination_by chars.length
decreasing_by
  all_goals simp only [List.length_cons]
  all_goals omega

theorem bytes?_of_escape? {rest left : List Char} {byte : UInt8}
    (cut : escape? rest = some (byte, left)) :
    bytes? ('\\' :: rest) = (bytes? left).map (byte :: ·) := by
  rw [bytes?, if_neg (by decide), if_pos rfl]
  split
  · rename_i same
    obtain ⟨rfl, rfl⟩ := Prod.mk.inj (Option.some.inj (same.symm.trans cut))
    rfl
  · rename_i none
    simp [none] at cut

theorem escape?_octal {code : Nat} (small : code < 256) (rest : List Char) :
    escape? (octal code ++ rest) = some (.ofNat code, rest) := by
  have digit (number : Nat) :
      octalDigit? (Char.ofNat ('0'.toNat + number % 8)) = some (number % 8) := by
    have below : number % 8 < 8 := Nat.mod_lt _ (by decide)
    generalize number % 8 = value at below
    revert value
    decide
  have value : 8 * (8 * (code / 64 % 8) + code / 8 % 8) + code % 8 = code := by omega
  simp only [octal, List.map_cons, List.map_nil, List.cons_append, List.nil_append, escape?, digit,
    octalTail, value, small, if_true]

theorem bytes?_escapedChar (char : Char) (rest : List Char) :
    bytes? (escapedChar char ++ rest) = (bytes? rest).map (String.utf8EncodeChar char ++ ·) := by
  have written := escapes_escapedChar char
  generalize escapedChar char = chars at written
  cases written with
  | letter known =>
      simp only [lettered, List.mem_cons, Prod.mk.injEq, List.not_mem_nil, or_false] at known
      rcases known with ⟨rfl, rfl⟩ | ⟨rfl, rfl⟩ | ⟨rfl, rfl⟩ | ⟨rfl, rfl⟩ | ⟨rfl, rfl⟩ <;>
        exact bytes?_of_escape? rfl
  | number control _ =>
      have encoded : String.utf8EncodeChar char = [.ofNat char.toNat] := by
        have ascii : char.val.toNat ≤ 127 := Nat.le_of_lt (Nat.lt_of_lt_of_le control (by decide))
        rw [String.utf8EncodeChar, if_pos ascii]
        rfl
      rw [encoded]
      exact bytes?_of_escape? (escape?_octal (Nat.lt_trans control (by decide)) rest)
  | plain visible notEscape notQuote =>
      have inLine : char ≠ '\n' := by
        rintro rfl
        exact visible (by decide)
      rw [List.singleton_append, bytes?, if_neg (by simp [notQuote, inLine]), if_neg notEscape]

theorem toList_stringLiteral (text : String) :
    (stringLiteral text).toList = '"' :: (text.toList.flatMap escapedChar ++ ['"']) := by
  simp [stringLiteral]

theorem lineEnd_notMem_escapedChar (char : Char) : '\n' ∉ escapedChar char := by
  have written := escapes_escapedChar char
  generalize escapedChar char = chars at written
  cases written with
  | letter known =>
      have letters : lettered.all ('\n' ≠ ·.2) := by decide
      simpa using List.all_eq_true.mp letters _ known
  | number _ _ =>
      obtain ⟨first, second, third, isOctal, digits⟩ := octal_eq char.toNat
      rw [isOctal, List.mem_cons]
      rintro (isEscape | isDigit)
      · simp at isEscape
      · exact absurd (digits _ isDigit) (by decide)
  | plain visible _ _ => simpa using (Escapes.ne_lineEnd visible).symm

/-- A text is written as one string literal of C, which stands for its bytes. -/
theorem stringLiteral_denotes (text : String) :
    lex (stringLiteral text).toList = some [.string (stringLiteral text)] ∧
    ∃ inner, (stringLiteral text).toList = '"' :: (inner ++ ['"']) ∧ '\n' ∉ inner ∧
      ((bytes? inner).bind fun bytes => String.fromUTF8? bytes.toByteArray) = some text := by
  have oneToken := Lexes.string text []
  rw [Lexes, List.append_nil] at oneToken
  have read (chars : List Char) : bytes? (chars.flatMap escapedChar) =
      some (chars.flatMap String.utf8EncodeChar) := by
    induction chars with
    | nil => simp [bytes?]
    | cons char chars induction => simp [bytes?_escapedChar, induction]
  refine ⟨by simpa [lex] using oneToken, _, toList_stringLiteral text, ?_, ?_⟩
  · simp [lineEnd_notMem_escapedChar]
  · have isEncoded : (text.toList.flatMap String.utf8EncodeChar).toByteArray = text.toByteArray :=
      String.toByteArray_ofList.symm.trans (congrArg _ String.ofList_toList)
    simp only [read, Option.bind_some, String.fromUTF8?, isEncoded, Option.dite_none_right_eq_some]
    exact ⟨text.isValidUTF8, rfl⟩

end C

/-! ## As the source language reads them -/

namespace Lexeme

open C

/-- What is read for a written character, unless it is written by number. -/
def reread (char : Char) : List Char :=
  if char.toNat < 0x20 ∧ char ∉ ['\n', '\t', '\r'] then '\\' :: octal char.toNat else [char]

theorem read_escapedChar (char : Char) (rest : List Char) :
    LiteralBody.read '"' (escapedChar char ++ rest) =
      (LiteralBody.read '"' rest).prepend (reread char) (escapedChar char) := by
  have plain {char : Char} (inLine : char ≠ '\n') (notQuote : char ≠ '"') (notEscape : char ≠ '\\')
      (rest : List Char) : LiteralBody.read '"' (char :: rest) =
        (LiteralBody.read '"' rest).prepend [char] [char] := by
    rw [LiteralBody.read_plain inLine notEscape, if_neg notQuote]
  have digit {char : Char} (digit : char.isDigit) :=
    plain (ne_of_isDigit digit '\n' rfl) (ne_of_isDigit digit '"' rfl)
      (ne_of_isDigit digit '\\' rfl)
  have written := escapes_escapedChar char
  rw [reread]
  generalize escapedChar char = chars at written
  cases written with
  | letter known =>
      simp only [lettered, List.mem_cons, Prod.mk.injEq, List.not_mem_nil, or_false] at known
      rcases known with ⟨rfl, rfl⟩ | ⟨rfl, rfl⟩ | ⟨rfl, rfl⟩ | ⟨rfl, rfl⟩ | ⟨rfl, rfl⟩ <;> rfl
  | number control unnamed =>
      obtain ⟨first, second, third, isOctal, digits⟩ := octal_eq char.toNat
      simp only [List.forall_mem_cons] at digits
      have other := ne_of_isDigit digits.1
      have unknown : escaped? first = none :=
        escaped?.eq_7 first (other 'n' rfl) (other 't' rfl) (other 'r' rfl) (other '\\' rfl)
          (other '"' rfl) (other '\'' rfl)
      rw [if_pos ⟨control, unnamed⟩, isOctal, List.cons_append, List.cons_append,
        LiteralBody.read, unknown]
      dsimp only
      rw [digit digits.1, List.cons_append, digit digits.2.1, List.cons_append,
        digit digits.2.2.1]
      rfl
  | plain visible notEscape notQuote =>
      rw [if_neg (by simp [visible])]
      exact plain (Escapes.ne_lineEnd visible) notQuote notEscape rest

end Lexeme

/-- A text is reread as itself exactly if no character is written by number. -/
theorem flatMap_reread_eq_iff (chars : List Char) :
    chars.flatMap Lexeme.reread = chars ↔
      ∀ char ∈ chars, char.toNat < 0x20 → char ∈ ['\n', '\t', '\r'] := by
  induction chars with
  | nil => simp
  | cons char chars induction =>
      rw [List.forall_mem_cons, ← induction, List.flatMap_cons, Lexeme.reread]
      by_cases numbered : char.toNat < 0x20 ∧ char ∉ ['\n', '\t', '\r']
      · rw [if_pos numbered, List.cons_append]
        refine iff_of_false (fun same => ?_) fun allowed => numbered.2 (allowed.1 numbered.1)
        obtain rfl := (List.cons.inj same).1
        exact absurd numbered.1 (by decide)
      · rw [if_neg numbered, List.singleton_append, List.cons_inj_right]
        exact (and_iff_right (not_and_not_right.mp numbered)).symm

/-- A text is read back exactly if its only control characters are line ends, tabs and returns. -/
theorem ofSource_stringLiteral_iff (text : String) :
    Token.ofSource (C.stringLiteral text) =
        [⟨.string, some text, 1, 1⟩, ⟨.endOfFile, none, 1, 1⟩] ↔
      ∀ char ∈ text.toList, char.toNat < 0x20 → char ∈ ['\n', '\t', '\r'] := by
  have inside (chars : List Char) :
      Lexeme.LiteralBody.read '"' (chars.flatMap C.escapedChar ++ ['"']) =
        ⟨chars.flatMap Lexeme.reread, chars.flatMap C.escapedChar ++ ['"'], true, []⟩ := by
    induction chars with
    | nil => rfl
    | cons char chars induction =>
        rw [List.flatMap_cons, List.append_assoc, Lexeme.read_escapedChar, induction]
        simp [Lexeme.LiteralBody.prepend]
  have written := C.toList_stringLiteral text
  have cut : Lexeme.read '"' (text.toList.flatMap C.escapedChar ++ ['"']) =
      (.token .string (some (String.ofList (text.toList.flatMap Lexeme.reread)))
        ('"' :: (text.toList.flatMap C.escapedChar ++ ['"'])), []) := by
    simp [Lexeme.read, inside]
  rw [Token.ofSource_eq_scan written (by decide), written, Token.scan_cons, cut,
    ← flatMap_reread_eq_iff]
  dsimp only
  rw [Token.scan]
  simp [Token.closing, Token.layout, ← String.toList_inj]

end Offside
