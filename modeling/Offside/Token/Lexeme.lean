import Offside.Token

/-!
# Lexemes

A lexeme is what stands at the start of a text inside a line: a blank stretch, a token, a line end,
or a fault. `Lexeme.read` cuts the longest one off. It never loses or invents a character: the
spelling and the remaining text make up what was read.
-/

namespace Offside

/-- Number of bytes that characters take in the source. -/
def byteLength : List Char → Nat
  | [] => 0
  | char :: chars => char.utf8Size + byteLength chars

/-- What a source can be rejected for before any grammar applies. -/
inductive LexicalFault
  | unexpected (char : Char)
  | unterminated
  /-- A line that returns to the indentation of no open block. -/
  | misaligned
deriving DecidableEq, Repr

namespace LexicalFault

def message : LexicalFault → String
  | unexpected char => "unexpected character '" ++ char.toString ++ "'"
  | unterminated => "unterminated string literal"
  | misaligned => "indentation mismatch"

end LexicalFault

/-- What stands at the start of a text inside a line. -/
inductive Lexeme
  /-- A space, a tab, a carriage return, or a comment. -/
  | blank (spelling : List Char)
  | lineEnd
  /-- A token with its text, as it is spelled in the source. -/
  | token (kind : Token.Kind) (text : Option String) (spelling : List Char)
  /-- A fault that shows after some well-formed characters. -/
  | fault (before : List Char) (reason : LexicalFault)
deriving DecidableEq, Repr

namespace Lexeme

/-- The characters of the source that a lexeme accounts for. -/
def spelling : Lexeme → List Char
  | blank spelling => spelling
  | lineEnd => ['\n']
  | token _ _ spelling => spelling
  | fault before _ => before

/-- Whether a character starts an identifier. -/
def isIdentifierStart (char : Char) : Bool := char.isAlpha || char = '_'

/-- Whether a character continues an identifier. -/
def isIdentifierRest (char : Char) : Bool := char.isAlphanum || char = '_'

/-- The character that an escape stands for. -/
def escaped? : Char → Option Char
  | 'n' => some '\n'
  | 't' => some '\t'
  | 'r' => some '\r'
  | '\\' => some '\\'
  | '"' => some '"'
  | '\'' => some '\''
  | _ => none

/-- The part of a quoted literal after its opening quote. -/
structure LiteralBody where
  decoded : List Char
  /-- The characters read, with the closing quote when there is one. -/
  spelling : List Char
  closed : Bool
  rest : List Char
deriving DecidableEq, Repr

namespace LiteralBody

/-- The body with further characters in front of it. -/
def prepend (body : LiteralBody) (decoded spelling : List Char) : LiteralBody :=
  { body with decoded := decoded ++ body.decoded, spelling := spelling ++ body.spelling }

/-- Reads a literal. A backslash that escapes nothing stands for itself. -/
def read (quote : Char) : List Char → LiteralBody
  | [] => ⟨[], [], false, []⟩
  | '\n' :: rest => ⟨[], [], false, '\n' :: rest⟩
  | '\\' :: char :: rest =>
      match escaped? char with
      | some meant => (read quote rest).prepend [meant] ['\\', char]
      | none => (read quote (char :: rest)).prepend ['\\'] ['\\']
  | char :: rest =>
      if char = quote then ⟨[], [char], true, rest⟩
      else (read quote rest).prepend [char] [char]

theorem read_spelling_append_rest (quote : Char) (chars : List Char) :
    (read quote chars).spelling ++ (read quote chars).rest = chars := by
  fun_induction read quote chars with
  | case1 => rfl
  | case2 => rfl
  | case3 char rest meant known induction => simp [prepend, induction]
  | case4 char rest unknown induction => simp [prepend, induction]
  | case5 => rfl
  | case6 char rest lineEnd pair other induction => simp [prepend, induction]

end LiteralBody

/-- Digits, and a point with digits when a digit follows the point. -/
def readNumeral (chars : List Char) : List Char × List Char :=
  let whole := chars.takeWhile Char.isDigit
  let rest := chars.dropWhile Char.isDigit
  match rest with
  | '.' :: digit :: more =>
      if digit.isDigit then
        let fraction := (digit :: more).takeWhile Char.isDigit
        (whole ++ '.' :: fraction, (digit :: more).dropWhile Char.isDigit)
      else (whole, rest)
  | _ => (whole, rest)

theorem readNumeral_append (chars : List Char) :
    (readNumeral chars).1 ++ (readNumeral chars).2 = chars := by
  have split := List.takeWhile_append_dropWhile (p := Char.isDigit) (l := chars)
  unfold readNumeral
  dsimp only
  split
  · rename_i digit more tail
    split
    · rw [List.append_assoc, List.cons_append, List.takeWhile_append_dropWhile, ← tail, split]
    · exact split
  · exact split

/-- The operator or delimiter at the start of a text; two characters win over one. -/
def readPunct? (char : Char) (rest : List Char) : Option (Punct × List Char × List Char) :=
  let single := (Punct.ofChar? char).map fun mark => (mark, [char], rest)
  match rest with
  | next :: more =>
      match Punct.ofPair? char next with
      | some mark => some (mark, [char, next], more)
      | none => single
  | [] => single

/-- Cuts one lexeme off a text that starts with the given character. -/
def read (char : Char) (rest : List Char) : Lexeme × List Char :=
  if char = ' ' || char = '\t' || char = '\r' then (blank [char], rest)
  else if char = '#' then
    (blank (char :: rest.takeWhile (· ≠ '\n')), rest.dropWhile (· ≠ '\n'))
  else if char = '\n' then (lineEnd, rest)
  else if char = '"' || char = '\'' then
    let body := LiteralBody.read char rest
    if body.closed then
      (token .string (some (String.ofList body.decoded)) (char :: body.spelling), body.rest)
    else (fault (char :: body.spelling) .unterminated, body.rest)
  else if char.isDigit then
    let numeral := readNumeral (char :: rest)
    (token .number (some (String.ofList numeral.1)) numeral.1, numeral.2)
  else if isIdentifierStart char then
    let word := char :: rest.takeWhile isIdentifierRest
    let text := String.ofList word
    let following := rest.dropWhile isIdentifierRest
    match Keyword.ofSpelling? text with
    | some reserved => (token (.keyword reserved) none word, following)
    | none => (token .identifier (some text) word, following)
  else match readPunct? char rest with
    | some (mark, written, following) => (token (.punct mark) none written, following)
    | none => (fault [] (.unexpected char), char :: rest)

theorem readPunct?_eq_some {char : Char} {rest written following : List Char} {mark : Punct}
    (found : readPunct? char rest = some (mark, written, following)) :
    written ≠ [] ∧ written ++ following = char :: rest := by
  have alone : ∀ single : Option Punct,
      (single.map fun mark => (mark, [char], rest)) = some (mark, written, following) →
        written ≠ [] ∧ written ++ following = char :: rest := by
    intro single mapped
    obtain ⟨_, _, equal⟩ := Option.map_eq_some_iff.mp mapped
    simp only [Prod.mk.injEq] at equal
    obtain ⟨_, rfl, rfl⟩ := equal
    simp
  unfold readPunct? at found
  split at found
  · split at found
    · simp only [Option.some.injEq, Prod.mk.injEq] at found
      obtain ⟨_, rfl, rfl⟩ := found
      simp
    · exact alone _ found
  · exact alone _ found

theorem read_spelling_append (char : Char) (rest : List Char) :
    (read char rest).1.spelling ++ (read char rest).2 = char :: rest := by
  unfold read
  split
  · rfl
  split
  · simp [spelling]
  split
  · rename_i lineFeed
    simp [spelling, lineFeed]
  split
  · have body := LiteralBody.read_spelling_append_rest char rest
    dsimp only
    split <;> simp [spelling, body]
  split
  · exact readNumeral_append (char :: rest)
  split
  · dsimp only
    split <;> simp [spelling]
  · split
    · rename_i mark written following found
      exact (readPunct?_eq_some found).2
    · rfl

theorem spelling_read_ne_nil (char : Char) (rest : List Char) :
    (∃ before reason, (read char rest).1 = fault before reason) ∨
      (read char rest).1.spelling ≠ [] := by
  unfold read
  split
  · simp [spelling]
  split
  · simp [spelling]
  split
  · simp [spelling]
  split
  · dsimp only
    split <;> simp [spelling]
  split
  · rename_i digit
    refine .inr ?_
    simp only [spelling, readNumeral, List.takeWhile_cons, digit, if_true]
    split
    · split <;> simp
    · simp
  split
  · dsimp only
    split <;> simp [spelling]
  · split
    · rename_i mark written following found
      exact .inr (readPunct?_eq_some found).1
    · simp

theorem read_length (char : Char) (rest : List Char)
    (sound : ∀ before reason, (read char rest).1 ≠ fault before reason) :
    (read char rest).2.length ≤ rest.length := by
  have split := congrArg List.length (read_spelling_append char rest)
  have taken : (read char rest).1.spelling ≠ [] := by
    rcases spelling_read_ne_nil char rest with ⟨before, reason, found⟩ | taken
    · exact absurd found (sound before reason)
    · exact taken
  have positive := List.length_pos_iff.mpr taken
  simp only [List.length_append, List.length_cons] at split
  omega

end Lexeme

end Offside
