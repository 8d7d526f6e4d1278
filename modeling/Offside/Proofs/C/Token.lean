import Mathlib.Data.List.Find
import Offside.C.Expr
import Offside.Proofs.Jump.Names

/-!
# Tokens of C

How a C text falls into words, numbers, string literals and marks. Each token is the longest that
can be cut off, so two tokens that are written without a blank between them may come out as one, and
what a token is can depend on the character after it.
-/

namespace Offside

namespace C

variable {char : Char}

inductive Mark
  | ellipsis
  | shiftLeftAssign
  | shiftRightAssign
  | arrow
  | increment
  | decrement
  | shiftLeft
  | shiftRight
  | lessEqual
  | greaterEqual
  | equal
  | notEqual
  | andAnd
  | orOr
  | starAssign
  | slashAssign
  | percentAssign
  | plusAssign
  | minusAssign
  | ampersandAssign
  | caretAssign
  | barAssign
  | leftParen
  | rightParen
  | leftBracket
  | rightBracket
  | leftBrace
  | rightBrace
  | dot
  | ampersand
  | star
  | plus
  | minus
  | tilde
  | bang
  | slash
  | percent
  | less
  | greater
  | caret
  | bar
  | question
  | colon
  | semicolon
  | assign
  | comma
deriving DecidableEq, Repr

namespace Mark

def spelling : Mark → List Char
  | ellipsis => ['.', '.', '.']
  | shiftLeftAssign => ['<', '<', '=']
  | shiftRightAssign => ['>', '>', '=']
  | arrow => ['-', '>']
  | increment => ['+', '+']
  | decrement => ['-', '-']
  | shiftLeft => ['<', '<']
  | shiftRight => ['>', '>']
  | lessEqual => ['<', '=']
  | greaterEqual => ['>', '=']
  | equal => ['=', '=']
  | notEqual => ['!', '=']
  | andAnd => ['&', '&']
  | orOr => ['|', '|']
  | starAssign => ['*', '=']
  | slashAssign => ['/', '=']
  | percentAssign => ['%', '=']
  | plusAssign => ['+', '=']
  | minusAssign => ['-', '=']
  | ampersandAssign => ['&', '=']
  | caretAssign => ['^', '=']
  | barAssign => ['|', '=']
  | leftParen => ['(']
  | rightParen => [')']
  | leftBracket => ['[']
  | rightBracket => [']']
  | leftBrace => ['\x7b']
  | rightBrace => ['\x7d']
  | dot => ['.']
  | ampersand => ['&']
  | star => ['*']
  | plus => ['+']
  | minus => ['-']
  | tilde => ['~']
  | bang => ['!']
  | slash => ['/']
  | percent => ['%']
  | less => ['<']
  | greater => ['>']
  | caret => ['^']
  | bar => ['|']
  | question => ['?']
  | colon => [':']
  | semicolon => [';']
  | assign => ['=']
  | comma => [',']

def all : List Mark :=
  [ellipsis, shiftLeftAssign, shiftRightAssign, arrow, increment, decrement, shiftLeft, shiftRight,
    lessEqual, greaterEqual, equal, notEqual, andAnd, orOr, starAssign, slashAssign, percentAssign,
    plusAssign, minusAssign, ampersandAssign, caretAssign, barAssign, leftParen, rightParen,
    leftBracket, rightBracket, leftBrace, rightBrace, dot, ampersand, star, plus, minus, tilde,
    bang, slash, percent, less, greater, caret, bar, question, colon, semicolon, assign, comma]

/-- The longest mark at the start of a text. -/
def at? (chars : List Char) : Option Mark :=
  all.find? fun mark => mark.spelling.isPrefixOf chars

end Mark

inductive Token
  | word (text : String)
  | number (text : String)
  | string (text : String)
  | mark (mark : Mark)
deriving DecidableEq, Repr

namespace Token

/-- What a number goes on with, signs of exponents among it, and what follows. -/
def numberTail (previous : Char) : List Char → List Char × List Char
  | [] => ([], [])
  | char :: rest =>
      if isIdentifierChar char || char = '.' ||
          ((char = '+' || char = '-') && ['e', 'E', 'p', 'P'].contains previous) then
        (char :: (numberTail char rest).1, (numberTail char rest).2)
      else ([], char :: rest)

/-- What a string literal goes on with up to its last quote, and what follows. -/
def stringTail? : List Char → Option (List Char × List Char)
  | [] => none
  | '\n' :: _ => none
  | '"' :: rest => some (['"'], rest)
  | '\\' :: char :: rest =>
      (stringTail? rest).map fun tail => ('\\' :: char :: tail.1, tail.2)
  | char :: rest => (stringTail? rest).map fun tail => (char :: tail.1, tail.2)

def startsNumber (char : Char) (rest : List Char) : Bool :=
  char.isDigit || (char = '.' && rest.head?.any Char.isDigit)

def startsComment (char : Char) (rest : List Char) : Bool :=
  char = '/' && rest.head?.any fun next => next = '/' || next = '*'

/-- Cuts a token off a text. There are no comments and no character constants. -/
def read? (char : Char) (rest : List Char) : Option (Token × List Char) :=
  if startsNumber char rest then
    some (.number (String.ofList (char :: (numberTail char rest).1)), (numberTail char rest).2)
  else if isIdentifierChar char then
    some (.word (String.ofList (char :: rest.takeWhile isIdentifierChar)),
      rest.dropWhile isIdentifierChar)
  else if char = '"' then
    (stringTail? rest).map fun tail => (.string (String.ofList (char :: tail.1)), tail.2)
  else if startsComment char rest then none
  else (Mark.at? (char :: rest)).map fun mark =>
    (.mark mark, rest.drop (mark.spelling.length - 1))

theorem length_numberTail (previous : Char) (chars : List Char) :
    (numberTail previous chars).2.length ≤ chars.length := by
  induction chars generalizing previous with
  | nil => exact Nat.le_refl _
  | cons char rest induction =>
      rw [numberTail]
      split
      · exact Nat.le_succ_of_le (induction char)
      · exact Nat.le_refl _

theorem length_stringTail? {chars : List Char} {tail : List Char × List Char}
    (read : stringTail? chars = some tail) : tail.2.length ≤ chars.length := by
  fun_induction stringTail? chars generalizing tail with
  | case1 => simp at read
  | case2 => simp at read
  | case3 rest =>
      obtain rfl := Option.some.inj read
      simp
  | case4 char rest induction =>
      obtain ⟨inner, isInner, rfl⟩ := Option.map_eq_some_iff.mp read
      have := induction isInner
      simp only [List.length_cons]
      omega
  | case5 char rest _ _ _ induction =>
      obtain ⟨inner, isInner, rfl⟩ := Option.map_eq_some_iff.mp read
      have := induction isInner
      simp only [List.length_cons]
      omega

/-- Something is cut off. -/
theorem length_read? {char : Char} {rest left : List Char} {token : Token}
    (read : read? char rest = some (token, left)) : left.length ≤ rest.length := by
  unfold read? at read
  split at read
  · obtain ⟨_, rfl⟩ := Prod.mk.inj (Option.some.inj read)
    exact length_numberTail char rest
  split at read
  · obtain ⟨_, rfl⟩ := Prod.mk.inj (Option.some.inj read)
    exact (List.dropWhile_suffix _).length_le
  split at read
  · obtain ⟨tail, isTail, same⟩ := Option.map_eq_some_iff.mp read
    obtain ⟨_, rfl⟩ := Prod.mk.inj same
    exact length_stringTail? isTail
  split at read
  · simp at read
  · obtain ⟨mark, _, same⟩ := Option.map_eq_some_iff.mp read
    obtain ⟨_, rfl⟩ := Prod.mk.inj same
    simp

end Token

def isSpace (char : Char) : Bool := char = ' ' || char = '\t' || char = '\n'

theorem isSpace_of_isIdentifierChar (plain : isIdentifierChar char) : isSpace char = false := by
  rw [Bool.eq_false_iff]
  intro space
  have cases : char = ' ' ∨ char = '\t' ∨ char = '\n' := by
    simpa [isSpace, or_assoc] using space
  rcases cases with rfl | rfl | rfl <;> exact absurd plain (by decide)

def lex (chars : List Char) : Option (List Token) :=
  match chars with
  | [] => some []
  | char :: rest =>
      if isSpace char then lex rest
      else
        match cut : Token.read? char rest with
        | none => none
        | some (token, left) =>
            have _ := Token.length_read? cut
            (lex left).map (token :: ·)
termination_by chars.length
decreasing_by
  all_goals simp only [List.length_cons]
  all_goals omega

theorem lex_of_read? {rest left : List Char} {token : Token}
    (read : Token.read? char rest = some (token, left)) (visible : isSpace char = false) :
    lex (char :: rest) = (lex left).map (token :: ·) := by
  rw [lex, visible]
  simp only [Bool.false_eq_true, if_false]
  split
  · rename_i cut
    simp [cut] at read
  · rename_i cut
    obtain ⟨rfl, rfl⟩ := Prod.mk.inj (Option.some.inj (cut.symm.trans read))
    rfl

/-- Whether characters are certain tokens before a text that they leave alone. -/
def Lexes (chars : List Char) (tokens : List Token) (after : List Char) : Prop :=
  lex (chars ++ after) = (lex after).map (tokens ++ ·)

namespace Lexes

theorem nil (after : List Char) : Lexes [] [] after := by
  simp [Lexes]

theorem append {chars chars' after : List Char} {tokens tokens' : List Token}
    (first : Lexes chars tokens (chars' ++ after)) (second : Lexes chars' tokens' after) :
    Lexes (chars ++ chars') (tokens ++ tokens') after := by
  rw [Lexes, List.append_assoc, first, second, Option.map_map]
  simp [Function.comp_def]

theorem space (after : List Char) : Lexes [' '] [] after := by
  simp [Lexes, lex, isSpace]

theorem of_read? {char : Char} {rest after : List Char} {token : Token}
    (visible : isSpace char = false)
    (read : Token.read? char (rest ++ after) = some (token, after)) :
    Lexes (char :: rest) [token] after :=
  lex_of_read? read visible

/-- A name or keyword is as long as the text allows. -/
theorem word {first : Char} {rest after : List Char} (notDigit : first.isDigit = false)
    (plain : ∀ char ∈ first :: rest, isIdentifierChar char)
    (stops : ∀ char, after.head? = some char → isIdentifierChar char = false) :
    Lexes (first :: rest) [.word (String.ofList (first :: rest))] after := by
  obtain ⟨isFirst, areRest⟩ := List.forall_mem_cons.mp plain
  have noNumber : Token.startsNumber first (rest ++ after) = false := by
    have notDot : first ≠ '.' := by
      rintro rfl
      exact absurd isFirst (by decide)
    simp [Token.startsNumber, notDigit, notDot]
  have stopped : after.takeWhile isIdentifierChar = [] ∧
      after.dropWhile isIdentifierChar = after := by
    cases after with
    | nil => exact ⟨rfl, rfl⟩
    | cons char after => simp [stops char rfl]
  refine of_read? (isSpace_of_isIdentifierChar isFirst) ?_
  rw [Token.read?, noNumber, List.takeWhile_append_of_pos areRest,
    List.dropWhile_append_of_pos areRest, stopped.1, stopped.2]
  simp [isFirst]

end Lexes

/-- Whether characters after a given one all belong to a number. -/
def Token.GoesOn (previous : Char) (chars : List Char) : Prop :=
  Token.numberTail previous chars = (chars, [])

/-- A number ends where nothing can continue it. -/
theorem Token.GoesOn.numberTail_append {previous : Char} {chars after : List Char}
    (goesOn : GoesOn previous chars)
    (stops : ∀ char, after.head? = some char → isIdentifierChar char = false ∧ char ≠ '.' ∧
      char ≠ '+' ∧ char ≠ '-') :
    numberTail previous (chars ++ after) = (chars, after) := by
  induction chars generalizing previous with
  | nil =>
      cases after with
      | nil => rfl
      | cons char after =>
          obtain ⟨notPlain, notDot, notPlus, notMinus⟩ := stops char rfl
          simp [numberTail, notPlain, notDot, notPlus, notMinus]
  | cons char rest induction =>
      rw [GoesOn, numberTail] at goesOn
      split at goesOn
      · rename_i continues
        obtain ⟨sameTaken, sameLeft⟩ := Prod.mk.inj goesOn
        have inner : GoesOn char rest := Prod.ext (List.cons.inj sameTaken).2 sameLeft
        rw [List.cons_append, numberTail, if_pos continues, induction inner]
      · simp at goesOn

theorem Lexes.number {first : Char} {rest after : List Char} (digit : first.isDigit)
    (goesOn : Token.GoesOn first rest)
    (stops : ∀ char, after.head? = some char → isIdentifierChar char = false ∧ char ≠ '.' ∧
      char ≠ '+' ∧ char ≠ '-') :
    Lexes (first :: rest) [.number (String.ofList (first :: rest))] after := by
  have plain : isIdentifierChar first := by simp [isIdentifierChar, Char.isAlphanum, digit]
  refine of_read? (isSpace_of_isIdentifierChar plain) ?_
  simp [Token.read?, Token.startsNumber, digit, goesOn.numberTail_append stops]

theorem Token.stringTail?_of_plain (inLine : char ≠ '\n') (notQuote : char ≠ '"')
    (notEscape : char ≠ '\\') (rest : List Char) :
    stringTail? (char :: rest) = (stringTail? rest).map fun tail => (char :: tail.1, tail.2) := by
  rw [stringTail?.eq_5]
  · exact inLine
  · exact notQuote
  · exact fun _ _ escapes => absurd escapes notEscape

/-- The characters with an escape of their own, and their letters. -/
def lettered : List (Char × Char) :=
  [('\\', '\\'), ('"', '"'), ('\n', 'n'), ('\t', 't'), ('\r', 'r')]

/-- What is written for a character: its escape, its number or itself. -/
inductive Escapes (char : Char) : List Char → Prop
  | letter {letter : Char} : (char, letter) ∈ lettered → Escapes char ['\\', letter]
  | number : char.toNat < 0x20 → char ∉ ['\n', '\t', '\r'] →
      Escapes char ('\\' :: octal char.toNat)
  | plain : ¬ char.toNat < 0x20 → char ≠ '\\' → char ≠ '"' → Escapes char [char]

theorem escapes_escapedChar (char : Char) : Escapes char (escapedChar char) := by
  unfold escapedChar
  split_ifs with isBackslash isQuote isLineEnd isTab isReturn isControl
  · exact .letter (by simp [lettered, isBackslash])
  · exact .letter (by simp [lettered, isQuote])
  · exact .letter (by simp [lettered, isLineEnd])
  · exact .letter (by simp [lettered, isTab])
  · exact .letter (by simp [lettered, isReturn])
  · exact .number isControl (by simp [isLineEnd, isTab, isReturn])
  · exact .plain isControl isBackslash isQuote

theorem Escapes.ne_lineEnd (visible : ¬ char.toNat < 0x20) : char ≠ '\n' := by
  rintro rfl
  exact visible (by decide)

theorem octal_eq (code : Nat) : ∃ first second third, octal code = [first, second, third] ∧
    ∀ char ∈ [first, second, third], char.isDigit := by
  have digit (number : Nat) : (Char.ofNat ('0'.toNat + number % 8)).isDigit := by
    have below : number % 8 < 8 := Nat.mod_lt _ (by decide)
    generalize number % 8 = small at below
    revert small
    decide
  have digits := And.intro (digit (code / 64)) (And.intro (digit (code / 8)) (digit code))
  exact ⟨_, _, _, rfl, by simpa using digits⟩

theorem ne_of_isDigit (digit : char.isDigit) (other : Char) (foreign : other.isDigit = false) :
    char ≠ other := by
  rintro rfl
  simp [foreign] at digit

theorem Token.stringTail?_escapedChar (char : Char) (rest : List Char) :
    stringTail? (escapedChar char ++ rest) =
      (stringTail? rest).map fun tail => (escapedChar char ++ tail.1, tail.2) := by
  have digit {char : Char} (digit : char.isDigit) (rest : List Char) :=
    stringTail?_of_plain (ne_of_isDigit digit '\n' rfl) (ne_of_isDigit digit '"' rfl)
      (ne_of_isDigit digit '\\' rfl) rest
  have written := escapes_escapedChar char
  generalize escapedChar char = chars at written
  cases written with
  | letter known =>
      simp only [lettered, List.mem_cons, Prod.mk.injEq, List.not_mem_nil, or_false] at known
      rcases known with ⟨rfl, rfl⟩ | ⟨rfl, rfl⟩ | ⟨rfl, rfl⟩ | ⟨rfl, rfl⟩ | ⟨rfl, rfl⟩ <;> rfl
  | number _ _ =>
      -- Of the digits only the first one is escaped.
      obtain ⟨first, second, third, isOctal, digits⟩ := octal_eq char.toNat
      simp only [List.forall_mem_cons] at digits
      rw [isOctal]
      simp only [List.cons_append, List.nil_append]
      rw [stringTail?, digit digits.2.1, digit digits.2.2.1]
      simp [Function.comp_def]
  | plain visible notEscape notQuote =>
      exact stringTail?_of_plain (Escapes.ne_lineEnd visible) notQuote notEscape rest

/-- A string literal ends at its own quote. -/
theorem Lexes.string (text : String) (after : List Char) :
    Lexes (stringLiteral text).toList [.string (stringLiteral text)] after := by
  have tail (chars : List Char) :
      Token.stringTail? (chars.flatMap escapedChar ++ '"' :: after) =
        some (chars.flatMap escapedChar ++ ['"'], after) := by
    induction chars with
    | nil => rfl
    | cons char chars induction =>
        rw [List.flatMap_cons, List.append_assoc, Token.stringTail?_escapedChar, induction]
        simp
  have written : (stringLiteral text).toList =
      '"' :: (text.toList.flatMap escapedChar ++ ['"']) := by
    simp [stringLiteral]
  have whole : stringLiteral text =
      String.ofList ('"' :: (text.toList.flatMap escapedChar ++ ['"'])) := by
    rw [← written, String.ofList_toList]
  rw [written, whole]
  refine of_read? rfl ?_
  have split : text.toList.flatMap escapedChar ++ ['"'] ++ after =
      text.toList.flatMap escapedChar ++ '"' :: after := by simp
  rw [split]
  have quote : Token.read? '"' (text.toList.flatMap escapedChar ++ '"' :: after) =
      (Token.stringTail? (text.toList.flatMap escapedChar ++ '"' :: after)).map fun tail =>
        (.string (String.ofList ('"' :: tail.1)), tail.2) := rfl
  rw [quote, tail]
  rfl

namespace Lexes

/-- Before a blank every mark stands for itself. -/
theorem mark_space (mark : Mark) (after : List Char) :
    Lexes mark.spelling [.mark mark] (' ' :: after) := by
  cases mark <;> exact of_read? rfl rfl

end Lexes

def Mark.isAlone : Mark → Bool
  | leftParen | rightParen | leftBracket | rightBracket | leftBrace | rightBrace | comma
  | arrow => true
  | _ => false

namespace Lexes

theorem mark_alone (mark : Mark) (alone : mark.isAlone) (after : List Char) :
    Lexes mark.spelling [.mark mark] after := by
  cases mark <;> first | exact of_read? rfl rfl | simp [Mark.isAlone] at alone

end Lexes

def Mark.isUnary : Mark → Bool
  | ampersand | star | plus | minus | tilde | bang => true
  | _ => false

/-- The characters that can prolong a mark before an operand. -/
def joining : List Char := ['=', '>', '+', '-', '&']

/-- A character is a mark where the next does not prolong it. -/
theorem Mark.at?_cons {next : Char}
    (free : ∀ mark ∈ all, mark.spelling.head? = some char → mark.spelling.tail.head? ≠ some next)
    (after : List Char) : at? (char :: next :: after) = at? [char] := by
  have same : ∀ mark ∈ all,
      mark.spelling.isPrefixOf (char :: next :: after) = mark.spelling.isPrefixOf [char] := by
    intro mark member
    have free := free mark member
    match isSpelling : mark.spelling with
    | [] => rfl
    | [first] => rfl
    | first :: second :: more =>
        have different : first = char → second ≠ next := by
          rintro rfl rfl
          exact free (by rw [isSpelling]; rfl) (by rw [isSpelling]; rfl)
        by_cases isFirst : first = char
        · simp [List.isPrefixOf, different isFirst]
        · simp [List.isPrefixOf, isFirst]
  exact List.find?_congr same

namespace Lexes

theorem mark_unary (mark : Mark) (isUnary : mark.isUnary) {after : List Char}
    (free : ∀ char, after.head? = some char → char ∉ joining) :
    Lexes mark.spelling [.mark mark] after := by
  cases after with
  | nil => cases mark <;> exact of_read? rfl rfl
  | cons next after =>
      have free := free next rfl
      have joins : ∀ longer ∈ Mark.all, longer.spelling.head? = mark.spelling.head? →
          longer.spelling.tail.head? ≠ some next := by
        intro longer _ sameHead isNext
        apply free
        revert sameHead isNext
        cases mark <;> simp [Mark.isUnary] at isUnary <;> cases longer <;>
          simp +contextual [Mark.spelling, joining, eq_comm]
      have alone (char : Char) (isChar : mark.spelling.head? = some char) :=
        Mark.at?_cons (isChar ▸ joins) after
      cases mark <;> simp [Mark.isUnary] at isUnary
      all_goals
        refine of_read? rfl ?_
        rw [List.nil_append, Token.read?, alone _ rfl]
        rfl

theorem mark_dot {after : List Char}
    (free : ∀ char, after.head? = some char → char ≠ '.' ∧ char.isDigit = false) :
    Lexes Mark.dot.spelling [.mark .dot] after := by
  cases after with
  | nil => exact of_read? rfl rfl
  | cons next after =>
      obtain ⟨notDot, notDigit⟩ := free next rfl
      have joins : ∀ longer ∈ Mark.all, longer.spelling.head? = some '.' →
          longer.spelling.tail.head? ≠ some next := by
        intro longer _
        cases longer <;> simp [Mark.spelling, notDot.symm]
      have noNumber : Token.startsNumber '.' (next :: after) = false := by
        simp [Token.startsNumber, notDigit, show '.'.isDigit = false from rfl]
      refine of_read? rfl ?_
      rw [List.nil_append, Token.read?, Mark.at?_cons joins, noNumber]
      rfl

end Lexes

end C

end Offside
