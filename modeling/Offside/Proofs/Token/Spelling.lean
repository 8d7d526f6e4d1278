import Mathlib.Data.List.Nodup
import Mathlib.Data.List.TakeWhile
import Offside.Token.Lexeme

/-!
# How tokens are spelled

What characters make a token of each sort, and what may stand between two tokens, said without
reading any text. Cutting a lexeme off a text meets this description: what is passed over is blank,
and what becomes a token spells it.
-/

namespace Offside

/-- What stands between the quotes of a literal, and what it stands for. -/
inductive Quotes (quote : Char) : List Char → List Char → Prop
  | nil : Quotes quote [] []
  | escape {char meant : Char} {inner decoded : List Char} :
      Lexeme.escaped? char = some meant → Quotes quote inner decoded →
      Quotes quote ('\\' :: char :: inner) (meant :: decoded)
  | backslash {char : Char} {inner decoded : List Char} :
      Lexeme.escaped? char = none → Quotes quote (char :: inner) decoded →
      Quotes quote ('\\' :: char :: inner) ('\\' :: decoded)
  | plain {char : Char} {inner decoded : List Char} :
      char ≠ quote → char ≠ '\\' → char ≠ '\n' → Quotes quote inner decoded →
      Quotes quote (char :: inner) (char :: decoded)

def AreDigits (chars : List Char) : Prop := chars ≠ [] ∧ ∀ char ∈ chars, char.isDigit

/-- Digits, possibly with a point and more digits after them. -/
def IsNumeral (chars : List Char) : Prop :=
  AreDigits chars ∨
    ∃ whole fraction, chars = whole ++ '.' :: fraction ∧ AreDigits whole ∧ AreDigits fraction

/-- A letter or an underscore, then letters, digits and underscores. -/
def IsIdentifier (chars : List Char) : Prop :=
  ∃ first rest, chars = first :: rest ∧ Lexeme.isIdentifierStart first ∧
    ∀ char ∈ rest, Lexeme.isIdentifierRest char

/-- Whether a text is an identifier that is not reserved. -/
def IsWord (text : String) : Prop :=
  IsIdentifier text.toList ∧ ∀ word : Keyword, word.spelling ≠ text

/-- Whether characters spell a token, which layout and faults are not. -/
def Token.Spells (kind : Token.Kind) (text : Option String) (spelling : List Char) : Prop :=
  match kind with
  | .number => text = some (String.ofList spelling) ∧ IsNumeral spelling
  | .string => ∃ quote inner decoded, (quote = '"' ∨ quote = '\'') ∧
      spelling = quote :: (inner ++ [quote]) ∧ Quotes quote inner decoded ∧
      text = some (String.ofList decoded)
  | .identifier => text = some (String.ofList spelling) ∧ IsIdentifier spelling ∧
      ∀ word : Keyword, word.spelling ≠ String.ofList spelling
  | .keyword word => text = none ∧ spelling = word.spelling.toList
  | .punct mark => text = none ∧ spelling = mark.spelling.toList
  | .newline => text = none ∧ spelling = ['\n']
  | .indent | .dedent | .endOfFile | .error => False

/-- Whether nothing is left or a line end comes first. -/
def EndsLine (chars : List Char) : Prop := chars = [] ∨ ∃ rest, chars = '\n' :: rest

def IsBlank (char : Char) : Prop := char = ' ' ∨ char = '\t' ∨ char = '\r'

/-- What may stand between tokens: blanks, and comments up to the end of their line. -/
inductive Gap (following : List Char) : List Char → Prop
  | nil : Gap following []
  | blank {char : Char} {gap : List Char} : IsBlank char → Gap following gap →
      Gap following (char :: gap)
  | comment {body gap : List Char} : '\n' ∉ body → EndsLine (gap ++ following) →
      Gap following gap → Gap following ('#' :: (body ++ gap))

/-- Gaps add up. -/
theorem Gap.append {following left right : List Char} (first : Gap (right ++ following) left)
    (second : Gap following right) : Gap following (left ++ right) := by
  induction first with
  | nil => exact second
  | blank isBlank _ rest => exact .blank isBlank rest
  | @comment body gap inLine ends _ rest =>
      have whole : Gap following ('#' :: (body ++ (gap ++ right))) :=
        .comment inLine (by simpa using ends) rest
      simpa using whole

theorem Gap.lineEnd_notMem {following gap : List Char} (isGap : Gap following gap) :
    '\n' ∉ gap := by
  induction isGap with
  | nil => simp
  | blank isBlank _ rest =>
      rcases isBlank with rfl | rfl | rfl <;> simpa using rest
  | comment inLine _ _ rest => simp [inLine, rest]

theorem Quotes.lineEnd_notMem {quote : Char} {inner decoded : List Char}
    (quotes : Quotes quote inner decoded) : '\n' ∉ inner := by
  induction quotes with
  | nil => simp
  | @escape char meant inner decoded known _ rest =>
      have different : char ≠ '\n' := by
        rintro rfl
        simp [Lexeme.escaped?] at known
      simp [Ne.symm different, rest]
  | backslash _ _ rest => simpa using rest
  | plain _ _ notLineEnd _ rest => simp [Ne.symm notLineEnd, rest]

theorem AreDigits.lineEnd_notMem {chars : List Char} (digits : AreDigits chars) :
    '\n' ∉ chars := by
  intro member
  exact absurd (digits.2 _ member) (by decide)

theorem Token.Spells.lineEnd_notMem {kind : Token.Kind} {text : Option String}
    {spelling : List Char} (spells : Token.Spells kind text spelling) (inLine : kind ≠ .newline) :
    '\n' ∉ spelling := by
  cases kind with
  | number =>
      rcases spells.2 with digits | ⟨whole, fraction, rfl, digits, more⟩
      · exact digits.lineEnd_notMem
      · simp [digits.lineEnd_notMem, more.lineEnd_notMem]
  | string =>
      obtain ⟨quote, inner, decoded, isQuote, rfl, quotes, _⟩ := spells
      have body := quotes.lineEnd_notMem
      rcases isQuote with rfl | rfl <;> simp [body]
  | identifier =>
      obtain ⟨_, ⟨first, rest, rfl, starts, continues⟩, _⟩ := spells
      intro member
      rcases List.mem_cons.mp member with rfl | member
      · simp [Lexeme.isIdentifierStart] at starts
      · exact absurd (continues _ member) (by decide)
  | keyword word =>
      obtain ⟨_, rfl⟩ := spells
      cases word <;> decide
  | punct mark =>
      obtain ⟨_, rfl⟩ := spells
      cases mark <;> decide
  | newline => exact absurd rfl inLine
  | indent => exact spells.elim
  | dedent => exact spells.elim
  | endOfFile => exact spells.elim
  | error => exact spells.elim

theorem Keyword.mem_all (word : Keyword) : word ∈ Keyword.all := by
  cases word <;> decide

theorem Punct.mem_all (mark : Punct) : mark ∈ Punct.all := by
  cases mark <;> decide

/-- No two sorts of token have one name. -/
theorem Token.Kind.ofName?_name (kind : Token.Kind) : ofName? kind.name = some kind := by
  have listed : kind ∈ all := by
    cases kind <;> simp [all, Keyword.mem_all, Punct.mem_all]
  have distinct : (all.map name).Nodup := by decide +kernel
  cases found : ofName? kind.name with
  | none => simpa using List.find?_eq_none.mp found kind listed
  | some other =>
      have sameName : other.name = kind.name := by simpa using List.find?_some found
      rw [List.inj_on_of_nodup_map distinct (List.mem_of_find?_eq_some found) listed sameName]

namespace Lexeme

theorem code_of_isAlpha {char : Char} (letter : char.isAlpha) :
    65 ≤ char.toNat ∧ char.toNat ≤ 122 := by
  rcases (Bool.or_eq_true _ _).mp letter with upper | lower
  · obtain ⟨low, high⟩ := of_decide_eq_true upper
    have low : 65 ≤ char.toNat := UInt32.le_iff_toNat_le.mp low
    have high : char.toNat ≤ 90 := UInt32.le_iff_toNat_le.mp high
    omega
  · obtain ⟨low, high⟩ := (Bool.and_eq_true _ _).mp lower
    have low : 97 ≤ char.toNat := UInt32.le_iff_toNat_le.mp (of_decide_eq_true low)
    have high : char.toNat ≤ 122 := UInt32.le_iff_toNat_le.mp (of_decide_eq_true high)
    omega

theorem code_of_isDigit {char : Char} (digit : char.isDigit) :
    48 ≤ char.toNat ∧ char.toNat ≤ 57 := by
  obtain ⟨low, high⟩ := (Bool.and_eq_true _ _).mp digit
  exact ⟨UInt32.le_iff_toNat_le.mp (of_decide_eq_true low),
    UInt32.le_iff_toNat_le.mp (of_decide_eq_true high)⟩

/-- Whether a lexeme is what its sort promises, given what follows it. -/
def Sound : Lexeme → List Char → Prop
  | .blank spelling, following => Gap following spelling
  | .lineEnd, _ => True
  | .token kind text spelling, _ => Token.Spells kind text spelling ∧ kind ≠ .newline
  | .fault _ _, _ => True

theorem LiteralBody.quotes_of_closed {quote : Char} {chars : List Char}
    (isQuote : escaped? quote ≠ none) (closed : (read quote chars).closed = true) :
    ∃ inner, (read quote chars).spelling = inner ++ [quote] ∧
      Quotes quote inner (read quote chars).decoded := by
  fun_induction read quote chars with
  | case1 => simp at closed
  | case2 => simp at closed
  | case3 char rest meant known induction =>
      obtain ⟨inner, isInner, quotes⟩ := induction closed
      exact ⟨'\\' :: char :: inner, by simp [prepend, isInner], .escape known quotes⟩
  | case4 char rest unknown induction =>
      obtain ⟨inner, isInner, quotes⟩ := induction closed
      have split := read_spelling_append_rest quote (char :: rest)
      rw [isInner] at split
      -- The quote itself can be escaped, so it is not what the backslash stands before.
      cases inner with
      | nil =>
          obtain rfl : quote = char := (List.cons.inj split).1
          exact absurd unknown isQuote
      | cons first inner =>
          obtain rfl : first = char := (List.cons.inj split).1
          exact ⟨'\\' :: first :: inner, by simp [prepend, isInner], .backslash unknown quotes⟩
  | case5 => exact ⟨[], rfl, .nil⟩
  | case6 char rest notLineEnd noPair other induction =>
      obtain ⟨inner, isInner, quotes⟩ := induction closed
      have notBackslash : char ≠ '\\' := by
        intro isBackslash
        cases rest with
        | nil => simp [prepend, read] at closed
        | cons next rest => exact noPair next rest isBackslash rfl
      exact ⟨char :: inner, by simp [prepend, isInner],
        .plain other notBackslash (fun isLineEnd => notLineEnd isLineEnd) quotes⟩

theorem isNumeral_readNumeral {char : Char} {rest : List Char} (digit : char.isDigit = true) :
    IsNumeral (readNumeral (char :: rest)).1 := by
  have areDigits {first : Char} {more : List Char} (isDigit : first.isDigit = true) :
      AreDigits ((first :: more).takeWhile Char.isDigit) :=
    ⟨by simp [isDigit], fun _ member => List.mem_takeWhile_imp member⟩
  rw [readNumeral]
  dsimp only
  split
  · rename_i next more _
    split
    · rename_i isDigit
      exact .inr ⟨_, _, rfl, areDigits digit, areDigits isDigit⟩
    · exact .inl (areDigits digit)
  · exact .inl (areDigits digit)

theorem spelling_of_readPunct? {char : Char} {rest written following : List Char} {mark : Punct}
    (found : readPunct? char rest = some (mark, written, following)) :
    written = mark.spelling.toList := by
  have ofChar {mark : Punct} (isMark : Punct.ofChar? char = some mark) :
      [char] = mark.spelling.toList := by
    unfold Punct.ofChar? at isMark
    split at isMark <;> cases isMark <;> rfl
  have ofPair {next : Char} {mark : Punct} (isMark : Punct.ofPair? char next = some mark) :
      [char, next] = mark.spelling.toList := by
    unfold Punct.ofPair? at isMark
    split at isMark <;> cases isMark <;> rfl
  have alone : ((Punct.ofChar? char).map fun mark => (mark, [char], rest)) =
      some (mark, written, following) → written = mark.spelling.toList := by
    intro mapped
    obtain ⟨single, isSingle, equal⟩ := Option.map_eq_some_iff.mp mapped
    obtain ⟨rfl, rfl, _⟩ : single = mark ∧ [char] = written ∧ rest = following := by
      simpa using equal
    exact ofChar isSingle
  unfold readPunct? at found
  split at found
  · split at found
    · rename_i next more _ double isDouble
      obtain ⟨rfl, rfl, _⟩ : double = mark ∧ [char, next] = written ∧ more = following := by
        simpa using found
      exact ofPair isDouble
    · exact alone found
  · exact alone found

theorem endsLine_dropWhile (chars : List Char) : EndsLine (chars.dropWhile (· ≠ '\n')) := by
  cases left : chars.dropWhile (· ≠ '\n') with
  | nil => exact .inl rfl
  | cons next more =>
      have stops := List.head?_dropWhile_not (· ≠ '\n') chars
      rw [left] at stops
      obtain rfl : next = '\n' := by simpa using stops
      exact .inr ⟨more, rfl⟩

theorem sound_read (char : Char) (rest : List Char) :
    Sound (read char rest).1 (read char rest).2 := by
  unfold read
  split
  · rename_i isBlank
    exact .blank (by simpa [IsBlank, or_assoc] using isBlank) .nil
  split
  · rename_i isHash
    subst isHash
    have comment : Gap (rest.dropWhile (· ≠ '\n')) ('#' :: (rest.takeWhile (· ≠ '\n') ++ [])) := by
      refine .comment ?_ ?_ .nil
      · intro member
        simpa using List.mem_takeWhile_imp member
      · exact endsLine_dropWhile rest
    simpa [Sound] using comment
  split
  · trivial
  split
  · rename_i isQuote
    have quote : char = '"' ∨ char = '\'' := by simpa using isQuote
    dsimp only
    split
    · rename_i closed
      obtain ⟨inner, isInner, quotes⟩ :=
        LiteralBody.quotes_of_closed (by rcases quote with rfl | rfl <;> nofun) closed
      exact ⟨⟨char, inner, _, quote, by rw [isInner], quotes, rfl⟩, nofun⟩
    · trivial
  split
  · rename_i digit
    exact ⟨⟨rfl, isNumeral_readNumeral digit⟩, nofun⟩
  split
  · rename_i starts
    have isIdentifier : IsIdentifier (char :: rest.takeWhile isIdentifierRest) :=
      ⟨char, _, rfl, starts, fun _ member => List.mem_takeWhile_imp member⟩
    dsimp only
    split
    · rename_i reserved isReserved
      have spelled := List.find?_some isReserved
      refine ⟨⟨rfl, ?_⟩, nofun⟩
      rw [of_decide_eq_true spelled, String.toList_ofList]
    · rename_i unreserved
      refine ⟨⟨rfl, isIdentifier, ?_⟩, nofun⟩
      intro word
      simpa using List.find?_eq_none.mp unreserved word word.mem_all
  · split
    · rename_i mark written following found
      exact ⟨⟨rfl, spelling_of_readPunct? found⟩, nofun⟩
    · trivial

/-- What is cut off a text makes it up together with what follows. -/
theorem of_read {char : Char} {rest following : List Char} {lexeme : Lexeme}
    (cut : read char rest = (lexeme, following)) :
    lexeme.spelling ++ following = char :: rest ∧ Sound lexeme following := by
  have split := read_spelling_append char rest
  have sound := sound_read char rest
  rw [cut] at split sound
  exact ⟨split, sound⟩

end Lexeme

end Offside
