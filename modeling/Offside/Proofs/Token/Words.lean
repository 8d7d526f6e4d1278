import Mathlib.Data.List.DropRight
import Offside.Proofs.Token.Balance

/-!
# A source is made up of its words

A source that can be scanned to its end is the concatenation of the spellings of its tokens, with
only blanks and comments between them.
-/

namespace Offside

theorem byteLength_append (left right : List Char) :
    byteLength (left ++ right) = byteLength left + byteLength right := by
  induction left with
  | nil => simp [byteLength]
  | cons char left induction =>
      simp only [List.cons_append, byteLength, induction]
      omega

theorem utf8ByteSize_ofList (chars : List Char) :
    (String.ofList chars).utf8ByteSize = byteLength chars := by
  induction chars with
  | nil => rfl
  | cons char chars induction =>
      rw [String.ofList_cons, String.utf8ByteSize_append, induction, byteLength,
        String.utf8ByteSize_singleton]

namespace Token

def lastLine (chars : List Char) : List Char := chars.rtakeWhile (· ≠ '\n')

theorem lastLine_append {chars : List Char} (before : List Char) (inLine : '\n' ∉ chars) :
    lastLine (before ++ chars) = lastLine before ++ chars := by
  have passed : ∀ char ∈ chars.reverse, decide (char ≠ '\n') = true := by
    intro char member
    have different : char ≠ '\n' := by
      rintro rfl
      exact inLine (List.mem_reverse.mp member)
    simpa using different
  rw [lastLine, List.rtakeWhile, List.reverse_append, List.takeWhile_append_of_pos passed,
    List.reverse_append, List.reverse_reverse]
  rfl

/-- Whether a line and a column are those of what comes after a text. -/
structure ComesAfter (before : List Char) (line column : Nat) : Prop where
  line_eq : line = 1 + before.count '\n'
  column_eq : column = 1 + (String.ofList (lastLine before)).utf8ByteSize

namespace ComesAfter

variable {before chars : List Char} {line column : Nat}

theorem start : ComesAfter [] 1 1 where
  line_eq := rfl
  column_eq := rfl

theorem append (here : ComesAfter before line column) (inLine : '\n' ∉ chars) :
    ComesAfter (before ++ chars) line (column + byteLength chars) where
  line_eq := by
    rw [List.count_append, List.count_eq_zero_of_not_mem inLine]
    exact here.line_eq
  column_eq := by
    rw [lastLine_append before inLine, utf8ByteSize_ofList, byteLength_append,
      here.column_eq, utf8ByteSize_ofList]
    omega

theorem lineEnd (here : ComesAfter before line column) :
    ComesAfter (before ++ ['\n']) (line + 1) 1 where
  line_eq := by
    rw [List.count_append, here.line_eq]
    simp [Nat.add_assoc]
  column_eq := by
    rw [lastLine, List.rtakeWhile_concat_neg _ _ _ (by simp)]
    rfl

end ComesAfter

def isSpelled (token : Token) : Bool :=
  token.kind ≠ .indent && token.kind ≠ .dedent && token.kind ≠ .endOfFile

/-- A token with its spelling and what is passed over before that. -/
structure Word where
  gap : List Char
  spelling : List Char
  token : Token

def textOf (words : List Word) : List Char := words.flatMap fun word => word.gap ++ word.spelling

@[simp]
theorem textOf_nil : textOf [] = [] := rfl

@[simp]
theorem textOf_cons (word : Word) (words : List Word) :
    textOf (word :: words) = word.gap ++ (word.spelling ++ textOf words) := by
  simp [textOf]

/-- Whether a word is written between two texts and starts where its token says. -/
structure Word.Between (before : List Char) (word : Word) (after : List Char) : Prop where
  gap : Gap (word.spelling ++ after) word.gap
  spells : Spells word.token.kind word.token.lexeme word.spelling
  place : ComesAfter (before ++ word.gap) word.token.line word.token.column

/-- Whether words and a last gap make up a text that comes after another. -/
structure MakesUp (before chars : List Char) (words : List Word) (trailing : List Char) : Prop where
  text_eq : chars = textOf words ++ trailing
  trailing_gap : Gap [] trailing
  between : ∀ (earlier : List Word) (word : Word) (later : List Word),
    words = earlier ++ word :: later →
    word.Between (before ++ textOf earlier) (textOf later ++ trailing)

namespace MakesUp

variable {before following trailing : List Char} {words : List Word}

theorem nil : MakesUp before [] [] [] := ⟨rfl, .nil, by simp⟩

/-- A word in front of others. -/
theorem cons {word : Word} (between : word.Between before following)
    (later : MakesUp (before ++ (word.gap ++ word.spelling)) following words trailing) :
    MakesUp before (word.gap ++ (word.spelling ++ following)) (word :: words) trailing := by
  refine ⟨by simp [later.text_eq], later.trailing_gap, ?_⟩
  intro earlier other others split
  cases earlier with
  | nil =>
      obtain ⟨rfl, rfl⟩ := List.cons.inj split
      simpa [← later.text_eq] using between
  | cons first earlier =>
      obtain ⟨rfl, rest⟩ := List.cons.inj split
      simpa using later.between earlier other others rest

theorem uncons {chars : List Char} {word : Word}
    (all : MakesUp before chars (word :: words) trailing) :
    ∃ following, chars = word.gap ++ (word.spelling ++ following) ∧
      word.Between before following ∧
      MakesUp (before ++ (word.gap ++ word.spelling)) following words trailing := by
  refine ⟨textOf words ++ trailing, by simp [all.text_eq], ?_, rfl, all.trailing_gap, ?_⟩
  · simpa using all.between [] word words rfl
  · rintro earlier other later rfl
    simpa using all.between (word :: earlier) other later rfl

theorem blank {gap : List Char} (isGap : Gap following gap)
    (later : MakesUp (before ++ gap) following words trailing) :
    ∃ words' trailing', words'.map (·.token) = words.map (·.token) ∧
      MakesUp before (gap ++ following) words' trailing' := by
  cases words with
  | nil =>
      have isTrailing : following = trailing := by simpa using later.text_eq
      subst isTrailing
      exact ⟨[], gap ++ following, rfl, rfl,
        .append (by simpa using isGap) later.trailing_gap, by simp⟩
  | cons first words =>
      obtain ⟨rest, rfl, between, others⟩ := later.uncons
      refine ⟨{ first with gap := gap ++ first.gap } :: words, trailing, rfl, ?_⟩
      have widened : Word.Between before { first with gap := gap ++ first.gap } rest :=
        ⟨isGap.append between.gap, between.spells, by simpa using between.place⟩
      simpa using cons widened (by simpa using others)

end MakesUp

/-- What characters spell is not layout. -/
theorem Spells.isSpelled {token : Token} {spelling : List Char}
    (spells : Spells token.kind token.lexeme spelling) : token.isSpelled = true := by
  cases kind : token.kind <;> simp_all [Spells, Token.isSpelled]

theorem filter_isSpelled_shift (indents : List Nat) (width line : Nat) :
    ((Shift.of indents width).kinds.map (layout line)).filter isSpelled = [] := by
  rw [Shift.of]
  split <;> simp [isSpelled, layout]

theorem filter_isSpelled_closing (indents : List Nat) (line : Nat) :
    (closing indents line).filter isSpelled = [] := by
  simp [closing, isSpelled, layout]

theorem gap_of_isIndentation {blanks : List Char} (following : List Char)
    (indented : ∀ char ∈ blanks, isIndentation char) :
    Gap following blanks ∧ byteLength blanks = blanks.length := by
  induction blanks with
  | nil => exact ⟨.nil, rfl⟩
  | cons char blanks induction =>
      obtain ⟨isGap, bytes⟩ := induction fun other member => indented other (.tail _ member)
      have isBlank : char = ' ' ∨ char = '\t' := by
        simpa [isIndentation] using indented char (.head _)
      refine ⟨.blank (isBlank.imp_right .inl) isGap, ?_⟩
      rw [byteLength, bytes, List.length_cons, Nat.add_comm]
      rcases isBlank with rfl | rfl <;> rfl

/-- The column after the indentation of a line. -/
theorem ComesAfter.indented {before blanks : List Char} {line : Nat}
    (start : ComesAfter before line 1) (indented : ∀ char ∈ blanks, isIndentation char) :
    ComesAfter (before ++ blanks) line (blanks.length + 1) := by
  obtain ⟨isGap, bytes⟩ := gap_of_isIndentation [] indented
  have inside := start.append isGap.lineEnd_notMem
  rwa [bytes, Nat.add_comm] at inside

/-- A text without a fault is made up of words for its tokens. -/
theorem exists_makesUp {indents : List Nat} {line : Nat} {column : Option Nat}
    {chars : List Char} {tokens : List Token} (scans : Scans indents line column chars tokens)
    (faultless : ∀ token ∈ tokens, token.kind ≠ .error) {before : List Char}
    (here : ComesAfter before line (column.getD 1)) :
    ∃ words trailing, words.map (·.token) = tokens.filter isSpelled ∧
      MakesUp before chars words trailing := by
  induction scans generalizing before with
  | finish => exact ⟨[], [], by simp [filter_isSpelled_closing], .nil⟩
  | fault => exact absurd rfl (faultless _ (.head _))
  | blank isGap _ induction =>
      obtain ⟨words, trailing, areTokens, later⟩ :=
        induction faultless (here.append isGap.lineEnd_notMem)
      obtain ⟨words', trailing', sameTokens, all⟩ := later.blank isGap
      exact ⟨words', trailing', sameTokens.trans areTokens, all⟩
  | @word _ line column kind text spelling following tokens spells inLine _ induction =>
      obtain ⟨words, trailing, areTokens, later⟩ :=
        induction (fun token member => faultless token (.tail _ member))
          (here.append (spells.lineEnd_notMem inLine))
      have isWord : Word.Between before ⟨[], spelling, ⟨kind, text, line, column⟩⟩ following :=
        ⟨.nil, spells, by simpa using here⟩
      refine ⟨_ :: words, trailing, ?_, later.cons isWord⟩
      rw [List.map_cons, areTokens, List.filter_cons_of_pos spells.isSpelled]
  | @lineEnd _ line column following tokens _ induction =>
      obtain ⟨words, trailing, areTokens, later⟩ :=
        induction (fun token member => faultless token (.tail _ member)) here.lineEnd
      have isWord : Word.Between before ⟨[], ['\n'], ⟨.newline, none, line, column⟩⟩ following :=
        ⟨.nil, ⟨rfl, rfl⟩, by simpa using here⟩
      refine ⟨_ :: words, trailing, ?_, later.cons isWord⟩
      rw [List.map_cons, areTokens, List.filter_cons_of_pos rfl]
  | bare indented _ _ induction =>
      obtain ⟨words, trailing, areTokens, later⟩ := induction faultless (here.indented indented)
      obtain ⟨words', trailing', sameTokens, all⟩ :=
        later.blank (gap_of_isIndentation _ indented).1
      exact ⟨words', trailing', sameTokens.trans areTokens, all⟩
  | aligned indented _ _ induction =>
      obtain ⟨words, trailing, areTokens, later⟩ :=
        induction (fun token member => faultless token (List.mem_append_right _ member))
          (here.indented indented)
      obtain ⟨words', trailing', sameTokens, all⟩ :=
        later.blank (gap_of_isIndentation _ indented).1
      refine ⟨words', trailing', ?_, all⟩
      rw [sameTokens, areTokens, List.filter_append, filter_isSpelled_shift, List.nil_append]
  | misaligned => exact absurd rfl (faultless _ (List.mem_append_right _ (.head _)))

/-- No token of a source that ends with its end stands for a fault. -/
theorem kind_ne_error {source : String}
    (ends : (ofSource source).getLast?.map (·.kind) = some .endOfFile) :
    ∀ token ∈ ofSource source, token.kind ≠ .error := by
  have closes : Closes 0 (ofSource source) := .of_scans (scans_ofSource source) (by simp)
  obtain ⟨body, last, whole, isLast, others⟩ := closes.ends
  have isEnd : last.kind = .endOfFile := by simpa [whole] using ends
  intro token member
  rw [whole] at member
  rcases List.mem_append.mp member with inside | isLast
  · exact fun isError => others token inside (.inr isError)
  · obtain rfl := List.mem_singleton.mp isLast
    simp [isEnd]

/-- A source that is scanned to its end is made up of the spellings of its tokens, in order, with
only blanks and comments between. Each token says on which line and in which column its spelling
starts. -/
theorem ofSource_spelled (source : String)
    (ends : (ofSource source).getLast?.map (·.kind) = some .endOfFile) :
    ∃ words trailing, words.map (·.token) = (ofSource source).filter isSpelled ∧
      MakesUp [] source.toList words trailing :=
  exists_makesUp (scans_ofSource source) (kind_ne_error ends) .start

theorem ofSource_spelled_commented :
    (ofSource "if a:\n\tb = 'é\\n' # ü\n").getLast?.map (·.kind) = some .endOfFile ∧
      ∃ words trailing,
        words.map (·.token) = (ofSource "if a:\n\tb = 'é\\n' # ü\n").filter isSpelled ∧
        MakesUp [] "if a:\n\tb = 'é\\n' # ü\n".toList words trailing := by
  have ends : (ofSource "if a:\n\tb = 'é\\n' # ü\n").getLast?.map (·.kind) = some .endOfFile := by
    with_unfolding_all rfl
  exact ⟨ends, ofSource_spelled _ ends⟩

end Token

end Offside
