import Offside.Proofs.Token.Scan

/-!
# Lines of a source

A source can be cut after any line end. What stands before the cut is scanned without regard to what
follows, and leaves nothing behind but the number of the next line and the widths of the open
blocks.
-/

namespace Offside

variable {chars : List Char} {keep : Char → Bool} {char : Char}

/-- Whether a text is made of whole lines. -/
def WholeLines (chars : List Char) : Prop := chars = [] ∨ chars.getLast? = some '\n'

theorem lastLine_of_append {front : List Char} (inLine : '\n' ∉ front)
    (ends : (front ++ chars).getLast? = some '\n') :
    chars.getLast? = some '\n' ∧ (front ++ chars).count '\n' = chars.count '\n' := by
  refine ⟨?_, by rw [List.count_append, List.count_eq_zero.mpr inLine, Nat.zero_add]⟩
  rcases List.eq_nil_or_concat chars with rfl | ⟨body, last, rfl⟩
  · rw [List.append_nil] at ends
    exact absurd (List.mem_of_getLast? ends) inLine
  · simpa [← List.append_assoc] using ends

theorem takeWhile_append_of_mem (member : char ∈ chars) (stops : keep char = false)
    (after : List Char) : (chars ++ after).takeWhile keep = chars.takeWhile keep := by
  rw [List.takeWhile_append, if_neg]
  intro whole
  have kept := List.takeWhile_eq_self_iff.mp
    ((List.takeWhile_prefix keep).eq_of_length whole) char member
  simp [stops] at kept

theorem dropWhile_append_of_mem (member : char ∈ chars) (stops : keep char = false)
    (after : List Char) : (chars ++ after).dropWhile keep = chars.dropWhile keep ++ after := by
  rw [List.dropWhile_append, if_neg]
  intro none
  have kept := List.dropWhile_eq_nil_iff.mp (List.isEmpty_iff.mp none) char member
  simp [stops] at kept

theorem mem_dropWhile_of_mem (member : char ∈ chars) (stops : keep char = false) :
    char ∈ chars.dropWhile keep := by
  rw [← List.takeWhile_append_dropWhile (p := keep) (l := chars)] at member
  rcases List.mem_append.mp member with taken | left
  · have kept := List.mem_takeWhile_imp taken
    simp [stops] at kept
  · exact left

namespace Lexeme

variable {char : Char}

theorem LiteralBody.read_plain {quote : Char} (inLine : char ≠ '\n') (plain : char ≠ '\\')
    (rest : List Char) :
    LiteralBody.read quote (char :: rest) =
      if char = quote then ⟨[], [char], true, rest⟩
      else (LiteralBody.read quote rest).prepend [char] [char] := by
  rw [LiteralBody.read]
  · exact inLine
  · exact fun _ _ escapes => absurd escapes plain

/-- A literal does not look past the end of its line. -/
theorem LiteralBody.read_append (quote : Char) (chars : List Char) (after : List Char)
    (ends : '\n' ∈ chars) :
    LiteralBody.read quote (chars ++ after) =
      { LiteralBody.read quote chars with
        rest := (LiteralBody.read quote chars).rest ++ after } := by
  -- A backslash is never the last character here, since a line end follows it.
  have followed {char : Char} {rest : List Char} (inLine : char ≠ '\n')
      (pair : ∀ (next : Char) (more : List Char), char = '\\' → rest = next :: more → False)
      (ends : '\n' ∈ char :: rest) : '\n' ∈ rest ∧ char ≠ '\\' := by
    have inside : '\n' ∈ rest := by simpa [inLine.symm] using ends
    obtain ⟨next, more, rfl⟩ := List.exists_cons_of_ne_nil (List.ne_nil_of_mem inside)
    exact ⟨inside, fun escapes => pair next more escapes rfl⟩
  fun_induction LiteralBody.read quote chars with
  | case1 => simp at ends
  | case2 rest => simp [LiteralBody.read]
  | case3 char rest meant known induction =>
      have different : '\n' ≠ char := by
        rintro rfl
        simp [escaped?] at known
      have inside : '\n' ∈ rest := by simpa [different] using ends
      simp [LiteralBody.read, known, induction inside, prepend]
  | case4 char rest unknown induction =>
      have inside : '\n' ∈ char :: rest := by simpa using ends
      have step := induction inside
      simp only [List.cons_append] at step ⊢
      rw [LiteralBody.read]
      simp [unknown, step, prepend]
  | case5 rest inLine pair =>
      obtain ⟨_, plain⟩ := followed inLine pair ends
      rw [List.cons_append, read_plain inLine plain, if_pos rfl]
  | case6 char rest inLine pair other induction =>
      obtain ⟨inside, plain⟩ := followed inLine pair ends
      rw [List.cons_append, read_plain inLine plain, if_neg other, induction inside]
      rfl

theorem readNumeral_append_of_mem {chars : List Char} (ends : '\n' ∈ chars) (after : List Char) :
    readNumeral (chars ++ after) = ((readNumeral chars).1, (readNumeral chars).2 ++ after) := by
  have stops : Char.isDigit '\n' = false := by decide
  have left : '\n' ∈ chars.dropWhile Char.isDigit := mem_dropWhile_of_mem ends stops
  unfold readNumeral
  rw [takeWhile_append_of_mem ends stops, dropWhile_append_of_mem ends stops]
  -- A point that is read is followed by the line end at the latest.
  generalize chars.dropWhile Char.isDigit = tail at left
  rcases tail with _ | ⟨char, _ | ⟨next, more⟩⟩
  · simp at left
  · obtain rfl : char = '\n' := by simpa [eq_comm] using left
    simp
  · by_cases point : char = '.'
    · subst point
      have inside : '\n' ∈ next :: more := by simpa using left
      have taken := takeWhile_append_of_mem inside stops after
      have dropped := dropWhile_append_of_mem inside stops after
      simp only [List.cons_append] at taken dropped ⊢
      split
      · rw [taken, dropped]
      · rfl
    · simp [point]

theorem readPunct?_append {rest : List Char} (ends : '\n' ∈ char :: rest) (after : List Char) :
    readPunct? char (rest ++ after) =
      (readPunct? char rest).map fun found => (found.1, found.2.1, found.2.2 ++ after) := by
  rcases rest with _ | ⟨next, more⟩
  · obtain rfl : char = '\n' := by simpa [eq_comm] using ends
    rcases after with _ | ⟨next, more⟩
    · rfl
    · simp [readPunct?, Punct.ofPair?, Punct.ofChar?]
  · unfold readPunct?
    simp only [List.cons_append]
    cases Punct.ofPair? char next with
    | some mark => rfl
    | none => simp [Function.comp_def]

theorem read_append {rest : List Char} (ends : '\n' ∈ char :: rest) (after : List Char) :
    read char (rest ++ after) = ((read char rest).1, (read char rest).2 ++ after) := by
  -- Only a line end has no line end after it.
  have inside (other : char ≠ '\n') : '\n' ∈ rest := by simpa [other.symm] using ends
  unfold read
  split
  · rfl
  rename_i notBlank
  split
  · rename_i comment
    have member := inside (by rw [comment]; decide)
    rw [takeWhile_append_of_mem member (by simp), dropWhile_append_of_mem member (by simp)]
  split
  · rfl
  rename_i inLine
  have member := inside inLine
  split
  · rw [LiteralBody.read_append char rest after member]
    dsimp only
    split <;> rfl
  split
  · rw [← List.cons_append, readNumeral_append_of_mem ends]
  split
  · have stops : isIdentifierRest '\n' = false := by decide
    rw [takeWhile_append_of_mem member stops, dropWhile_append_of_mem member stops]
    dsimp only
    split <;> rfl
  · rw [readPunct?_append ends]
    rcases readPunct? char rest with _ | ⟨mark, written, following⟩
    · rfl
    · rfl

end Lexeme

/-- The number of a line when a further line is put in. -/
def shiftedLine (inserted line : Nat) : Nat := if line < inserted then line else line + 1

theorem shiftedLine_of_lt {inserted line : Nat} (before : line < inserted) :
    shiftedLine inserted line = line := if_pos before

theorem shiftedLine_of_le {inserted line : Nat} (after : inserted ≤ line) :
    shiftedLine inserted line = line + 1 := if_neg (Nat.not_lt.mpr after)

/-- A line without words: blanks, possibly a comment, and the line end. -/
def BareLine (chars : List Char) : Prop :=
  ∃ blanks remark, chars = blanks ++ (remark ++ ['\n']) ∧
    (∀ char ∈ blanks, Token.isIndentation char) ∧
    (remark = [] ∨ ∃ body, remark = '#' :: body ∧ '\n' ∉ body)

namespace Token

variable {body bare : List Char}

def moved (move : Nat → Nat) (token : Token) : Token := { token with line := move token.line }

@[simp]
theorem kind_moved (move : Nat → Nat) (token : Token) : (token.moved move).kind = token.kind := rfl

@[simp]
theorem text_moved (move : Nat → Nat) (token : Token) : (token.moved move).text = token.text := rfl

theorem moved_of_lt {token : Token} {inserted : Nat} (before : token.line < inserted) :
    token.moved (shiftedLine inserted) = token := by
  simp [moved, shiftedLine_of_lt before]

/-- A text that starts a line later gives the same tokens a line later. -/
theorem scan_succ (inserted : Nat) :
    (∀ indents line column chars, inserted ≤ line →
      scan indents (line + 1) column chars =
        (scan indents line column chars).map (moved (shiftedLine inserted))) ∧
    (∀ indents line chars, inserted ≤ line →
      scanLine indents (line + 1) chars =
        (scanLine indents line chars).map (moved (shiftedLine inserted))) := by
  apply scan.mutual_induct
  case case1 =>
    intro indents line column after
    simp [scan, closing, layout, moved, shiftedLine_of_le after]
  case case2 =>
    intro indents line column char rest before reason following cut after
    simp [scan_cons, cut, faulty, moved, shiftedLine_of_le after]
  case case3 =>
    intro indents line column char rest spelling following cut later after
    rw [scan_cons, scan_cons, cut]
    exact later after
  case case4 =>
    intro indents line column char rest kind text spelling following cut later after
    rw [scan_cons, scan_cons, cut]
    simp [later after, moved, shiftedLine_of_le after]
  case case5 =>
    intro indents line column char rest following cut later after
    rw [scan_cons, scan_cons, cut]
    simp [later (Nat.le_succ_of_le after), moved, shiftedLine_of_le after]
  case case6 =>
    intro indents line chars blanks body column bare later after
    rw [scanLine, scanLine, if_pos bare, if_pos bare]
    exact later after
  case case7 =>
    intro indents line chars blanks body column full shift later after
    rw [scanLine, scanLine, if_neg full, if_neg full]
    have step := later after
    have moves (kind : Kind) :
        moved (shiftedLine inserted) (layout line kind) = layout (line + 1) kind := by
      simp [moved, layout, shiftedLine_of_le after]
    simp only [List.map_append, List.map_map, Function.comp_def, moves]
    congr 1
    split
    · exact step
    · simp [faulty, moved, shiftedLine_of_le after]

theorem scan_lineEnd (indents : List Nat) (line column : Nat) (after : List Char) :
    scan indents line column ('\n' :: after) =
      ⟨.newline, none, line, column⟩ :: scanLine indents (line + 1) after := by
  rw [scan_cons]
  rfl

theorem scan_comment (inLine : '\n' ∉ body) (indents : List Nat) (line column : Nat)
    (after : List Char) :
    scan indents line column ('#' :: (body ++ '\n' :: after)) =
      scan indents line (column + byteLength ('#' :: body)) ('\n' :: after) := by
  have kept : ∀ char ∈ body, decide (char ≠ '\n') = true := by
    intro char member
    have different : char ≠ '\n' := fun equal => inLine (equal ▸ member)
    simpa using different
  have commented : (body ++ '\n' :: after).takeWhile (· ≠ '\n') = body := by
    rw [List.takeWhile_append_of_pos kept]
    simp
  have left : (body ++ '\n' :: after).dropWhile (· ≠ '\n') = '\n' :: after := by
    rw [List.dropWhile_append_of_pos kept]
    simp
  have cut : Lexeme.read '#' (body ++ '\n' :: after) =
      (.blank ('#' :: body), '\n' :: after) := by
    rw [Lexeme.read, commented, left]
    rfl
  rw [scan_cons, cut]

theorem scanLine_of_isBare {blanks : List Char} (indented : ∀ char ∈ blanks, isIndentation char)
    (bare : isBare body) (indents : List Nat) (line : Nat) :
    scanLine indents line (blanks ++ body) = scan indents line (blanks.length + 1) body := by
  have stops : body.takeWhile isIndentation = [] ∧ body.dropWhile isIndentation = body := by
    cases body with
    | nil => exact ⟨rfl, rfl⟩
    | cons char rest =>
        have other : isIndentation char = false := by
          rcases (by simpa [isBare, or_assoc] using bare : char = '\n' ∨ char = '\r' ∨ char = '#')
            with rfl | rfl | rfl <;> decide
        simp [other]
  rw [scanLine, List.takeWhile_append_of_pos indented, List.dropWhile_append_of_pos indented,
    stops.1, stops.2, if_pos bare, List.append_nil]

/-- A line without words is a line end and nothing else. -/
theorem scanLine_bareLine (isBareLine : BareLine bare) (indents : List Nat) (line : Nat)
    (after : List Char) :
    ∃ column, scanLine indents line (bare ++ after) =
      ⟨.newline, none, line, column⟩ :: scanLine indents (line + 1) after := by
  obtain ⟨blanks, remark, rfl, indented, remarks⟩ := isBareLine
  have split : blanks ++ (remark ++ ['\n']) ++ after = blanks ++ (remark ++ '\n' :: after) := by
    simp
  rw [split]
  rcases remarks with rfl | ⟨body, rfl, inLine⟩
  · exact ⟨_,
      (scanLine_of_isBare indented rfl indents line).trans (scan_lineEnd indents line _ after)⟩
  · have passed := scan_comment inLine indents line (blanks.length + 1) after
    exact ⟨_, (scanLine_of_isBare indented rfl indents line).trans
      (passed.trans (scan_lineEnd indents line _ after))⟩

/-- Whether two lists differ in lines and repeated line ends only. -/
inductive Spaced (move : Nat → Nat) : List Token → List Token → Prop
  | nil : Spaced move [] []
  | word {token : Token} {rest rest' : List Token} :
      token.kind ≠ .newline → Spaced move rest rest' →
      Spaced move (token :: rest) (token.moved move :: rest')
  | lineEnd {mark mark' : Token} {rest rest' : List Token} :
      mark.kind = .newline → mark'.kind = .newline → Spaced move rest rest' →
      Spaced move (mark :: rest) (mark' :: rest')
  | further {mark mark' : Token} {rest rest' : List Token} :
      mark.kind = .newline → mark'.kind = .newline → Spaced move (mark :: rest) rest' →
      Spaced move (mark :: rest) (mark' :: rest')

namespace Spaced

variable {move : Nat → Nat}

theorem map_moved (tokens : List Token) : Spaced move tokens (tokens.map (moved move)) := by
  induction tokens with
  | nil => exact .nil
  | cons token tokens induction =>
      by_cases ends : token.kind = .newline
      · exact .lineEnd ends ends induction
      · exact .word ends induction

theorem unmoved {inserted : Nat} {token : Token} {rest rest' : List Token}
    (isWord : token.kind ≠ .newline) (before : token.line < inserted)
    (later : Spaced (shiftedLine inserted) rest rest') :
    Spaced (shiftedLine inserted) (token :: rest) (token :: rest') := by
  have step := Spaced.word isWord later
  rwa [moved_of_lt before] at step

theorem append {inserted : Nat} {front rest rest' : List Token}
    (before : ∀ token ∈ front, token.line < inserted)
    (later : Spaced (shiftedLine inserted) rest rest') :
    Spaced (shiftedLine inserted) (front ++ rest) (front ++ rest') := by
  induction front with
  | nil => exact later
  | cons token front induction =>
      have inner := induction fun other member => before other (List.mem_cons_of_mem _ member)
      have stays := moved_of_lt (before token List.mem_cons_self)
      by_cases ends : token.kind = .newline
      · exact .lineEnd ends ends inner
      · have step := Spaced.word ends inner
        rwa [stays] at step

end Spaced

theorem isBare_append (ends : '\n' ∈ body) (after : List Char) :
    isBare (body ++ after) = isBare body := by
  cases body with
  | nil => simp at ends
  | cons char rest => rfl

/-- The start of a line does not depend on what follows its end. -/
theorem scanLine_append {chars : List Char} (ends : '\n' ∈ chars) (indents : List Nat) (line : Nat)
    (after : List Char) :
    let blanks := chars.takeWhile isIndentation
    let body := chars.dropWhile isIndentation
    let shift := Shift.of indents (indentationWidth blanks)
    scanLine indents line (chars ++ after) =
      if isBare body then scan indents line (blanks.length + 1) (body ++ after)
      else shift.kinds.map (layout line) ++
        if shift.aligned then scan shift.indents line (blanks.length + 1) (body ++ after)
        else [faulty line (blanks.length + 1) .misaligned] := by
  have stops : isIndentation '\n' = false := by decide
  rw [scanLine, takeWhile_append_of_mem ends stops, dropWhile_append_of_mem ends stops,
    isBare_append (mem_dropWhile_of_mem ends stops)]

/-- A line without words after a line end. -/
theorem spaced_bareLine (isBareLine : BareLine bare) (indents : List Nat) (line : Nat)
    (after : List Char) {mark : Token} (marks : mark.kind = .newline) :
    Spaced (shiftedLine line) (mark :: scanLine indents line after)
      (mark :: scanLine indents line (bare ++ after)) := by
  obtain ⟨column, scanned⟩ := scanLine_bareLine isBareLine indents line after
  rw [scanned, (scan_succ line).2 indents line after (Nat.le_refl line)]
  exact .further marks marks (.lineEnd marks rfl (.map_moved _))

/-- A line without words adds a line end and moves the tokens after it. -/
theorem spaced_scan (isBareLine : BareLine bare) (after : List Char) :
    (∀ indents line column before, before.getLast? = some '\n' →
      Spaced (shiftedLine (line + before.count '\n')) (scan indents line column (before ++ after))
        (scan indents line column (before ++ (bare ++ after)))) ∧
    (∀ indents line before, WholeLines before → ∀ mark : Token, mark.kind = .newline →
      Spaced (shiftedLine (line + before.count '\n'))
        (mark :: scanLine indents line (before ++ after))
        (mark :: scanLine indents line (before ++ (bare ++ after)))) := by
  -- The lines before the one that is put in are those up to the last line end.
  have earlier {chars : List Char} (line : Nat) (ends : chars.getLast? = some '\n') :
      line < line + chars.count '\n' := by
    have counted := List.count_pos_iff.mpr (List.mem_of_getLast? ends)
    omega
  have unindented {chars : List Char} (ends : chars.getLast? = some '\n') :
      (chars.dropWhile isIndentation).getLast? = some '\n' ∧
        chars.count '\n' = (chars.dropWhile isIndentation).count '\n' := by
    have blank : '\n' ∉ chars.takeWhile isIndentation := by
      intro member
      exact absurd (List.mem_takeWhile_imp member) (by decide)
    have split : chars.takeWhile isIndentation ++ chars.dropWhile isIndentation = chars :=
      List.takeWhile_append_dropWhile
    rw [← split] at ends
    have cut := lastLine_of_append blank ends
    rwa [split] at cut
  apply scan.mutual_induct
  case case1 =>
    intro indents line column ends
    simp at ends
  case case2 =>
    intro indents line column char rest before reason following cut ends
    simp only [List.cons_append, scan_cons, Lexeme.read_append (List.mem_of_getLast? ends), cut]
    exact .unmoved (by simp [faulty]) (earlier line ends) .nil
  case case3 =>
    intro indents line column char rest gap following cut later ends
    simp only [List.cons_append, scan_cons, Lexeme.read_append (List.mem_of_getLast? ends), cut]
    obtain ⟨split, isGap⟩ : gap ++ following = char :: rest ∧ Gap following gap :=
      Lexeme.of_read cut
    rw [← split] at ends ⊢
    obtain ⟨ends, counted⟩ := lastLine_of_append isGap.lineEnd_notMem ends
    rw [counted]
    exact later ends
  case case4 =>
    intro indents line column char rest kind text spelling following cut later ends
    have before := earlier line ends
    simp only [List.cons_append, scan_cons, Lexeme.read_append (List.mem_of_getLast? ends), cut]
    obtain ⟨split, spells⟩ : spelling ++ following = char :: rest ∧
        Spells kind text spelling ∧ kind ≠ .newline := Lexeme.of_read cut
    refine .unmoved spells.2 before ?_
    rw [← split] at ends ⊢
    obtain ⟨ends, counted⟩ := lastLine_of_append (spells.1.lineEnd_notMem spells.2) ends
    rw [counted]
    exact later ends
  case case5 =>
    intro indents line column char rest following cut later ends
    simp only [List.cons_append, scan_cons, Lexeme.read_append (List.mem_of_getLast? ends), cut]
    have split : '\n' :: following = char :: rest := (Lexeme.of_read cut).1
    rw [← split] at ends ⊢
    have whole : WholeLines following := by
      rcases List.eq_nil_or_concat following with rfl | ⟨body, last, rfl⟩
      · exact .inl rfl
      · rw [List.concat_eq_append, ← List.cons_append, List.getLast?_concat] at ends
        exact .inr (by rw [List.concat_eq_append, List.getLast?_concat, ends])
    rw [List.count_cons_self, Nat.add_comm _ 1, ← Nat.add_assoc]
    exact later whole _ rfl
  case case6 =>
    intro indents line chars blanks body column bareBody later whole mark marks
    rcases whole with rfl | ends
    · exact spaced_bareLine isBareLine indents line after marks
    · have member := List.mem_of_getLast? ends
      obtain ⟨bodyEnds, counted⟩ := unindented ends
      rw [scanLine_append member, scanLine_append member, if_pos bareBody, if_pos bareBody, counted]
      exact .lineEnd marks marks (later bodyEnds)
  case case7 =>
    intro indents line chars blanks body column full shift later whole mark marks
    rcases whole with rfl | ends
    · exact absurd rfl full
    · have member := List.mem_of_getLast? ends
      have before := earlier line ends
      obtain ⟨bodyEnds, counted⟩ := unindented ends
      rw [scanLine_append member, scanLine_append member, if_neg full, if_neg full]
      refine .lineEnd marks marks (.append ?_ ?_)
      · intro token isLayout
        obtain ⟨kind, _, rfl⟩ := List.mem_map.mp isLayout
        exact before
      · split
        · rw [counted]
          exact later bodyEnds
        · exact .unmoved (by simp [faulty]) before .nil

end Token

end Offside
