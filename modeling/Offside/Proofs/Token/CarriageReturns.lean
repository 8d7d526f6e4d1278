import Mathlib.Data.List.Forall2
import Offside.Proofs.Token.Lines
import Offside.Proofs.Token.Respelled
import Offside.Proofs.Token.Words

/-!
# Carriage returns

A carriage return in front of every line end is passed over wherever it stands: as a blank line, at
the end of a line, in a comment, and in a literal that is left open. Only what stands at a line end
moves by one column: the token of the line end itself, and the fault of a literal that the line end
cuts off.
-/

namespace Offside

/-- A text with a carriage return in front of each line end. -/
def withReturns (chars : List Char) : List Char :=
  chars.flatMap fun char => if char = '\n' then ['\r', '\n'] else [char]

@[simp]
theorem withReturns_nil : withReturns [] = [] := rfl

@[simp]
theorem withReturns_lineEnd (rest : List Char) :
    withReturns ('\n' :: rest) = '\r' :: '\n' :: withReturns rest := rfl

theorem withReturns_cons {char : Char} (inLine : char ≠ '\n') (rest : List Char) :
    withReturns (char :: rest) = char :: withReturns rest := by
  simp [withReturns, inLine]

theorem withReturns_append (left right : List Char) :
    withReturns (left ++ right) = withReturns left ++ withReturns right :=
  List.flatMap_append

theorem withReturns_of_notMem {chars : List Char} (inLine : '\n' ∉ chars) :
    withReturns chars = chars := by
  induction chars with
  | nil => rfl
  | cons char chars induction =>
      obtain ⟨other, inside⟩ : '\n' ≠ char ∧ '\n' ∉ chars := by simpa using inLine
      rw [withReturns_cons other.symm, induction inside]

/-- The marks of a line end are strangers to all words. -/
theorem respells_withReturns :
    Respells (· ∈ ['\r', '\n']) fun char => if char = '\n' then ['\r', '\n'] else [char] := by
  intro char
  by_cases ends : char = '\n'
  · exact .inr ⟨by simp [ends], '\r', ['\n'], if_pos ends, by simp⟩
  · exact .inl (if_neg ends)

theorem takeWhile_withReturns (keep : Char → Bool) (stops : keep '\r' = false)
    (stopsAtEnd : keep '\n' = false) (chars : List Char) :
    (withReturns chars).takeWhile keep = chars.takeWhile keep :=
  respells_withReturns.takeWhile (by simp [stops, stopsAtEnd]) chars

theorem dropWhile_withReturns (keep : Char → Bool) (stops : keep '\r' = false)
    (stopsAtEnd : keep '\n' = false) (chars : List Char) :
    (withReturns chars).dropWhile keep = withReturns (chars.dropWhile keep) :=
  respells_withReturns.dropWhile (by simp [stops, stopsAtEnd]) chars

theorem firstLine (chars : List Char) :
    '\n' ∉ chars ∨ ∃ line rest, chars = line ++ '\n' :: rest ∧ '\n' ∉ line := by
  by_cases ends : '\n' ∈ chars
  · obtain ⟨line, rest, isSplit, inLine⟩ := List.eq_append_cons_of_mem ends
    exact .inr ⟨line, rest, isSplit, inLine⟩
  · exact .inl ends

namespace Lexeme

namespace LiteralBody

/-- How carriage returns before line ends change the body of a literal. -/
inductive Returned : LiteralBody → LiteralBody → Prop
  | closed (decoded spelling rest : List Char) :
      Returned ⟨decoded, spelling, true, rest⟩ ⟨decoded, spelling, true, withReturns rest⟩
  /-- A line end that cuts the literal off comes one character later. -/
  | cutOff (decoded rest : List Char) {spelling : List Char} : '\n' ∉ spelling →
      Returned ⟨decoded, spelling, false, '\n' :: rest⟩
        ⟨decoded ++ ['\r'], spelling ++ ['\r'], false, '\n' :: withReturns rest⟩
  | unended (decoded : List Char) {spelling : List Char} : '\n' ∉ spelling →
      Returned ⟨decoded, spelling, false, []⟩ ⟨decoded, spelling, false, []⟩

theorem Returned.prepend {body body' : LiteralBody} (returned : Returned body body')
    (decoded : List Char) {spelling : List Char} (inLine : '\n' ∉ spelling) :
    Returned (body.prepend decoded spelling) (body'.prepend decoded spelling) := by
  cases returned with
  | closed => exact .closed _ _ _
  | cutOff _ _ inside =>
      simp only [LiteralBody.prepend, ← List.append_assoc]
      exact .cutOff _ _ (List.not_mem_append inLine inside)
  | unended _ inside => exact .unended _ (List.not_mem_append inLine inside)

theorem returned_read {quote : Char} (isQuote : quote = '"' ∨ quote = '\'') (chars : List Char) :
    Returned (read quote chars) (read quote (withReturns chars)) := by
  have plainQuote : quote ≠ '\n' ∧ quote ≠ '\\' ∧ '\r' ≠ quote := by
    rcases isQuote with rfl | rfl <;> decide
  fun_induction read quote chars with
  | case1 => exact .unended _ (by simp)
  | case2 rest =>
      rw [withReturns_lineEnd, read_plain (by decide) (by decide), if_neg plainQuote.2.2, read]
      exact .cutOff [] rest (by simp)
  | case3 char rest meant known induction =>
      have inLine : char ≠ '\n' := by
        rintro rfl
        simp [escaped?] at known
      rw [withReturns_cons (by decide), withReturns_cons inLine, read]
      simp only [known]
      exact induction.prepend _ (by simp [inLine.symm])
  | case4 char rest unknown induction =>
      have step : read quote (withReturns ('\\' :: char :: rest)) =
          (read quote (withReturns (char :: rest))).prepend ['\\'] ['\\'] := by
        rw [withReturns_cons (by decide)]
        by_cases ends : char = '\n'
        · subst ends
          rw [withReturns_lineEnd, read]
          simp [escaped?]
        · rw [withReturns_cons ends, read]
          simp [unknown]
      rw [step]
      exact induction.prepend _ (by decide)
  | case5 rest =>
      rw [withReturns_cons plainQuote.1, read_plain plainQuote.1 plainQuote.2.1, if_pos rfl]
      exact .closed _ _ _
  | case6 char rest inLine pair other induction =>
      have inLine : char ≠ '\n' := inLine
      by_cases escapes : char = '\\'
      · -- Nothing can come after this backslash, not even a line end.
        cases rest with
        | nil =>
            subst escapes
            rw [withReturns_cons inLine]
            simp only [withReturns_nil, read, if_neg other]
            exact .unended _ (by decide)
        | cons next more => exact absurd rfl (pair next more escapes)
      · rw [withReturns_cons inLine, read_plain inLine escapes, if_neg other]
        exact induction.prepend _ (by simp [inLine.symm])

end LiteralBody

theorem readNumeral_withReturns (chars : List Char) :
    readNumeral (withReturns chars) = ((readNumeral chars).1, withReturns (readNumeral chars).2) :=
  respells_withReturns.readNumeral (by simp [Char.isDigit]) chars

theorem readPunct?_withReturns (char : Char) (rest : List Char) :
    readPunct? char (withReturns rest) =
      (readPunct? char rest).map fun found => (found.1, found.2.1, withReturns found.2.2) :=
  respells_withReturns.readPunct? (by simp [Punct.ofPair?]) char rest

/-- How carriage returns before line ends change a lexeme and what follows it. -/
inductive Returned : Lexeme × List Char → Lexeme × List Char → Prop
  | blank (spelling following : List Char) :
      Returned (.blank spelling, following) (.blank spelling, withReturns following)
  /-- A comment takes the carriage return of the line end that stops it. -/
  | comment (spelling following : List Char) :
      Returned (.blank spelling, '\n' :: following)
        (.blank (spelling ++ ['\r']), '\n' :: withReturns following)
  | token (kind : Token.Kind) (text : Option String) (spelling following : List Char) :
      Returned (.token kind text spelling, following)
        (.token kind text spelling, withReturns following)
  /-- A line end that cuts a literal off comes one character later. -/
  | cutOff (following following' : List Char) {before : List Char} : '\n' ∉ before →
      Returned (.fault before .unterminated, '\n' :: following)
        (.fault (before ++ ['\r']) .unterminated, following')
  | unended {before : List Char} : '\n' ∉ before →
      Returned (.fault before .unterminated, []) (.fault before .unterminated, [])
  | unexpected (char : Char) (following following' : List Char) :
      Returned (.fault [] (.unexpected char), following) (.fault [] (.unexpected char), following')

/-- Only a line end is cut off as one. -/
theorem ne_lineEnd_of_read {char : Char} {rest following : List Char} {lexeme : Lexeme}
    (cut : read char rest = (lexeme, following)) (other : lexeme ≠ .lineEnd) : char ≠ '\n' := by
  rintro rfl
  exact other (congrArg Prod.fst cut).symm

theorem returned_comment (rest : List Char) :
    Returned (.blank ('#' :: rest.takeWhile (· ≠ '\n')), rest.dropWhile (· ≠ '\n'))
      (.blank ('#' :: (withReturns rest).takeWhile (· ≠ '\n')),
        (withReturns rest).dropWhile (· ≠ '\n')) := by
  have kept {line : List Char} (inLine : '\n' ∉ line) :
      ∀ char ∈ line, decide (char ≠ '\n') = true := by
    intro char member
    have different : char ≠ '\n' := fun equal => inLine (equal ▸ member)
    simpa using different
  rcases firstLine rest with inLine | ⟨line, more, rfl, inLine⟩
  · rw [withReturns_of_notMem inLine, List.dropWhile_eq_nil_iff.mpr (kept inLine)]
    exact .blank _ []
  · rw [withReturns_append, withReturns_of_notMem inLine, withReturns_lineEnd,
      List.takeWhile_append_of_pos (kept inLine), List.takeWhile_append_of_pos (kept inLine),
      List.dropWhile_append_of_pos (kept inLine), List.dropWhile_append_of_pos (kept inLine)]
    simpa using Returned.comment ('#' :: line) more

theorem returned_read {char : Char} (inLine : char ≠ '\n') (rest : List Char) :
    Returned (read char rest) (read char (withReturns rest)) := by
  unfold read
  split
  · exact .blank _ _
  split
  · rename_i isHash
    subst isHash
    exact returned_comment rest
  split
  · rename_i isQuote
    have returned := LiteralBody.returned_read (by simpa using isQuote) rest
    generalize LiteralBody.read char rest = body at returned
    generalize LiteralBody.read char (withReturns rest) = body' at returned
    cases returned with
    | closed => exact .token _ _ _ _
    | cutOff decoded following inside =>
        exact .cutOff _ _ (List.not_mem_cons_of_ne_of_not_mem inLine.symm inside)
    | unended decoded inside =>
        exact .unended (List.not_mem_cons_of_ne_of_not_mem inLine.symm inside)
  split
  · rw [← withReturns_cons inLine, readNumeral_withReturns]
    exact .token _ _ _ _
  split
  · rw [takeWhile_withReturns isIdentifierRest (by decide) (by decide),
      dropWhile_withReturns isIdentifierRest (by decide) (by decide)]
    dsimp only
    split <;> exact .token _ _ _ _
  · rw [readPunct?_withReturns]
    rcases readPunct? char rest with _ | ⟨mark, written, following⟩
    · exact .unexpected _ _ _
    · exact .token _ _ _ _

end Lexeme

namespace Token

/-- Whether a line end of a text stands at a line and a column. -/
def LineEndAt (chars : List Char) (line column : Nat) : Prop :=
  ∃ before after, chars = before ++ '\n' :: after ∧ ComesAfter before line column

/-- Whether a token is a line end or a literal that one cuts off. -/
def AtLineEnd (chars : List Char) (token : Token) : Prop :=
  token.kind = .newline ∨
    token = faulty token.line token.column .unterminated ∧ LineEndAt chars token.line token.column

/-- A token at a line end comes one column later; any other stays. -/
structure Pushed (chars : List Char) (token token' : Token) : Prop where
  kind_eq : token'.kind = token.kind
  lexeme_eq : token'.lexeme = token.lexeme
  line_eq : token'.line = token.line
  pushed : AtLineEnd chars token → token'.column = token.column + 1
  kept : ¬ AtLineEnd chars token → token'.column = token.column

theorem Pushed.refl {chars : List Char} {token : Token} (away : ¬ AtLineEnd chars token) :
    Pushed chars token token where
  kind_eq := rfl
  lexeme_eq := rfl
  line_eq := rfl
  pushed := fun atLineEnd => absurd atLineEnd away
  kept := fun _ => rfl

/-- Layout and the end of a source stay where they are. -/
theorem not_atLineEnd_layout {kind : Kind} (isLayout : kind ≠ .newline ∧ kind ≠ .error)
    (chars : List Char) (line : Nat) : ¬ AtLineEnd chars (layout line kind) := by
  rintro (isLineEnd | ⟨isFault, _⟩)
  · exact isLayout.1 isLineEnd
  · exact isLayout.2 (congrArg Token.kind isFault)

theorem ne_error_of_mem_kinds {indents : List Nat} {width : Nat} {kind : Kind}
    (member : kind ∈ (Shift.of indents width).kinds) : kind ≠ .newline ∧ kind ≠ .error := by
  unfold Shift.of at member
  split at member
  · obtain rfl := List.mem_singleton.mp member
    exact ⟨nofun, nofun⟩
  · obtain rfl := List.eq_of_mem_replicate member
    exact ⟨nofun, nofun⟩

theorem pushed_closing (chars : List Char) (indents : List Nat) (line : Nat) :
    List.Forall₂ (Pushed chars) (closing indents line) (closing indents line) := by
  refine List.forall₂_same.mpr fun token member => .refl ?_
  rcases List.mem_append.mp member with isDedent | isEnd
  · obtain rfl := List.eq_of_mem_replicate isDedent
    exact not_atLineEnd_layout (by decide) chars line
  · obtain rfl := List.mem_singleton.mp isEnd
    exact not_atLineEnd_layout (by decide) chars line

theorem message_ne_unterminated {reason : LexicalFault} (other : reason ≠ .unterminated) :
    reason.message ≠ LexicalFault.unterminated.message := by
  cases reason with
  | unexpected char =>
      have different :
          "unexpected character '" ++ char.toString ++ "'" ≠ "unterminated string literal" := by
        intro same
        have texts := congrArg String.toList same
        rw [String.toList_append, String.toList_append] at texts
        have starts := congrArg (fun chars => chars.take 3) texts
        simp at starts
      exact different
  | unterminated => exact absurd rfl other
  | misaligned => decide

theorem pushed_fault {reason : LexicalFault} (other : reason ≠ .unterminated) (chars : List Char)
    (line column : Nat) :
    List.Forall₂ (Pushed chars) [faulty line column reason] [faulty line column reason] := by
  refine .cons (.refl ?_) .nil
  rintro (isLineEnd | ⟨isOpen, _⟩)
  · exact absurd isLineEnd nofun
  · exact message_ne_unterminated other (Option.some.inj (congrArg Token.lexeme isOpen))

theorem scan_return (indents : List Nat) (line column : Nat) (rest : List Char) :
    scan indents line column ('\r' :: rest) = scan indents line (column + 1) rest := by
  rw [scan_cons]
  rfl

theorem not_lineEndAt {before rest : List Char} {line column : Nat}
    (here : ComesAfter before line column) (inLine : '\n' ∉ rest) (place : Nat) :
    ¬ LineEndAt (before ++ rest) line place := by
  rintro ⟨front, after, isSplit, there⟩
  have counted := congrArg (List.count '\n') isSplit
  simp only [List.count_append, List.count_eq_zero.mpr inLine, List.count_cons_self] at counted
  have same := here.line_eq.symm.trans there.line_eq
  omega

theorem isBare_withReturns (body : List Char) : isBare (withReturns body) = isBare body := by
  cases body with
  | nil => rfl
  | cons char rest =>
      by_cases ends : char = '\n'
      · subst ends
        rfl
      · rw [withReturns_cons ends]
        rfl

/-- The indentation of a line is measured before any carriage return. -/
theorem scanLine_withReturns (indents : List Nat) (line : Nat) (chars : List Char) :
    let blanks := chars.takeWhile isIndentation
    let body := chars.dropWhile isIndentation
    let shift := Shift.of indents (indentationWidth blanks)
    scanLine indents line (withReturns chars) =
      if isBare body then scan indents line (blanks.length + 1) (withReturns body)
      else shift.kinds.map (layout line) ++
        if shift.aligned then scan shift.indents line (blanks.length + 1) (withReturns body)
        else [faulty line (blanks.length + 1) .misaligned] := by
  rw [scanLine, takeWhile_withReturns isIndentation (by decide) (by decide),
    dropWhile_withReturns isIndentation (by decide) (by decide), isBare_withReturns]

/-- A text with carriage returns gives the tokens of the text without them. -/
theorem pushed_scan (source : List Char) :
    (∀ indents line column chars, ∀ before, source = before ++ chars →
      ComesAfter before line column →
      List.Forall₂ (Pushed source) (scan indents line column chars)
        (scan indents line column (withReturns chars))) ∧
    (∀ indents line chars, ∀ before, source = before ++ chars → ComesAfter before line 1 →
      List.Forall₂ (Pushed source) (scanLine indents line chars)
        (scanLine indents line (withReturns chars))) := by
  have indented (chars : List Char) : ∀ char ∈ chars.takeWhile isIndentation, isIndentation char :=
    fun _ member => List.mem_takeWhile_imp member
  have split (chars : List Char) :
      chars.takeWhile isIndentation ++ chars.dropWhile isIndentation = chars :=
    List.takeWhile_append_dropWhile
  apply scan.mutual_induct
  case case1 =>
    intro indents line column before _ _
    rw [withReturns_nil, scan]
    exact pushed_closing source indents line
  case case2 =>
    intro indents line column char rest front reason following cut before isSource here
    have inLine : char ≠ '\n' := Lexeme.ne_lineEnd_of_read cut (by rintro ⟨⟩)
    have split := (Lexeme.of_read cut).1
    have returned := Lexeme.returned_read inLine rest
    rw [cut] at returned
    rw [withReturns_cons inLine, scan_cons, scan_cons, cut]
    generalize Lexeme.read char (withReturns rest) = cut' at returned
    cases returned with
    | cutOff following following' inside =>
        have atLineEnd : LineEndAt source line (column + byteLength front) := by
          refine ⟨before ++ front, following, ?_, here.append inside⟩
          rw [isSource, ← split, List.append_assoc]
          rfl
        have later : column + byteLength (front ++ ['\r']) = column + byteLength front + 1 := by
          rw [byteLength_append]
          rfl
        refine .cons ⟨rfl, rfl, rfl, fun _ => later, fun away => ?_⟩ .nil
        exact absurd (.inr ⟨rfl, atLineEnd⟩) away
    | unended inside =>
        refine .cons (.refl ?_) .nil
        rintro (isLineEnd | ⟨_, isThere⟩)
        · cases isLineEnd
        · have whole : source = before ++ front := by
            rw [isSource, ← split, List.append_nil]
            rfl
          rw [whole] at isThere
          exact not_lineEndAt here inside _ isThere
    | unexpected => exact pushed_fault (by simp) source line _
  case case3 =>
    intro indents line column char rest spelling following cut later before isSource here
    have inLine : char ≠ '\n' := Lexeme.ne_lineEnd_of_read cut (by rintro ⟨⟩)
    obtain ⟨split, isGap⟩ : spelling ++ following = char :: rest ∧ Gap following spelling :=
      Lexeme.of_read cut
    have step := later (before ++ spelling) (by rw [isSource, ← split, List.append_assoc])
      (here.append isGap.lineEnd_notMem)
    have returned := Lexeme.returned_read inLine rest
    rw [cut] at returned
    rw [withReturns_cons inLine, scan_cons, scan_cons, cut]
    generalize Lexeme.read char (withReturns rest) = cut' at returned
    cases returned with
    | blank => exact step
    | comment spelling following =>
        -- The comment has taken the carriage return that stands in front of the line end.
        rw [withReturns_lineEnd, scan_return] at step
        have column_eq :
            column + byteLength (spelling ++ ['\r']) = column + byteLength spelling + 1 := by
          rw [byteLength_append]
          rfl
        dsimp only
        rw [column_eq]
        exact step
  case case4 =>
    intro indents line column char rest kind text spelling following cut later before isSource here
    have inLine : char ≠ '\n' := Lexeme.ne_lineEnd_of_read cut (by rintro ⟨⟩)
    obtain ⟨split, spells⟩ : spelling ++ following = char :: rest ∧
        Spells kind text spelling ∧ kind ≠ .newline := Lexeme.of_read cut
    have step := later (before ++ spelling) (by rw [isSource, ← split, List.append_assoc])
      (here.append (spells.1.lineEnd_notMem spells.2))
    have returned := Lexeme.returned_read inLine rest
    rw [cut] at returned
    rw [withReturns_cons inLine, scan_cons, scan_cons, cut]
    generalize Lexeme.read char (withReturns rest) = cut' at returned
    cases returned with
    | token =>
        refine .cons (.refl ?_) step
        rintro (isLineEnd | ⟨isFault, _⟩)
        · exact spells.2 isLineEnd
        · obtain rfl : kind = .error := congrArg Token.kind isFault
          exact spells.1
  case case5 =>
    intro indents line column char rest following cut later before isSource here
    obtain ⟨rfl, rfl⟩ := List.cons.inj (Lexeme.of_read cut).1
    have step := later (before ++ ['\n']) (by simpa using isSource) here.lineEnd
    rw [withReturns_lineEnd, scan_return, scan_lineEnd, scan_lineEnd]
    refine .cons ⟨rfl, rfl, rfl, fun _ => rfl, fun away => ?_⟩ step
    exact absurd (.inl rfl) away
  case case6 =>
    intro indents line chars blanks body column bare later before isSource start
    have step := later (before ++ blanks) (by rw [isSource, ← split chars, List.append_assoc])
      (start.indented (indented chars))
    rw [scanLine_withReturns, scanLine, if_pos bare, if_pos bare]
    exact step
  case case7 =>
    intro indents line chars blanks body column full shift later before isSource start
    have step := later (before ++ blanks) (by rw [isSource, ← split chars, List.append_assoc])
      (start.indented (indented chars))
    have layouts : List.Forall₂ (Pushed source) (shift.kinds.map (layout line))
        (shift.kinds.map (layout line)) := by
      refine List.forall₂_same.mpr fun token member => .refl ?_
      obtain ⟨kind, isKind, rfl⟩ := List.mem_map.mp member
      exact not_atLineEnd_layout (ne_error_of_mem_kinds isKind) source line
    rw [scanLine_withReturns, scanLine, if_neg full, if_neg full]
    refine List.rel_append layouts ?_
    split
    · exact step
    · exact pushed_fault (by decide) source line _

/-- Carriage returns change the tokens of a source in columns at line ends only. -/
theorem pushed_ofSource (source : String) :
    List.Forall₂ (Pushed source.toList) (ofSource source)
      (ofSource (String.ofList (withReturns source.toList))) := by
  rw [ofSource, ofSource, String.toList_ofList]
  exact (pushed_scan source.toList).2 [0] 1 source.toList [] rfl .start

end Token

end Offside
