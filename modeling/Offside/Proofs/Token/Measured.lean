import Offside.Proofs.Token.Words

/-!
# Which lines are measured

The indentation of a line is compared with the blocks that are open, unless the line is taken for
one without words. That is told from the first character after its blanks. A carriage return there
is followed by a line end in most sources; where words follow it, they stand in the block of an
earlier line, whatever their own indentation is.
-/

namespace Offside

namespace Token

/-- What a scan pushes as a word, with the open blocks. -/
inductive Pushes (stack : List Nat) (token : Token) :
    List Nat → Nat → Option Nat → List Char → Prop
  | here {line column : Nat} {char : Char} {rest spelling following : List Char} :
      Lexeme.read char rest = (.token token.kind token.lexeme spelling, following) →
      token.line = line → token.column = column →
      Pushes stack token stack line (some column) (char :: rest)
  | word {indents : List Nat} {line column : Nat} {char : Char} {rest spelling following : List Char}
      {kind : Kind} {text : Option String} :
      Lexeme.read char rest = (.token kind text spelling, following) →
      Pushes stack token indents line (some (column + byteLength spelling)) following →
      Pushes stack token indents line (some column) (char :: rest)
  | blank {indents : List Nat} {line column : Nat} {char : Char}
      {rest spelling following : List Char} :
      Lexeme.read char rest = (.blank spelling, following) →
      Pushes stack token indents line (some (column + byteLength spelling)) following →
      Pushes stack token indents line (some column) (char :: rest)
  | lineEnd {indents : List Nat} {line column : Nat} {char : Char} {rest following : List Char} :
      Lexeme.read char rest = (.lineEnd, following) →
      Pushes stack token indents (line + 1) none following →
      Pushes stack token indents line (some column) (char :: rest)
  | bare {indents : List Nat} {line : Nat} {chars : List Char} :
      isBare (chars.dropWhile isIndentation) →
      Pushes stack token indents line (some ((chars.takeWhile isIndentation).length + 1))
        (chars.dropWhile isIndentation) →
      Pushes stack token indents line none chars
  | measured {indents : List Nat} {line : Nat} {chars : List Char} :
      isBare (chars.dropWhile isIndentation) = false →
      (Shift.of indents (indentationWidth (chars.takeWhile isIndentation))).aligned →
      Pushes stack token
        (Shift.of indents (indentationWidth (chars.takeWhile isIndentation))).indents line
        (some ((chars.takeWhile isIndentation).length + 1)) (chars.dropWhile isIndentation) →
      Pushes stack token indents line none chars

/-- Every word of a source is pushed at some point of its scan. -/
theorem exists_pushes {token : Token} (isSpelled : token.isSpelled)
    (inLine : token.kind ≠ .newline) (noFault : token.kind ≠ .error) :
    (∀ indents line column chars, token ∈ scan indents line column chars →
      ∃ stack, Pushes stack token indents line (some column) chars) ∧
    (∀ indents line chars, token ∈ scanLine indents line chars →
      ∃ stack, Pushes stack token indents line none chars) := by
  have notLayout {tokens : List Token} (layout : tokens.filter Token.isSpelled = []) :
      token ∉ tokens := by
    intro member
    simpa [isSpelled] using List.filter_eq_nil_iff.mp layout token member
  have notFaulty {line column : Nat} {reason : LexicalFault} :
      token ∉ [faulty line column reason] := by
    rintro member
    exact noFault (congrArg Token.kind (List.mem_singleton.mp member))
  apply scan.mutual_induct
  case case1 =>
    intro indents line column member
    rw [scan] at member
    exact absurd member (notLayout (filter_isSpelled_closing indents line))
  case case2 =>
    intro indents line column char rest before reason following cut member
    rw [scan_cons, cut] at member
    exact absurd member notFaulty
  case case3 =>
    intro indents line column char rest spelling following cut later member
    rw [scan_cons, cut] at member
    exact (later member).imp fun _ => .blank cut
  case case4 =>
    intro indents line column char rest kind text spelling following cut later member
    rw [scan_cons, cut] at member
    rcases List.mem_cons.mp member with rfl | member
    · exact ⟨indents, .here cut rfl rfl⟩
    · exact (later member).imp fun _ => .word cut
  case case5 =>
    intro indents line column char rest following cut later member
    rw [scan_cons, cut] at member
    rcases List.mem_cons.mp member with rfl | member
    · exact absurd rfl inLine
    · exact (later member).imp fun _ => .lineEnd cut
  case case6 =>
    intro indents line chars blanks body column bare later member
    rw [scanLine, if_pos bare] at member
    exact (later member).imp fun _ => .bare bare
  case case7 =>
    intro indents line chars blanks body column full shift later member
    rw [scanLine, if_neg full] at member
    rcases List.mem_append.mp member with isLayout | member
    · exact absurd isLayout (notLayout (filter_isSpelled_shift _ _ _))
    · split at member
      · rename_i isAligned
        exact (later member).imp fun _ => .measured (by simpa using full) isAligned
      · exact absurd member notFaulty

def after (source : List Char) : Nat → List Char
  | 0 => source
  | lines + 1 => ((after source lines).dropWhile (· ≠ '\n')).tail

/-- The width of the blanks at the start of a line. -/
def leadingWidth (source : List Char) (line : Nat) : Nat :=
  indentationWidth ((after source line).takeWhile isIndentation)

/-- What follows the blanks at the start of a line. -/
def afterBlanks (source : List Char) (line : Nat) : List Char :=
  (after source line).dropWhile isIndentation

/-- The width of the last of some lines that is not taken for bare. -/
def blockWidth (source : List Char) : Nat → Nat
  | 0 => 0
  | lines + 1 =>
      if isBare (afterBlanks source lines) then blockWidth source lines
      else leadingWidth source lines

theorem Shift.headD_of_aligned {indents : List Nat} {width : Nat}
    (aligned : (Shift.of indents width).aligned) :
    (Shift.of indents width).indents.headD 0 = width := by
  rw [Shift.of] at aligned ⊢
  split at aligned
  · rename_i wider
    rw [if_pos wider, List.headD_cons]
  · rename_i narrower
    rw [if_neg narrower]
    exact of_decide_eq_true aligned

/-- The innermost open block is as wide as the last measured line. -/
def Follows (source : List Char) (indents : List Nat) (line : Nat) (column : Option Nat)
    (chars : List Char) : Prop :=
  ∃ lines, line = lines + 1 ∧
    match column with
    | none => chars = after source lines ∧ indents.headD 0 = blockWidth source lines
    | some _ => indents.headD 0 = blockWidth source line ∧
        ∃ passed, afterBlanks source lines = passed ++ chars ∧ '\n' ∉ passed ∧
          ((afterBlanks source lines).head? = some '#' → passed = [] ∨ EndsLine chars)

namespace Follows

variable {source : List Char} {indents : List Nat} {line column : Nat} {char : Char}
  {chars rest spelling following : List Char}

theorem pass (follows : Follows source indents line (some column) (char :: rest))
    (visible : char ≠ '\n') (split : spelling ++ following = char :: rest)
    (inLine : '\n' ∉ spelling) (comment : char = '#' → EndsLine following) (next : Nat) :
    Follows source indents line (some next) following := by
  obtain ⟨lines, isLine, top, passed, isText, notPassed, ended⟩ := follows
  refine ⟨lines, isLine, top, passed ++ spelling, ?_, by simp [notPassed, inLine], ?_⟩
  · rw [isText, List.append_assoc, split]
  · intro isComment
    rcases ended isComment with rfl | isNil | ⟨_, isEnd⟩
    · rw [isText] at isComment
      exact .inr (comment (Option.some.inj isComment))
    · simp at isNil
    · exact absurd (List.cons.inj isEnd).1 visible

theorem lineEnd (follows : Follows source indents line (some column) ('\n' :: rest)) :
    Follows source indents (line + 1) none rest := by
  obtain ⟨lines, rfl, top, passed, isText, notPassed, _⟩ := follows
  refine ⟨lines + 1, rfl, ?_, top⟩
  have isAfter : after source lines =
      ((after source lines).takeWhile isIndentation ++ passed) ++ '\n' :: rest := by
    rw [List.append_assoc, ← isText]
    exact List.takeWhile_append_dropWhile.symm
  have inLine : ∀ char ∈ (after source lines).takeWhile isIndentation ++ passed,
      decide (char ≠ '\n') = true := by
    intro char member
    refine decide_eq_true ?_
    rintro rfl
    rcases List.mem_append.mp member with isBlank | isPassed
    · exact absurd (List.mem_takeWhile_imp isBlank) (by decide)
    · exact notPassed isPassed
  rw [after, isAfter, List.dropWhile_append_of_pos inLine]
  simp

theorem measure (follows : Follows source indents line none chars) (next : Nat) :
    (isBare (chars.dropWhile isIndentation) →
      Follows source indents line (some next) (chars.dropWhile isIndentation)) ∧
    (isBare (chars.dropWhile isIndentation) = false →
      (Shift.of indents (indentationWidth (chars.takeWhile isIndentation))).aligned →
      Follows source (Shift.of indents (indentationWidth (chars.takeWhile isIndentation))).indents
        line (some next) (chars.dropWhile isIndentation)) := by
  obtain ⟨lines, rfl, rfl, top⟩ := follows
  refine ⟨fun bare => ⟨lines, rfl, ?_, [], rfl, by simp, fun _ => .inl rfl⟩,
    fun full aligned => ⟨lines, rfl, ?_, [], rfl, by simp, fun _ => .inl rfl⟩⟩
  · rw [blockWidth, afterBlanks, if_pos bare, top]
  · rw [blockWidth, afterBlanks, if_neg (by simp [full])]
    exact Shift.headD_of_aligned aligned

/-- A line with words is taken for bare exactly if a return follows its blanks. -/
theorem isBare_iff (follows : Follows source indents (line + 1) (some column) (char :: rest))
    (visible : char ≠ '\n') (noComment : char ≠ '#') :
    isBare (afterBlanks source line) ↔ (afterBlanks source line).head? = some '\r' := by
  obtain ⟨lines, isLine, _, passed, isText, notPassed, ended⟩ := follows
  obtain rfl : line = lines := Nat.succ.inj isLine
  cases passed with
  | nil => simp [isText, isBare, visible, noComment]
  | cons first passed =>
      have inLine : first ≠ '\n' := fun isEnd => notPassed (by simp [isEnd])
      have notHash : first ≠ '#' := by
        rintro rfl
        rcases ended (by simp [isText]) with isNil | isNil | ⟨_, isEnd⟩
        · simp at isNil
        · simp at isNil
        · exact visible (List.cons.inj isEnd).1
      simp [isText, isBare, inLine, notHash]

end Follows

theorem Pushes.follows {source chars : List Char} {stack indents : List Nat} {token : Token}
    {line : Nat} {column : Option Nat} (pushes : Pushes stack token indents line column chars)
    (follows : Follows source indents line column chars) :
    ∃ column char rest, char ≠ '\n' ∧ char ≠ '#' ∧
      Follows source stack token.line (some column) (char :: rest) := by
  have starts {char : Char} {rest spelling following : List Char} {kind : Kind}
      {text : Option String}
      (cut : Lexeme.read char rest = (.token kind text spelling, following)) :
      char ≠ '\n' ∧ char ≠ '#' := by
    constructor <;> rintro rfl <;> cases cut
  induction pushes with
  | here cut isLine _ =>
      subst isLine
      exact ⟨_, _, _, (starts cut).1, (starts cut).2, follows⟩
  | word cut _ later =>
      obtain ⟨split, sound⟩ := Lexeme.of_read cut
      exact later (follows.pass (starts cut).1 split (sound.1.lineEnd_notMem sound.2)
        (fun isHash => absurd isHash (starts cut).2) _)
  | @blank _ _ _ _ rest _ _ cut _ later =>
      obtain ⟨split, sound⟩ := Lexeme.of_read cut
      refine later (follows.pass ?_ split sound.lineEnd_notMem ?_ _)
      · rintro rfl
        cases cut
      · rintro rfl
        cases cut
        exact Lexeme.endsLine_dropWhile rest
  | lineEnd cut _ later =>
      obtain ⟨rfl, rfl⟩ := List.cons.inj (Lexeme.of_read cut).1
      exact later follows.lineEnd
  | bare isBare _ later => exact later ((follows.measure _).1 isBare)
  | measured full aligned _ later => exact later ((follows.measure _).2 full aligned)

/-- A word stands in a block of the width of its line exactly if no carriage return follows the
blanks of the line, or it is as wide as the last measured line before it. The block is the innermost
one when the word is pushed. -/
theorem top_eq_leadingWidth_iff {source : String} {token : Token}
    (member : token ∈ ofSource source) (isSpelled : token.isSpelled)
    (inLine : token.kind ≠ .newline) (noFault : token.kind ≠ .error) :
    (∃ stack, Pushes stack token [0] 1 none source.toList) ∧
      ∀ stack, Pushes stack token [0] 1 none source.toList →
        (stack.headD 0 = leadingWidth source.toList (token.line - 1) ↔
          (afterBlanks source.toList (token.line - 1)).head? ≠ some '\r' ∨
            blockWidth source.toList (token.line - 1) =
              leadingWidth source.toList (token.line - 1)) := by
  refine ⟨(exists_pushes isSpelled inLine noFault).2 _ _ _ member, fun stack pushes => ?_⟩
  have start : Follows source.toList [0] 1 none source.toList := ⟨0, rfl, rfl, rfl⟩
  obtain ⟨column, char, rest, visible, noComment, follows⟩ := pushes.follows start
  obtain ⟨lines, isLine, top, _⟩ := id follows
  rw [isLine] at follows
  have bare_iff := follows.isBare_iff visible noComment
  rw [top, isLine, Nat.add_sub_cancel, blockWidth]
  split
  · rename_i bare
    simp [bare_iff.mp bare]
  · rename_i full
    simp [mt bare_iff.mpr full]

/-- After a blank and a carriage return, a word stands in the outermost block. -/
theorem top_eq_leadingWidth_iff_return :
    let token : Token := ⟨.identifier, some "b", 2, 3⟩
    token ∈ ofSource "a\n \rb" ∧
      ∃ stack, Pushes stack token [0] 1 none "a\n \rb".toList ∧ stack.headD 0 ≠ 1 := by
  have member : (⟨.identifier, some "b", 2, 3⟩ : Token) ∈ ofSource "a\n \rb" := by decide +kernel
  obtain ⟨⟨stack, pushes⟩, iff⟩ := top_eq_leadingWidth_iff member rfl nofun nofun
  exact ⟨member, stack, pushes, fun top => absurd ((iff stack pushes).mp top) (by decide)⟩

end Token

end Offside
