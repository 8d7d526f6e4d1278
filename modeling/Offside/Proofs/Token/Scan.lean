import Offside.Proofs.Token.Spelling
import Offside.Token.Layout

/-!
# Scans

What a scan does to a source, one rule for each step. All that holds of the tokens of a source is
proved by following these rules.
-/

namespace Offside

namespace Token

/-- The tokens that a text gives, given the open blocks, the line and the column. -/
inductive Scans : List Nat → Nat → Option Nat → List Char → List Token → Prop
  /-- At the end of the source all blocks are closed. -/
  | finish {indents : List Nat} {line column : Nat} :
      Scans indents line (some column) [] (closing indents line)
  | fault {indents : List Nat} {line column place : Nat} {chars : List Char}
      {reason : LexicalFault} :
      Scans indents line (some column) chars [faulty line place reason]
  | blank {indents : List Nat} {line column : Nat} {gap following : List Char}
      {tokens : List Token} :
      Gap following gap →
      Scans indents line (some (column + byteLength gap)) following tokens →
      Scans indents line (some column) (gap ++ following) tokens
  | word {indents : List Nat} {line column : Nat} {kind : Kind} {text : Option String}
      {spelling following : List Char} {tokens : List Token} :
      Spells kind text spelling → kind ≠ .newline →
      Scans indents line (some (column + byteLength spelling)) following tokens →
      Scans indents line (some column) (spelling ++ following) (⟨kind, text, line, column⟩ :: tokens)
  | lineEnd {indents : List Nat} {line column : Nat} {following : List Char}
      {tokens : List Token} :
      Scans indents (line + 1) none following tokens →
      Scans indents line (some column) ('\n' :: following) (⟨.newline, none, line, column⟩ :: tokens)
  /-- A line without words leaves the open blocks as they are. -/
  | bare {indents : List Nat} {line : Nat} {blanks body : List Char} {tokens : List Token} :
      (∀ char ∈ blanks, isIndentation char) → isBare body →
      Scans indents line (some (blanks.length + 1)) body tokens →
      Scans indents line none (blanks ++ body) tokens
  | aligned {indents : List Nat} {line : Nat} {blanks body : List Char} {tokens : List Token} :
      (∀ char ∈ blanks, isIndentation char) →
      (Shift.of indents (indentationWidth blanks)).aligned →
      Scans (Shift.of indents (indentationWidth blanks)).indents line (some (blanks.length + 1))
        body tokens →
      Scans indents line none (blanks ++ body)
        ((Shift.of indents (indentationWidth blanks)).kinds.map (layout line) ++ tokens)
  | misaligned {indents : List Nat} {line place : Nat} {blanks body : List Char} :
      Scans indents line none (blanks ++ body)
        ((Shift.of indents (indentationWidth blanks)).kinds.map (layout line) ++
          [faulty line place .misaligned])

theorem scan_cons (indents : List Nat) (line column : Nat) (char : Char) (rest : List Char) :
    scan indents line column (char :: rest) =
      match Lexeme.read char rest with
      | (.fault before reason, _) => [faulty line (column + byteLength before) reason]
      | (.blank spelling, following) => scan indents line (column + byteLength spelling) following
      | (.token kind text spelling, following) =>
          ⟨kind, text, line, column⟩ :: scan indents line (column + byteLength spelling) following
      | (.lineEnd, following) =>
          ⟨.newline, none, line, column⟩ :: scanLine indents (line + 1) following := by
  rw [scan]
  split <;> rename_i cut <;> rw [cut]

theorem scans_scan :
    (∀ indents line column chars,
      Scans indents line (some column) chars (scan indents line column chars)) ∧
    (∀ indents line chars, Scans indents line none chars (scanLine indents line chars)) := by
  have indented (chars : List Char) : ∀ char ∈ chars.takeWhile isIndentation, isIndentation char :=
    fun _ member => List.mem_takeWhile_imp member
  apply scan.mutual_induct
  case case1 =>
    intro indents line column
    rw [scan]
    exact .finish
  case case2 =>
    intro indents line column char rest before reason following cut
    rw [scan_cons, cut]
    exact .fault
  case case3 =>
    intro indents line column char rest spelling following cut later
    obtain ⟨split, sound⟩ := Lexeme.of_read cut
    rw [scan_cons, cut, ← split]
    exact .blank sound later
  case case4 =>
    intro indents line column char rest kind text spelling following cut later
    obtain ⟨split, sound⟩ := Lexeme.of_read cut
    rw [scan_cons, cut, ← split]
    exact .word sound.1 sound.2 later
  case case5 =>
    intro indents line column char rest following cut later
    rw [scan_cons, cut, ← (Lexeme.of_read cut).1]
    exact .lineEnd later
  case case6 =>
    intro indents line chars blanks body column bare later
    have whole : blanks ++ body = chars := List.takeWhile_append_dropWhile
    have step := Scans.bare (indented chars) bare later
    rw [whole] at step
    rw [scanLine, if_pos bare]
    exact step
  case case7 =>
    intro indents line chars blanks body column full shift later
    have whole : blanks ++ body = chars := List.takeWhile_append_dropWhile
    rw [scanLine, if_neg full]
    dsimp only
    split
    · rename_i isAligned
      have step := Scans.aligned (indented chars) isAligned later
      rw [whole] at step
      exact step
    · have step : Scans indents line none (blanks ++ body) (shift.kinds.map (layout line) ++
          [faulty line column .misaligned]) := .misaligned
      rw [whole] at step
      exact step

theorem scans_ofSource (source : String) :
    Scans [0] 1 none source.toList (ofSource source) :=
  scans_scan.2 [0] 1 source.toList

end Token

end Offside
