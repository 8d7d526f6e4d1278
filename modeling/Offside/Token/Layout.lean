import Offside.Token.Lexeme

/-!
# Layout

A source is scanned line by line. The leading blanks of a line that holds a word open or close
blocks, and the tokens for that stand before the line's own. Scanning stops at the first fault,
which becomes an error token.
-/

namespace Offside

namespace Token

/-- Columns that a tab advances in the indentation of a line. -/
def tabWidth : Nat := 8

/-- Whether a character counts towards the indentation of a line. -/
def isIndentation (char : Char) : Bool := char = ' ' || char = '\t'

/-- The width of the leading blanks of a line. -/
def indentationWidth : List Char → Nat
  | [] => 0
  | blank :: blanks => (if blank = '\t' then tabWidth else 1) + indentationWidth blanks

/-- Whether a line holds no word, given what follows its leading blanks. -/
def isBare : List Char → Bool
  | [] => true
  | char :: _ => char = '\n' || char = '\r' || char = '#'

/-- What the indentation of a line does to the open blocks. -/
structure Shift where
  kinds : List Kind
  indents : List Nat
  aligned : Bool
deriving DecidableEq, Repr

namespace Shift

/-- A wider line opens a block; a narrower one closes those that are wider. -/
def of (indents : List Nat) (width : Nat) : Shift :=
  if indents.headD 0 < width then ⟨[.indent], width :: indents, true⟩
  else
    let kept := indents.dropWhile (width < ·)
    ⟨List.replicate (indents.length - kept.length) .dedent, kept, kept.headD 0 = width⟩

end Shift

/-- A layout token, which stands at the start of its line. -/
def layout (line : Nat) (kind : Kind) : Token := ⟨kind, none, line, 1⟩

/-- The token that ends the scan of a faulty source. -/
def faulty (line column : Nat) (reason : LexicalFault) : Token :=
  ⟨.error, some reason.message, line, column⟩

/-- What stands at the end of a source: the open blocks are closed. -/
def closing (indents : List Nat) (line : Nat) : List Token :=
  List.replicate (indents.length - 1) (layout line .dedent) ++ [layout line .endOfFile]

mutual

/-- The tokens of a text inside a line, from a given column on. -/
def scan (indents : List Nat) (line column : Nat) (chars : List Char) : List Token :=
  match chars with
  | [] => closing indents line
  | char :: rest =>
      match cut : Lexeme.read char rest with
      | (.fault before reason, _) => [faulty line (column + byteLength before) reason]
      | (.blank spelling, following) =>
          scan indents line (column + byteLength spelling) following
      | (.token kind text spelling, following) =>
          ⟨kind, text, line, column⟩ ::
            scan indents line (column + byteLength spelling) following
      | (.lineEnd, following) =>
          ⟨.newline, none, line, column⟩ :: scanLine indents (line + 1) following
termination_by 2 * chars.length
decreasing_by
  all_goals
    have shorter := Lexeme.read_length char rest (by simp [cut])
    simp only [cut] at shorter
    simp only [List.length_cons]
    omega

/-- The tokens of a text that starts a line. -/
def scanLine (indents : List Nat) (line : Nat) (chars : List Char) : List Token :=
  let blanks := chars.takeWhile isIndentation
  let body := chars.dropWhile isIndentation
  let column := blanks.length + 1
  if isBare body then scan indents line column body
  else
    let shift := Shift.of indents (indentationWidth blanks)
    shift.kinds.map (layout line) ++
      if shift.aligned then scan shift.indents line column body
      else [faulty line column .misaligned]
termination_by 2 * chars.length + 1
decreasing_by
  all_goals
    have shorter := (List.dropWhile_suffix isIndentation (l := chars)).length_le
    omega

end

/-- The tokens of a source, up to its end or to an error. -/
def ofSource (source : String) : List Token := scanLine [0] 1 source.toList

end Token

end Offside
