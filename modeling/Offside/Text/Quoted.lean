import Offside.Text.Escaped

/-!
# Quoted text

The form in which dumps and messages show a text: between double quotes, with the usual escapes for
the common control characters, and code points in braces for whatever else has no shape of its own.
-/

namespace Offside

namespace Text

/-- Lower-case hexadecimal digits of a number, without padding. -/
def hexadecimal (value : Nat) : String := String.ofList (Nat.toDigits 16 value)

/-- The form of one character inside quotes. -/
def quotedChar (char : Char) : String :=
  if char = '\t' then "\\t"
  else if char = '\r' then "\\r"
  else if char = '\n' then "\\n"
  else if char = '\\' then "\\\\"
  else if char = '"' then "\\\""
  else if char = '\x00' then "\\0"
  else if isEscaped char then "\\u\x7b" ++ hexadecimal char.toNat ++ "\x7d"
  else char.toString

/-- A text between double quotes, every character in its quoted form. -/
def quoted (text : String) : String :=
  "\"" ++ String.join (text.toList.map quotedChar) ++ "\""

/-- A bracketed list of quoted texts. -/
def quotedList (texts : List String) : String :=
  "[" ++ ", ".intercalate (texts.map quoted) ++ "]"

end Text

end Offside
