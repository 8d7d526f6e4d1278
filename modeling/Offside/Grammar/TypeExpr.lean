import Offside.Grammar.Rule
import Offside.Number.Decimal
import Offside.Token.Layout
import Offside.Tree

/-!
# Grammar of annotations

An annotation is a name with optional bracketed arguments, `None`, items between parentheses, or a
quoted text that holds an annotation in turn. A quoted text is cut into tokens of its own.
-/

namespace Offside

namespace Grammar

/-- Reads the inside of a quoted annotation. -/
abbrev QuotedReader := String → Except Fault TypeExpr

mutual

def typeExpr (quoted : QuotedReader) (tokens : List Token) :
    Outcome TypeExpr tokens.length :=
  match tokens with
  | [] => refuse [] (.expected .typeExpr)
  | token :: rest =>
      match token.kind with
      | .identifier =>
          match eat? (.punct .leftBracket) rest with
          | none => .ok ⟨.name token.text, rest, length_lt_cons token rest⟩
          | some ⟨_, inner, h₁⟩ => do
              let ⟨args, afterArgs, h₂⟩ ← typeArguments quoted inner
              let ⟨_, left, h₃⟩ ← expectPunct .rightBracket afterArgs
              return ⟨.generic token.text args, left, by simp only [List.length_cons]; omega⟩
      | .keyword .none_ => .ok ⟨.name "None", rest, length_lt_cons token rest⟩
      | .string =>
          match quoted token.text with
          | .ok written => .ok ⟨written, rest, length_lt_cons token rest⟩
          | .error fault => .error (fault.inQuoted token)
      | .punct .leftParen => do
          let ⟨first, afterFirst, h₁⟩ ← typeExpr quoted rest
          let ⟨others, afterItems, h₂⟩ ← typeItems quoted afterFirst
          let ⟨_, left, h₃⟩ ← expectPunct .rightParen afterItems
          let written := if others.isEmpty then first else .tuple (first :: others)
          return ⟨written, left, by simp only [List.length_cons]; omega⟩
      | _ => refuse (token :: rest) (.expected .typeExpr)
termination_by 2 * tokens.length

/-- Annotations and sizes separated by commas. -/
def typeArguments (quoted : QuotedReader) (tokens : List Token) :
    Outcome (List TypeExpr) tokens.length := do
  let ⟨arg, afterArg, h₁⟩ ←
    (match eat? .number tokens with
      | some ⟨token, rest, h⟩ =>
          match Number.size? token.text with
          | some count => .ok ⟨.size count, rest, h⟩
          | none => .error (.parsing .invalidSize (some token))
      | none => typeExpr quoted tokens : Outcome TypeExpr tokens.length)
  match eat? (.punct .comma) afterArg with
  | none => return ⟨[arg], afterArg, h₁⟩
  | some ⟨_, rest, h₂⟩ => do
      let ⟨args, left, h₃⟩ ← typeArguments quoted rest
      return ⟨arg :: args, left, taken_taken_taken h₁ h₂ h₃⟩
termination_by 2 * tokens.length + 1

/-- The further items between parentheses, each after a comma; a last comma may stand. -/
def typeItems (quoted : QuotedReader) (tokens : List Token) :
    Outcome (List TypeExpr) (tokens.length + 1) :=
  match eat? (.punct .comma) tokens with
  | none => .ok ⟨[], tokens, length_lt_succ tokens⟩
  | some ⟨_, rest, h₁⟩ =>
      if peek rest = .punct .rightParen then .ok ⟨[], rest, loose_of_taken h₁⟩
      else do
        let ⟨item, afterItem, h₂⟩ ← typeExpr quoted rest
        let ⟨items, left, h₃⟩ ← typeItems quoted afterItem
        return ⟨item :: items, left, loose_of_taken_taken_loose h₁ h₂ h₃⟩
termination_by 2 * tokens.length

end

/-- The first token that stands for a fault of scanning. -/
def scanFault? (tokens : List Token) : Option Token := tokens.find? (·.kind = .error)

/-- A token list without its end token, and that token, which may have to be made. -/
def splitEnd (tokens : List Token) : List Token × Token :=
  match tokens.getLast? with
  | some last =>
      if last.kind = .endOfFile then (tokens.dropLast, last)
      else (tokens, ⟨.endOfFile, none, last.line, last.column⟩)
  | none => ([], ⟨.endOfFile, none, 1, 1⟩)

/-- Reads the inside of a quoted annotation. Texts quoted in it are shorter, so the reading ends. -/
def quotedType (text : String) : Except Fault TypeExpr :=
  let tokens := Token.ofSource text
  match scanFault? tokens with
  | some token => .error (.scanning token)
  | none =>
      let (body, last) := splitEnd tokens
      let inner : QuotedReader := fun inside =>
        if inside.utf8ByteSize < text.utf8ByteSize then quotedType inside
        else .error (.parsing (.expected .typeExpr))
      match typeExpr inner body with
      | .error fault => .error (fault.endingAt last)
      | .ok parsed =>
          if peek parsed.rest = .endOfFile then .ok parsed.value
          else refuse parsed.rest .trailingInput
termination_by text.utf8ByteSize

end Grammar

/-- The annotation in a text on a line. -/
def parseType (text : String) (line : Nat) : Except Fault TypeExpr :=
  (Grammar.quotedType text).mapError (.inQuoted ⟨.string, some text, line, 1⟩)

end Offside
