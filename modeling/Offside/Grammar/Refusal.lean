import Offside.Token

/-!
# Refusals

Why a list of tokens is no tree.
-/

namespace Offside

namespace Grammar

/-- What the grammar asks for at some place. -/
inductive Expected
  | punct (mark : Punct)
  | keyword (word : Keyword)
  | functionName
  | parameterName
  | className
  | baseName
  | moduleName
  | importedName
  | loopVariable
  | memberName
  | block
  | blockEnd
  | caseBlock
  | caseBlockEnd
  | statementEnd
  | typeExpr
  | expression
deriving DecidableEq, Repr

namespace Expected

def text : Expected → String
  | punct mark => "'" ++ mark.spelling ++ "'"
  | keyword word => "'" ++ word.spelling ++ "'"
  | functionName => "function name"
  | parameterName => "parameter name"
  | className => "class name"
  | baseName => "base class name"
  | moduleName => "module name"
  | importedName => "imported name"
  | loopVariable => "loop variable"
  | memberName => "attribute name"
  | block => "an indented block"
  | blockEnd => "end of block"
  | caseBlock => "an indented block of cases"
  | caseBlockEnd => "end of match block"
  | statementEnd => "end of statement"
  | typeExpr => "a type annotation"
  | expression => "an expression"

end Expected

/-- Why the grammar stops at a token. -/
inductive Reason
  | expected (what : Expected)
  | chainedComparison
  | literalOutOfRange
  | invalidSize
  /-- A quoted annotation that is refused, with the message for its inside. -/
  | invalidQuoted (detail : String)
  /-- Something stands after a complete quoted annotation. -/
  | trailingInput
deriving DecidableEq, Repr

/-- The message of a reason at a token. -/
def Reason.message (token : Token) : Reason → String
  | expected what => "expected " ++ what.text ++ ", found " ++ token.describe
  | chainedComparison => "chained comparisons are not supported"
  | literalOutOfRange => "numeric literal '" ++ token.text ++ "' is out of range"
  | invalidSize => "invalid size '" ++ token.text ++ "' in type"
  | invalidQuoted detail =>
      "invalid type annotation '" ++ token.text ++ "': " ++ detail
  | trailingInput => "unexpected trailing input"

end Grammar

end Offside
