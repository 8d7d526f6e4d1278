import Offside.Grammar.TypeExpr
import Offside.Grammar.Expression

/-!
# Grammar of statements

A statement is chosen by its first token. Blocks are delimited by layout tokens, and a quoted
literal on a line of its own directly before a loop, or before a jump out of one, names that
statement.
-/

namespace Offside

namespace Grammar

/-- Whether a statement with such a first token can carry a label. -/
def takesLabel : Token.Kind → Bool
  | .keyword .while_ => true
  | .keyword .for_ => true
  | .keyword .break_ => true
  | .keyword .continue_ => true
  | _ => false

/-- The label in front of a statement, and the rest. -/
def splitLabel (tokens : List Token) : Option String × List Token :=
  match tokens with
  | literal :: lineEnd :: rest =>
      let following := skipNewlines rest
      if literal.kind = .string && lineEnd.kind = .newline && takesLabel (peek following) then
        (some literal.text, following)
      else (none, tokens)
  | _ => (none, tokens)

/-- Taking a label off makes no list longer. -/
theorem length_splitLabel_le (tokens : List Token) :
    (splitLabel tokens).2.length ≤ tokens.length := by
  unfold splitLabel
  split
  · rename_i literal lineEnd rest
    have skipped := length_skipNewlines_le rest
    dsimp only
    split
    · simp only [List.length_cons]
      omega
    · exact Nat.le_refl _
  · exact Nat.le_refl _

/-- Whether a sort of token ends a simple statement. -/
def endsStatement : Token.Kind → Bool
  | .newline => true
  | .punct .semicolon => true
  | .dedent => true
  | .endOfFile => true
  | _ => false

/-- The end of a simple statement. The end of a block or of the source is left. -/
def statementEnd (tokens : List Token) : Outcome Unit (tokens.length + 1) :=
  match eat? .newline tokens <|> eat? (.punct .semicolon) tokens with
  | some ⟨_, rest, h₁⟩ => .ok ⟨(), rest, loose_of_taken h₁⟩
  | none =>
      if endsStatement (peek tokens) then .ok ⟨(), tokens, length_lt_succ tokens⟩
      else refuse tokens (.expected .statementEnd)

/-- An annotation after a mark, when the mark is there. -/
def typeExprAfter (mark : Punct) (tokens : List Token) :
    Outcome (Option TypeExpr) (tokens.length + 1) :=
  match eat? (.punct mark) tokens with
  | none => .ok ⟨none, tokens, length_lt_succ tokens⟩
  | some ⟨_, rest, h₁⟩ => do
      let ⟨written, left, h₂⟩ ← typeExpr quotedType rest
      return ⟨some written, left, loose_of_taken_taken h₁ h₂⟩

/-- Parameters separated by commas, up to the closing parenthesis; a last comma may stand. -/
def parameters (tokens : List Token) : Outcome (List Parameter) (tokens.length + 1) :=
  if peek tokens = .punct .rightParen then .ok ⟨[], tokens, length_lt_succ tokens⟩
  else do
    let ⟨name, afterName, h₁⟩ ← expect .identifier .parameterName tokens
    let ⟨written, afterParam, h₂⟩ ← typeExprAfter .colon afterName
    let param : Parameter := ⟨name.text, written, name.line⟩
    match eat? (.punct .comma) afterParam with
    | none => return ⟨[param], afterParam, loose_of_taken_loose h₁ h₂⟩
    | some ⟨_, rest, h₃⟩ =>
        let ⟨params, left, h₄⟩ ← parameters rest
        return ⟨param :: params, left, by omega⟩
termination_by tokens.length

/-- The further components of a dotted name, each after a dot. -/
def dottedRest (what : Expected) (tokens : List Token) :
    Outcome (List String) (tokens.length + 1) :=
  match eat? (.punct .dot) tokens with
  | none => .ok ⟨[], tokens, length_lt_succ tokens⟩
  | some ⟨_, rest, h₁⟩ => do
      let ⟨part, afterPart, h₂⟩ ← identifier what rest
      let ⟨parts, left, h₃⟩ ← dottedRest what afterPart
      return ⟨part :: parts, left, loose_of_taken_taken_loose h₁ h₂ h₃⟩
termination_by tokens.length

def dotted (what : Expected) (tokens : List Token) :
    Outcome (List String) tokens.length := do
  let ⟨part, afterPart, h₁⟩ ← identifier what tokens
  let ⟨parts, left, h₂⟩ ← dottedRest what afterPart
  return ⟨part :: parts, left, taken_loose h₁ h₂⟩

/-- The bases of a class; the last component of a dotted base counts. -/
def bases (tokens : List Token) : Outcome (List String) (tokens.length + 1) :=
  if peek tokens = .punct .rightParen then .ok ⟨[], tokens, length_lt_succ tokens⟩
  else do
    let ⟨parts, afterBase, h₁⟩ ← dotted .baseName tokens
    let base := parts.getLastD ""
    match eat? (.punct .comma) afterBase with
    | none => return ⟨[base], afterBase, loose_of_taken h₁⟩
    | some ⟨_, rest, h₂⟩ =>
        let ⟨others, left, h₃⟩ ← bases rest
        return ⟨base :: others, left, loose_of_taken_taken_loose h₁ h₂ h₃⟩
termination_by tokens.length

/-- The bases of a class between parentheses, when there are parentheses. -/
def basesBetween (tokens : List Token) : Outcome (List String) (tokens.length + 1) :=
  match eat? (.punct .leftParen) tokens with
  | none => .ok ⟨[], tokens, length_lt_succ tokens⟩
  | some ⟨_, rest, h₁⟩ => do
      let ⟨names, afterNames, h₂⟩ ← bases rest
      let ⟨_, left, h₃⟩ ← expectPunct .rightParen afterNames
      return ⟨names, left, loose_of_taken_loose_taken h₁ h₂ h₃⟩

/-- Imported names separated by commas. -/
def importedNames (tokens : List Token) : Outcome (List String) tokens.length := do
  let ⟨name, afterName, h₁⟩ ← identifier .importedName tokens
  match eat? (.punct .comma) afterName with
  | none => return ⟨[name], afterName, h₁⟩
  | some ⟨_, rest, h₂⟩ =>
      let ⟨names, left, h₃⟩ ← importedNames rest
      return ⟨name :: names, left, taken_taken_taken h₁ h₂ h₃⟩
termination_by tokens.length

/-- The names that an import takes out of its module. -/
def importList (selective : Bool) (tokens : List Token) :
    Outcome (List String) (tokens.length + 1) :=
  if selective then do
    let ⟨_, afterImport, h₁⟩ ← expectKeyword .import_ tokens
    let ⟨names, left, h₂⟩ ← importedNames afterImport
    return ⟨names, left, loose_of_taken_taken h₁ h₂⟩
  else .ok ⟨[], tokens, length_lt_succ tokens⟩

/-- An import, after its first word. -/
def importForm (selective : Bool) (tokens : List Token) : Outcome Form tokens.length := do
  let ⟨path, afterPath, h₁⟩ ← dotted .moduleName tokens
  let ⟨names, afterNames, h₂⟩ ← importList selective afterPath
  let ⟨_, left, h₃⟩ ← statementEnd afterNames
  return ⟨.import_ ⟨path, names⟩, left, by omega⟩

/-- An expression after an equals sign, when the sign is there. -/
def assignedValue (tokens : List Token) : Outcome (Option Expr) (tokens.length + 1) :=
  match eat? (.punct .assign) tokens with
  | none => .ok ⟨none, tokens, length_lt_succ tokens⟩
  | some ⟨_, rest, h₁⟩ => do
      let ⟨value, left, h₂⟩ ← expression rest
      return ⟨some value, left, loose_of_taken_taken h₁ h₂⟩

/-- A declaration, an assignment, or an expression for its effect. -/
def plainForm (tokens : List Token) : Outcome Form tokens.length := do
  let ⟨target, afterTarget, h₁⟩ ← expression tokens
  let ⟨written, afterType, h₂⟩ ← typeExprAfter .colon afterTarget
  let ⟨value, afterValue, h₃⟩ ← assignedValue afterType
  let ⟨_, left, h₄⟩ ← statementEnd afterValue
  let form : Form := match written, value with
    | some written, value => .declare target written value
    | none, some value => .assign target value
    | none, none => .expr target
  return ⟨form, left, by omega⟩

/-- The value of a return statement, when there is one. -/
def returnedValue (tokens : List Token) : Outcome (Option Expr) (tokens.length + 1) :=
  if endsStatement (peek tokens) then .ok ⟨none, tokens, length_lt_succ tokens⟩
  else do
    let ⟨value, left, h₁⟩ ← expression tokens
    return ⟨some value, left, loose_of_taken h₁⟩

/-- The pattern of a case; an underscore before the colon matches everything. -/
def casePattern (tokens : List Token) : Outcome Pattern tokens.length :=
  match eat? .identifier tokens with
  | some ⟨token, rest, h₁⟩ =>
      if token.text = "_" && peek rest = .punct .colon then .ok ⟨.wildcard, rest, h₁⟩
      else do
        let ⟨value, left, h₂⟩ ← expression tokens
        return ⟨.value value, left, h₂⟩
  | none => do
      let ⟨value, left, h₂⟩ ← expression tokens
      return ⟨.value value, left, h₂⟩

/-- A colon, line ends, an opening layout token, and line ends. -/
def blockStart (what : Expected) (tokens : List Token) : Outcome Unit tokens.length := do
  let ⟨_, afterColon, h₁⟩ ← expectPunct .colon tokens
  let ⟨_, afterIndent, h₂⟩ ← expect .indent what (skipNewlines afterColon)
  have skipped := length_skipNewlines_le afterColon
  have skippedInside := length_skipNewlines_le afterIndent
  return ⟨(), skipNewlines afterIndent, by omega⟩

mutual

/-- A statement with its label and line. -/
def statement (tokens : List Token) : Outcome Statement tokens.length :=
  let label := (splitLabel tokens).1
  have unlabelled := length_splitLabel_le tokens
  match body : (splitLabel tokens).2 with
  | [] => refuse [] (.expected .expression)
  | token :: rest => do
      let ⟨form, left, h₁⟩ ← statementForm label token rest
      return ⟨⟨token.line, form⟩, left, by simp [body] at unlabelled; omega⟩
termination_by 4 * tokens.length
decreasing_by
  simp only [body, List.length_cons] at unlabelled
  omega

/-- What a statement says, given its label and its first token. -/
def statementForm (label : Option String) (token : Token) (rest : List Token) :
    Outcome Form (rest.length + 1) :=
  match token.kind with
  | .keyword .def_ => do
      let ⟨name, afterName, h₁⟩ ← identifier .functionName rest
      let ⟨_, afterParen, h₂⟩ ← expectPunct .leftParen afterName
      let ⟨params, afterParams, h₃⟩ ← parameters afterParen
      let ⟨_, afterHead, h₄⟩ ← expectPunct .rightParen afterParams
      let ⟨returns, afterReturns, h₅⟩ ← typeExprAfter .arrow afterHead
      let ⟨body, left, h₆⟩ ← block afterReturns
      return ⟨.function ⟨name, params, returns, body⟩, left, by omega⟩
  | .keyword .class_ => do
      let ⟨name, afterName, h₁⟩ ← identifier .className rest
      let ⟨names, afterBases, h₂⟩ ← basesBetween afterName
      let ⟨body, left, h₃⟩ ← block afterBases
      return ⟨.classDef ⟨name, names, ClassDef.kindOf names body, body⟩, left, by omega⟩
  | .keyword .if_ => do
      let ⟨form, left, h₁⟩ ← branch rest
      return ⟨form, left, loose_of_taken h₁⟩
  | .keyword .while_ => do
      let ⟨test, afterTest, h₁⟩ ← expression rest
      let ⟨body, left, h₂⟩ ← block afterTest
      return ⟨.whileLoop test body label, left, loose_of_taken_taken h₁ h₂⟩
  | .keyword .for_ => do
      let ⟨target, afterTarget, h₁⟩ ← identifier .loopVariable rest
      let ⟨_, afterIn, h₂⟩ ← expectKeyword .in_ afterTarget
      let ⟨iter, afterIter, h₃⟩ ← expression afterIn
      let ⟨body, left, h₄⟩ ← block afterIter
      return ⟨.forLoop target iter body label, left, by omega⟩
  | .keyword .match_ => do
      let ⟨subject, afterSubject, h₁⟩ ← expression rest
      let ⟨_, inside, h₂⟩ ← blockStart .caseBlock afterSubject
      let ⟨arms, afterArms, h₃⟩ ← cases inside
      if arms.isEmpty then refuse afterArms (.expected (.keyword .case_))
      else
        let ⟨_, left, h₄⟩ ← expect .dedent .caseBlockEnd afterArms
        return ⟨.select subject arms, left, by omega⟩
  | .keyword .return_ => do
      let ⟨value, afterValue, h₁⟩ ← returnedValue rest
      let ⟨_, left, h₂⟩ ← statementEnd afterValue
      return ⟨.ret value, left, by omega⟩
  | .keyword .break_ => do
      let ⟨_, left, h₁⟩ ← statementEnd rest
      return ⟨.jump .leave label, left, h₁⟩
  | .keyword .continue_ => do
      let ⟨_, left, h₁⟩ ← statementEnd rest
      return ⟨.jump .next label, left, h₁⟩
  | .keyword .pass_ => do
      let ⟨_, left, h₁⟩ ← statementEnd rest
      return ⟨.pass, left, h₁⟩
  | .keyword .import_ => do
      let ⟨form, left, h₁⟩ ← importForm false rest
      return ⟨form, left, loose_of_taken h₁⟩
  | .keyword .from_ => do
      let ⟨form, left, h₁⟩ ← importForm true rest
      return ⟨form, left, loose_of_taken h₁⟩
  | _ => plainForm (token :: rest)
termination_by 4 * rest.length + 3

/-- A conditional after its first word; what follows an `elif` is one, too. -/
def branch (tokens : List Token) : Outcome Form tokens.length := do
  let ⟨test, afterTest, h₁⟩ ← expression tokens
  let ⟨body, afterBody, h₂⟩ ← block afterTest
  match eat? (.keyword .elif_) afterBody with
  | some ⟨token, rest, h₃⟩ => do
      let ⟨inner, left, h₄⟩ ← branch rest
      return ⟨.branch test body [⟨token.line, inner⟩], left, by omega⟩
  | none =>
      match eat? (.keyword .else_) afterBody with
      | some ⟨_, rest, h₃⟩ => do
          let ⟨orelse, left, h₄⟩ ← block rest
          return ⟨.branch test body orelse, left, by omega⟩
      | none => return ⟨.branch test body [], afterBody, taken_taken h₁ h₂⟩
termination_by 4 * tokens.length

/-- An indented block of statements. -/
def block (tokens : List Token) : Outcome (List Statement) tokens.length := do
  let ⟨_, inside, h₁⟩ ← blockStart .block tokens
  let ⟨body, afterBody, h₂⟩ ← blockBody inside
  let ⟨_, left, h₃⟩ ← expect .dedent .blockEnd afterBody
  return ⟨body, left, by omega⟩
termination_by 4 * tokens.length

/-- Statements up to the end of their block. -/
def blockBody (tokens : List Token) : Outcome (List Statement) (tokens.length + 1) :=
  if peek tokens = .dedent || peek tokens = .endOfFile then .ok ⟨[], tokens, length_lt_succ tokens⟩
  else do
    let ⟨first, afterFirst, h₁⟩ ← statement tokens
    have skipped := length_skipNewlines_le afterFirst
    let ⟨others, left, h₂⟩ ← blockBody (skipNewlines afterFirst)
    return ⟨first :: others, left, by omega⟩
termination_by 4 * tokens.length + 1

def cases (tokens : List Token) : Outcome (List Case) (tokens.length + 1) :=
  match eat? (.keyword .case_) tokens with
  | none => .ok ⟨[], tokens, length_lt_succ tokens⟩
  | some ⟨token, rest, h₁⟩ => do
      let ⟨pattern, afterPattern, h₂⟩ ← casePattern rest
      let ⟨body, afterBody, h₃⟩ ← block afterPattern
      have skipped := length_skipNewlines_le afterBody
      let ⟨others, left, h₄⟩ ← cases (skipNewlines afterBody)
      return ⟨⟨pattern, body, token.line⟩ :: others, left, by omega⟩
termination_by 4 * tokens.length

end

/-- The statements of a source, up to its end. -/
def sourceBody (tokens : List Token) : Except Fault (List Statement) :=
  if peek (skipNewlines tokens) = .endOfFile then .ok []
  else do
    let ⟨first, afterFirst, shorter⟩ ← statement (skipNewlines tokens)
    have _ := Nat.lt_of_lt_of_le shorter (length_skipNewlines_le tokens)
    let others ← sourceBody afterFirst
    return first :: others
termination_by tokens.length

end Grammar

end Offside
