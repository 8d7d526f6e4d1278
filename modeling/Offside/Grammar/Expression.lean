import Offside.Grammar.Rule
import Offside.Number.Decimal
import Offside.Tree

/-!
# Grammar of expressions

Expressions are built in levels, the loosest first. Binary operators of one level associate to the
left, and comparisons do not associate at all.
-/

namespace Offside

namespace Grammar

/-- The levels of binding, the loosest first. -/
inductive Level
  | disjunction
  | conjunction
  | negation
  /-- At most one comparison. -/
  | comparison
  | sum
  | product
  | signed
  | trailed
deriving DecidableEq, Repr

namespace Level

def tighter : Level → Level
  | disjunction => conjunction
  | conjunction => negation
  | negation => comparison
  | comparison => sum
  | sum => product
  | product => signed
  | signed => trailed
  | trailed => trailed

/-- How many levels there are from a level on. -/
def height : Level → Nat
  | disjunction => 8
  | conjunction => 7
  | negation => 6
  | comparison => 5
  | sum => 4
  | product => 3
  | signed => 2
  | trailed => 1

/-- No level has more than eight levels from it on. -/
theorem height_le (level : Level) : level.height ≤ 8 := by cases level <;> decide

/-- What the operators of a level make of two expressions. -/
def join? : Level → Token.Kind → Option (Expr → Expr → Expr)
  | disjunction, .keyword .or_ => some (.logical .or)
  | conjunction, .keyword .and_ => some (.logical .and)
  | sum, .punct .plus => some (.binary .add)
  | sum, .punct .minus => some (.binary .sub)
  | product, .punct .star => some (.binary .mul)
  | product, .punct .slash => some (.binary .div)
  | product, .punct .doubleSlash => some (.binary .floorDiv)
  | product, .punct .percent => some (.binary .mod)
  | _, _ => none

end Level

def comparison? : Token.Kind → Option CompareOp
  | .punct .equal => some .eq
  | .punct .notEqual => some .ne
  | .punct .less => some .lt
  | .punct .lessEqual => some .le
  | .punct .greater => some .gt
  | .punct .greaterEqual => some .ge
  | _ => none

def sign? : Token.Kind → Option UnaryOp
  | .punct .minus => some .neg
  | .punct .plus => some .pos
  | _ => none

/-- The value of a numeral: with a point a floating point number. -/
def numeral? (text : String) : Option Constant :=
  if text.contains '.' then
    (Number.Decimal.parse? text).map fun decimal => .float (.ofDecimal decimal)
  else (Number.int64? text).map .int

/-- The expression that a single token makes. -/
def atom? (token : Token) : Option (Except Reason Expr) :=
  match token.kind with
  | .number =>
      some <| match numeral? token.text with
        | some value => .ok (.constant value)
        | none => .error .literalOutOfRange
  | .string => some (.ok (.constant (.str token.text)))
  | .keyword .true_ => some (.ok (.constant (.bool true)))
  | .keyword .false_ => some (.ok (.constant (.bool false)))
  | .keyword .none_ => some (.ok (.constant .none))
  | .identifier => some (.ok (.name token.text))
  | _ => none

mutual

/-- An expression of a level. -/
def expressionAt (level : Level) (tokens : List Token) : Outcome Expr tokens.length :=
  match level with
  | .negation =>
      match eat? (.keyword .not_) tokens with
      | some ⟨_, rest, h₁⟩ => do
          let ⟨operand, left, h₂⟩ ← expressionAt .negation rest
          return ⟨.unary .not operand, left, taken_taken h₁ h₂⟩
      | none => expressionAt .comparison tokens
  | .comparison => do
      let ⟨first, afterFirst, h₁⟩ ← expressionAt .sum tokens
      match comparison? (peek afterFirst) with
      | none => return ⟨first, afterFirst, h₁⟩
      | some op =>
          let ⟨second, left, h₂⟩ ← expressionAt .sum afterFirst.tail
          if (comparison? (peek left)).isSome then refuse left .chainedComparison
          else return ⟨.compare op first second, left, by simp at h₂; omega⟩
  | .signed =>
      match tokens with
      | [] => refuse [] (.expected .expression)
      | token :: rest =>
          match sign? token.kind with
          | some op => do
              let ⟨operand, left, h₁⟩ ← expressionAt .signed rest
              return ⟨.unary op operand, left, by simp only [List.length_cons]; omega⟩
          | none => expressionAt .trailed (token :: rest)
  | .trailed => do
      let ⟨base, afterBase, h₁⟩ ← primary tokens
      let ⟨whole, left, h₂⟩ ← trailers base afterBase
      return ⟨whole, left, taken_loose h₁ h₂⟩
  | level@.disjunction | level@.conjunction | level@.sum | level@.product => do
      let ⟨first, afterFirst, h₁⟩ ← expressionAt level.tighter tokens
      let ⟨whole, left, h₂⟩ ← joined level first afterFirst
      return ⟨whole, left, taken_loose h₁ h₂⟩
termination_by 16 * tokens.length + level.height
decreasing_by
  all_goals simp_all only [Level.height, Level.tighter, List.length_cons, List.length_tail]
  all_goals omega

/-- The further operands of a level, each after its operator. -/
def joined (level : Level) (first : Expr) (tokens : List Token) :
    Outcome Expr (tokens.length + 1) :=
  match tokens with
  | [] => .ok ⟨first, [], by simp⟩
  | token :: rest =>
      match level.join? token.kind with
      | none => .ok ⟨first, token :: rest, by simp⟩
      | some join => do
          let ⟨second, afterSecond, h₁⟩ ← expressionAt level.tighter rest
          let ⟨whole, left, h₂⟩ ← joined level (join first second) afterSecond
          return ⟨whole, left, by simp only [List.length_cons]; omega⟩
termination_by 16 * tokens.length
decreasing_by
  all_goals
    have bounded := level.tighter.height_le
    simp only [List.length_cons]
    omega

/-- The calls, members and subscripts after an expression. -/
def trailers (base : Expr) (tokens : List Token) : Outcome Expr (tokens.length + 1) :=
  match tokens with
  | [] => .ok ⟨base, [], by simp⟩
  | token :: rest =>
      match token.kind with
      | .punct .leftParen => do
          let ⟨args, afterArgs, h₁⟩ ← arguments rest
          let ⟨_, afterCall, h₂⟩ ← expectPunct .rightParen afterArgs
          let ⟨whole, left, h₃⟩ ← trailers (.call base args) afterCall
          return ⟨whole, left, by simp only [List.length_cons]; omega⟩
      | .punct .dot => do
          let ⟨attr, afterName, h₁⟩ ← identifier .memberName rest
          let ⟨whole, left, h₂⟩ ← trailers (.member base attr) afterName
          return ⟨whole, left, by simp only [List.length_cons]; omega⟩
      | .punct .leftBracket => do
          let ⟨index, afterIndex, h₁⟩ ← expressionAt .disjunction rest
          let ⟨_, afterBracket, h₂⟩ ← expectPunct .rightBracket afterIndex
          let ⟨whole, left, h₃⟩ ← trailers (.subscript base index) afterBracket
          return ⟨whole, left, by simp only [List.length_cons]; omega⟩
      | _ => .ok ⟨base, token :: rest, by simp⟩
termination_by 16 * tokens.length
decreasing_by
  all_goals simp only [Level.height, List.length_cons]
  all_goals omega

/-- Arguments separated by commas, up to the closing parenthesis; a last comma may stand. -/
def arguments (tokens : List Token) : Outcome (List Expr) (tokens.length + 1) :=
  if peek tokens = .punct .rightParen then .ok ⟨[], tokens, length_lt_succ tokens⟩
  else do
    let ⟨arg, afterArg, h₁⟩ ← expressionAt .disjunction tokens
    match eat? (.punct .comma) afterArg with
    | none => return ⟨[arg], afterArg, loose_of_taken h₁⟩
    | some ⟨_, rest, h₂⟩ =>
        let ⟨args, left, h₃⟩ ← arguments rest
        return ⟨arg :: args, left, loose_of_taken_taken_loose h₁ h₂ h₃⟩
termination_by 16 * tokens.length + 9
decreasing_by
  all_goals try simp only [Level.height]
  all_goals omega

/-- A literal, a name, or an expression between parentheses. -/
def primary (tokens : List Token) : Outcome Expr tokens.length :=
  match tokens with
  | [] => refuse [] (.expected .expression)
  | token :: rest =>
      match atom? token with
      | some (.ok atom) => .ok ⟨atom, rest, length_lt_cons token rest⟩
      | some (.error reason) => .error (.parsing reason (some token))
      | none =>
          match token.kind with
          | .punct .leftParen => do
              let ⟨inner, afterInner, h₁⟩ ← expressionAt .disjunction rest
              let ⟨_, left, h₂⟩ ← expectPunct .rightParen afterInner
              return ⟨inner, left, by simp only [List.length_cons]; omega⟩
          | _ => refuse (token :: rest) (.expected .expression)
termination_by 16 * tokens.length
decreasing_by
  all_goals simp only [Level.height, List.length_cons]
  all_goals omega

end

def expression (tokens : List Token) : Outcome Expr tokens.length :=
  expressionAt .disjunction tokens

end Grammar

end Offside
