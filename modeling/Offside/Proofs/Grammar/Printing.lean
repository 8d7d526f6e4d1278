import Offside.Grammar.Expression
import Offside.Number.Shortest
import Offside.Proofs.C.Numeral

/-!
# Expressions in print

An expression is printed at a place, which is the level that its surroundings ask for: it goes
between parentheses exactly where its own level is looser than that. `Expr.printing` is this
printing. `Printed` is the same up to parentheses that could be left out and commas after the last
argument of a call.
-/

namespace Offside

open Grammar (Level)

variable {tokens : List Token}

/-- The sort of token that an arithmetic operator is. -/
def BinaryOp.kind : BinaryOp → Token.Kind
  | add => .punct .plus
  | sub => .punct .minus
  | mul => .punct .star
  | div => .punct .slash
  | floorDiv => .punct .doubleSlash
  | mod => .punct .percent

def BinaryOp.level : BinaryOp → Level
  | add | sub => .sum
  | mul | div | floorDiv | mod => .product

def LogicalOp.kind : LogicalOp → Token.Kind
  | and => .keyword .and_
  | or => .keyword .or_

def LogicalOp.level : LogicalOp → Level
  | and => .conjunction
  | or => .disjunction

def CompareOp.kind : CompareOp → Token.Kind
  | eq => .punct .equal
  | ne => .punct .notEqual
  | lt => .punct .less
  | le => .punct .lessEqual
  | gt => .punct .greater
  | ge => .punct .greaterEqual

def UnaryOp.kind : UnaryOp → Token.Kind
  | not => .keyword .not_
  | neg => .punct .minus
  | pos => .punct .plus

def UnaryOp.level : UnaryOp → Level
  | not => .negation
  | neg | pos => .signed

/-- The operators that associate to the left. -/
inductive Joiner
  | arithmetic (op : BinaryOp)
  | logical (op : LogicalOp)

namespace Joiner

def kind : Joiner → Token.Kind
  | arithmetic op => op.kind
  | logical op => op.kind

/-- The level of an operator; its right operand stands one level tighter. -/
def level : Joiner → Level
  | arithmetic op => op.level
  | logical op => op.level

def build : Joiner → Expr → Expr → Expr
  | arithmetic op => .binary op
  | logical op => .logical op

end Joiner

/-- A token apart from its place: its sort and its text. -/
abbrev Imprint := Token.Kind × String

def Token.imprint (token : Token) : Imprint := (token.kind, token.text)

def Token.Kind.imprint (kind : Token.Kind) : Imprint := (kind, "")

def Punct.imprint (mark : Punct) : Imprint := (Token.Kind.punct mark).imprint

/-- The token of a literal, with whole numbers in decimal digits. -/
def Constant.imprint : Constant → Imprint
  | int value => (.number, toString value)
  | float value => (.number, value.text)
  | str value => (.string, value)
  | bool true => (Token.Kind.keyword .true_).imprint
  | bool false => (Token.Kind.keyword .false_).imprint
  | none => (Token.Kind.keyword .none_).imprint

namespace Expr

/-- Puts parentheses around what is looser than its place. -/
def enclosed (own place : Level) (inside : List Imprint) : List Imprint :=
  if own.height ≤ place.height then inside
  else Punct.leftParen.imprint :: (inside ++ [Punct.rightParen.imprint])

mutual

def printing (place : Level) : Expr → List Imprint
  | name id => [(.identifier, id)]
  | constant value => [value.imprint]
  | binary op left right =>
      enclosed op.level place
        (left.printing op.level ++ op.kind.imprint :: right.printing op.level.tighter)
  | logical op left right =>
      enclosed op.level place
        (left.printing op.level ++ op.kind.imprint :: right.printing op.level.tighter)
  | compare op left right =>
      enclosed .comparison place
        (left.printing .sum ++ op.kind.imprint :: right.printing .sum)
  | unary op operand =>
      enclosed op.level place (op.kind.imprint :: operand.printing op.level)
  | call callee args =>
      callee.printing .trailed
        ++ Punct.leftParen.imprint :: (argumentsPrinting args ++ [Punct.rightParen.imprint])
  | member value attr =>
      value.printing .trailed ++ [Punct.dot.imprint, (.identifier, attr)]
  | subscript value index =>
      value.printing .trailed
        ++ Punct.leftBracket.imprint
          :: (index.printing .disjunction ++ [Punct.rightBracket.imprint])

def argumentsPrinting : List Expr → List Imprint
  | [] => []
  | [arg] => arg.printing .disjunction
  | arg :: next :: others =>
      arg.printing .disjunction ++ Punct.comma.imprint :: argumentsPrinting (next :: others)

end

end Expr

/-- What tokens print: an expression at a place, or arguments. -/
inductive Phrase
  | expression (place : Level) (expr : Expr)
  | arguments (args : List Expr)

/-- Whether tokens print a phrase up to redundant parentheses and a last comma. -/
inductive Printed (stands : Token → Constant → Prop) : Phrase → List Token → Prop
  | name {place : Level} {id : String} {token : Token} (isName : token.kind = .identifier)
      (text : token.text = id) : Printed stands (.expression place (.name id)) [token]
  | constant {place : Level} {value : Constant} {token : Token} (denotes : stands token value) :
      Printed stands (.expression place (.constant value)) [token]
  | joined (op : Joiner) {place : Level} {left right : Expr} {before after : List Token}
      {token : Token} (fits : op.level.height ≤ place.height) (isOp : token.kind = op.kind)
      (first : Printed stands (.expression op.level left) before)
      (second : Printed stands (.expression op.level.tighter right) after) :
      Printed stands (.expression place (op.build left right)) (before ++ token :: after)
  | compared (op : CompareOp) {place : Level} {left right : Expr} {before after : List Token}
      {token : Token} (fits : Level.comparison.height ≤ place.height)
      (isOp : token.kind = op.kind)
      (first : Printed stands (.expression .sum left) before)
      (second : Printed stands (.expression .sum right) after) :
      Printed stands (.expression place (.compare op left right)) (before ++ token :: after)
  | under (op : UnaryOp) {place : Level} {operand : Expr} {after : List Token} {token : Token}
      (fits : op.level.height ≤ place.height) (isOp : token.kind = op.kind)
      (inner : Printed stands (.expression op.level operand) after) :
      Printed stands (.expression place (.unary op operand)) (token :: after)
  | call {place : Level} {callee : Expr} {args : List Expr} {before inside : List Token}
      {opening closing : Token} (opens : opening.kind = .punct .leftParen)
      (closes : closing.kind = .punct .rightParen)
      (first : Printed stands (.expression .trailed callee) before)
      (inner : Printed stands (.arguments args) inside) :
      Printed stands (.expression place (.call callee args))
        (before ++ opening :: (inside ++ [closing]))
  | member {place : Level} {value : Expr} {attr : String} {before : List Token}
      {dot token : Token} (isDot : dot.kind = .punct .dot) (isName : token.kind = .identifier)
      (text : token.text = attr) (first : Printed stands (.expression .trailed value) before) :
      Printed stands (.expression place (.member value attr)) (before ++ [dot, token])
  | subscript {place : Level} {value index : Expr} {before inside : List Token}
      {opening closing : Token} (opens : opening.kind = .punct .leftBracket)
      (closes : closing.kind = .punct .rightBracket)
      (first : Printed stands (.expression .trailed value) before)
      (inner : Printed stands (.expression .disjunction index) inside) :
      Printed stands (.expression place (.subscript value index))
        (before ++ opening :: (inside ++ [closing]))
  | enclosed {place : Level} {expr : Expr} {inside : List Token} {opening closing : Token}
      (opens : opening.kind = .punct .leftParen) (closes : closing.kind = .punct .rightParen)
      (inner : Printed stands (.expression .disjunction expr) inside) :
      Printed stands (.expression place expr) (opening :: (inside ++ [closing]))
  | noArguments : Printed stands (.arguments []) []
  | lastArgument {arg : Expr} {slice : List Token}
      (first : Printed stands (.expression .disjunction arg) slice) :
      Printed stands (.arguments [arg]) slice
  | argument {arg : Expr} {args : List Expr} {slice others : List Token} {comma : Token}
      (isComma : comma.kind = .punct .comma)
      (first : Printed stands (.expression .disjunction arg) slice)
      (further : Printed stands (.arguments args) others) :
      Printed stands (.arguments (arg :: args)) (slice ++ comma :: others)

namespace Printed

variable {stands : Token → Constant → Prop}

theorem loosen {tight place : Level} {expr : Expr} {slice : List Token}
    (printed : Printed stands (.expression tight expr) slice)
    (looser : tight.height ≤ place.height) :
    Printed stands (.expression place expr) slice := by
  cases printed with
  | name isName text => exact .name isName text
  | constant denotes => exact .constant denotes
  | joined op fits isOp first second => exact .joined op (fits.trans looser) isOp first second
  | compared op fits isOp first second => exact .compared op (fits.trans looser) isOp first second
  | under op fits isOp inner => exact .under op (fits.trans looser) isOp inner
  | call opens closes first inner => exact .call opens closes first inner
  | member isDot isName text first => exact .member isDot isName text first
  | subscript opens closes first inner => exact .subscript opens closes first inner
  | enclosed opens closes inner => exact .enclosed opens closes inner

theorem stands_of_single {place : Level} {value : Constant} {token : Token}
    (printed : Printed stands (.expression place (.constant value)) [token]) :
    stands token value := by
  generalize isPhrase : Phrase.expression place (.constant value) = phrase at printed
  generalize isSlice : [token] = slice at printed
  cases printed with
  | constant denotes =>
      cases isPhrase
      cases isSlice
      exact denotes
  | joined op => cases op <;> cases isPhrase
  | enclosed => simp at isSlice
  | _ => cases isPhrase

end Printed

/-- Whether a token is the one that a literal is printed as. -/
def Token.Imprints (token : Token) (value : Constant) : Prop := token.imprint = value.imprint

/-- Whether a token stands for a literal, however a numeral is spelled. -/
def Token.Denotes (token : Token) : Constant → Prop
  | .int value => token.kind = .number ∧ Grammar.numeral? token.text = some (.int value)
  | .float value => token.kind = .number ∧ Grammar.numeral? token.text = some (.float value)
  | .str value => token.kind = .string ∧ token.text = value
  | .bool true => token.kind = .keyword .true_
  | .bool false => token.kind = .keyword .false_
  | .none => token.kind = .keyword .none_

/-- Whether a literal has a token. -/
def Constant.isPlain : Constant → Bool
  | int value => 0 ≤ value && value ≤ 9223372036854775807
  | float _ => false
  | str _ | bool _ | none => true

mutual

/-- Whether the literals of an expression are plain. -/
def Expr.isPlain : Expr → Bool
  | .name _ => true
  | .constant value => value.isPlain
  | .binary _ left right | .compare _ left right | .logical _ left right
  | .subscript left right => left.isPlain && right.isPlain
  | .unary _ operand | .member operand _ => operand.isPlain
  | .call callee args => callee.isPlain && Expr.arePlain args

def Expr.arePlain : List Expr → Bool
  | [] => true
  | expr :: exprs => expr.isPlain && Expr.arePlain exprs

end

theorem splitSign_of_isDigit {digits : List Char} (isDigit : ∀ char ∈ digits, char.isDigit) :
    Number.splitSign digits = (false, digits) := by
  unfold Number.splitSign
  split
  · exact absurd (isDigit '-' List.mem_cons_self) (by decide)
  · exact absurd (isDigit '+' List.mem_cons_self) (by decide)
  · rfl

theorem natural?_of_isDigit {digits : List Char} (someDigit : digits ≠ [])
    (isDigit : ∀ char ∈ digits, char.isDigit) :
    Number.natural? digits = some (Number.digitsValue digits) := by
  have notEmpty : digits.isEmpty = false := by simpa using someDigit
  have allDigits : digits.any (!·.isDigit) = false := by simpa using isDigit
  rw [Number.natural?, notEmpty, allDigits]
  rfl

theorem numeral?_of_isDigit {text : String} (someDigit : text.toList ≠ [])
    (isDigit : ∀ char ∈ text.toList, char.isDigit)
    (small : Number.digitsValue text.toList ≤ 9223372036854775807) :
    Grammar.numeral? text = some (.int (Number.digitsValue text.toList)) := by
  have noPoint : text.contains '.' = false := by
    rw [String.contains_char_eq, decide_eq_false_iff_not]
    exact fun member => absurd (isDigit _ member) (by decide)
  have isWhole : Number.whole? text = some (Number.digitsValue text.toList : Int) := by
    rw [Number.whole?, splitSign_of_isDigit isDigit]
    simp only [natural?_of_isDigit someDigit isDigit]
    rfl
  have inRange : (-9223372036854775808 ≤ (Number.digitsValue text.toList : Int)
      && (Number.digitsValue text.toList : Int) ≤ 9223372036854775807) = true := by
    rw [Bool.and_eq_true, decide_eq_true_iff, decide_eq_true_iff]
    omega
  rw [Grammar.numeral?, noPoint, Number.int64?, isWhole]
  simp only [Bool.false_eq_true, ↓reduceIte, Option.filter_some, inRange, Option.map_some]

theorem toString_nat_ne_nil (number : Nat) : (toString number).toList ≠ [] := by
  rw [C.toList_toString_nat]
  exact Nat.toDigits_ne_nil

theorem isDigit_of_mem_toString (number : Nat) :
    ∀ char ∈ (toString number).toList, char.isDigit := by
  rw [C.toList_toString_nat]
  exact fun _ => Nat.isDigit_of_mem_toDigits (by decide) (by decide)

theorem digitsValue_toString (number : Nat) :
    Number.digitsValue (toString number).toList = number := by
  rw [C.toList_toString_nat]
  exact Nat.ofDigitChars_ten_toDigits

theorem numeral?_toString {number : Nat} (small : number ≤ 9223372036854775807) :
    Grammar.numeral? (toString number) = some (.int number) := by
  have isValue := digitsValue_toString number
  rw [numeral?_of_isDigit (toString_nat_ne_nil number) (isDigit_of_mem_toString number)
    (isValue.trans_le small), isValue]

theorem Token.Imprints.denotes {token : Token} {value : Constant} (imprints : token.Imprints value)
    (plain : value.isPlain) : token.Denotes value := by
  obtain ⟨isKind, text⟩ := Prod.mk.inj imprints
  match value with
  | .int (.ofNat number) =>
      have small : number ≤ 9223372036854775807 := by
        simp [Constant.isPlain] at plain
        omega
      refine ⟨isKind, ?_⟩
      rw [text]
      exact numeral?_toString small
  | .int (.negSucc number) => simp [Constant.isPlain] at plain
  | .float _ => simp [Constant.isPlain] at plain
  | .str _ => exact ⟨isKind, text⟩
  | .bool true => exact isKind
  | .bool false => exact isKind
  | .none => exact isKind

theorem exists_of_imprints {before after : List Imprint} {middle : Imprint}
    (same : tokens.map Token.imprint = before ++ middle :: after) :
    ∃ first token second, tokens = first ++ token :: second ∧ first.map Token.imprint = before ∧
      token.imprint = middle ∧ second.map Token.imprint = after := by
  obtain ⟨first, others, rfl, isBefore, same⟩ := List.map_eq_append_iff.mp same
  obtain ⟨token, second, rfl, isMiddle, isAfter⟩ := List.map_eq_cons_iff.mp same
  exact ⟨first, token, second, rfl, isBefore, isMiddle, isAfter⟩

theorem exists_of_imprints_between {inside : List Imprint} {opening closing : Punct}
    (same : tokens.map Token.imprint = opening.imprint :: (inside ++ [closing.imprint])) :
    ∃ first slice last, tokens = first :: (slice ++ [last]) ∧ first.kind = .punct opening ∧
      slice.map Token.imprint = inside ∧ last.kind = .punct closing := by
  obtain ⟨first, others, rfl, opens, same⟩ := List.map_eq_cons_iff.mp same
  obtain ⟨slice, last, rest, rfl, isInside, closes, isRest⟩ := exists_of_imprints same
  obtain rfl := List.map_eq_nil_iff.mp isRest
  exact ⟨first, slice, last, rfl, (Prod.mk.inj opens).1, isInside, (Prod.mk.inj closes).1⟩

theorem printed_of_enclosed {own place : Level} {expr : Expr} {inside : List Imprint}
    {stands : Token → Constant → Prop}
    (printed : ∀ wide slice, own.height ≤ Level.height wide → slice.map Token.imprint = inside →
      Printed stands (.expression wide expr) slice)
    (same : tokens.map Token.imprint = Expr.enclosed own place inside) :
    Printed stands (.expression place expr) tokens := by
  unfold Expr.enclosed at same
  split at same
  · rename_i fits
    exact printed place tokens fits same
  · obtain ⟨first, slice, last, rfl, opens, isInside, closes⟩ := exists_of_imprints_between same
    exact .enclosed opens closes (printed .disjunction slice own.height_le isInside)

/-- The printing of two operands that an operator joins. -/
theorem printed_of_joined (op : Joiner) {place : Level} {left right : Expr}
    {leftPart rightPart : List Imprint} {stands : Token → Constant → Prop}
    (first : ∀ slice, slice.map Token.imprint = leftPart →
      Printed stands (.expression op.level left) slice)
    (second : ∀ slice, slice.map Token.imprint = rightPart →
      Printed stands (.expression op.level.tighter right) slice) (same : tokens.map Token.imprint =
      Expr.enclosed op.level place (leftPart ++ op.kind.imprint :: rightPart)) :
    Printed stands (.expression place (op.build left right)) tokens := by
  refine printed_of_enclosed (fun wide slice fits same => ?_) same
  obtain ⟨before, token, after, rfl, isLeft, isOp, isRight⟩ := exists_of_imprints same
  exact .joined op fits (Prod.mk.inj isOp).1 (first before isLeft) (second after isRight)

mutual

theorem printed_of_printing {expr : Expr} (plain : expr.isPlain) {place : Level}
    {tokens : List Token} (same : tokens.map Token.imprint = expr.printing place) :
    Printed Token.Denotes (.expression place expr) tokens := by
  cases expr with
  | name id =>
      rw [Expr.printing] at same
      obtain ⟨token, rfl, isToken⟩ := List.map_eq_singleton_iff.mp same
      obtain ⟨isName, text⟩ := Prod.mk.inj isToken
      exact .name isName text
  | constant value =>
      rw [Expr.printing] at same
      obtain ⟨token, rfl, imprints⟩ := List.map_eq_singleton_iff.mp same
      exact .constant (Token.Imprints.denotes imprints plain)
  | binary op left right =>
      rw [Expr.isPlain, Bool.and_eq_true] at plain
      rw [Expr.printing] at same
      exact printed_of_joined (.arithmetic op) (fun _ same => printed_of_printing plain.1 same)
        (fun _ same => printed_of_printing plain.2 same) same
  | logical op left right =>
      rw [Expr.isPlain, Bool.and_eq_true] at plain
      rw [Expr.printing] at same
      exact printed_of_joined (.logical op) (fun _ same => printed_of_printing plain.1 same)
        (fun _ same => printed_of_printing plain.2 same) same
  | compare op left right =>
      rw [Expr.isPlain, Bool.and_eq_true] at plain
      rw [Expr.printing] at same
      refine printed_of_enclosed (fun wide slice fits same => ?_) same
      obtain ⟨before, token, after, rfl, first, isOp, second⟩ := exists_of_imprints same
      exact .compared op fits (Prod.mk.inj isOp).1
        (printed_of_printing plain.1 first) (printed_of_printing plain.2 second)
  | unary op operand =>
      rw [Expr.isPlain] at plain
      rw [Expr.printing] at same
      refine printed_of_enclosed (fun wide slice fits same => ?_) same
      obtain ⟨token, after, rfl, isOp, inner⟩ := List.map_eq_cons_iff.mp same
      exact .under op fits (Prod.mk.inj isOp).1 (printed_of_printing plain inner)
  | call callee args =>
      rw [Expr.isPlain, Bool.and_eq_true] at plain
      rw [Expr.printing] at same
      obtain ⟨before, others, rfl, first, same⟩ := List.map_eq_append_iff.mp same
      obtain ⟨opening, inside, closing, rfl, opens, inner, closes⟩ :=
        exists_of_imprints_between same
      exact .call opens closes (printed_of_printing plain.1 first)
        (printed_of_argumentsPrinting plain.2 inner)
  | member value attr =>
      rw [Expr.isPlain] at plain
      rw [Expr.printing] at same
      obtain ⟨before, dot, others, rfl, first, isDot, same⟩ := exists_of_imprints same
      obtain ⟨token, rfl, isToken⟩ := List.map_eq_singleton_iff.mp same
      obtain ⟨isName, text⟩ := Prod.mk.inj isToken
      exact .member (Prod.mk.inj isDot).1 isName text (printed_of_printing plain first)
  | subscript value index =>
      rw [Expr.isPlain, Bool.and_eq_true] at plain
      rw [Expr.printing] at same
      obtain ⟨before, others, rfl, first, same⟩ := List.map_eq_append_iff.mp same
      obtain ⟨opening, inside, closing, rfl, opens, inner, closes⟩ :=
        exists_of_imprints_between same
      exact .subscript opens closes (printed_of_printing plain.1 first)
        (printed_of_printing plain.2 inner)

theorem printed_of_argumentsPrinting {args : List Expr} (plain : Expr.arePlain args)
    {tokens : List Token} (same : tokens.map Token.imprint = Expr.argumentsPrinting args) :
    Printed Token.Denotes (.arguments args) tokens := by
  match args with
  | [] =>
      rw [Expr.argumentsPrinting] at same
      obtain rfl := List.map_eq_nil_iff.mp same
      exact .noArguments
  | [arg] =>
      rw [Expr.arePlain, Bool.and_eq_true] at plain
      rw [Expr.argumentsPrinting] at same
      exact .lastArgument (printed_of_printing plain.1 same)
  | arg :: next :: others =>
      rw [Expr.arePlain, Bool.and_eq_true] at plain
      rw [Expr.argumentsPrinting] at same
      obtain ⟨slice, comma, rest, rfl, first, isComma, further⟩ := exists_of_imprints same
      exact .argument (Prod.mk.inj isComma).1 (printed_of_printing plain.1 first)
        (printed_of_argumentsPrinting plain.2 further)

end

end Offside
