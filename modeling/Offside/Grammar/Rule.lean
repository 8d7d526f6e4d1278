import Offside.Fault

/-!
# Rules

The steps that every rule of the grammar is made of. A rule takes the tokens that are left and
returns what is left after it, with the proof that this is shorter than some bound; the rules call
each other under these bounds.
-/

namespace Offside

namespace Grammar

variable {left tokens middle : List Token}

/-- What a rule recognised, and the tokens that are left. -/
structure Parsed (α : Type) (bound : Nat) where
  value : α
  rest : List Token
  shorter : rest.length < bound

/-- Leaving everything stays within a loose bound. -/
theorem length_lt_succ (tokens : List Token) : tokens.length < tokens.length + 1 := by
  omega

/-- Taking one token leaves fewer. -/
theorem length_lt_cons (token : Token) (rest : List Token) :
    rest.length < (token :: rest).length := by
  simp only [List.length_cons]
  omega

/-- What keeps to a strict bound keeps to the loose one. -/
theorem loose_of_taken (taken : left.length < tokens.length) : left.length < tokens.length + 1 := by
  omega

theorem taken_taken (first : middle.length < tokens.length) (second : left.length < middle.length) :
    left.length < tokens.length := by
  omega

theorem loose_of_taken_taken (first : middle.length < tokens.length)
    (second : left.length < middle.length) : left.length < tokens.length + 1 := by
  omega

theorem taken_loose (first : middle.length < tokens.length)
    (second : left.length < middle.length + 1) : left.length < tokens.length := by
  omega

theorem loose_of_taken_loose (first : middle.length < tokens.length)
    (second : left.length < middle.length + 1) : left.length < tokens.length + 1 := by
  omega

theorem loose_of_taken_loose_taken {later : List Token} (first : middle.length < tokens.length)
    (second : later.length < middle.length + 1) (third : left.length < later.length) :
    left.length < tokens.length + 1 := by
  omega

theorem taken_taken_taken {later : List Token} (first : middle.length < tokens.length)
    (second : later.length < middle.length) (third : left.length < later.length) :
    left.length < tokens.length := by
  omega

theorem loose_of_taken_taken_loose {later : List Token} (first : middle.length < tokens.length)
    (second : later.length < middle.length) (third : left.length < later.length + 1) :
    left.length < tokens.length + 1 := by
  omega

abbrev Outcome (α : Type) (bound : Nat) := Except Fault (Parsed α bound)

/-- The sort of the first token that is left, or the end of the source. -/
def peek : List Token → Token.Kind
  | [] => .endOfFile
  | token :: _ => token.kind

/-- Stops at the first token that is left. -/
def refuse {α : Type} (tokens : List Token) (reason : Reason) : Except Fault α :=
  .error (.parsing reason tokens.head?)

/-- Takes the first token if it is of a sort. -/
def eat? (kind : Token.Kind) : (tokens : List Token) → Option (Parsed Token tokens.length)
  | [] => none
  | token :: rest =>
      if token.kind = kind then some ⟨token, rest, length_lt_cons token rest⟩ else none

/-- Takes the first token, which must be of a sort. -/
def expect (kind : Token.Kind) (what : Expected) (tokens : List Token) :
    Outcome Token tokens.length :=
  match eat? kind tokens with
  | some parsed => .ok parsed
  | none => refuse tokens (.expected what)

/-- Takes the first token, which must be a delimiter or operator. -/
def expectPunct (mark : Punct) (tokens : List Token) : Outcome Token tokens.length :=
  expect (.punct mark) (.punct mark) tokens

def expectKeyword (word : Keyword) (tokens : List Token) : Outcome Token tokens.length :=
  expect (.keyword word) (.keyword word) tokens

def identifier (what : Expected) (tokens : List Token) : Outcome String tokens.length := do
  let ⟨token, rest, shorter⟩ ← expect .identifier what tokens
  return ⟨token.text, rest, shorter⟩

def skipNewlines (tokens : List Token) : List Token :=
  tokens.dropWhile fun token => token.kind = .newline

/-- Dropping line ends makes no list longer. -/
theorem length_skipNewlines_le (tokens : List Token) :
    (skipNewlines tokens).length ≤ tokens.length :=
  (List.dropWhile_suffix _).length_le

end Grammar

end Offside
