import Offside.Proofs.C.Tree

/-!
# Reading C expressions

Reads operator trees off tokens as the grammar of C has them: an operand with calls, accesses and
subscripts after it, under signs and casts; operators between operands, the tighter ones first and
those of one level from the left; and assignments, whose target is an operand that is no cast. What
is read is written as the tokens that were taken, and its parts fit their places.
-/

namespace Offside

namespace C

def eat? (mark : Mark) : (tokens : List Token) →
    Option { rest : List Token // .mark mark :: rest = tokens }
  | .mark other :: rest => if same : mark = other then some ⟨rest, same ▸ rfl⟩ else none
  | _ => none

/-- A type at the start of tokens. -/
structure Ty.Read (input : List Token) where
  ty : Ty
  rest : List Token
  spelled : ty.tokens ++ rest = input
  named : ty.IsNamed

namespace Ty

/-- A type, and a pointer for each star after it. -/
def readStars (ty : Ty) (named : ty.IsNamed) : (tokens : List Token) → Ty.Read (ty.tokens ++ tokens)
  | .mark .star :: tokens =>
      let read := readStars (.pointer ty) named tokens
      ⟨read.ty, read.rest, by simpa [Ty.tokens] using read.spelled, read.named⟩
  | tokens => ⟨ty, tokens, rfl, named⟩

def ofWord? (text : String) : Option { ty : Ty // ty.tokens = [.word text] ∧ ty.IsNamed } :=
  if same : text = "int" then some ⟨.int, same ▸ rfl, trivial⟩
  else if same : text = "float" then some ⟨.float, same ▸ rfl, trivial⟩
  else if same : text = "char" then some ⟨.char, same ▸ rfl, trivial⟩
  else if same : text = "void" then some ⟨.void, same ▸ rfl, trivial⟩
  else if same : text = "Result" then some ⟨.result, same ▸ rfl, trivial⟩
  else none

def ofTag? (text tag : String) (named : isName tag) :
    Option { ty : Ty // ty.tokens = [.word text, .word tag] ∧ ty.IsNamed } :=
  if same : text = "struct" then some ⟨.struct tag, same ▸ rfl, named⟩
  else if same : text = "enum" then some ⟨.enum tag, same ▸ rfl, named⟩
  else none

def read? : (tokens : List Token) → Option (Ty.Read tokens)
  | .word text :: tokens =>
      match ofWord? text with
      | some ⟨ty, isWord, named⟩ =>
          let read := ty.readStars named tokens
          some ⟨read.ty, read.rest, by simpa [isWord] using read.spelled, read.named⟩
      | none =>
          match tokens with
          | .word tag :: tokens =>
              if named : isName tag then do
                let ⟨ty, isTag, isNamed⟩ ← ofTag? text tag named
                let read := ty.readStars isNamed tokens
                return ⟨read.ty, read.rest, by simpa [isTag] using read.spelled, read.named⟩
              else none
          | _ => none
  | _ => none

end Ty

/-- The operator before an operand that a mark stands for. -/
def Mark.unaryOp? : (mark : Mark) → Option { op : UnaryOp // op.mark = mark }
  | .bang => some ⟨.not, rfl⟩
  | .minus => some ⟨.neg, rfl⟩
  | .plus => some ⟨.pos, rfl⟩
  | .ampersand => some ⟨.address, rfl⟩
  | .star => some ⟨.deref, rfl⟩
  | _ => none

/-- The operator between operands that a mark stands for. -/
def Mark.binaryOp? : (mark : Mark) → Option { op : BinaryOp // op.mark = mark }
  | .plus => some ⟨.add, rfl⟩
  | .minus => some ⟨.sub, rfl⟩
  | .star => some ⟨.mul, rfl⟩
  | .slash => some ⟨.div, rfl⟩
  | .percent => some ⟨.mod, rfl⟩
  | .equal => some ⟨.eq, rfl⟩
  | .notEqual => some ⟨.ne, rfl⟩
  | .less => some ⟨.lt, rfl⟩
  | .lessEqual => some ⟨.le, rfl⟩
  | .greater => some ⟨.gt, rfl⟩
  | .greaterEqual => some ⟨.ge, rfl⟩
  | .andAnd => some ⟨.and, rfl⟩
  | .orOr => some ⟨.or, rfl⟩
  | _ => none

/-- A tree at the start of tokens that binds as tightly as a level. -/
structure Read (least : Nat) (input : List Token) where
  tree : Tree
  rest : List Token
  spelled : tree.tokens ++ rest = input
  fits : tree.Fits
  tight : least ≤ tree.level

/-- Trees at the start of tokens, separated by commas, and a mark. -/
structure ReadItems (least : Nat) (closing : Mark) (input : List Token) where
  trees : List Tree
  rest : List Token
  spelled : Tree.tokensOf trees ++ .mark closing :: rest = input
  fit : Tree.AllFit least trees
  nonempty : trees ≠ []

def Read.loosen {least tight : Nat} {input input' : List Token} (read : Read tight input)
    (loose : least ≤ tight) (same : input = input') : Read least input' :=
  ⟨read.tree, read.rest, read.spelled.trans same, read.fits, Nat.le_trans loose read.tight⟩

open Offside.C.Tree

mutual

/-- Reads an operand with its signs, casts, calls, accesses and subscripts. -/
def operand (tokens : List Token) : Option (Read 9 tokens) :=
  match tokens with
  | .number text :: tokens => do
      let read ← trailers (.atom (.number text)) trivial (by simp [level]) tokens
      return read.loosen (by decide) rfl
  | .string text :: tokens => do
      let read ← trailers (.atom (.string text)) trivial (by simp [level]) tokens
      return read.loosen (by decide) rfl
  | .word text :: tokens =>
      if sized : text = "sizeof" then do
        let ⟨inner, opened⟩ ← eat? .leftParen tokens
        let ⟨ty, after, spelled, named⟩ ← Ty.read? inner
        let ⟨rest, closed⟩ ← eat? .rightParen after
        return ⟨.sizeOf ty, rest, by simp [Tree.tokens, sized, ← opened, ← spelled, ← closed],
          named, by simp [level]⟩
      else if named : isName text then
        match eat? .leftParen tokens with
        | some ⟨inner, opened⟩ =>
            match eat? .rightParen inner with
            | some ⟨rest, closed⟩ => do
                let read ← trailers (.call text []) ⟨named, trivial⟩ (by simp [level]) rest
                return read.loosen (by decide)
                  (by simp [Tree.tokens, tokensOf, ← opened, ← closed])
            | none => do
                let ⟨args, rest, spelled, fit, _⟩ ← items 2 .rightParen inner
                let read ← trailers (.call text args) ⟨named, fit⟩ (by simp [level]) rest
                return read.loosen (by decide) (by simp [Tree.tokens, ← opened, ← spelled])
        | none => do
            let read ← trailers (.atom (.name text)) named (by simp [level]) tokens
            return read.loosen (by decide) rfl
      else none
  | .mark .leftParen :: tokens =>
      match Ty.read? tokens with
      | some ⟨ty, after, spelled, named⟩ => do
          let ⟨rest, closed⟩ ← eat? .rightParen after
          match eat? .leftBrace rest with
          | some ⟨inner, opened⟩ =>
              let ⟨trees, rest, inside, fit, nonempty⟩ ← items 0 .rightBrace inner
              let read ← trailers (.compound ty trees) ⟨named, nonempty, fit⟩ (by simp [level]) rest
              return read.loosen (by decide)
                (by simp [Tree.tokens, ← spelled, ← closed, ← opened, ← inside])
          | none =>
              let ⟨inner, rest, inside, fits, tight⟩ ← operand rest
              return ⟨.cast ty inner, rest, by simp [Tree.tokens, ← spelled, ← closed, ← inside],
                ⟨named, fits, tight⟩, by simp [level]⟩
      | none => do
          let ⟨inner, after, inside, fits, tight⟩ ← expression tokens
          let ⟨rest, closed⟩ ← eat? .rightParen after
          let read ← trailers (.paren inner) ⟨fits, tight⟩ (by simp [level]) rest
          return read.loosen (by decide) (by simp [Tree.tokens, ← inside, ← closed])
  | .mark mark :: tokens => do
      let ⟨op, isMark⟩ ← mark.unaryOp?
      let ⟨inner, rest, inside, fits, tight⟩ ← operand tokens
      return ⟨.unary op inner, rest, by simp [Tree.tokens, isMark, inside], ⟨fits, tight⟩,
        by simp [level]⟩
  | [] => none
termination_by 8 * tokens.length
decreasing_by
  all_goals
    subst_vars
    try simp only [List.length_append, List.length_cons]
    omega

def trailers (base : Tree) (fits : base.Fits) (tight : 11 ≤ base.level) (tokens : List Token) :
    Option (Read 11 (base.tokens ++ tokens)) :=
  match tokens with
  | .mark .dot :: .word name :: tokens =>
      if named : isName name then do
        let read ← trailers (.part .direct base name) ⟨fits, tight, named⟩ (by simp [level]) tokens
        return read.loosen (by decide) (by simp [Tree.tokens, Access.mark])
      else none
  | .mark .arrow :: .word name :: tokens =>
      if named : isName name then do
        let read ← trailers (.part .throughPointer base name) ⟨fits, tight, named⟩ (by simp [level])
          tokens
        return read.loosen (by decide) (by simp [Tree.tokens, Access.mark])
      else none
  | .mark .leftBracket :: tokens => do
      let ⟨position, after, inside, isFit, isTight⟩ ← expression tokens
      let ⟨rest, closed⟩ ← eat? .rightBracket after
      let read ← trailers (.index base position) ⟨fits, tight, isFit, isTight⟩ (by simp [level])
        rest
      return read.loosen (by decide) (by simp [Tree.tokens, ← inside, ← closed])
  | tokens => some ⟨base, tokens, rfl, fits, tight⟩
termination_by 8 * tokens.length
decreasing_by
  all_goals
    subst_vars
    try simp only [List.length_append, List.length_cons]
    omega

/-- Reads operands with operators that bind as tightly as a level. -/
def operands (least : Nat) (loose : least ≤ 9) (tokens : List Token) :
    Option (Read least tokens) := do
  let ⟨first, after, spelled, fits, tight⟩ ← operand tokens
  let read ← joined least first fits (by omega) after
  return read.loosen (Nat.le_refl _) spelled
termination_by 8 * tokens.length + 1
decreasing_by
  all_goals
    subst_vars
    try simp only [List.length_append]
    omega

/-- Reads the operators and operands after a tree. -/
def joined (least : Nat) (left : Tree) (fits : left.Fits) (tight : least ≤ left.level)
    (tokens : List Token) : Option (Read least (left.tokens ++ tokens)) :=
  match tokens with
  | .mark mark :: tokens =>
      match mark.binaryOp? with
      | some ⟨op, isMark⟩ =>
          if binds : least ≤ op.level ∧ op.level ≤ left.level then do
            let ⟨right, after, spelled, isFit, isTight⟩ ←
              operands (op.level + 1) (by have := op.level_bounds; omega) tokens
            let read ← joined least (.binary op left right) ⟨fits, binds.2, isFit, isTight⟩
              (by simpa [level] using binds.1) after
            return read.loosen (Nat.le_refl _) (by simp [Tree.tokens, isMark, ← spelled])
          else some ⟨left, .mark mark :: tokens, rfl, fits, tight⟩
      | none => some ⟨left, .mark mark :: tokens, rfl, fits, tight⟩
  | tokens => some ⟨left, tokens, rfl, fits, tight⟩
termination_by 8 * tokens.length
decreasing_by
  all_goals
    subst_vars
    try simp only [List.length_append, List.length_cons]
    omega

def expression (tokens : List Token) : Option (Read 2 tokens) := do
  let ⟨first, after, spelled, fits, tight⟩ ← operand tokens
  match eat? .assign after with
  | some ⟨rest, assigned⟩ =>
      if isTarget : 10 ≤ first.level then
        let ⟨value, rest, inside, isFit, isTight⟩ ← expression rest
        return ⟨.assign first value, rest, by simp [Tree.tokens, ← spelled, ← assigned, ← inside],
          ⟨fits, isTarget, isFit, isTight⟩, by simp [level]⟩
      else none
  | none =>
      let read ← joined 3 first fits (by omega) after
      return read.loosen (by decide) spelled
termination_by 8 * tokens.length + 1
decreasing_by
  all_goals
    subst_vars
    try simp only [List.length_append, List.length_cons]
    omega

def item (least : Nat) (tokens : List Token) : Option (Read least tokens) :=
  match tokens with
  | .mark .dot :: .word name :: .mark .assign :: tokens =>
      if allowed : least = 0 ∧ isName name then do
        let ⟨value, rest, spelled, fits, tight⟩ ← item 1 tokens
        return ⟨.designated name value, rest, by simp [Tree.tokens, ← spelled],
          ⟨allowed.2, fits, tight⟩, by simp [allowed.1]⟩
      else none
  | .mark .leftBrace :: tokens =>
      if allowed : least ≤ 1 then do
        let ⟨trees, rest, spelled, fit, nonempty⟩ ← items 0 .rightBrace tokens
        return ⟨.braces trees, rest, by simp [Tree.tokens, ← spelled], ⟨nonempty, fit⟩,
          by simpa [level]⟩
      else none
  | tokens =>
      if allowed : least ≤ 2 then do
        let read ← expression tokens
        return read.loosen allowed rfl
      else none
termination_by 8 * tokens.length + 2
decreasing_by
  all_goals
    try simp only [List.length_cons]
    omega

def items (least : Nat) (closing : Mark) (tokens : List Token) :
    Option (ReadItems least closing tokens) := do
  let ⟨first, after, spelled, fits, tight⟩ ← item least tokens
  match eat? .comma after with
  | some ⟨more, parted⟩ =>
      let ⟨others, rest, inside, fit, nonempty⟩ ← items least closing more
      return ⟨first :: others, rest, by
        obtain ⟨second, others, rfl⟩ := List.exists_cons_of_ne_nil nonempty
        simp [tokensOf, moreTokens, ← spelled, ← parted, ← inside], ⟨fits, tight, fit⟩, by simp⟩
  | none =>
      let ⟨rest, closed⟩ ← eat? closing after
      return ⟨[first], rest, by simp [tokensOf, moreTokens, ← spelled, ← closed],
        ⟨fits, tight, trivial⟩, by simp⟩
termination_by 8 * tokens.length + 3
decreasing_by
  all_goals
    subst_vars
    try simp only [List.length_append, List.length_cons]
    omega

end

/-! ## Reading what was written -/

@[simp]
theorem eat?_cons (mark : Mark) (rest : List Token) :
    eat? mark (.mark mark :: rest) = some ⟨rest, rfl⟩ := by
  simp [eat?]

theorem eat?_eq_none {mark : Mark} {tokens : List Token}
    (missing : tokens.head? ≠ some (.mark mark)) : eat? mark tokens = none := by
  unfold eat?
  split
  · rename_i other rest
    have different : mark ≠ other := by
      rintro rfl
      exact missing rfl
    simp [different]
  · rfl

@[simp]
theorem UnaryOp.unaryOp?_mark (op : UnaryOp) : op.mark.unaryOp? = some ⟨op, rfl⟩ := by
  cases op <;> rfl

@[simp]
theorem BinaryOp.binaryOp?_mark (op : BinaryOp) : op.mark.binaryOp? = some ⟨op, rfl⟩ := by
  cases op <;> rfl

namespace Ty

variable {ty : Ty} {rest : List Token}

theorem readStars_eq (named : ty.IsNamed) (free : rest.head? ≠ some (.mark .star)) :
    (ty.readStars named rest).ty = ty ∧ (ty.readStars named rest).rest = rest := by
  unfold readStars
  split
  · simp at free
  · exact ⟨rfl, rfl⟩

def Gives {input : List Token} (outcome : Option (Ty.Read input)) (ty : Ty) (rest : List Token) :
    Prop :=
  outcome.map (fun read => (read.ty, read.rest)) = some (ty, rest)

theorem Gives.exists {input : List Token} {outcome : Option (Ty.Read input)}
    (gives : Gives outcome ty rest) :
    ∃ spelled named, outcome = some ⟨ty, rest, spelled, named⟩ := by
  obtain ⟨⟨_, _, spelled, named⟩, isRead, same⟩ := Option.map_eq_some_iff.mp gives
  obtain ⟨rfl, rfl⟩ := Prod.mk.inj same
  exact ⟨spelled, named, isRead⟩

theorem ofWord?_of_tokens {text : String} (isWord : ty.tokens = [.word text]) (named : ty.IsNamed) :
    ofWord? text = some ⟨ty, isWord, named⟩ := by
  cases ty with
  | struct | enum => simp [Ty.tokens] at isWord
  | pointer target =>
      obtain ⟨first, rest, starts⟩ := target.exists_tokens_cons
      simp [Ty.tokens, starts] at isWord
  | _ =>
      simp only [Ty.tokens, Ty.text, List.cons.injEq, Token.word.injEq, and_true] at isWord
      subst isWord
      simp [ofWord?]

/-- A type is read up to the stars after it. -/
theorem gives_readStars : (ty : Ty) → (named : ty.IsNamed) → {tokens rest : List Token} →
    {whole : Ty} → (ty.readStars named tokens).ty = whole →
    (ty.readStars named tokens).rest = rest → Gives (read? (ty.tokens ++ tokens)) whole rest
  | .pointer target, named, _, _, _, isWhole, isRest => by
      rw [Ty.tokens.eq_def, List.append_assoc]
      exact gives_readStars target named isWhole isRest
  | .int, named, _, _, _, isWhole, isRest | .float, named, _, _, _, isWhole, isRest
  | .char, named, _, _, _, isWhole, isRest | .void, named, _, _, _, isWhole, isRest
  | .result, named, _, _, _, isWhole, isRest => by
      subst isWhole isRest
      simp only [Ty.tokens, List.cons_append, read?, ofWord?_of_tokens rfl named]
      rfl
  | .struct tag, named, _, _, _, isWhole, isRest => by
      have isNamed : isName tag := named
      have noWord : ofWord? "struct" = none := by simp [ofWord?]
      have isTag : ofTag? "struct" tag isNamed = some ⟨.struct tag, rfl, named⟩ := by simp [ofTag?]
      subst isWhole isRest
      simp only [Ty.tokens, List.cons_append, List.nil_append, read?, noWord, isNamed, dite_true,
        isTag]
      exact rfl
  | .enum tag, named, _, _, _, isWhole, isRest => by
      have isNamed : isName tag := named
      have noWord : ofWord? "enum" = none := by simp [ofWord?]
      have isTag : ofTag? "enum" tag isNamed = some ⟨.enum tag, rfl, named⟩ := by simp [ofTag?]
      subst isWhole isRest
      simp only [Ty.tokens, List.cons_append, List.nil_append, read?, noWord, isNamed, dite_true,
        isTag]
      exact rfl

theorem gives_read? (named : ty.IsNamed) (free : rest.head? ≠ some (.mark .star)) :
    Gives (read? (ty.tokens ++ rest)) ty rest :=
  gives_readStars ty named (readStars_eq named free).1 (readStars_eq named free).2

end Ty

end C

end Offside
