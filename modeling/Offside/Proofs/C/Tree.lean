import Offside.Proofs.C.Token

/-!
# Operator trees of C

What a reader of C takes an expression for: which operator, call or access has which operands, and
where parentheses stand. A tree is written as tokens in one way. The tokens are read back as the
tree only if its parts bind tightly enough for the places they stand in, so every tree has a level
of binding.
-/

namespace Offside

namespace C

def isWord (text : String) : Bool :=
  text.toList.head?.any (!·.isDigit) && text.toList.all isIdentifierChar

theorem isWord_iff {text : String} :
    isWord text = true ↔ ∃ first rest, text.toList = first :: rest ∧ first.isDigit = false ∧
      ∀ char ∈ first :: rest, isIdentifierChar char := by
  unfold isWord
  cases text.toList with
  | nil => simp
  | cons first rest =>
      simp only [List.head?_cons, Option.any_some, List.all_eq_true, Bool.and_eq_true,
        Bool.not_eq_true']
      constructor
      · rintro ⟨notDigit, plain⟩
        exact ⟨first, rest, rfl, notDigit, plain⟩
      · rintro ⟨_, _, same, notDigit, plain⟩
        obtain ⟨rfl, rfl⟩ := List.cons.inj same
        exact ⟨notDigit, plain⟩

/-- Whether a text is an identifier and no type of the support library. -/
def isName (text : String) : Bool :=
  isWord text && !keywords.contains text && text != Ty.result.text

namespace Ty

def tokens : Ty → List Token
  | struct tag => [.word "struct", .word tag]
  | enum tag => [.word "enum", .word tag]
  | pointer target => target.tokens ++ [.mark .star]
  | ty => [.word ty.text]

/-- Whether the tag of a type is a name. -/
def IsNamed : Ty → Prop
  | struct tag => isName tag
  | enum tag => isName tag
  | pointer target => target.IsNamed
  | _ => True

theorem exists_tokens_cons (ty : Ty) : ∃ text rest, ty.tokens = .word text :: rest := by
  induction ty with
  | pointer target induction =>
      obtain ⟨text, rest, isWord⟩ := induction
      exact ⟨text, rest ++ [.mark .star], by simp [tokens, isWord]⟩
  | _ => exact ⟨_, _, rfl⟩

end Ty

def UnaryOp.mark : UnaryOp → Mark
  | not => .bang
  | neg => .minus
  | pos => .plus
  | address => .ampersand
  | deref => .star

namespace BinaryOp

def mark : BinaryOp → Mark
  | add => .plus
  | sub => .minus
  | mul => .star
  | div => .slash
  | mod => .percent
  | eq => .equal
  | ne => .notEqual
  | lt => .less
  | le => .lessEqual
  | gt => .greater
  | ge => .greaterEqual
  | and => .andAnd
  | or => .orOr

/-- How tightly an operator binds; all associate to the left. -/
def level : BinaryOp → Nat
  | or => 3
  | and => 4
  | eq | ne => 5
  | lt | le | gt | ge => 6
  | add | sub => 7
  | mul | div | mod => 8

theorem level_bounds (op : BinaryOp) : 3 ≤ op.level ∧ op.level ≤ 8 := by
  cases op <;> decide

end BinaryOp

inductive Atom
  | name (id : String)
  | number (text : String)
  | string (text : String)
deriving DecidableEq, Repr

namespace Atom

def token : Atom → Token
  | name id => .word id
  | number text => .number text
  | string text => .string text

/-- Whether an atom is a name or a literal. -/
def IsValid : Atom → Prop
  | name id => isName id
  | _ => True

end Atom

/-- How a field is reached. -/
inductive Access
  | direct
  | throughPointer
deriving DecidableEq, Repr

def Access.mark : Access → Mark
  | direct => .dot
  | throughPointer => .arrow

/-- An operator tree of C, as far as generated code needs it. -/
inductive Tree
  | atom (value : Atom)
  | paren (inner : Tree)
  | unary (op : UnaryOp) (operand : Tree)
  | binary (op : BinaryOp) (left right : Tree)
  | assign (target value : Tree)
  | call (callee : String) (args : List Tree)
  | part (access : Access) (value : Tree) (name : String)
  | index (value position : Tree)
  | cast (ty : Ty) (operand : Tree)
  | sizeOf (ty : Ty)
  | compound (ty : Ty) (items : List Tree)
  | braces (items : List Tree)
  | designated (name : String) (value : Tree)

namespace Tree

mutual

def tokens : Tree → List Token
  | atom value => [value.token]
  | paren inner => .mark .leftParen :: (inner.tokens ++ [.mark .rightParen])
  | unary op operand => .mark op.mark :: operand.tokens
  | binary op left right => left.tokens ++ .mark op.mark :: right.tokens
  | assign target value => target.tokens ++ .mark .assign :: value.tokens
  | call callee args =>
      .word callee :: .mark .leftParen :: (tokensOf args ++ [.mark .rightParen])
  | part access value name => value.tokens ++ [.mark access.mark, .word name]
  | index value position =>
      value.tokens ++ .mark .leftBracket :: (position.tokens ++ [.mark .rightBracket])
  | cast ty operand =>
      .mark .leftParen :: (ty.tokens ++ .mark .rightParen :: operand.tokens)
  | sizeOf ty => .word "sizeof" :: .mark .leftParen :: (ty.tokens ++ [.mark .rightParen])
  | compound ty items =>
      .mark .leftParen :: (ty.tokens ++ .mark .rightParen :: .mark .leftBrace ::
        (tokensOf items ++ [.mark .rightBrace]))
  | braces items => .mark .leftBrace :: (tokensOf items ++ [.mark .rightBrace])
  | designated name value => .mark .dot :: .word name :: .mark .assign :: value.tokens

def tokensOf : List Tree → List Token
  | [] => []
  | item :: items => item.tokens ++ moreTokens items

def moreTokens : List Tree → List Token
  | [] => []
  | item :: items => .mark .comma :: (item.tokens ++ moreTokens items)

end

/-- How tightly a tree binds, from a named initializer to a single token. -/
def level : Tree → Nat
  | designated _ _ => 0
  | braces _ => 1
  | assign _ _ => 2
  | binary op _ _ => op.level
  | cast _ _ => 9
  | unary _ _ | sizeOf _ => 10
  | call _ _ | part _ _ _ | index _ _ | compound _ _ => 11
  | atom _ | paren _ => 12

mutual

/-- Whether the parts of a tree bind tightly enough, and its names are names. -/
def Fits : Tree → Prop
  | atom value => value.IsValid
  | paren inner => inner.Fits ∧ 2 ≤ inner.level
  | unary _ operand => operand.Fits ∧ 9 ≤ operand.level
  | binary op left right =>
      left.Fits ∧ op.level ≤ left.level ∧ right.Fits ∧ op.level < right.level
  | assign target value => target.Fits ∧ 10 ≤ target.level ∧ value.Fits ∧ 2 ≤ value.level
  | call callee args => isName callee ∧ AllFit 2 args
  | part _ value name => value.Fits ∧ 11 ≤ value.level ∧ isName name
  | index value position => value.Fits ∧ 11 ≤ value.level ∧ position.Fits ∧ 2 ≤ position.level
  | cast ty operand => ty.IsNamed ∧ operand.Fits ∧ 9 ≤ operand.level
  | sizeOf ty => ty.IsNamed
  | compound ty items => ty.IsNamed ∧ items ≠ [] ∧ AllFit 0 items
  | braces items => items ≠ [] ∧ AllFit 0 items
  | designated name value => isName name ∧ value.Fits ∧ 1 ≤ value.level

/-- Whether trees fit and bind as tightly as a level. -/
def AllFit (least : Nat) : List Tree → Prop
  | [] => True
  | item :: items => item.Fits ∧ least ≤ item.level ∧ AllFit least items

end

mutual

/-- A tree without its parentheses. -/
def bare : Tree → Tree
  | atom value => atom value
  | paren inner => inner.bare
  | unary op operand => unary op operand.bare
  | binary op left right => binary op left.bare right.bare
  | assign target value => assign target.bare value.bare
  | call callee args => call callee (bareAll args)
  | part access value name => part access value.bare name
  | index value position => index value.bare position.bare
  | cast ty operand => cast ty operand.bare
  | sizeOf ty => sizeOf ty
  | compound ty items => compound ty (bareAll items)
  | braces items => braces (bareAll items)
  | designated name value => designated name value.bare

def bareAll : List Tree → List Tree
  | [] => []
  | item :: items => item.bare :: bareAll items

end

end Tree

/-- Whether a token is no parenthesis. -/
def Token.isInner (token : Token) : Bool :=
  token ≠ .mark .leftParen && token ≠ .mark .rightParen

def inner (tokens : List Token) : List Token := tokens.filter Token.isInner

/-- How many more parentheses are opened than closed. -/
def depth (tokens : List Token) : Int :=
  (tokens.count (.mark .leftParen) : Int) - tokens.count (.mark .rightParen)

@[simp]
theorem inner_nil : inner [] = [] := rfl

@[simp]
theorem inner_append (first second : List Token) :
    inner (first ++ second) = inner first ++ inner second :=
  List.filter_append _ _

@[simp]
theorem inner_cons (token : Token) (rest : List Token) :
    inner (token :: rest) = if token.isInner then token :: inner rest else inner rest :=
  List.filter_cons

@[simp]
theorem depth_nil : depth [] = 0 := rfl

@[simp]
theorem depth_append (first second : List Token) :
    depth (first ++ second) = depth first + depth second := by
  simp only [depth, List.count_append]
  omega

theorem depth_cons (token : Token) (rest : List Token) :
    depth (token :: rest) = depth [token] + depth rest :=
  depth_append [token] rest

@[simp]
theorem depth_of_isInner {token : Token} (isInner : token.isInner) (rest : List Token) :
    depth (token :: rest) = depth rest := by
  have none_ : depth [token] = 0 := by
    have left : token ≠ .mark .leftParen := by
      rintro rfl
      simp [Token.isInner] at isInner
    have right : token ≠ .mark .rightParen := by
      rintro rfl
      simp [Token.isInner] at isInner
    simp [depth, left, right]
  rw [depth_cons, none_, Int.zero_add]

@[simp]
theorem depth_leftParen (rest : List Token) :
    depth (.mark .leftParen :: rest) = depth rest + 1 := by
  rw [depth_cons, Int.add_comm]
  rfl

@[simp]
theorem depth_rightParen (rest : List Token) :
    depth (.mark .rightParen :: rest) = depth rest - 1 := by
  rw [depth_cons, Int.add_comm]
  rfl

theorem countP_isInner_eq {before before' : List Token} (sameInner : inner before = inner before') :
    before.countP Token.isInner = before'.countP Token.isInner := by
  simpa only [inner, ← List.countP_eq_length_filter] using congrArg List.length sameInner

def wrapped (count : Nat) (tokens : List Token) : List Token :=
  List.replicate count (.mark .leftParen) ++ (tokens ++ List.replicate count (.mark .rightParen))

theorem wrapped_succ (count : Nat) (tokens : List Token) :
    wrapped (count + 1) tokens =
      wrapped count (.mark .leftParen :: (tokens ++ [.mark .rightParen])) := by
  rw [wrapped, wrapped, List.replicate_succ', List.replicate_succ]
  simp

theorem inner_replicate_leftParen (count : Nat) :
    inner (List.replicate count (.mark .leftParen)) = [] := by
  simp [inner, Token.isInner]

theorem depth_replicate_leftParen (count : Nat) :
    depth (List.replicate count (.mark .leftParen)) = count := by
  simp [depth, List.count_replicate]

/-- Where tokens in parentheses agree up to one of them, they agree in all. -/
theorem cut_wrapped {count count' : Nat} {before before' after after' : List Token} {token : Token}
    (isInner : token.isInner) (sameInner : inner before = inner before')
    (sameDepth : depth before = depth before')
    (same : wrapped count (before ++ token :: after) =
      wrapped count' (before' ++ token :: after')) :
    count = count' ∧ before = before' ∧ after = after' := by
  have cut : List.replicate count (.mark .leftParen) ++ before =
        List.replicate count' (.mark .leftParen) ++ before' ∧
      after ++ List.replicate count (.mark .rightParen) =
        after' ++ List.replicate count' (.mark .rightParen) := by
    refine cut_at_mark isInner (countP_isInner_eq ?_) ?_
    · simp [inner_replicate_leftParen, sameInner]
    · simpa [wrapped] using same
  obtain ⟨sameBefore, sameAfter⟩ := cut
  have sameCount : count = count' := by
    have depths := congrArg depth sameBefore
    simp only [depth_append, depth_replicate_leftParen] at depths
    omega
  subst sameCount
  exact ⟨rfl, List.append_cancel_left sameBefore, List.append_cancel_right sameAfter⟩

namespace Ty

theorem depth_tokens (ty : Ty) : depth ty.tokens = 0 := by
  induction ty with
  | pointer target induction =>
      simp [tokens, induction, Token.isInner]
  | _ => simp [tokens, Token.isInner]

end Ty

theorem UnaryOp.isInner_mark (op : UnaryOp) : (Token.mark op.mark).isInner := by
  cases op <;> rfl

theorem BinaryOp.isInner_mark (op : BinaryOp) : (Token.mark op.mark).isInner := by
  cases op <;> rfl

theorem Access.isInner_mark (access : Access) : (Token.mark access.mark).isInner := by
  cases access <;> rfl

theorem Atom.isInner_token (value : Atom) : value.token.isInner := by
  cases value <;> rfl

namespace Tree

def wrap : Nat → Tree → Tree
  | 0, tree => tree
  | count + 1, tree => wrap count (paren tree)

def isParen : Tree → Bool
  | paren _ => true
  | _ => false

theorem tokens_wrap (count : Nat) (tree : Tree) :
    (wrap count tree).tokens = wrapped count tree.tokens := by
  induction count generalizing tree with
  | zero => simp [wrap, wrapped]
  | succ count induction => rw [wrap, induction, wrapped_succ, tokens]

theorem bare_wrap (count : Nat) (tree : Tree) : (wrap count tree).bare = tree.bare := by
  induction count generalizing tree with
  | zero => rfl
  | succ count induction => rw [wrap, induction, bare]

theorem wrap_add (count count' : Nat) (tree : Tree) :
    wrap count (wrap count' tree) = wrap (count + count') tree := by
  induction count' generalizing tree with
  | zero => rfl
  | succ count' induction => exact induction (paren tree)

/-- Every tree stands in some number of parentheses. -/
theorem exists_core : (tree : Tree) → ∃ count core, tree = wrap count core ∧ core.isParen = false
  | paren inner => by
      obtain ⟨count, core, rfl, plain⟩ := exists_core inner
      exact ⟨1 + count, core, wrap_add 1 count core, plain⟩
  | atom _ | unary _ _ | binary _ _ _ | assign _ _ | call _ _ | part _ _ _ | index _ _ | cast _ _
  | sizeOf _ | compound _ _ | braces _ | designated _ _ => ⟨0, _, rfl, rfl⟩

mutual

theorem inner_tokens_bare : (tree : Tree) → inner tree.bare.tokens = inner tree.tokens
  | atom _ | sizeOf _ => rfl
  | paren content => by simp [bare, tokens, inner_tokens_bare content, Token.isInner]
  | unary _ operand | cast _ operand | designated _ operand => by
      simp [bare, tokens, inner_tokens_bare operand]
  | binary _ left right | assign left right | index left right => by
      simp [bare, tokens, inner_tokens_bare left, inner_tokens_bare right]
  | part _ value _ => by simp [bare, tokens, inner_tokens_bare value]
  | call _ items | compound _ items | braces items => by
      simp [bare, tokens, inner_tokensOf_bareAll items]

theorem inner_tokensOf_bareAll : (trees : List Tree) →
    inner (tokensOf (bareAll trees)) = inner (tokensOf trees)
  | [] => rfl
  | item :: items => by
      simp [bareAll, tokensOf, inner_tokens_bare item, inner_moreTokens_bareAll items]

theorem inner_moreTokens_bareAll : (trees : List Tree) →
    inner (moreTokens (bareAll trees)) = inner (moreTokens trees)
  | [] => rfl
  | item :: items => by
      simp [bareAll, moreTokens, inner_tokens_bare item, inner_moreTokens_bareAll items]

end

mutual

/-- Every parenthesis of a tree is closed. -/
theorem depth_tokens : (tree : Tree) → depth tree.tokens = 0
  | atom value => by simp [tokens, value.isInner_token]
  | sizeOf ty => by simp [tokens, ty.depth_tokens, Token.isInner]
  | paren content => by simp [tokens, depth_tokens content]
  | unary op operand => by simp [tokens, depth_tokens operand, op.isInner_mark]
  | binary op left right => by
      simp [tokens, depth_tokens left, depth_tokens right, op.isInner_mark]
  | assign target value => by
      simp [tokens, depth_tokens target, depth_tokens value, Token.isInner]
  | call _ args => by simp [tokens, depth_tokensOf args, Token.isInner]
  | part access value _ => by
      cases access <;> simp [tokens, depth_tokens value, Access.mark, Token.isInner]
  | index value position => by
      simp [tokens, depth_tokens value, depth_tokens position, Token.isInner]
  | cast ty operand => by simp [tokens, ty.depth_tokens, depth_tokens operand]
  | compound ty items => by simp [tokens, ty.depth_tokens, depth_tokensOf items, Token.isInner]
  | braces items => by simp [tokens, depth_tokensOf items, Token.isInner]
  | designated _ value => by simp [tokens, depth_tokens value, Token.isInner]

theorem depth_tokensOf : (trees : List Tree) → depth (tokensOf trees) = 0
  | [] => rfl
  | item :: items => by simp [tokensOf, depth_tokens item, depth_moreTokens items]

theorem depth_moreTokens : (trees : List Tree) → depth (moreTokens trees) = 0
  | [] => rfl
  | item :: items => by
      simp [moreTokens, depth_tokens item, depth_moreTokens items, Token.isInner]

end

theorem inner_tokens_of_bare {tree other : Tree} (sameBare : tree.bare = other.bare) :
    inner tree.tokens = inner other.tokens := by
  rw [← inner_tokens_bare tree, sameBare, inner_tokens_bare other]

theorem depth_tokens_eq (tree other : Tree) : depth tree.tokens = depth other.tokens := by
  rw [depth_tokens, depth_tokens]

/-- Trees that are written alike in parentheses, with the same operators, are the same. -/
def SameIn (tree : Tree) : Prop :=
  ∀ (other : Tree) (count count' : Nat), other.isParen = false → tree.bare = other.bare →
    wrapped count tree.tokens = wrapped count' other.tokens →
    wrap count tree = wrap count' other

theorem SameIn.eq {tree other : Tree} (same : SameIn tree) (sameBare : tree.bare = other.bare)
    (sameTokens : tree.tokens = other.tokens) : tree = other := by
  obtain ⟨count, core, rfl, plain⟩ := exists_core other
  rw [tokens_wrap] at sameTokens
  refine same core 0 count plain ?_ ?_
  · rw [sameBare, bare_wrap]
  · simpa [wrapped] using sameTokens

mutual

/-- The tokens of a tree tell where its parentheses stand. -/
theorem sameIn : (tree : Tree) → SameIn tree
  | paren content => by
      intro other count count' plain sameBare same
      rw [tokens, ← wrapped_succ] at same
      exact sameIn content other (count + 1) count' plain sameBare same
  | atom value => by
      intro other count count' plain sameBare same
      cases other with
      | atom value' =>
          obtain rfl := atom.inj sameBare
          obtain ⟨rfl, _⟩ := cut_wrapped value.isInner_token (Eq.refl (inner [])) rfl same
          rfl
      | _ => simp [bare, isParen] at sameBare plain
  | unary op operand => by
      intro other count count' plain sameBare same
      cases other with
      | unary op' operand' =>
          simp only [bare, unary.injEq] at sameBare
          obtain ⟨rfl, sameBare⟩ := sameBare
          obtain ⟨rfl, _, rest⟩ := cut_wrapped op.isInner_mark (Eq.refl (inner [])) rfl same
          rw [(sameIn operand).eq sameBare rest]
      | _ => simp [bare, isParen] at sameBare plain
  | binary op left right => by
      intro other count count' plain sameBare same
      cases other with
      | binary op' left' right' =>
          simp only [bare, binary.injEq] at sameBare
          obtain ⟨rfl, sameLeft, sameRight⟩ := sameBare
          obtain ⟨rfl, first, second⟩ := cut_wrapped op.isInner_mark (inner_tokens_of_bare sameLeft)
            (depth_tokens_eq left left') same
          rw [(sameIn left).eq sameLeft first, (sameIn right).eq sameRight second]
      | _ => simp [bare, isParen] at sameBare plain
  | assign target value => by
      intro other count count' plain sameBare same
      cases other with
      | assign target' value' =>
          simp only [bare, assign.injEq] at sameBare
          obtain ⟨sameTarget, sameValue⟩ := sameBare
          obtain ⟨rfl, first, second⟩ := cut_wrapped rfl (inner_tokens_of_bare sameTarget)
            (depth_tokens_eq target target') same
          rw [(sameIn target).eq sameTarget first, (sameIn value).eq sameValue second]
      | _ => simp [bare, isParen] at sameBare plain
  | call callee args => by
      intro other count count' plain sameBare same
      cases other with
      | call callee' args' =>
          simp only [bare, call.injEq] at sameBare
          obtain ⟨rfl, sameArgs⟩ := sameBare
          obtain ⟨rfl, _, rest⟩ := cut_wrapped rfl (Eq.refl (inner [])) rfl same
          rw [eq_of_tokensOf args sameArgs (by simpa using rest)]
      | _ => simp [bare, isParen] at sameBare plain
  | part access value name => by
      intro other count count' plain sameBare same
      cases other with
      | part access' value' name' =>
          simp only [bare, part.injEq] at sameBare
          obtain ⟨rfl, sameValue, rfl⟩ := sameBare
          obtain ⟨rfl, first, _⟩ := cut_wrapped access.isInner_mark
            (inner_tokens_of_bare sameValue) (depth_tokens_eq value value') same
          rw [(sameIn value).eq sameValue first]
      | _ => simp [bare, isParen] at sameBare plain
  | index value position => by
      intro other count count' plain sameBare same
      cases other with
      | index value' position' =>
          simp only [bare, index.injEq] at sameBare
          obtain ⟨sameValue, samePosition⟩ := sameBare
          obtain ⟨rfl, first, second⟩ := cut_wrapped rfl (inner_tokens_of_bare sameValue)
            (depth_tokens_eq value value') same
          rw [(sameIn value).eq sameValue first,
            (sameIn position).eq samePosition (by simpa using second)]
      | _ => simp [bare, isParen] at sameBare plain
  | cast ty operand => by
      intro other count count' plain sameBare same
      cases other with
      | cast ty' operand' =>
          simp only [bare, cast.injEq] at sameBare
          obtain ⟨rfl, sameOperand⟩ := sameBare
          obtain ⟨text, more, isType⟩ := ty.exists_tokens_cons
          simp only [tokens, isType] at same
          obtain ⟨rfl, _, rest⟩ :=
            cut_wrapped rfl (Eq.refl (inner [.mark .leftParen])) rfl same
          rw [(sameIn operand).eq sameOperand (by simpa using rest)]
      | _ => simp [bare, isParen] at sameBare plain
  | sizeOf ty => by
      intro other count count' plain sameBare same
      cases other with
      | sizeOf ty' =>
          obtain rfl := sizeOf.inj sameBare
          obtain ⟨rfl, _⟩ := cut_wrapped rfl (Eq.refl (inner [])) rfl same
          rfl
      | _ => simp [bare, isParen] at sameBare plain
  | compound ty items => by
      intro other count count' plain sameBare same
      cases other with
      | compound ty' items' =>
          simp only [bare, compound.injEq] at sameBare
          obtain ⟨rfl, sameItems⟩ := sameBare
          obtain ⟨text, more, isType⟩ := ty.exists_tokens_cons
          simp only [tokens, isType] at same
          obtain ⟨rfl, _, rest⟩ :=
            cut_wrapped rfl (Eq.refl (inner [.mark .leftParen])) rfl same
          rw [eq_of_tokensOf items sameItems (by simpa using rest)]
      | _ => simp [bare, isParen] at sameBare plain
  | braces items => by
      intro other count count' plain sameBare same
      cases other with
      | braces items' =>
          have sameItems := braces.inj sameBare
          obtain ⟨rfl, _, rest⟩ := cut_wrapped rfl (Eq.refl (inner [])) rfl same
          rw [eq_of_tokensOf items sameItems (by simpa using rest)]
      | _ => simp [bare, isParen] at sameBare plain
  | designated name value => by
      intro other count count' plain sameBare same
      cases other with
      | designated name' value' =>
          simp only [bare, designated.injEq] at sameBare
          obtain ⟨rfl, sameValue⟩ := sameBare
          obtain ⟨rfl, _, rest⟩ := cut_wrapped rfl (Eq.refl (inner [])) rfl same
          rw [(sameIn value).eq sameValue (by simpa using rest)]
      | _ => simp [bare, isParen] at sameBare plain

theorem eq_of_tokensOf : (trees : List Tree) → {others : List Tree} →
    bareAll trees = bareAll others → tokensOf trees = tokensOf others → trees = others
  | [], [], _, _ => rfl
  | [], _ :: _, sameBare, _ | _ :: _, [], sameBare, _ => by simp [bareAll] at sameBare
  | [item], [other], sameBare, same => by
      simp only [bareAll, List.cons.injEq, and_true] at sameBare
      rw [(sameIn item).eq sameBare (by simpa [tokensOf, moreTokens] using same)]
  | [_], _ :: _ :: _, sameBare, _ | _ :: _ :: _, [_], sameBare, _ => by
      simp [bareAll] at sameBare
  | item :: second :: items, other :: second' :: others, sameBare, same => by
      obtain ⟨sameFirst, sameRest⟩ := List.cons.inj sameBare
      obtain ⟨first, rest⟩ :=
        cut_at_mark rfl (countP_isInner_eq (inner_tokens_of_bare sameFirst)) same
      rw [(sameIn item).eq sameFirst first, eq_of_tokensOf (second :: items) sameRest rest]

end

/-- Trees that are written alike and differ in parentheses at most are the same. -/
theorem eq_of_bare_of_tokens {tree other : Tree} (sameBare : tree.bare = other.bare)
    (sameTokens : tree.tokens = other.tokens) : tree = other :=
  (sameIn tree).eq sameBare sameTokens

end Tree

end C

end Offside
