import Offside.Proofs.C.Reader

/-!
# Trees are read off their tokens

Each step of the reader is described by what it gives once its parts are read. From these steps it
follows, along the tree, that a tree whose parts fit their places is read off its own tokens,
whatever comes after them, as long as that does not bind more tightly than the tree itself.
-/

namespace Offside

namespace C

open Offside.C.Tree

def Gives {least : Nat} {input : List Token} (outcome : Option (Read least input)) (tree : Tree)
    (rest : List Token) : Prop :=
  outcome.map (fun read => (read.tree, read.rest)) = some (tree, rest)

def GivesItems {least : Nat} {closing : Mark} {input : List Token}
    (outcome : Option (ReadItems least closing input)) (trees : List Tree) (rest : List Token) :
    Prop :=
  outcome.map (fun read => (read.trees, read.rest)) = some (trees, rest)

namespace Gives

theorem exists_eq {least : Nat} {input : List Token} {outcome : Option (Read least input)}
    {tree : Tree} {rest : List Token} (gives : Gives outcome tree rest) :
    ∃ spelled fits tight, outcome = some ⟨tree, rest, spelled, fits, tight⟩ := by
  obtain ⟨⟨_, _, spelled, fits, tight⟩, isRead, same⟩ := Option.map_eq_some_iff.mp gives
  obtain ⟨rfl, rfl⟩ := Prod.mk.inj same
  exact ⟨spelled, fits, tight, isRead⟩

theorem loosen_iff {least tight : Nat} {input input' : List Token}
    {outcome : Option (Read tight input)} {tree : Tree} {rest : List Token} (loose : least ≤ tight)
    (same : input = input') :
    Gives (outcome.bind fun read => some (read.loosen loose same)) tree rest ↔
      Gives outcome tree rest := by
  cases outcome <;> exact Iff.rfl

theorem loosen {least tight : Nat} {input input' : List Token} {outcome : Option (Read tight input)}
    {tree : Tree} {rest : List Token} (gives : Gives outcome tree rest) (loose : least ≤ tight)
    (same : input = input') :
    Gives (outcome.bind fun read => some (read.loosen loose same)) tree rest :=
  (loosen_iff loose same).mpr gives

end Gives

variable {rest : List Token} {level : Nat}

theorem GivesItems.exists_eq {least : Nat} {closing : Mark} {input : List Token}
    {outcome : Option (ReadItems least closing input)} {trees : List Tree}
    (gives : GivesItems outcome trees rest) :
    ∃ spelled fit nonempty, outcome = some ⟨trees, rest, spelled, fit, nonempty⟩ := by
  obtain ⟨⟨_, _, spelled, fit, nonempty⟩, isRead, same⟩ := Option.map_eq_some_iff.mp gives
  obtain ⟨rfl, rfl⟩ := Prod.mk.inj same
  exact ⟨spelled, fit, nonempty, isRead⟩

section

variable {tree : Tree} {rest tokens inside after : List Token} {least : Nat} {text : String}

theorem gives_number {fits : (atom (.number text)).Fits} {tight : 11 ≤ (atom (.number text)).level}
    (given : Gives (trailers (atom (.number text)) fits tight tokens) tree rest) :
    Gives (operand (.number text :: tokens)) tree rest := by
  rw [operand]
  exact given.loosen (by decide) rfl

theorem gives_string {fits : (atom (.string text)).Fits} {tight : 11 ≤ (atom (.string text)).level}
    (given : Gives (trailers (atom (.string text)) fits tight tokens) tree rest) :
    Gives (operand (.string text :: tokens)) tree rest := by
  rw [operand]
  exact given.loosen (by decide) rfl

theorem ne_sizeof_of_isName (named : isName text) : text ≠ "sizeof" := by
  rintro rfl
  exact absurd named (by decide)

theorem gives_name (named : isName text) (uncalled : tokens.head? ≠ some (.mark .leftParen))
    {fits : (atom (.name text)).Fits} {tight : 11 ≤ (atom (.name text)).level}
    (given : Gives (trailers (atom (.name text)) fits tight tokens) tree rest) :
    Gives (operand (.word text :: tokens)) tree rest := by
  rw [operand]
  simp only [ne_sizeof_of_isName named, named, eat?_eq_none uncalled, dite_true, dite_false]
  exact given.loosen (by decide) rfl

theorem gives_call_nil {callee : String} (named : isName callee)
    {fits : (call callee []).Fits} {tight : 11 ≤ (call callee []).level}
    (given : Gives (trailers (call callee []) fits tight tokens) tree rest) :
    Gives (operand (.word callee :: .mark .leftParen :: .mark .rightParen :: tokens)) tree
      rest := by
  rw [operand]
  simp only [ne_sizeof_of_isName named, named, eat?_cons, dite_true, dite_false]
  exact given.loosen (by decide) rfl

theorem gives_call {callee : String} (named : isName callee) {args : List Tree}
    (opens : inside.head? ≠ some (.mark .rightParen))
    (areArgs : GivesItems (items 2 .rightParen inside) args after) {fits : (call callee args).Fits}
    {tight : 11 ≤ (call callee args).level}
    (given : Gives (trailers (call callee args) fits tight after) tree rest) :
    Gives (operand (.word callee :: .mark .leftParen :: inside)) tree rest := by
  obtain ⟨spelled, fit, nonempty, isRead⟩ := areArgs.exists_eq
  rw [operand]
  simp only [ne_sizeof_of_isName named, named, eat?_cons, eat?_eq_none opens, dite_true, dite_false,
    isRead]
  exact given.loosen (by decide) _

theorem gives_sizeOf {ty : Ty} (named : ty.IsNamed) :
    Gives (operand ((Tree.sizeOf ty).tokens ++ rest)) (Tree.sizeOf ty) rest := by
  have isType : Ty.Gives (Ty.read? (ty.tokens ++ .mark .rightParen :: rest)) ty
      (.mark .rightParen :: rest) := Ty.gives_read? named (by simp)
  obtain ⟨spelled, isNamed, isRead⟩ := isType.exists
  have written : (Tree.sizeOf ty).tokens ++ rest =
      .word "sizeof" :: .mark .leftParen :: (ty.tokens ++ .mark .rightParen :: rest) := by
    simp [Tree.tokens]
  rw [written, operand]
  simp only [dite_true, eat?_cons]
  simp only [Option.bind_eq_bind, Option.bind_some, isRead, eat?_cons]
  exact rfl

theorem gives_compound {ty : Ty} (named : ty.IsNamed) {trees : List Tree}
    (areItems : GivesItems (items 0 .rightBrace inside) trees after)
    {fits : (compound ty trees).Fits} {tight : 11 ≤ (compound ty trees).level}
    (given : Gives (trailers (compound ty trees) fits tight after) tree rest) :
    Gives (operand
      (.mark .leftParen :: (ty.tokens ++ .mark .rightParen :: .mark .leftBrace :: inside)))
      tree rest := by
  obtain ⟨spelled, fit, nonempty, areRead⟩ := areItems.exists_eq
  have isType : Ty.Gives
      (Ty.read? (ty.tokens ++ .mark .rightParen :: .mark .leftBrace :: inside)) ty
      (.mark .rightParen :: .mark .leftBrace :: inside) := Ty.gives_read? named (by simp)
  obtain ⟨_, _, isRead⟩ := isType.exists
  rw [operand, isRead]
  simp only [Option.bind_eq_bind, Option.bind_some, eat?_cons, areRead]
  exact given.loosen (by decide) _

theorem gives_cast {ty : Ty} (named : ty.IsNamed) {inner : Tree}
    (plain : inside.head? ≠ some (.mark .leftBrace)) (given : Gives (operand inside) inner rest) :
    Gives (operand (.mark .leftParen :: (ty.tokens ++ .mark .rightParen :: inside)))
      (.cast ty inner) rest := by
  obtain ⟨spelled, fits, tight, isInner⟩ := given.exists_eq
  have isType : Ty.Gives (Ty.read? (ty.tokens ++ .mark .rightParen :: inside)) ty
      (.mark .rightParen :: inside) := Ty.gives_read? named (by simp)
  obtain ⟨_, _, isRead⟩ := isType.exists
  rw [operand, isRead]
  simp only [Option.bind_eq_bind, Option.bind_some, eat?_cons, eat?_eq_none plain, isInner]
  exact rfl

theorem gives_paren {inner : Tree} (noType : Ty.read? inside = none)
    (isInner : Gives (expression inside) inner (.mark .rightParen :: after))
    {fits : (paren inner).Fits} {tight : 11 ≤ (paren inner).level}
    (given : Gives (trailers (paren inner) fits tight after) tree rest) :
    Gives (operand (.mark .leftParen :: inside)) tree rest := by
  obtain ⟨spelled, _, _, isRead⟩ := isInner.exists_eq
  rw [operand, noType]
  simp only [Option.bind_eq_bind, Option.bind_some, isRead, eat?_cons]
  exact given.loosen (by decide) _

theorem gives_unary (op : UnaryOp) {inner : Tree} (given : Gives (operand tokens) inner rest) :
    Gives (operand (.mark op.mark :: tokens)) (unary op inner) rest := by
  obtain ⟨spelled, fits, tight, isRead⟩ := given.exists_eq
  rw [operand]
  · simp only [Option.bind_eq_bind, Option.bind_some, op.unaryOp?_mark, isRead]
    exact rfl
  · cases op <;> simp [UnaryOp.mark]

variable {base : Tree} {fits : base.Fits}

theorem gives_part {access : Access} {name : String} (named : isName name) {tight : 11 ≤ base.level}
    {isFit : (part access base name).Fits} {isTight : 11 ≤ (part access base name).level}
    (given : Gives (trailers (part access base name) isFit isTight tokens) tree rest) :
    Gives (trailers base fits tight (.mark access.mark :: .word name :: tokens)) tree rest := by
  cases access
  · simp only [Access.mark]
    rw [trailers, dif_pos named]
    exact given.loosen (by decide) _
  · simp only [Access.mark]
    rw [trailers, dif_pos named]
    exact given.loosen (by decide) _

theorem gives_index {position : Tree} {tight : 11 ≤ base.level}
    (isPosition : Gives (expression inside) position (.mark .rightBracket :: after))
    {isFit : (index base position).Fits} {isTight : 11 ≤ (index base position).level}
    (given : Gives (trailers (index base position) isFit isTight after) tree rest) :
    Gives (trailers base fits tight (.mark .leftBracket :: inside)) tree rest := by
  obtain ⟨spelled, _, _, isRead⟩ := isPosition.exists_eq
  rw [trailers]
  simp only [Option.bind_eq_bind, Option.bind_some, isRead, eat?_cons]
  exact given.loosen (by decide) _

theorem gives_operands {loose : least ≤ 9} {first : Tree}
    (isFirst : Gives (operand tokens) first after) {isFit : first.Fits}
    {isTight : least ≤ first.level}
    (given : Gives (joined least first isFit isTight after) tree rest) :
    Gives (operands least loose tokens) tree rest := by
  obtain ⟨spelled, _, _, isRead⟩ := isFirst.exists_eq
  rw [operands]
  simp only [Option.bind_eq_bind, Option.bind_some, isRead]
  exact given.loosen (Nat.le_refl _) spelled

theorem gives_joined {op : BinaryOp} {right : Tree} {tight : least ≤ base.level}
    (binds : least ≤ op.level ∧ op.level ≤ base.level) {loose : op.level + 1 ≤ 9}
    (isRight : Gives (operands (op.level + 1) loose tokens) right after)
    {isFit : (binary op base right).Fits} {isTight : least ≤ (binary op base right).level}
    (given : Gives (joined least (binary op base right) isFit isTight after) tree rest) :
    Gives (joined least base fits tight (.mark op.mark :: tokens)) tree rest := by
  obtain ⟨spelled, _, _, isRead⟩ := isRight.exists_eq
  rw [joined]
  simp only [op.binaryOp?_mark, binds, and_self, dite_true, Option.bind_eq_bind, Option.bind_some,
    isRead]
  exact given.loosen (Nat.le_refl _) _

theorem gives_assign {target value : Tree}
    (isTarget : Gives (operand tokens) target (.mark .assign :: inside)) (tight : 10 ≤ target.level)
    (isValue : Gives (expression inside) value rest) :
    Gives (expression tokens) (assign target value) rest := by
  obtain ⟨_, _, _, readTarget⟩ := isTarget.exists_eq
  obtain ⟨_, _, _, readValue⟩ := isValue.exists_eq
  rw [expression]
  simp only [Option.bind_eq_bind, Option.bind_some, readTarget, eat?_cons, tight, dite_true,
    readValue]
  exact rfl

theorem gives_designated {name : String} (named : isName name) {value : Tree}
    (isValue : Gives (item 1 tokens) value rest) :
    Gives (item 0 (.mark .dot :: .word name :: .mark .assign :: tokens)) (designated name value)
      rest := by
  obtain ⟨_, _, _, isRead⟩ := isValue.exists_eq
  rw [item]
  simp only [named, and_self, dite_true, Option.bind_eq_bind, Option.bind_some, isRead]
  exact rfl

theorem gives_braces (allowed : least ≤ 1) {trees : List Tree}
    (areItems : GivesItems (items 0 .rightBrace tokens) trees rest) :
    Gives (item least (.mark .leftBrace :: tokens)) (braces trees) rest := by
  obtain ⟨_, _, _, isRead⟩ := areItems.exists_eq
  rw [item]
  simp only [allowed, dite_true, Option.bind_eq_bind, Option.bind_some, isRead]
  exact rfl

theorem gives_item (allowed : least ≤ 2) (noDot : tokens.head? ≠ some (.mark .dot))
    (noBrace : tokens.head? ≠ some (.mark .leftBrace))
    (given : Gives (expression tokens) tree rest) : Gives (item least tokens) tree rest := by
  rw [item.eq_def]
  split
  · simp at noDot
  · simp at noBrace
  · rw [dif_pos allowed]
    exact given.loosen allowed rfl

theorem givesItems_single {closing : Mark} (different : closing ≠ .comma)
    (isFirst : Gives (item least tokens) tree (.mark closing :: rest)) :
    GivesItems (items least closing tokens) [tree] rest := by
  obtain ⟨_, _, _, isRead⟩ := isFirst.exists_eq
  have noComma : eat? .comma (.mark closing :: rest) = none :=
    eat?_eq_none (by simpa using different)
  rw [items]
  simp only [Option.bind_eq_bind, Option.bind_some, isRead, noComma, eat?_cons]
  exact rfl

theorem givesItems_cons {closing : Mark} {others : List Tree}
    (isFirst : Gives (item least tokens) tree (.mark .comma :: inside))
    (areOthers : GivesItems (items least closing inside) others rest) :
    GivesItems (items least closing tokens) (tree :: others) rest := by
  obtain ⟨_, _, _, isRead⟩ := isFirst.exists_eq
  obtain ⟨_, _, _, areRead⟩ := areOthers.exists_eq
  rw [items]
  simp only [Option.bind_eq_bind, Option.bind_some, isRead, areRead, eat?_cons]
  exact rfl

end

/-- How tightly a mark takes what stands before it. -/
def Mark.pull (mark : Mark) : Nat :=
  match mark with
  | .dot | .arrow | .leftBracket | .leftParen => 11
  | .assign => 2
  | _ =>
      match mark.binaryOp? with
      | some ⟨op, _⟩ => op.level
      | none => 0

/-- Whether tokens take what stands before them no more tightly than a level. -/
def Stops (level : Nat) (rest : List Token) : Prop :=
  ∀ mark, rest.head? = some (.mark mark) → mark.pull ≤ level

theorem BinaryOp.pull_mark (op : BinaryOp) : op.mark.pull = op.level := by
  cases op <;> rfl

theorem Stops.head_ne (stops : Stops level rest) (mark : Mark) (pulls : level < mark.pull) :
    rest.head? ≠ some (.mark mark) := by
  intro isMark
  have := stops mark isMark
  omega

theorem Stops.mono {level' : Nat} (stops : Stops level rest) (le : level ≤ level') :
    Stops level' rest :=
  fun mark isMark => Nat.le_trans (stops mark isMark) le

theorem gives_trailers {base : Tree} (fits : base.Fits) (tight : 11 ≤ base.level)
    (stops : Stops 10 rest) : Gives (trailers base fits tight rest) base rest := by
  rw [trailers.eq_def]
  split
  · exact absurd rfl (stops.head_ne .dot (by decide))
  · exact absurd rfl (stops.head_ne .arrow (by decide))
  · exact absurd rfl (stops.head_ne .leftBracket (by decide))
  · exact rfl

theorem gives_joined_self {least : Nat} {base : Tree} (fits : base.Fits)
    (tight : least ≤ base.level) (stops : Stops level rest) (loose : level < least) :
    Gives (joined least base fits tight rest) base rest := by
  rw [joined.eq_def]
  split
  · rename_i mark tokens
    split
    · rename_i op isMark _
      have pulls := stops mark rfl
      rw [← isMark, op.pull_mark] at pulls
      rw [dif_neg (by omega)]
      exact rfl
    · exact rfl
  · exact rfl

/-- Where no assignment follows, an expression is operands and operators. -/
theorem gives_expression {tree : Tree} {tokens : List Token}
    (free : rest.head? ≠ some (.mark .assign))
    (given : Gives (operands 3 (by decide) tokens) tree rest) :
    Gives (expression tokens) tree rest := by
  rw [operands] at given
  rw [expression]
  cases isRead : operand tokens with
  | none => simp [isRead, Gives] at given
  | some first =>
      obtain ⟨first, after, spelled, fits, tight⟩ := first
      simp only [Option.bind_eq_bind, Option.bind_some, isRead] at given ⊢
      have joins := (Gives.loosen_iff (Nat.le_refl 3) spelled).mp given
      have unassigned : eat? .assign after = none := by
        apply eat?_eq_none
        intro assigned
        -- Then nothing is joined, and the assignment is left.
        have stops : Stops 2 after := by
          intro mark isMark
          obtain rfl : mark = .assign := by simpa [isMark] using assigned
          decide
        have left := gives_joined_self fits (by omega) stops (by decide : 2 < 3)
        obtain ⟨rfl, rfl⟩ := Prod.mk.inj (Option.some.inj (left.symm.trans joins))
        exact free assigned
      simp only [unassigned]
      exact joins.loosen (by decide) spelled

def Token.isStart : Token → Bool
  | .word text => isName text || text = "sizeof"
  | .number _ | .string _ => true
  | .mark sign => sign = .leftParen || sign.unaryOp?.isSome

theorem exists_isStart : (tree : Tree) → tree.Fits → 2 ≤ tree.level →
    ∃ token rest, tree.tokens = token :: rest ∧ token.isStart
  | atom value, fits, _ => by
      refine ⟨value.token, [], rfl, ?_⟩
      cases value with
      | name id =>
          have named : isName id := fits
          simp [Atom.token, Token.isStart, named]
      | number | string => rfl
  | paren _, _, _ | .cast _ _, _, _ | compound _ _, _, _ => ⟨_, _, rfl, rfl⟩
  | unary op _, _, _ => ⟨_, _, rfl, by cases op <;> rfl⟩
  | .sizeOf _, _, _ => ⟨_, _, rfl, by decide⟩
  | call callee _, fits, _ => by
      have named : isName callee := fits.1
      exact ⟨_, _, rfl, by simp [Token.isStart, named]⟩
  | binary op left right, fits, _ => by
      have bounds := op.level_bounds
      obtain ⟨isFit, tight, _⟩ := fits
      obtain ⟨token, rest, starts, isStart⟩ := exists_isStart left isFit (by omega)
      exact ⟨token, _, by rw [Tree.tokens, starts, List.cons_append], isStart⟩
  | assign left _, fits, _ | part _ left _, fits, _ | index left _, fits, _ => by
      obtain ⟨isFit, tight, _⟩ := fits
      obtain ⟨token, rest, starts, isStart⟩ := exists_isStart left isFit (by omega)
      exact ⟨token, _, by rw [Tree.tokens, starts, List.cons_append], isStart⟩
  | braces _, _, tight | designated _ _, _, tight => by simp [level] at tight

section

variable {tree : Tree} (fits : tree.Fits) (isExpr : 2 ≤ tree.level)
include fits isExpr

theorem head_ne_of_isStart {mark : Mark} (other : (Token.mark mark).isStart = false)
    (rest : List Token) : (tree.tokens ++ rest).head? ≠ some (.mark mark) := by
  obtain ⟨token, after, starts, isStart⟩ := exists_isStart tree fits isExpr
  rw [starts, List.cons_append, List.head?_cons]
  rintro same
  rw [Option.some.inj same, other] at isStart
  simp at isStart

theorem read?_eq_none (rest : List Token) : Ty.read? (tree.tokens ++ rest) = none := by
  obtain ⟨token, after, starts, isStart⟩ := exists_isStart tree fits isExpr
  rw [starts, List.cons_append]
  cases token with
  | word text =>
      have other (word : String) (isType : (Token.word word).isStart = false) : text ≠ word := by
        rintro rfl
        simp [isType] at isStart
      have noWord : Ty.ofWord? text = none := by
        simp [Ty.ofWord?, other "int" (by decide), other "float" (by decide),
          other "char" (by decide), other "void" (by decide), other "Result" (by decide)]
      have noTag (tag : String) (named : isName tag) : Ty.ofTag? text tag named = none := by
        simp [Ty.ofTag?, other "struct" (by decide), other "enum" (by decide)]
      generalize after ++ rest = tokens
      simp only [Ty.read?, noWord, noTag]
      split
      · split <;> rfl
      · rfl
  | _ => rfl

end

/-! ## Trees -/

/-- Whether a tree is read as an operand that may go on. -/
def ReadsTrailed (tree : Tree) : Prop :=
  ∀ ⦃rest after : List Token⦄ ⦃whole : Tree⦄ (isFit : tree.Fits) (tight : 11 ≤ tree.level),
    rest.head? ≠ some (.mark .leftParen) → Gives (trailers tree isFit tight rest) whole after →
    Gives (operand (tree.tokens ++ rest)) whole after

/-- Whether a tree is read as an operand before operators. -/
def ReadsOperand (tree : Tree) : Prop :=
  ∀ ⦃rest : List Token⦄, Stops 8 rest → Gives (operand (tree.tokens ++ rest)) tree rest

/-- Whether a tree is read as operands before looser operators. -/
def ReadsOperands (tree : Tree) : Prop :=
  ∀ ⦃least : Nat⦄ ⦃rest after : List Token⦄ ⦃whole : Tree⦄ (isFit : tree.Fits) (loose : least ≤ 9)
    (tight : least ≤ tree.level),
    Stops (min tree.level 8) rest → Gives (joined least tree isFit tight rest) whole after →
    Gives (operands least loose (tree.tokens ++ rest)) whole after

/-- Whether a tree is read as an expression before closing marks and commas. -/
def ReadsExpression (tree : Tree) : Prop :=
  ∀ ⦃rest : List Token⦄, Stops 1 rest → Gives (expression (tree.tokens ++ rest)) tree rest

def ReadsItem (tree : Tree) : Prop :=
  ∀ ⦃least : Nat⦄ ⦃rest : List Token⦄, least ≤ 2 → least ≤ tree.level → Stops 1 rest →
    Gives (item least (tree.tokens ++ rest)) tree rest

section

variable {tree : Tree} (fits : tree.Fits)
include fits

theorem ReadsTrailed.operand (reads : ReadsTrailed tree) (tight : 11 ≤ tree.level) :
    ReadsOperand tree := by
  intro rest stops
  apply reads fits tight (stops.head_ne .leftParen (by decide))
  exact gives_trailers fits tight (stops.mono (by decide))

omit fits in
theorem ReadsOperand.operands (reads : ReadsOperand tree) (tight : 9 ≤ tree.level) :
    ReadsOperands tree := by
  intro least rest after whole isFit loose isTight stops given
  rw [Nat.min_eq_right (by omega)] at stops
  exact gives_operands (reads stops) given

theorem ReadsOperands.expression (reads : ReadsOperands tree) (tight : 3 ≤ tree.level) :
    ReadsExpression tree := by
  intro rest stops
  apply gives_expression (stops.head_ne .assign (by decide))
  apply reads fits (by decide) tight (stops.mono (by omega))
  exact gives_joined_self fits tight stops (by decide)

theorem ReadsExpression.item (reads : ReadsExpression tree) (isExpr : 2 ≤ tree.level) :
    ReadsItem tree := by
  intro least rest loose _ stops
  apply gives_item loose
  · exact head_ne_of_isStart fits isExpr (by decide) rest
  · exact head_ne_of_isStart fits isExpr (by decide) rest
  · exact reads stops

end

/-- A tree is read wherever it binds tightly enough. -/
structure Reads (tree : Tree) : Prop where
  trailed : 11 ≤ tree.level → ReadsTrailed tree
  operand : 9 ≤ tree.level → ReadsOperand tree
  operands : 3 ≤ tree.level → ReadsOperands tree
  expression : 2 ≤ tree.level → ReadsExpression tree
  item : ReadsItem tree

namespace Reads

variable {tree : Tree}

theorem of_item (loose : tree.level < 2) (reads : ReadsItem tree) : Reads tree where
  trailed tight := by omega
  operand tight := by omega
  operands tight := by omega
  expression tight := by omega
  item := reads

variable (fits : tree.Fits)
include fits

theorem of_expression (isAssign : tree.level = 2) (reads : ReadsExpression tree) : Reads tree where
  trailed tight := by omega
  operand tight := by omega
  operands tight := by omega
  expression _ := reads
  item := reads.item fits (by omega)

theorem of_operands (tight : 3 ≤ tree.level) (loose : tree.level ≤ 8)
    (reads : ReadsOperands tree) : Reads tree where
  trailed tight := by omega
  operand tight := by omega
  operands _ := reads
  expression _ := reads.expression fits tight
  item := (reads.expression fits tight).item fits (by omega)

theorem of_operand (tight : 9 ≤ tree.level) (loose : tree.level ≤ 10)
    (reads : ReadsOperand tree) : Reads tree :=
  have asOperands := reads.operands tight
  { trailed := fun tight => by omega
    operand := fun _ => reads
    operands := fun _ => asOperands
    expression := fun _ => asOperands.expression fits (by omega)
    item := (asOperands.expression fits (by omega)).item fits (by omega) }

theorem of_trailed (tight : 11 ≤ tree.level) (reads : ReadsTrailed tree) : Reads tree :=
  have asOperand := reads.operand fits tight
  have asOperands := asOperand.operands (by omega)
  { trailed := fun _ => reads
    operand := fun _ => asOperand
    operands := fun _ => asOperands
    expression := fun _ => asOperands.expression fits (by omega)
    item := (asOperands.expression fits (by omega)).item fits (by omega) }

end Reads

theorem stops_cons (mark : Mark) (pulls : mark.pull ≤ level) (rest : List Token) :
    Stops level (.mark mark :: rest) := by
  intro other isMark
  obtain rfl : mark = other := by simpa using isMark
  exact pulls

mutual

theorem reads : (tree : Tree) → tree.Fits → Reads tree
  | atom value, fits => by
      apply Reads.of_trailed fits (by simp [level])
      intro rest after whole isFit tight uncalled given
      cases value with
      | name id => exact gives_name fits uncalled given
      | number text => exact gives_number given
      | string text => exact gives_string given
  | paren inner, fits => by
      have inside := reads inner fits.1
      apply Reads.of_trailed fits (by simp [level])
      intro rest after whole isFit tight uncalled given
      rw [Tree.tokens, List.cons_append, List.append_assoc]
      apply gives_paren (read?_eq_none fits.1 fits.2 _) ?_ given
      exact inside.expression fits.2 (stops_cons _ (by decide) _)
  | unary op inner, fits => by
      have inside := reads inner fits.1
      apply Reads.of_operand fits (by simp [level]) (by simp [level])
      intro rest stops
      exact gives_unary op (inside.operand fits.2 stops)
  | binary op left right, fits => by
      have ⟨leftFits, leftTight, rightFits, rightTight⟩ := fits
      have first := reads left leftFits
      have second := reads right rightFits
      have bounds := op.level_bounds
      apply Reads.of_operands fits (by simp only [level]; omega) (by simp only [level]; omega)
      intro least rest after whole isFit loose tight stops given
      simp only [level, Nat.min_eq_left bounds.2] at tight stops
      have isRight : Gives (operands (op.level + 1) (by omega) (right.tokens ++ rest)) right
          rest := by
        apply second.operands (by omega) rightFits (by omega) rightTight (stops.mono (by omega))
        exact gives_joined_self rightFits rightTight stops (by omega)
      rw [Tree.tokens, List.append_assoc, List.cons_append]
      apply first.operands (by omega) leftFits loose (by omega)
      · exact stops_cons _ (by rw [op.pull_mark]; omega) _
      · exact gives_joined ⟨tight, leftTight⟩ isRight given
  | assign target value, fits => by
      have ⟨targetFits, targetTight, valueFits, isExpr⟩ := fits
      have first := reads target targetFits
      have second := reads value valueFits
      apply Reads.of_expression fits rfl
      intro rest stops
      rw [Tree.tokens, List.append_assoc, List.cons_append]
      apply gives_assign _ targetTight (second.expression isExpr stops)
      exact first.operand (by omega) (stops_cons _ (by decide) _)
  | call callee args, fits => by
      have ⟨named, fit⟩ := fits
      apply Reads.of_trailed fits (by simp [level])
      intro rest after whole isFit tight uncalled given
      rw [Tree.tokens, List.cons_append, List.cons_append, List.append_assoc]
      cases args with
      | nil => exact gives_call_nil named given
      | cons arg args =>
          have areArgs := readsItems (arg :: args) fit (by decide) (by simp) .rightParen rfl
            (by decide) rest
          refine gives_call named ?_ areArgs given
          rw [tokensOf, List.append_assoc]
          exact head_ne_of_isStart fit.1 fit.2.1 (by decide) _
  | part access value name, fits => by
      have ⟨valueFits, valueTight, named⟩ := fits
      have first := reads value valueFits
      apply Reads.of_trailed fits (by simp [level])
      intro rest after whole isFit tight uncalled given
      rw [Tree.tokens, List.append_assoc]
      apply first.trailed valueTight valueFits valueTight (by cases access <;> simp [Access.mark])
      exact gives_part named given
  | index value position, fits => by
      have ⟨valueFits, valueTight, positionFits, isExpr⟩ := fits
      have first := reads value valueFits
      have second := reads position positionFits
      apply Reads.of_trailed fits (by simp [level])
      intro rest after whole isFit tight uncalled given
      rw [Tree.tokens, List.append_assoc, List.cons_append, List.append_assoc]
      apply first.trailed valueTight valueFits valueTight (by simp)
      apply gives_index _ given
      exact second.expression isExpr (stops_cons _ (by decide) _)
  | .cast ty inner, fits => by
      have ⟨named, innerFits, tight⟩ := fits
      have inside := reads inner innerFits
      apply Reads.of_operand fits (by simp [level]) (by simp [level])
      intro rest stops
      rw [Tree.tokens, List.cons_append, List.append_assoc, List.cons_append]
      apply gives_cast named _ (inside.operand tight stops)
      exact head_ne_of_isStart innerFits (by omega) (by decide) rest
  | .sizeOf ty, fits => by
      apply Reads.of_operand fits (by simp [level]) (by simp [level])
      intro rest stops
      exact gives_sizeOf fits
  | compound ty trees, fits => by
      have ⟨named, nonempty, fit⟩ := fits
      have areItems := readsItems trees fit (by decide) nonempty .rightBrace rfl (by decide)
      apply Reads.of_trailed fits (by simp [level])
      intro rest after whole isFit tight uncalled given
      have written : (compound ty trees).tokens ++ rest =
          .mark .leftParen :: (ty.tokens ++ .mark .rightParen :: .mark .leftBrace ::
            (tokensOf trees ++ .mark .rightBrace :: rest)) := by
        simp [Tree.tokens]
      rw [written]
      exact gives_compound named (areItems rest) given
  | braces trees, fits => by
      have ⟨nonempty, fit⟩ := fits
      have areItems := readsItems trees fit (by decide) nonempty .rightBrace rfl (by decide)
      apply Reads.of_item (by simp [level])
      intro least rest _ tight _
      rw [Tree.tokens, List.cons_append, List.append_assoc]
      exact gives_braces tight (areItems rest)
  | designated name value, fits => by
      have ⟨named, valueFits, tight⟩ := fits
      have isValue := reads value valueFits
      apply Reads.of_item (by simp [level])
      intro least rest _ isLeast stops
      obtain rfl : least = 0 := Nat.le_zero.mp isLeast
      exact gives_designated named (isValue.item (by decide) tight stops)

theorem readsItems : (trees : List Tree) → {least : Nat} → AllFit least trees → least ≤ 2 →
    trees ≠ [] → (closing : Mark) → closing.pull = 0 → closing ≠ .comma → (rest : List Token) →
    GivesItems (items least closing (tokensOf trees ++ .mark closing :: rest)) trees rest
  | [], _, _, _, nonempty, _, _, _, _ => absurd rfl nonempty
  | [tree], least, fit, loose, _, closing, closes, different, rest => by
      have isItem := (reads tree fit.1).item loose fit.2.1 (stops_cons closing (by omega) rest)
      rw [tokensOf, moreTokens, List.append_nil]
      exact givesItems_single different isItem
  | tree :: second :: trees, least, fit, loose, _, closing, closes, different, rest => by
      have others := readsItems (second :: trees) fit.2.2 loose (by simp) closing closes different
        rest
      have isItem := (reads tree fit.1).item loose fit.2.1
        (stops_cons .comma (by decide) (tokensOf (second :: trees) ++ .mark closing :: rest))
      rw [tokensOf, moreTokens, List.append_assoc, List.cons_append]
      exact givesItems_cons isItem others

end

/-! ## Texts -/

/-- The expression that tokens are, to the last of them. -/
def parse (tokens : List Token) : Option Tree :=
  (expression tokens).bind fun read => if read.rest = [] then some read.tree else none

/-- Tokens are an expression exactly if they print it and its parts fit. -/
theorem parse_eq_some_iff {tokens : List Token} {tree : Tree} :
    parse tokens = some tree ↔ tree.tokens = tokens ∧ tree.Fits ∧ 2 ≤ tree.level := by
  constructor
  · intro parsed
    obtain ⟨⟨found, rest, spelled, fits, tight⟩, _, whole⟩ := Option.bind_eq_some_iff.mp parsed
    obtain ⟨isEnd, same⟩ := Option.ite_none_right_eq_some.mp whole
    obtain rfl := Option.some.inj same
    subst isEnd
    exact ⟨by simpa using spelled, fits, tight⟩
  · rintro ⟨rfl, fits, isExpr⟩
    have stops : Stops 1 [] := by
      intro mark isMark
      simp at isMark
    have given := (reads tree fits).expression isExpr stops
    rw [List.append_nil] at given
    obtain ⟨_, _, _, isRead⟩ := given.exists_eq
    simp [parse, isRead]

/-- Which operator, call or access of a text has which operands. -/
def read (text : String) : Option Tree := ((lex text.toList).bind parse).map bare

/-- A printed tree is read back exactly if its parts fit their places. -/
theorem read_eq_some_iff {text : String} {tree : Tree}
    (written : lex text.toList = some tree.tokens)
    (isExpr : 2 ≤ tree.level) : read text = some tree.bare ↔ tree.Fits := by
  rw [read, written, Option.bind_some, Option.map_eq_some_iff]
  constructor
  · rintro ⟨found, parsed, sameBare⟩
    obtain ⟨sameTokens, fits, _⟩ := parse_eq_some_iff.mp parsed
    rwa [← eq_of_bare_of_tokens sameBare sameTokens]
  · intro fits
    exact ⟨tree, parse_eq_some_iff.mpr ⟨rfl, fits, isExpr⟩, rfl⟩

end C

end Offside
