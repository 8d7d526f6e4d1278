import Offside.Proofs.Grammar.PrintingTaken

/-!
# Precedence

An expression is read off its printing. What makes this work is a condition on what comes after an
expression of some level: it must not take up the expression at this level or a tighter one. For the
levels whose operators associate to the left the statement is carried by what such an operator makes
of the expression before it, since a left operand is never read on its own.
-/

namespace Offside

namespace Grammar

/-- Whether a rule succeeds with a value and what is left. -/
def Gives {α : Type} {bound : Nat} (outcome : Outcome α bound) (value : α) (rest : List Token) :
    Prop :=
  ∃ shorter, outcome = .ok ⟨value, rest, shorter⟩

namespace Gives

variable {α β : Type} {bound bound' : Nat} {value : α} {result : β} {rest left : List Token}

theorem ok {shorter : rest.length < bound} :
    Gives (.ok ⟨value, rest, shorter⟩ : Outcome α bound) value rest :=
  ⟨shorter, rfl⟩

theorem bind {outcome : Outcome α bound} {next : Parsed α bound → Outcome β bound'}
    (first : Gives outcome value rest)
    (follow : ∀ shorter, Gives (next ⟨value, rest, shorter⟩) result left) :
    Gives (outcome >>= next) result left := by
  obtain ⟨shorter, rfl⟩ := first
  exact follow shorter

theorem eq_of_ok {other : α} {shorter : rest.length < bound}
    (gives : Gives (.ok ⟨value, rest, shorter⟩ : Outcome α bound) other left) :
    value = other ∧ rest = left := by
  obtain ⟨_, same⟩ := gives
  cases same
  exact ⟨rfl, rfl⟩

end Gives

theorem peek_cons (token : Token) (rest : List Token) : peek (token :: rest) = token.kind := rfl

variable {slice rest : List Token} {token : Token} {level : Level} {expr : Expr}

theorem eat?_cons {kind : Token.Kind} (isKind : token.kind = kind) (rest : List Token) :
    eat? kind (token :: rest) = some ⟨token, rest, length_lt_cons token rest⟩ :=
  if_pos isKind

theorem eat?_cons_ne {kind : Token.Kind} (isOther : token.kind ≠ kind) (rest : List Token) :
    eat? kind (token :: rest) = none :=
  if_neg isOther

theorem gives_expect {kind : Token.Kind} (isKind : token.kind = kind) (what : Expected)
    (rest : List Token) : Gives (expect kind what (token :: rest)) token rest := by
  rw [expect, eat?_cons isKind]
  exact .ok

theorem gives_identifier (isName : token.kind = .identifier) (what : Expected) (rest : List Token) :
    Gives (identifier what (token :: rest)) token.text rest := by
  rw [identifier]
  exact (gives_expect isName what rest).bind fun _ => .ok

theorem Level.height_tighter (level : Level) : level.tighter.height = max 1 (level.height - 1) := by
  cases level <;> rfl

theorem Level.height_pos (level : Level) : 0 < level.height := by
  cases level <;> decide

theorem Level.height_injective {level' : Level} (same : level.height = level'.height) :
    level = level' := by
  cases level <;> cases level' <;> first | rfl | cases same

/-- The level at which a token takes up the expression before it. -/
def pull? : Token.Kind → Option Level
  | .keyword .or_ => some .disjunction
  | .keyword .and_ => some .conjunction
  | .punct .equal | .punct .notEqual | .punct .less | .punct .lessEqual | .punct .greater
  | .punct .greaterEqual => some .comparison
  | .punct .plus | .punct .minus => some .sum
  | .punct .star | .punct .slash | .punct .doubleSlash | .punct .percent => some .product
  | .punct .leftParen | .punct .dot | .punct .leftBracket => some .trailed
  | _ => none

theorem pull?_joiner (op : Joiner) : pull? op.kind = some op.level := by
  cases op with
  | arithmetic op => cases op <;> rfl
  | logical op => cases op <;> rfl

theorem join?_joiner (op : Joiner) : op.level.join? op.kind = some op.build := by
  cases op with
  | arithmetic op => cases op <;> rfl
  | logical op => cases op <;> rfl

theorem pull?_compareOp (op : CompareOp) : pull? op.kind = some .comparison := by
  cases op <;> rfl

theorem comparison?_compareOp (op : CompareOp) : comparison? op.kind = some op := by
  cases op <;> rfl

/-- Whether what comes next takes no expression up at a level or a tighter one. -/
def Stops (level : Level) (rest : List Token) : Prop :=
  ∀ pull, pull? (peek rest) = some pull → level.height < pull.height

namespace Stops

variable {level : Level} {token : Token} {rest : List Token}

theorem mono {tight : Level} (stops : Stops level rest) (looser : tight.height ≤ level.height) :
    Stops tight rest :=
  fun pull pulls => looser.trans_lt (stops pull pulls)

theorem of_pull?_eq_none (nothing : pull? token.kind = none) : Stops level (token :: rest) := by
  intro pull pulls
  rw [peek, nothing] at pulls
  cases pulls

theorem of_pull? {pull : Level} (pulls : pull? token.kind = some pull)
    (looser : level.height < pull.height) : Stops level (token :: rest) := by
  intro pull' pulls'
  rw [peek, pulls] at pulls'
  cases pulls'
  exact looser

theorem join?_eq_none (stops : Stops level (token :: rest)) : level.join? token.kind = none := by
  cases joins : level.join? token.kind with
  | none => rfl
  | some join =>
      obtain ⟨op, isLevel, isKind, -⟩ := exists_of_join? joins
      have pulls := pull?_joiner op
      rw [isKind, isLevel] at pulls
      exact absurd (stops level pulls) (lt_irrefl _)

theorem comparison?_eq_none (stops : Stops .comparison rest) : comparison? (peek rest) = none := by
  cases compares : comparison? (peek rest) with
  | none => rfl
  | some op =>
      have pulls := pull?_compareOp op
      rw [kind_of_comparison? compares] at pulls
      exact absurd (stops .comparison pulls) (lt_irrefl _)

end Stops

/-! ## Expressions that go on -/

/-- What the rule of a level makes of an expression that is read. -/
def further (level : Level) (expr : Expr) (tokens : List Token) :
    Outcome Expr (tokens.length + 1) :=
  match level with
  | .negation | .comparison | .signed => .ok ⟨expr, tokens, length_lt_succ tokens⟩
  | .trailed => trailers expr tokens
  | level => joined level expr tokens

/-- The tightest level at which what follows may take up an expression of a level. -/
def Level.reach : Level → Nat
  -- These three levels do not chain, so that even their own operators come too early.
  | negation => 7
  | comparison => 6
  | signed => 3
  | level => level.height

/-- Whether what follows lets the rule of a level read an expression first. -/
def Follows (level : Level) (rest : List Token) : Prop :=
  ∀ pull, pull? (peek rest) = some pull → level.reach ≤ pull.height

theorem Stops.follows (stops : Stops level rest) : Follows level rest := by
  intro pull pulls
  have := stops pull pulls
  have : level.reach ≤ level.height + 1 := by cases level <;> decide
  omega

theorem Follows.stops {tight : Level} (follows : Follows level rest)
    (tighter : tight.height < level.reach) : Stops tight rest :=
  fun pull pulls => tighter.trans_le (follows pull pulls)

/-- Whatever trails an operand, the operand is read first. -/
theorem follows_trailed (rest : List Token) : Follows .trailed rest :=
  fun pull _ => pull.height_pos

/-- Nothing is added to an expression that is not taken up. -/
theorem gives_further (stops : Stops level rest) (expr : Expr) :
    Gives (further level expr rest) expr rest := by
  cases level with
  | negation | comparison | signed => exact .ok
  | trailed =>
      rw [further, trailers.eq_def]
      cases rest with
      | nil => exact .ok
      | cons token rest =>
          have tooTight : pull? token.kind ≠ some .trailed := fun pulls =>
            absurd (stops .trailed pulls) (lt_irrefl _)
          dsimp only
          split
          iterate 3
            · rename_i isKind
              exact absurd (by rw [isKind]; rfl) tooTight
          · exact .ok
  | disjunction | conjunction | sum | product =>
      rw [further, joined.eq_def]
      · cases rest with
        | nil => exact .ok
        | cons token rest =>
            simp only [stops.join?_eq_none]
            exact .ok
      all_goals rintro ⟨⟩

/-- Whether a rule reads an expression off a slice and goes on with what follows. -/
def ReadsOn (level : Level) (expr : Expr) (slice : List Token) : Prop :=
  ∀ ⦃rest⦄, Follows level rest → ∀ ⦃whole left⦄, Gives (further level expr rest) whole left →
    Gives (expressionAt level (slice ++ rest)) whole left

theorem ReadsOn.gives (readsOn : ReadsOn level expr slice) (stops : Stops level rest) :
    Gives (expressionAt level (slice ++ rest)) expr rest :=
  readsOn stops.follows (gives_further stops expr)

/-- Whether a slice begins as the expressions of a level do. -/
def Opens (level : Level) (slice : List Token) : Prop :=
  ∃ token others, slice = token :: others ∧ token.kind ≠ .punct .rightParen ∧
    (level.height < Level.negation.height → token.kind ≠ .keyword .not_) ∧
    (level.height < Level.signed.height → sign? token.kind = none)

namespace Opens

variable {level : Level} {slice : List Token}

theorem mono {tight : Level} (opens : Opens tight slice) (looser : tight.height ≤ level.height) :
    Opens level slice := by
  obtain ⟨token, others, isCons, notEnd, noNot, noSign⟩ := opens
  exact ⟨token, others, isCons, notEnd, fun below => noNot (looser.trans_lt below),
    fun below => noSign (looser.trans_lt below)⟩

theorem append (opens : Opens level slice) (others : List Token) :
    Opens level (slice ++ others) := by
  obtain ⟨token, rest, rfl, conditions⟩ := opens
  exact ⟨token, rest ++ others, rfl, conditions⟩

theorem of_kind {token : Token} {others : List Token} (notEnd : token.kind ≠ .punct .rightParen)
    (noNot : token.kind ≠ .keyword .not_) (noSign : sign? token.kind = none) :
    Opens level (token :: others) :=
  ⟨token, others, rfl, notEnd, fun _ => noNot, fun _ => noSign⟩

end Opens

theorem opens_constant {value : Constant} (denotes : token.Denotes value) (level : Level) :
    Opens level [token] := by
  have isLiteral : token.kind = .number ∨ token.kind = .string ∨ token.kind = .keyword .true_ ∨
      token.kind = .keyword .false_ ∨ token.kind = .keyword .none_ := by
    match value with
    | .int _ => exact .inl denotes.1
    | .float _ => exact .inl denotes.1
    | .str _ => exact .inr (.inl denotes.1)
    | .bool true => exact .inr (.inr (.inl denotes))
    | .bool false => exact .inr (.inr (.inr (.inl denotes)))
    | .none => exact .inr (.inr (.inr (.inr denotes)))
  obtain isKind | isKind | isKind | isKind | isKind := isLiteral <;>
    exact .of_kind (by rw [isKind]; decide) (by rw [isKind]; decide) (by rw [isKind]; rfl)

theorem opens_under (op : UnaryOp) {others : List Token} (fits : op.level.height ≤ level.height)
    (isOp : token.kind = op.kind) : Opens level (token :: others) := by
  refine ⟨token, others, rfl, ?_, fun below => ?_, fun below => ?_⟩
  · rw [isOp]
    cases op <;> decide
  · rw [isOp]
    cases op with
    | not => exact absurd below (not_lt.mpr fits)
    | neg | pos => decide
  · cases op with
    | not => exact absurd (lt_of_le_of_lt fits below) (by decide)
    | neg | pos => exact absurd below (not_lt.mpr fits)

theorem opens_of_printed {place : Level}
    (printed : Printed Token.Denotes (.expression place expr) slice) : Opens place slice := by
  generalize isPhrase : Phrase.expression place expr = phrase at printed
  induction printed generalizing place expr with
  | name isName =>
      cases isPhrase
      exact .of_kind (by rw [isName]; decide) (by rw [isName]; decide) (by rw [isName]; rfl)
  | constant denotes =>
      cases isPhrase
      exact opens_constant denotes _
  | joined op fits _ _ _ first =>
      cases isPhrase
      exact ((first rfl).append _).mono fits
  | compared op fits _ _ _ first =>
      cases isPhrase
      exact ((first rfl).append _).mono (le_trans (by decide) fits)
  | under op fits isOp =>
      cases isPhrase
      exact opens_under op fits isOp
  | call _ _ _ _ first | member _ _ _ _ first | subscript _ _ _ _ first =>
      cases isPhrase
      exact ((first rfl).append _).mono (Level.height_pos _)
  | enclosed opens =>
      cases isPhrase
      exact .of_kind (by rw [opens]; decide) (by rw [opens]; decide) (by rw [opens]; rfl)
  | noArguments | lastArgument | argument => cases isPhrase

theorem ReadsOn.loosen (readsOn : ReadsOn level.tighter expr slice)
    (opens : Opens level.tighter slice) : ReadsOn level expr slice := by
  intro rest follows whole left given
  obtain ⟨token, others, rfl, -, noNot, noSign⟩ := opens
  cases level with
  | trailed => exact readsOn follows given
  | negation =>
      obtain ⟨rfl, rfl⟩ := given.eq_of_ok
      rw [expressionAt, List.cons_append, eat?_cons_ne (noNot (by decide))]
      exact readsOn.gives (follows.stops (by decide))
  | comparison =>
      obtain ⟨rfl, rfl⟩ := given.eq_of_ok
      have stops : Stops .comparison rest := follows.stops (by decide)
      rw [expressionAt]
      refine (readsOn.gives (follows.stops (by decide))).bind fun _ => ?_
      simp only [stops.comparison?_eq_none]
      exact .ok
  | signed =>
      obtain ⟨rfl, rfl⟩ := given.eq_of_ok
      rw [expressionAt.eq_def]
      simp only [List.cons_append, noSign (by decide)]
      exact readsOn.gives (follows.stops (by decide))
  | disjunction | conjunction | sum | product =>
      rw [expressionAt]
      refine (readsOn.gives (follows.stops (by decide))).bind fun _ => ?_
      exact Gives.bind given fun _ => .ok

/-- An expression of a level is read by the rules of all looser ones. -/
theorem ReadsOn.mono {tight : Level} (readsOn : ReadsOn tight expr slice)
    (opens : Opens tight slice) (level : Level) (looser : tight.height ≤ level.height) :
    ReadsOn level expr slice := by
  -- One level at a time, down from the loosest.
  by_cases same : tight.height = level.height
  · exact Level.height_injective same ▸ readsOn
  · have isTighter := level.height_tighter
    have positive := tight.height_pos
    have between : tight.height ≤ level.tighter.height := by omega
    exact (ReadsOn.mono readsOn opens level.tighter between).loosen (opens.mono between)
termination_by level.height
decreasing_by omega

/-! ## Forms -/

theorem readsOn_primary (reads : ∀ rest, Gives (primary (slice ++ rest)) expr rest) :
    ReadsOn .trailed expr slice := by
  intro rest _ whole left given
  rw [expressionAt]
  exact (reads rest).bind fun _ => Gives.bind given fun _ => .ok

theorem readsOn_atom {atom : Expr} (makes : atom? token = some (.ok atom)) :
    ReadsOn .trailed atom [token] := by
  refine readsOn_primary fun rest => ?_
  rw [List.singleton_append, primary.eq_def]
  simp only [makes]
  exact .ok

theorem atom?_of_denotes {value : Constant} (denotes : token.Denotes value) :
    atom? token = some (.ok (.constant value)) := by
  match value with
  | .int _ | .float _ =>
      obtain ⟨isKind, read⟩ := denotes
      simp only [atom?, isKind, read]
  | .str _ =>
      obtain ⟨isKind, rfl⟩ := denotes
      simp only [atom?, isKind]
  | .bool true | .bool false | .none =>
      have isKind : token.kind = _ := denotes
      simp only [atom?, isKind]

section

variable {expr : Expr} {slice inside : List Token} {opening closing : Token}

theorem readsOn_enclosed (opens : opening.kind = .punct .leftParen)
    (closes : closing.kind = .punct .rightParen) (inner : ReadsOn .disjunction expr inside) :
    ReadsOn .trailed expr (opening :: (inside ++ [closing])) := by
  refine readsOn_primary fun rest => ?_
  have noAtom : atom? opening = none := by simp only [atom?, opens]
  have stops : Stops .disjunction (closing :: rest) := .of_pull?_eq_none (by rw [closes]; rfl)
  rw [List.cons_append, List.append_assoc, List.singleton_append, primary.eq_def]
  simp only [noAtom, opens]
  exact (inner.gives stops).bind fun _ => (gives_expect closes _ rest).bind fun _ => .ok

theorem readsOn_call {args : List Expr} (opens : opening.kind = .punct .leftParen)
    (closes : closing.kind = .punct .rightParen) (first : ReadsOn .trailed expr slice)
    (inner : ∀ rest, Gives (arguments (inside ++ closing :: rest)) args (closing :: rest)) :
    ReadsOn .trailed (.call expr args) (slice ++ opening :: (inside ++ [closing])) := by
  intro rest _ whole left given
  rw [List.append_assoc, List.cons_append, List.append_assoc, List.singleton_append]
  refine first (follows_trailed _) ?_
  rw [further, trailers.eq_def]
  simp only [opens]
  refine (inner rest).bind fun _ => (gives_expect closes _ rest).bind fun _ => ?_
  exact Gives.bind given fun _ => .ok

theorem readsOn_member {dot token : Token} (isDot : dot.kind = .punct .dot)
    (isName : token.kind = .identifier) (first : ReadsOn .trailed expr slice) :
    ReadsOn .trailed (.member expr token.text) (slice ++ [dot, token]) := by
  intro rest _ whole left given
  rw [List.append_assoc, List.cons_append, List.singleton_append]
  refine first (follows_trailed _) ?_
  rw [further, trailers.eq_def]
  simp only [isDot]
  exact (gives_identifier isName _ rest).bind fun _ => Gives.bind given fun _ => .ok

theorem readsOn_subscript {index : Expr} (opens : opening.kind = .punct .leftBracket)
    (closes : closing.kind = .punct .rightBracket) (first : ReadsOn .trailed expr slice)
    (inner : ReadsOn .disjunction index inside) :
    ReadsOn .trailed (.subscript expr index) (slice ++ opening :: (inside ++ [closing])) := by
  intro rest _ whole left given
  have stops : Stops .disjunction (closing :: rest) := .of_pull?_eq_none (by rw [closes]; rfl)
  rw [List.append_assoc, List.cons_append, List.append_assoc, List.singleton_append]
  refine first (follows_trailed _) ?_
  rw [further, trailers.eq_def]
  simp only [opens]
  refine (inner.gives stops).bind fun _ => (gives_expect closes _ rest).bind fun _ => ?_
  exact Gives.bind given fun _ => .ok

end

section

variable {left right operand : Expr} {before after : List Token} {token : Token}

theorem further_joiner (op : Joiner) (expr : Expr) (tokens : List Token) :
    further op.level expr tokens = joined op.level expr tokens := by
  cases op with
  | arithmetic op => cases op <;> rfl
  | logical op => cases op <;> rfl

theorem reach_joiner (op : Joiner) :
    op.level.reach = op.level.height ∧ op.level.tighter.height < op.level.height := by
  cases op with
  | arithmetic op => cases op <;> decide
  | logical op => cases op <;> decide

/-- The left operand is read first, since its rule goes on with the operator. -/
theorem readsOn_joined (op : Joiner) (isOp : token.kind = op.kind)
    (first : ReadsOn op.level left before) (second : ReadsOn op.level.tighter right after) :
    ReadsOn op.level (op.build left right) (before ++ token :: after) := by
  intro rest follows whole remaining given
  obtain ⟨isReach, isTighter⟩ := reach_joiner op
  rw [further_joiner] at given
  rw [List.append_assoc, List.cons_append]
  refine first ?_ ?_
  · intro pull pulls
    rw [peek, isOp, pull?_joiner] at pulls
    cases pulls
    exact isReach.le
  · rw [further_joiner, joined.eq_def]
    simp only [isOp, join?_joiner]
    exact (second.gives (follows.stops (isReach ▸ isTighter))).bind fun _ =>
      given.bind fun _ => .ok

theorem readsOn_compared (op : CompareOp) (isOp : token.kind = op.kind)
    (first : ReadsOn .sum left before) (second : ReadsOn .sum right after) :
    ReadsOn .comparison (.compare op left right) (before ++ token :: after) := by
  intro rest follows whole remaining given
  obtain ⟨rfl, rfl⟩ := given.eq_of_ok
  have stops : Stops .comparison rest := follows.stops (by decide)
  have pulls : pull? token.kind = some .comparison := by rw [isOp, pull?_compareOp]
  rw [List.append_assoc, List.cons_append, expressionAt]
  refine (first.gives (.of_pull? pulls (by decide))).bind fun _ => ?_
  simp only [peek_cons, isOp, comparison?_compareOp, List.tail_cons]
  refine (second.gives (stops.mono (by decide))).bind fun _ => ?_
  simp only [stops.comparison?_eq_none]
  exact .ok

theorem readsOn_under (op : UnaryOp) (isOp : token.kind = op.kind)
    (inner : ReadsOn op.level operand after) :
    ReadsOn op.level (.unary op operand) (token :: after) := by
  intro rest follows whole remaining given
  cases op with
  | not =>
      obtain ⟨rfl, rfl⟩ := given.eq_of_ok
      have isNot : token.kind = .keyword .not_ := isOp
      rw [List.cons_append, UnaryOp.level, expressionAt, eat?_cons isNot]
      exact (inner.gives (follows.stops (by decide))).bind fun _ => .ok
  | neg | pos =>
      obtain ⟨rfl, rfl⟩ := given.eq_of_ok
      rw [List.cons_append, UnaryOp.level, expressionAt.eq_def]
      simp only [isOp, UnaryOp.kind, sign?]
      exact (inner.gives (follows.stops (by decide))).bind fun _ => .ok

end

/-- Whether a phrase is read off a slice. -/
def Reads : Phrase → List Token → Prop
  | .expression place expr, slice => ReadsOn place expr slice
  | .arguments args, slice =>
      ∀ closing : Token, closing.kind = .punct .rightParen → ∀ rest,
        Gives (arguments (slice ++ closing :: rest)) args (closing :: rest)

theorem peek_append_of_opens (opens : Opens level slice) (rest : List Token) :
    peek (slice ++ rest) ≠ .punct .rightParen := by
  obtain ⟨token, others, rfl, notEnd, -⟩ := opens
  exact notEnd

theorem atom?_of_isName (isName : token.kind = .identifier) :
    atom? token = some (.ok (.name token.text)) := by
  simp only [atom?, isName]

theorem gives_noArguments {closing : Token} (closes : closing.kind = .punct .rightParen)
    (rest : List Token) : Gives (arguments (closing :: rest)) [] (closing :: rest) := by
  rw [arguments, peek_cons, if_pos closes]
  exact .ok

theorem gives_lastArgument {arg : Expr} (opens : Opens .disjunction slice)
    (first : ReadsOn .disjunction arg slice) {closing : Token}
    (closes : closing.kind = .punct .rightParen) (rest : List Token) :
    Gives (arguments (slice ++ closing :: rest)) [arg] (closing :: rest) := by
  have stops : Stops .disjunction (closing :: rest) := .of_pull?_eq_none (by rw [closes]; rfl)
  have noComma : closing.kind ≠ .punct .comma := by rw [closes]; decide
  rw [arguments, if_neg (peek_append_of_opens opens _)]
  refine (first.gives stops).bind fun _ => ?_
  simp only [eat?_cons_ne noComma]
  exact .ok

theorem gives_argument {arg : Expr} {args : List Expr} {left : List Token}
    (opens : Opens .disjunction slice) (first : ReadsOn .disjunction arg slice) {comma : Token}
    (isComma : comma.kind = .punct .comma) (further : Gives (arguments rest) args left) :
    Gives (arguments (slice ++ comma :: rest)) (arg :: args) left := by
  have stops : Stops .disjunction (comma :: rest) := .of_pull?_eq_none (by rw [isComma]; rfl)
  rw [arguments, if_neg (peek_append_of_opens opens _)]
  refine (first.gives stops).bind fun _ => ?_
  simp only [eat?_cons isComma]
  exact further.bind fun _ => .ok

/-- A phrase is read off what it is printed as. -/
theorem reads_of_printed {phrase : Phrase} (printed : Printed Token.Denotes phrase slice) :
    Reads phrase slice := by
  -- The rule of its own level reads each form; from there `ReadsOn.mono` leads to its place.
  induction printed with
  | @name place id token isName text =>
      subst text
      have opens : Opens .trailed [token] := opens_of_printed (.name isName rfl)
      exact (readsOn_atom (atom?_of_isName isName)).mono opens place place.height_pos
  | @constant place value token denotes =>
      have opens := opens_constant denotes .trailed
      exact (readsOn_atom (atom?_of_denotes denotes)).mono opens place place.height_pos
  | @joined op place _ _ _ _ _ fits isOp first second readsFirst readsSecond =>
      have opens := opens_of_printed (.joined op le_rfl isOp first second)
      exact (readsOn_joined op isOp readsFirst readsSecond).mono opens place fits
  | @compared op place _ _ _ _ _ fits isOp first second readsFirst readsSecond =>
      have opens := opens_of_printed (.compared op le_rfl isOp first second)
      exact (readsOn_compared op isOp readsFirst readsSecond).mono opens place fits
  | @under op place _ _ _ fits isOp inner readsInner =>
      have opens := opens_of_printed (.under op le_rfl isOp inner)
      exact (readsOn_under op isOp readsInner).mono opens place fits
  | @call place _ _ _ _ _ _ opens closes first inner readsFirst readsInner =>
      have begins : Opens .trailed _ := opens_of_printed (.call opens closes first inner)
      exact (readsOn_call opens closes readsFirst (readsInner _ closes)).mono begins place
        place.height_pos
  | @member place _ _ _ _ _ isDot isName text first readsFirst =>
      subst text
      have begins : Opens .trailed _ := opens_of_printed (.member isDot isName rfl first)
      exact (readsOn_member isDot isName readsFirst).mono begins place place.height_pos
  | @subscript place _ _ _ _ _ _ opens closes first inner readsFirst readsInner =>
      have begins : Opens .trailed _ := opens_of_printed (.subscript opens closes first inner)
      exact (readsOn_subscript opens closes readsFirst readsInner).mono begins place
        place.height_pos
  | @enclosed place _ _ _ _ opens closes inner readsInner =>
      have begins : Opens .trailed _ := opens_of_printed (.enclosed opens closes inner)
      exact (readsOn_enclosed opens closes readsInner).mono begins place place.height_pos
  | noArguments => exact fun _ closes rest => gives_noArguments closes rest
  | lastArgument first readsFirst =>
      exact fun _ closes rest => gives_lastArgument (opens_of_printed first) readsFirst closes rest
  | argument isComma first _ readsFirst readsFurther =>
      intro closing closes rest
      rw [List.append_assoc, List.cons_append]
      exact gives_argument (opens_of_printed first) readsFirst isComma
        (readsFurther closing closes rest)

theorem gives_expression_of_printed
    (printed : Printed Token.Denotes (.expression .disjunction expr) slice) {mark : Token}
    (isEnd : mark.kind = .newline) (rest : List Token) :
    Gives (expression (slice ++ mark :: rest)) expr (mark :: rest) := by
  have readsOn : ReadsOn .disjunction expr slice := reads_of_printed printed
  exact readsOn.gives (.of_pull?_eq_none (by rw [isEnd]; rfl))

/-- An expression is read off its printing before a line end. Conversely, tokens taken for an
expression print it up to redundant parentheses, a last comma and the spelling of numerals, and
every slice that does is read as it. -/
theorem expressions_match_their_printing :
    (∀ (expr : Expr) (tokens : List Token) (mark : Token) (rest : List Token), expr.isPlain →
      tokens.map Token.imprint = expr.printing .disjunction → mark.kind = .newline →
      ∃ shorter, expression (tokens ++ mark :: rest) = .ok ⟨expr, mark :: rest, shorter⟩) ∧
    (∀ (tokens : List Token) (expr : Expr) (rest : List Token) (shorter),
      expression tokens = .ok ⟨expr, rest, shorter⟩ →
      ∃ slice, tokens = slice ++ rest ∧
        Printed Token.Denotes (.expression .disjunction expr) slice) ∧
    ∀ (expr : Expr) (slice : List Token) (mark : Token) (rest : List Token),
      Printed Token.Denotes (.expression .disjunction expr) slice → mark.kind = .newline →
      ∃ shorter, expression (slice ++ mark :: rest) = .ok ⟨expr, mark :: rest, shorter⟩ := by
  refine ⟨?_, ?_, ?_⟩
  · intro expr tokens mark rest plain same isEnd
    exact gives_expression_of_printed (printed_of_printing plain same) isEnd rest
  · intro tokens expr rest shorter isOk
    exact (printed_expressionAt .disjunction tokens).made expr rest shorter isOk
  · intro expr slice mark rest printed isEnd
    exact gives_expression_of_printed printed isEnd rest

/-- An expression that needs parentheses in three places. -/
def nestedExpr : Expr :=
  .logical .and (.unary .not (.logical .or (.name "a") (.name "b")))
    (.compare .lt
      (.binary .mul
        (.unary .neg (.binary .add (.name "x") (.constant (.int 1))))
        (.member
          (.subscript
            (.call (.name "f") [.constant (.str "s"), .constant .none, .constant (.bool true)])
            (.constant (.int 0)))
          "y"))
      (.binary .sub (.constant (.int 2))
        (.binary .sub (.constant (.int 9223372036854775807)) (.name "z"))))

/-- The source that this expression is printed as. -/
def nestedSource : String :=
  "not (a or b) and -(x + 1) * f('s', None, True)[0].y < 2 - (9223372036854775807 - z)\n"

theorem expressions_match_their_printing_nested :
    ((Token.ofSource nestedSource).take 35).map Token.imprint = nestedExpr.printing .disjunction ∧
      Gives (expression (Token.ofSource nestedSource)) nestedExpr
        [⟨.newline, none, 1, 84⟩, ⟨.endOfFile, none, 2, 1⟩] := by
  have split : Token.ofSource nestedSource = (Token.ofSource nestedSource).take 35
      ++ [⟨.newline, none, 1, 84⟩, ⟨.endOfFile, none, 2, 1⟩] := by
    decide +kernel
  have same : ((Token.ofSource nestedSource).take 35).map Token.imprint =
      nestedExpr.printing .disjunction := by
    decide +kernel
  have given : Gives (expression ((Token.ofSource nestedSource).take 35
      ++ [⟨.newline, none, 1, 84⟩, ⟨.endOfFile, none, 2, 1⟩])) nestedExpr _ :=
    expressions_match_their_printing.1 nestedExpr _ _ _ (by decide) same rfl
  rw [← split] at given
  exact ⟨same, given⟩

/-- A leading zero of a numeral is not printed. -/
theorem leading_zeros_are_not_printed :
    ¬ ∀ (tokens : List Token) (expr : Expr) (rest : List Token) (shorter), expr.isPlain →
      expression tokens = .ok ⟨expr, rest, shorter⟩ →
      ∃ slice, tokens = slice ++ rest ∧
        Printed Token.Imprints (.expression .disjunction expr) slice := by
  intro printed
  have isSeven : numeral? "007" = some (.int 7) :=
    numeral?_of_isDigit (by decide) (List.all_eq_true.mp (by decide)) (by decide)
  obtain ⟨shorter, isOk⟩ := gives_expression_of_printed
    (.constant ⟨rfl, isSeven⟩ : Printed Token.Denotes
      (.expression .disjunction (.constant (.int 7))) [⟨.number, some "007", 1, 1⟩])
    (rfl : (⟨.newline, none, 1, 4⟩ : Token).kind = .newline) []
  obtain ⟨slice, split, isPrinted⟩ := printed _ _ _ shorter (by decide) isOk
  obtain rfl := List.append_cancel_right split
  have isText : "007" = toString (7 : Int) := (Prod.mk.inj isPrinted.stands_of_single).2
  exact absurd isText (by decide)

end Grammar

end Offside
