import Offside.Proofs.Grammar.Printing
import Offside.Proofs.Grammar.Suffix

/-!
# What the rules of expressions take

The tokens that a rule takes for an expression print this expression at the level of the rule. The
rules for further operands and for what trails an operand extend the printing of what came before.
-/

namespace Offside

namespace Grammar

variable {kind : Token.Kind}

/-- Whether a rule takes tokens in some relation to its result, or is refused. -/
structure TakesAs {α : Type} {bound : Nat} (tokens : List Token)
    (relates : α → List Token → Prop) (outcome : Outcome α bound) : Prop where
  made : ∀ value rest shorter, outcome = .ok ⟨value, rest, shorter⟩ →
    ∃ slice, tokens = slice ++ rest ∧ relates value slice
  refused : Offside.Outcome.FailsAt .parsing outcome

namespace TakesAs

variable {α β : Type} {bound bound' : Nat} {tokens rest : List Token}
  {relates : α → List Token → Prop} {relates' : β → List Token → Prop}
variable {outcome : Outcome α bound}

/-- A rule that takes nothing more. -/
theorem done {value : α} {shorter : tokens.length < bound} (holds : relates value []) :
    TakesAs tokens relates (.ok ⟨value, tokens, shorter⟩) where
  made := by
    rintro _ _ _ ⟨⟩
    exact ⟨[], rfl, holds⟩
  refused := by rintro _ ⟨⟩

theorem error (reason : Reason) (place : Option Token) :
    TakesAs tokens relates (.error (.parsing reason place) : Outcome α bound) where
  made := by rintro _ _ _ ⟨⟩
  refused := by
    rintro _ ⟨⟩
    rfl

theorem bind {next : Parsed α bound → Outcome β bound'} (first : TakesAs tokens relates outcome)
    (follow : ∀ value slice rest shorter, relates value slice →
      TakesAs rest (fun result further => relates' result (slice ++ further))
        (next ⟨value, rest, shorter⟩)) : TakesAs tokens relates' (outcome >>= next) := by
  cases outcome with
  | error fault =>
      refine ⟨by rintro _ _ _ ⟨⟩, ?_⟩
      rintro _ ⟨⟩
      exact first.refused fault rfl
  | ok parsed =>
      obtain ⟨value, middle, fewer⟩ := parsed
      obtain ⟨slice, rfl, holds⟩ := first.made value middle fewer rfl
      have later := follow value slice middle fewer holds
      refine ⟨fun result rest shorter isOk => ?_, later.refused⟩
      obtain ⟨further, rfl, isRelated⟩ := later.made result rest shorter isOk
      exact ⟨slice ++ further, (List.append_assoc ..).symm, isRelated⟩

theorem mono {looser : α → List Token → Prop} (takes : TakesAs tokens relates outcome)
    (holds : ∀ value slice, relates value slice → looser value slice) :
    TakesAs tokens looser outcome where
  made value rest shorter isOk := by
    obtain ⟨slice, split, isRelated⟩ := takes.made value rest shorter isOk
    exact ⟨slice, split, holds value slice isRelated⟩
  refused := takes.refused

theorem cons {token : Token}
    (takes : TakesAs rest (fun value slice => relates value (token :: slice)) outcome) :
    TakesAs (token :: rest) relates outcome where
  made value left shorter isOk := by
    obtain ⟨slice, rfl, holds⟩ := takes.made value left shorter isOk
    exact ⟨token :: slice, rfl, holds⟩
  refused := takes.refused

theorem takes (takes : TakesAs tokens relates outcome) {makes : α → Prop}
    (holds : ∀ value slice, slice <+: tokens → relates value slice → makes value) :
    Takes tokens makes outcome where
  made parsed isOk := by
    obtain ⟨slice, split, isRelated⟩ := takes.made parsed.value parsed.rest parsed.shorter isOk
    exact ⟨⟨slice, split.symm⟩, holds _ slice ⟨parsed.rest, split.symm⟩ isRelated⟩
  refused := takes.refused

end TakesAs

theorem takesAs_expect (kind : Token.Kind) (what : Expected) (tokens : List Token) :
    TakesAs tokens (fun token slice => token.kind = kind ∧ slice = [token])
      (expect kind what tokens) := by
  rw [expect]
  cases eaten : eat? kind tokens with
  | none => exact .error _ _
  | some parsed =>
      obtain ⟨token, rest, shorter⟩ := parsed
      obtain ⟨rfl, isKind⟩ := eq_of_eat? eaten
      exact .cons (.done ⟨isKind, rfl⟩)

theorem takesAs_identifier (what : Expected) (tokens : List Token) :
    TakesAs tokens
      (fun text slice => ∃ token, token.kind = .identifier ∧ token.text = text ∧ slice = [token])
      (identifier what tokens) := by
  rw [identifier]
  refine (takesAs_expect .identifier what tokens).bind ?_
  rintro token slice rest _ ⟨isName, rfl⟩
  exact .done ⟨token, isName, rfl, rfl⟩

theorem exists_of_join? {level : Level} {join : Expr → Expr → Expr}
    (joins : level.join? kind = some join) :
    ∃ op : Joiner, op.level = level ∧ op.kind = kind ∧ op.build = join := by
  unfold Level.join? at joins
  split at joins <;> cases joins
  · exact ⟨.logical .or, rfl, rfl, rfl⟩
  · exact ⟨.logical .and, rfl, rfl, rfl⟩
  · exact ⟨.arithmetic .add, rfl, rfl, rfl⟩
  · exact ⟨.arithmetic .sub, rfl, rfl, rfl⟩
  · exact ⟨.arithmetic .mul, rfl, rfl, rfl⟩
  · exact ⟨.arithmetic .div, rfl, rfl, rfl⟩
  · exact ⟨.arithmetic .floorDiv, rfl, rfl, rfl⟩
  · exact ⟨.arithmetic .mod, rfl, rfl, rfl⟩

theorem kind_of_comparison? {op : CompareOp} (compares : comparison? kind = some op) :
    op.kind = kind := by
  unfold comparison? at compares
  split at compares <;> cases compares <;> rfl

theorem kind_of_sign? {op : UnaryOp} (signs : sign? kind = some op) :
    op.kind = kind ∧ op.level = .signed := by
  unfold sign? at signs
  split at signs <;> cases signs <;> exact ⟨rfl, rfl⟩

theorem denotes_of_numeral? {token : Token} {value : Constant} (isNumber : token.kind = .number)
    (read : numeral? token.text = some value) : token.Denotes value := by
  have isNumeric : (∃ whole, value = .int whole) ∨ ∃ real, value = .float real := by
    unfold numeral? at read
    split at read
    · obtain ⟨_, _, rfl⟩ := Option.map_eq_some_iff.mp read
      exact .inr ⟨_, rfl⟩
    · obtain ⟨_, _, rfl⟩ := Option.map_eq_some_iff.mp read
      exact .inl ⟨_, rfl⟩
  obtain ⟨_, rfl⟩ | ⟨_, rfl⟩ := isNumeric <;> exact ⟨isNumber, read⟩

/-- A single token that makes an expression prints it. -/
theorem printed_of_atom? {token : Token} {atom : Expr} (makes : atom? token = some (.ok atom)) :
    Printed Token.Denotes (.expression .trailed atom) [token] := by
  unfold atom? at makes
  split at makes
  · rename_i isNumber
    cases read : numeral? token.text with
    | none => simp [read] at makes
    | some value =>
        simp only [read, Option.some.injEq, Except.ok.injEq] at makes
        subst makes
        exact .constant (denotes_of_numeral? isNumber read)
  · rename_i isString
    cases makes
    exact .constant ⟨isString, rfl⟩
  · rename_i isTrue
    cases makes
    exact .constant isTrue
  · rename_i isFalse
    cases makes
    exact .constant isFalse
  · rename_i isNone
    cases makes
    exact .constant isNone
  · rename_i isName
    cases makes
    exact .name isName rfl
  · cases makes

mutual

theorem printed_expressionAt (level : Level) (tokens : List Token) :
    TakesAs tokens (fun expr slice => Printed Token.Denotes (.expression level expr) slice)
      (expressionAt level tokens) := by
  cases level with
  | negation =>
      rw [expressionAt]
      cases eaten : eat? (.keyword .not_) tokens with
      | none =>
          exact (printed_expressionAt .comparison tokens).mono
            fun _ _ printed => printed.loosen (by decide)
      | some parsed =>
          obtain ⟨token, rest, h₁⟩ := parsed
          obtain ⟨rfl, isNot⟩ := eq_of_eat? eaten
          refine .cons ((printed_expressionAt .negation rest).bind ?_)
          intro operand slice left _ inner
          exact .done (by simpa using .under .not le_rfl isNot inner)
  | comparison =>
      rw [expressionAt]
      refine (printed_expressionAt .sum tokens).bind ?_
      intro left before afterFirst _ first
      dsimp only
      split
      · exact .done (by simpa using first.loosen (by decide))
      · rename_i op compares
        cases afterFirst with
        | nil => cases compares
        | cons token rest =>
            have isOp := (kind_of_comparison? compares).symm
            refine .cons ((printed_expressionAt .sum rest).bind ?_)
            intro right after left _ second
            dsimp only
            split
            · exact .error _ _
            · exact .done (by simpa using .compared op le_rfl isOp first second)
  | signed =>
      rw [expressionAt.eq_def]
      cases tokens with
      | nil => exact .error _ _
      | cons token rest =>
          dsimp only
          split
          · rename_i op signs
            obtain ⟨isKind, isLevel⟩ := kind_of_sign? signs
            refine .cons ((printed_expressionAt .signed rest).bind ?_)
            intro operand slice left _ inner
            rw [← isLevel] at inner
            exact .done (by simpa using .under op (by rw [isLevel]) isKind.symm inner)
          · exact (printed_expressionAt .trailed (token :: rest)).mono
              fun _ _ printed => printed.loosen (by decide)
  | trailed =>
      rw [expressionAt]
      refine (printed_primary tokens).bind ?_
      intro base before afterBase _ first
      exact (printed_trailers first afterBase).bind fun _ _ _ _ whole =>
        .done (by simpa using whole)
  | disjunction | conjunction | sum | product =>
      rw [expressionAt]
      refine (printed_expressionAt _ tokens).bind ?_
      intro left before afterFirst _ first
      exact (printed_joined (first.loosen (by decide)) afterFirst).bind fun _ _ _ _ whole =>
        .done (by simpa using whole)
termination_by 16 * tokens.length + level.height
decreasing_by
  all_goals simp_all only [Level.height, Level.tighter, List.length_cons]
  all_goals omega

theorem printed_joined {level : Level} {first : Expr} {before : List Token}
    (printed : Printed Token.Denotes (.expression level first) before) (tokens : List Token) :
    TakesAs tokens
      (fun expr slice => Printed Token.Denotes (.expression level expr) (before ++ slice))
      (joined level first tokens) := by
  rw [joined.eq_def]
  cases tokens with
  | nil => exact .done (by simpa using printed)
  | cons token rest =>
      dsimp only
      split
      · exact .done (by simpa using printed)
      · rename_i join joins
        obtain ⟨op, isLevel, isKind, rfl⟩ := exists_of_join? joins
        refine .cons ((printed_expressionAt level.tighter rest).bind ?_)
        intro right after afterSecond _ second
        have both : Printed Token.Denotes (.expression level (op.build first right))
            (before ++ token :: after) := by
          subst isLevel
          exact .joined op le_rfl isKind.symm printed second
        refine (printed_joined both afterSecond).bind ?_
        intro whole slice left _ isWhole
        exact .done (by simpa using isWhole)
termination_by 16 * tokens.length
decreasing_by
  all_goals
    have := level.tighter.height_le
    simp only [List.length_cons]
    omega

theorem printed_trailers {base : Expr} {before : List Token}
    (printed : Printed Token.Denotes (.expression .trailed base) before) (tokens : List Token) :
    TakesAs tokens
      (fun expr slice => Printed Token.Denotes (.expression .trailed expr) (before ++ slice))
      (trailers base tokens) := by
  rw [trailers.eq_def]
  cases tokens with
  | nil => exact .done (by simpa using printed)
  | cons token rest =>
      dsimp only
      split
      · rename_i opens
        refine .cons ((printed_arguments rest).bind ?_)
        intro args inside afterArgs _ inner
        refine (takesAs_expect _ _ afterArgs).bind ?_
        rintro closing _ afterCall _ ⟨closes, rfl⟩
        refine (printed_trailers (.call opens closes printed inner) afterCall).bind ?_
        intro whole slice left _ isWhole
        exact .done (by simpa using isWhole)
      · rename_i isDot
        refine .cons ((takesAs_identifier _ rest).bind ?_)
        rintro attr _ afterName _ ⟨name, isName, text, rfl⟩
        refine (printed_trailers (.member isDot isName text printed) afterName).bind ?_
        intro whole slice left _ isWhole
        exact .done (by simpa using isWhole)
      · rename_i opens
        refine .cons ((printed_expressionAt .disjunction rest).bind ?_)
        intro index inside afterIndex _ inner
        refine (takesAs_expect _ _ afterIndex).bind ?_
        rintro closing _ afterBracket _ ⟨closes, rfl⟩
        refine (printed_trailers (.subscript opens closes printed inner) afterBracket).bind ?_
        intro whole slice left _ isWhole
        exact .done (by simpa using isWhole)
      · exact .done (by simpa using printed)
termination_by 16 * tokens.length
decreasing_by
  all_goals simp only [Level.height, List.length_cons]
  all_goals omega

theorem printed_arguments (tokens : List Token) :
    TakesAs tokens (fun args slice => Printed Token.Denotes (.arguments args) slice)
      (arguments tokens) := by
  rw [arguments]
  split
  · exact .done .noArguments
  · refine (printed_expressionAt .disjunction tokens).bind ?_
    intro arg slice afterArg _ first
    dsimp only
    cases eaten : eat? (.punct .comma) afterArg with
    | none => exact .done (by simpa using .lastArgument first)
    | some parsed =>
        obtain ⟨comma, rest, h₂⟩ := parsed
        obtain ⟨rfl, isComma⟩ := eq_of_eat? eaten
        refine .cons ((printed_arguments rest).bind ?_)
        intro args others left _ further
        exact .done (by simpa using .argument isComma first further)
termination_by 16 * tokens.length + 9
decreasing_by
  all_goals try simp only [Level.height]
  all_goals omega

theorem printed_primary (tokens : List Token) :
    TakesAs tokens (fun expr slice => Printed Token.Denotes (.expression .trailed expr) slice)
      (primary tokens) := by
  rw [primary.eq_def]
  cases tokens with
  | nil => exact .error _ _
  | cons token rest =>
      dsimp only
      split
      · rename_i atom makes
        exact .cons (.done (printed_of_atom? makes))
      · exact .error _ _
      · split
        · rename_i opens
          refine .cons ((printed_expressionAt .disjunction rest).bind ?_)
          intro expr inside afterInner _ inner
          refine (takesAs_expect _ _ afterInner).bind ?_
          rintro closing _ left _ ⟨closes, rfl⟩
          exact .done (by simpa using .enclosed opens closes inner)
        · exact .error _ _
termination_by 16 * tokens.length
decreasing_by
  all_goals simp only [Level.height, List.length_cons]
  all_goals omega

end

end Grammar

end Offside
