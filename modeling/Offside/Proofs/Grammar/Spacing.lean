import Offside.Grammar.Statement
import Offside.Proofs.Token.Lines

/-!
# Line ends that do not matter

Rules of the grammar take the same steps over two lists of tokens that differ in nothing but line
ends next to other line ends, and in the lines that tokens stand on.
-/

namespace Offside

def Parameter.moved (move : Nat → Nat) (param : Parameter) : Parameter :=
  { param with line := move param.line }

mutual

def Form.moved (move : Nat → Nat) : Form → Form
  | .function ⟨name, params, returns, body⟩ =>
      .function ⟨name, params.map (Parameter.moved move), returns, movedBody move body⟩
  | .classDef ⟨name, bases, kind, body⟩ => .classDef ⟨name, bases, kind, movedBody move body⟩
  | .branch test body orelse => .branch test (movedBody move body) (movedBody move orelse)
  | .whileLoop test body label => .whileLoop test (movedBody move body) label
  | .forLoop target iter body label => .forLoop target iter (movedBody move body) label
  | .select subject cases => .select subject (movedCases move cases)
  | .assign target value => .assign target value
  | .declare target written value => .declare target written value
  | .jump jump label => .jump jump label
  | .ret value => .ret value
  | .expr value => .expr value
  | .pass => .pass
  | .import_ request => .import_ request

def movedBody (move : Nat → Nat) : List Statement → List Statement
  | [] => []
  | ⟨line, form⟩ :: body => ⟨move line, form.moved move⟩ :: movedBody move body

def movedCases (move : Nat → Nat) : List Case → List Case
  | [] => []
  | ⟨pattern, body, line⟩ :: cases =>
      ⟨pattern, movedBody move body, move line⟩ :: movedCases move cases

end

def Statement.moved (move : Nat → Nat) (statement : Statement) : Statement :=
  ⟨move statement.line, statement.form.moved move⟩

theorem movedBody_cons (move : Nat → Nat) (statement : Statement) (body : List Statement) :
    movedBody move (statement :: body) = statement.moved move :: movedBody move body := by
  cases statement
  rfl

theorem movedBody_eq_map (move : Nat → Nat) (body : List Statement) :
    movedBody move body = body.map (Statement.moved move) := by
  induction body with
  | nil => rfl
  | cons statement body induction => rw [movedBody_cons, List.map_cons, induction]

theorem ClassDef.kindOf_moved (move : Nat → Nat) (bases : List String) (body : List Statement) :
    ClassDef.kindOf bases (movedBody move body) = ClassDef.kindOf bases body := by
  have stub (decl : FunctionDef) (params : List Parameter) :
      FunctionDef.isStub ⟨decl.name, params, decl.returns, movedBody move decl.body⟩ =
        decl.isStub := by
    obtain ⟨name, _, returns, body⟩ := decl
    rcases body with _ | ⟨⟨line, form⟩, _ | ⟨⟨line', form'⟩, body⟩⟩
    · rfl
    · cases form with
      | function inner =>
          cases inner
          rfl
      | classDef inner =>
          cases inner
          rfl
      | _ => rfl
    · simp [FunctionDef.isStub, movedBody]
  have substance (statement : Statement) :
      givesSubstance (statement.moved move) = givesSubstance statement := by
    obtain ⟨line, form⟩ := statement
    cases form with
    | function decl =>
        obtain ⟨name, params, returns, body⟩ := decl
        exact congrArg not (stub ⟨name, params, returns, body⟩ _)
    | classDef decl =>
        cases decl
        rfl
    | _ => rfl
  have same : givesSubstance ∘ Statement.moved move = givesSubstance := funext substance
  rw [kindOf, kindOf, movedBody_eq_map, List.any_map, same]

namespace Token.Spaced

variable {move : Nat → Nat} {tokens tokens' : List Token}

theorem eq_nil (spaced : Spaced move [] tokens') : tokens' = [] := by
  cases spaced
  rfl

theorem of_cons {token : Token} {rest : List Token} (spaced : Spaced move (token :: rest) tokens') :
    (∃ rest', tokens' = token.moved move :: rest' ∧ token.kind ≠ .newline ∧
      Spaced move rest rest') ∨
    (∃ mark rest', tokens' = mark :: rest' ∧ token.kind = .newline ∧ mark.kind = .newline) := by
  cases spaced with
  | word isWord later => exact .inl ⟨_, rfl, isWord, later⟩
  | lineEnd marks marks' _ => exact .inr ⟨_, _, rfl, marks, marks'⟩
  | further marks marks' _ => exact .inr ⟨_, _, rfl, marks, marks'⟩

theorem peek_eq (spaced : Spaced move tokens tokens') :
    Grammar.peek tokens' = Grammar.peek tokens := by
  cases tokens with
  | nil =>
      obtain rfl := spaced.eq_nil
      rfl
  | cons token rest =>
      rcases spaced.of_cons with ⟨rest', rfl, _⟩ | ⟨mark, rest', rfl, marks, marks'⟩
      · rfl
      · exact marks'.trans marks.symm

theorem tail (spaced : Spaced move tokens tokens') (isWord : Grammar.peek tokens ≠ .newline) :
    Spaced move tokens.tail tokens'.tail := by
  cases tokens with
  | nil =>
      obtain rfl := spaced.eq_nil
      exact .nil
  | cons token rest =>
      rcases spaced.of_cons with ⟨rest', rfl, _, later⟩ | ⟨mark, rest', rfl, marks, _⟩
      · exact later
      · exact absurd marks isWord

@[elab_as_elim]
theorem eat_cases {motive : Option (Grammar.Parsed Token tokens.length) →
      Option (Grammar.Parsed Token tokens'.length) → Prop}
    (spaced : Spaced move tokens tokens') (kind : Kind) (isWord : kind ≠ .newline)
    (absent : motive none none)
    (taken : ∀ token rest rest' shorter shorter', Spaced move rest rest' →
      motive (some ⟨token, rest, shorter⟩) (some ⟨token.moved move, rest', shorter'⟩)) :
    motive (Grammar.eat? kind tokens) (Grammar.eat? kind tokens') := by
  cases tokens with
  | nil =>
      obtain rfl := spaced.eq_nil
      exact absent
  | cons token rest =>
      rcases spaced.of_cons with ⟨rest', rfl, _, later⟩ | ⟨mark, rest', rfl, marks, marks'⟩
      · rw [Grammar.eat?, Grammar.eat?, Token.kind_moved]
        split
        · exact taken token rest rest' _ _ later
        · exact absent
      · rw [Grammar.eat?, Grammar.eat?, marks, marks', if_neg isWord.symm, if_neg isWord.symm]
        exact absent

theorem skipNewlines (spaced : Spaced move tokens tokens') :
    Spaced move (Grammar.skipNewlines tokens) (Grammar.skipNewlines tokens') := by
  induction spaced with
  | nil => exact .nil
  | word isWord later _ =>
      simpa [Grammar.skipNewlines, isWord] using Spaced.word isWord later
  | lineEnd marks marks' _ induction => simpa [Grammar.skipNewlines, marks, marks'] using induction
  | further marks marks' _ induction => simpa [Grammar.skipNewlines, marks, marks'] using induction

theorem after_newline {mark mark' : Token} {rest rest' : List Token}
    (spaced : Spaced move (mark :: rest) (mark' :: rest')) (marks : mark.kind = .newline)
    (marks' : mark'.kind = .newline) :
    Spaced move (Grammar.skipNewlines rest) (Grammar.skipNewlines rest') := by
  simpa [Grammar.skipNewlines, marks, marks'] using spaced.skipNewlines

end Token.Spaced

namespace Grammar

open Token (Spaced)

variable {rest : List Token}

/-- Whether two lists are the same past the line ends at their starts. -/
def Loose (move : Nat → Nat) (tokens tokens' : List Token) : Prop :=
  Spaced move (skipNewlines tokens) (skipNewlines tokens')

/-- Whether two runs are both refused, or both succeed with related results. -/
def Agree {α : Type} {bound bound' : Nat} (change : α → α)
    (leaves : List Token → List Token → Prop) (outcome : Outcome α bound)
    (outcome' : Outcome α bound') : Prop :=
  match outcome, outcome' with
  | .ok parsed, .ok parsed' => parsed'.value = change parsed.value ∧ leaves parsed.rest parsed'.rest
  | .error _, .error _ => True
  | _, _ => False

namespace Agree

variable {α β : Type} {bound bound' further further' : Nat} {change : α → α} {change' : β → β}
  {leaves leaves' : List Token → List Token → Prop}
variable {outcome : Outcome α bound} {outcome' : Outcome α bound'}

theorem ok {parsed : Parsed α bound} {parsed' : Parsed α bound'}
    (changed : parsed'.value = change parsed.value) (left : leaves parsed.rest parsed'.rest) :
    Agree change leaves (.ok parsed) (.ok parsed') := ⟨changed, left⟩

theorem error (refusal refusal' : Fault) :
    Agree change leaves (.error refusal : Outcome α bound) (.error refusal' : Outcome α bound') :=
  trivial

/-- Two such runs are refused together, or succeed together. -/
theorem cases (agree : Agree change leaves outcome outcome') :
    (∃ refusal refusal', outcome = .error refusal ∧ outcome' = .error refusal') ∨
    ∃ value rest shorter rest' shorter', outcome = .ok ⟨value, rest, shorter⟩ ∧
      outcome' = .ok ⟨change value, rest', shorter'⟩ ∧ leaves rest rest' := by
  rcases outcome with refusal | ⟨value, rest, shorter⟩
  · rcases outcome' with refusal' | parsed'
    · exact .inl ⟨refusal, refusal', rfl, rfl⟩
    · exact agree.elim
  · rcases outcome' with refusal' | ⟨_, rest', shorter'⟩
    · exact agree.elim
    · obtain ⟨rfl, left⟩ := agree
      exact .inr ⟨value, rest, shorter, rest', shorter', rfl, rfl, left⟩

theorem bind {next : Parsed α bound → Outcome β further}
    {next' : Parsed α bound' → Outcome β further'} (first : Agree change leaves outcome outcome')
    (follow : ∀ value rest shorter rest' shorter', leaves rest rest' →
      Agree change' leaves' (next ⟨value, rest, shorter⟩) (next' ⟨change value, rest', shorter'⟩)) :
    Agree change' leaves' (outcome >>= next) (outcome' >>= next') := by
  rcases first.cases with ⟨refusal, refusal', rfl, rfl⟩ |
    ⟨value, rest, shorter, rest', shorter', rfl, rfl, left⟩
  · exact .error refusal refusal'
  · exact follow value rest shorter rest' shorter' left

theorem last {next : Parsed α bound → Outcome β further}
    {next' : Parsed α bound' → Outcome β further'} (rule : Agree change leaves outcome outcome')
    (makes : ∀ {value rest shorter rest' shorter'}, Agree change' (fun left left' => left = rest ∧
      left' = rest') (next ⟨value, rest, shorter⟩) (next' ⟨change value, rest', shorter'⟩)) :
    Agree change' leaves (outcome >>= next) (outcome' >>= next') := by
  refine rule.bind fun value rest shorter rest' shorter' left => ?_
  rcases (@makes value rest shorter rest' shorter').cases with ⟨_, _, isError, isError'⟩ |
    ⟨_, _, _, _, _, made, made', rfl, rfl⟩
  · rw [isError, isError']
    exact .error _ _
  · rw [made, made']
    exact .ok rfl left

end Agree

variable {move : Nat → Nat} {tokens tokens' : List Token} {mark : Token}

theorem agree_expect (kind : Token.Kind) (what : Expected) (isWord : kind ≠ .newline)
    (spaced : Spaced move tokens tokens') :
    Agree (Token.moved move) (Spaced move) (expect kind what tokens)
      (expect kind what tokens') := by
  rw [expect, expect]
  refine spaced.eat_cases kind isWord (.error _ _) ?_
  intro token rest rest' h h' later
  exact .ok rfl later

theorem agree_expectPunct (mark : Punct) (spaced : Spaced move tokens tokens') :
    Agree (Token.moved move) (Spaced move) (expectPunct mark tokens) (expectPunct mark tokens') :=
  agree_expect (.punct mark) _ nofun spaced

theorem agree_expectKeyword (word : Keyword) (spaced : Spaced move tokens tokens') :
    Agree (Token.moved move) (Spaced move) (expectKeyword word tokens)
      (expectKeyword word tokens') :=
  agree_expect (.keyword word) _ nofun spaced

theorem agree_identifier (what : Expected) (spaced : Spaced move tokens tokens') :
    Agree id (Spaced move) (identifier what tokens) (identifier what tokens') := by
  rw [identifier, identifier]
  refine (agree_expect .identifier what nofun spaced).bind ?_
  intro token rest h rest' h' later
  exact .ok rfl later

/-! ## Expressions -/

theorem Level.join?_newline (level : Level) : level.join? .newline = none := by
  cases level <;> rfl

theorem atom?_newline (marks : mark.kind = .newline) : atom? mark = none := by
  rw [atom?, marks]

theorem atom?_moved (token : Token) : atom? (token.moved move) = atom? token := rfl

mutual

theorem agree_expressionAt (level : Level) (tokens tokens' : List Token)
    (spaced : Spaced move tokens tokens') :
    Agree id (Spaced move) (expressionAt level tokens) (expressionAt level tokens') := by
  rw [expressionAt.eq_def level tokens, expressionAt.eq_def level tokens']
  cases level with
  | negation =>
      dsimp only
      refine spaced.eat_cases (.keyword .not_) nofun
        (agree_expressionAt .comparison tokens tokens' spaced) ?_
      intro token rest rest' h₁ h₁' later
      exact (agree_expressionAt .negation rest rest' later).last (.ok rfl ⟨rfl, rfl⟩)
  | comparison =>
      refine (agree_expressionAt .sum tokens tokens' spaced).bind ?_
      intro first afterFirst h₁ afterFirst' h₁' leaves
      dsimp only
      rw [leaves.peek_eq]
      cases compared : comparison? (peek afterFirst) with
      | none => exact .ok rfl leaves
      | some op =>
          dsimp only
          refine (agree_expressionAt .sum afterFirst.tail afterFirst'.tail
            (leaves.tail (by rintro isEnd; simp [isEnd, comparison?] at compared))).bind ?_
          intro second left h₂ left' h₂' leaves
          dsimp only
          rw [leaves.peek_eq]
          split
          · exact .error _ _
          · exact .ok rfl leaves
  | signed =>
      match tokens, spaced with
      | [], spaced =>
          obtain rfl := spaced.eq_nil
          exact .error _ _
      | token :: rest, spaced =>
          rcases spaced.of_cons with ⟨rest', rfl, _, later⟩ | ⟨mark, rest', rfl, marks, marks'⟩
          · dsimp only [Token.kind_moved]
            cases sign? token.kind with
            | some op =>
                exact (agree_expressionAt .signed rest rest' later).last (.ok rfl ⟨rfl, rfl⟩)
            | none => exact agree_expressionAt .trailed (token :: rest) _ spaced
          · dsimp only
            rw [marks, marks']
            exact agree_expressionAt .trailed (token :: rest) _ spaced
  | trailed =>
      refine (agree_primary tokens tokens' spaced).bind ?_
      intro base afterBase h₁ afterBase' h₁' leaves
      exact (agree_trailers base afterBase afterBase' leaves).last (.ok rfl ⟨rfl, rfl⟩)
  | disjunction | conjunction | sum | product =>
      refine (agree_expressionAt _ tokens tokens' spaced).bind ?_
      intro first afterFirst h₁ afterFirst' h₁' leaves
      exact (agree_joined _ first afterFirst afterFirst' leaves).last (.ok rfl ⟨rfl, rfl⟩)
termination_by 16 * tokens.length + level.height
decreasing_by
  all_goals simp only [Level.height, Level.tighter, List.length_cons, List.length_tail]
  all_goals omega

theorem agree_joined (level : Level) (first : Expr) (tokens tokens' : List Token)
    (spaced : Spaced move tokens tokens') :
    Agree id (Spaced move) (joined level first tokens) (joined level first tokens') := by
  rw [joined.eq_def level first tokens, joined.eq_def level first tokens']
  match tokens, spaced with
  | [], spaced =>
      obtain rfl := spaced.eq_nil
      exact .ok rfl spaced
  | token :: rest, spaced =>
      rcases spaced.of_cons with ⟨rest', rfl, _, later⟩ | ⟨mark, rest', rfl, marks, marks'⟩
      · dsimp only [Token.kind_moved]
        cases level.join? token.kind with
        | none => exact .ok rfl spaced
        | some join =>
            refine (agree_expressionAt _ rest rest' later).bind ?_
            intro second afterSecond h₁ afterSecond' h₁' leaves
            exact (agree_joined level _ afterSecond afterSecond' leaves).last (.ok rfl ⟨rfl, rfl⟩)
      · dsimp only
        rw [marks, marks', Level.join?_newline]
        exact .ok rfl spaced
termination_by 16 * tokens.length
decreasing_by
  all_goals
    have := level.tighter.height_le
    simp only [List.length_cons]
    omega

theorem agree_trailers (base : Expr) (tokens tokens' : List Token)
    (spaced : Spaced move tokens tokens') :
    Agree id (Spaced move) (trailers base tokens) (trailers base tokens') := by
  rw [trailers.eq_def base tokens, trailers.eq_def base tokens']
  match tokens, spaced with
  | [], spaced =>
      obtain rfl := spaced.eq_nil
      exact .ok rfl spaced
  | token :: rest, spaced =>
      rcases spaced.of_cons with ⟨rest', rfl, _, later⟩ | ⟨mark, rest', rfl, marks, marks'⟩
      · dsimp only [Token.kind_moved]
        split
        · refine (agree_arguments rest rest' later).bind ?_
          intro args afterArgs h₁ afterArgs' h₁' leaves
          refine (agree_expectPunct .rightParen leaves).bind ?_
          intro _ afterCall h₂ afterCall' h₂' leaves
          exact (agree_trailers _ afterCall afterCall' leaves).last (.ok rfl ⟨rfl, rfl⟩)
        · refine (agree_identifier .memberName later).bind ?_
          intro attr afterName h₁ afterName' h₁' leaves
          exact (agree_trailers _ afterName afterName' leaves).last (.ok rfl ⟨rfl, rfl⟩)
        · refine (agree_expressionAt .disjunction rest rest' later).bind ?_
          intro index afterIndex h₁ afterIndex' h₁' leaves
          refine (agree_expectPunct .rightBracket leaves).bind ?_
          intro _ afterBracket h₂ afterBracket' h₂' leaves
          exact (agree_trailers _ afterBracket afterBracket' leaves).last (.ok rfl ⟨rfl, rfl⟩)
        · exact .ok rfl spaced
      · dsimp only
        rw [marks, marks']
        exact .ok rfl spaced
termination_by 16 * tokens.length
decreasing_by
  all_goals simp only [Level.height, List.length_cons]
  all_goals omega

theorem agree_arguments (tokens tokens' : List Token)
    (spaced : Spaced move tokens tokens') :
    Agree id (Spaced move) (arguments tokens) (arguments tokens') := by
  rw [arguments.eq_def tokens, arguments.eq_def tokens', spaced.peek_eq]
  split
  · exact .ok rfl spaced
  · refine (agree_expressionAt .disjunction tokens tokens' spaced).bind ?_
    intro arg afterArg h₁ afterArg' h₁' leaves
    dsimp only
    refine leaves.eat_cases (.punct .comma) nofun (.ok rfl leaves) ?_
    intro token rest rest' h₂ h₂' later
    exact (agree_arguments rest rest' later).last (.ok rfl ⟨rfl, rfl⟩)
termination_by 16 * tokens.length + 9
decreasing_by
  all_goals try simp only [Level.height]
  all_goals omega

theorem agree_primary (tokens tokens' : List Token)
    (spaced : Spaced move tokens tokens') :
    Agree id (Spaced move) (primary tokens) (primary tokens') := by
  rw [primary.eq_def tokens, primary.eq_def tokens']
  match tokens, spaced with
  | [], spaced =>
      obtain rfl := spaced.eq_nil
      exact .error _ _
  | token :: rest, spaced =>
      rcases spaced.of_cons with ⟨rest', rfl, _, later⟩ | ⟨mark, rest', rfl, marks, marks'⟩
      · dsimp only [atom?_moved, Token.kind_moved]
        rcases atom? token with _ | refused | atom
        · dsimp only
          split
          · refine (agree_expressionAt .disjunction rest rest' later).bind ?_
            intro inner afterInner h₁ afterInner' h₁' leaves
            exact (agree_expectPunct .rightParen leaves).last (.ok rfl ⟨rfl, rfl⟩)
          · exact .error _ _
        · exact .error _ _
        · exact .ok rfl later
      · dsimp only
        rw [atom?_newline marks, atom?_newline marks']
        dsimp only
        rw [marks, marks']
        exact .error _ _
termination_by 16 * tokens.length
decreasing_by
  all_goals simp only [Level.height, List.length_cons]
  all_goals omega

end

/-- No expression starts with a line end. -/
theorem refused_expression (marks : mark.kind = .newline) (rest : List Token) :
    ∃ refusal, expression (mark :: rest) = .error refusal := by
  have atom : ∃ refusal, primary (mark :: rest) = .error refusal := by
    rw [primary.eq_def]
    dsimp only
    rw [atom?_newline marks]
    dsimp only
    rw [marks]
    exact ⟨_, rfl⟩
  -- A level is refused with the next tighter one.
  have step (level : Level) (later : ∃ refusal, expressionAt level.tighter (mark :: rest) =
      .error refusal) (level_ne : level ≠ .trailed) :
      ∃ refusal, expressionAt level (mark :: rest) = .error refusal := by
    obtain ⟨refusal, refused⟩ := later
    rw [expressionAt.eq_def]
    cases level with
    | negation =>
        have kept : eat? (.keyword .not_) (mark :: rest) = none := if_neg (by simp [marks])
        rw [kept]
        exact ⟨refusal, refused⟩
    | signed =>
        dsimp only
        rw [marks]
        exact ⟨refusal, refused⟩
    | trailed => exact absurd rfl level_ne
    | comparison | disjunction | conjunction | sum | product =>
        dsimp only [Level.tighter] at refused ⊢
        rw [refused]
        exact ⟨refusal, rfl⟩
  have trailed : ∃ refusal, expressionAt .trailed (mark :: rest) = .error refusal := by
    obtain ⟨refusal, refused⟩ := atom
    rw [expressionAt, refused]
    exact ⟨refusal, rfl⟩
  have product := step .product (step .signed trailed (by decide)) (by decide)
  have comparison := step .comparison (step .sum product (by decide)) (by decide)
  have conjunction := step .conjunction (step .negation comparison (by decide)) (by decide)
  exact step .disjunction conjunction (by decide)

theorem agree_expression (spaced : Spaced move tokens tokens') :
    Agree id (Spaced move) (expression tokens) (expression tokens') :=
  agree_expressionAt .disjunction tokens tokens' spaced

mutual

theorem agree_typeExpr (quoted : QuotedReader) (tokens tokens' : List Token)
    (spaced : Spaced move tokens tokens') :
    Agree id (Spaced move) (typeExpr quoted tokens) (typeExpr quoted tokens') := by
  rw [typeExpr.eq_def quoted tokens, typeExpr.eq_def quoted tokens']
  match tokens, spaced with
  | [], spaced =>
      obtain rfl := spaced.eq_nil
      exact .error _ _
  | token :: rest, spaced =>
      rcases spaced.of_cons with ⟨rest', rfl, _, later⟩ | ⟨mark, rest', rfl, marks, marks'⟩
      · dsimp only [Token.kind_moved, Token.text_moved]
        split
        · refine later.eat_cases (.punct .leftBracket) nofun (.ok rfl later) ?_
          intro opening inner inner' h₁ h₁' inside
          refine (agree_typeArguments quoted inner inner' inside).bind ?_
          intro args afterArgs h₂ afterArgs' h₂' leaves
          exact (agree_expectPunct .rightBracket leaves).last (.ok rfl ⟨rfl, rfl⟩)
        · exact .ok rfl later
        · cases quoted token.text with
          | ok written => exact .ok rfl later
          | error detail => exact .error _ _
        · refine (agree_typeExpr quoted rest rest' later).bind ?_
          intro first afterFirst h₁ afterFirst' h₁' leaves
          refine (agree_typeItems quoted afterFirst afterFirst' leaves).bind ?_
          intro others afterItems h₂ afterItems' h₂' leaves
          exact (agree_expectPunct .rightParen leaves).last (.ok rfl ⟨rfl, rfl⟩)
        · exact .error _ _
      · dsimp only
        rw [marks, marks']
        exact .error _ _
termination_by 2 * tokens.length

theorem agree_typeArguments (quoted : QuotedReader) (tokens tokens' : List Token)
    (spaced : Spaced move tokens tokens') :
    Agree id (Spaced move) (typeArguments quoted tokens) (typeArguments quoted tokens') := by
  rw [typeArguments.eq_def quoted tokens, typeArguments.eq_def quoted tokens']
  refine Agree.bind (?_ : Agree id (Spaced move) _ _) ?_
  · refine spaced.eat_cases .number nofun (agree_typeExpr quoted tokens tokens' spaced) ?_
    intro token rest rest' h h' later
    dsimp only [Token.text_moved]
    cases Number.size? token.text with
    | some count => exact .ok rfl later
    | none => exact .error _ _
  · intro arg afterArg h₁ afterArg' h₁' leaves
    dsimp only
    refine leaves.eat_cases (.punct .comma) nofun (.ok rfl leaves) ?_
    intro token rest rest' h₂ h₂' later
    exact (agree_typeArguments quoted rest rest' later).last (.ok rfl ⟨rfl, rfl⟩)
termination_by 2 * tokens.length + 1

theorem agree_typeItems (quoted : QuotedReader) (tokens tokens' : List Token)
    (spaced : Spaced move tokens tokens') :
    Agree id (Spaced move) (typeItems quoted tokens) (typeItems quoted tokens') := by
  rw [typeItems.eq_def quoted tokens, typeItems.eq_def quoted tokens']
  refine spaced.eat_cases (.punct .comma) nofun (.ok rfl spaced) ?_
  intro token rest rest' h₁ h₁' later
  dsimp only
  rw [later.peek_eq]
  split
  · exact .ok rfl later
  · refine (agree_typeExpr quoted rest rest' later).bind ?_
    intro item afterItem h₂ afterItem' h₂' leaves
    exact (agree_typeItems quoted afterItem afterItem' leaves).last (.ok rfl ⟨rfl, rfl⟩)
termination_by 2 * tokens.length

end

theorem Loose.of_spaced (spaced : Spaced move tokens tokens') :
    Loose move tokens tokens' := spaced.skipNewlines

/-- The end of a simple statement takes one line end, and may leave another. -/
theorem agree_statementEnd (spaced : Spaced move tokens tokens') :
    Agree id (Loose move) (statementEnd tokens) (statementEnd tokens') := by
  have remains : Agree id (Loose move)
      (if endsStatement (peek tokens) then .ok ⟨(), tokens, length_lt_succ tokens⟩
        else refuse tokens (.expected .statementEnd) : Outcome Unit (tokens.length + 1))
      (if endsStatement (peek tokens') then .ok ⟨(), tokens', length_lt_succ tokens'⟩
        else refuse tokens' (.expected .statementEnd) : Outcome Unit (tokens'.length + 1)) := by
    rw [spaced.peek_eq]
    split
    · exact .ok rfl (.of_spaced spaced)
    · exact .error _ _
  rw [statementEnd, statementEnd]
  cases tokens with
  | nil =>
      obtain rfl := spaced.eq_nil
      exact remains
  | cons token rest =>
      rcases spaced.of_cons with ⟨rest', rfl, isWord, later⟩ | ⟨mark, rest', rfl, marks, marks'⟩
      · have kept : eat? .newline (token :: rest) = none := if_neg isWord
        have kept' : eat? .newline (token.moved move :: rest') = none := if_neg isWord
        rw [kept, kept']
        simp only [Option.orElse_eq_orElse, Option.orElse_eq_or, Option.none_or]
        refine spaced.eat_cases (.punct .semicolon) (by decide) remains ?_
        intro _ left left' h h' leaves
        exact .ok rfl (.of_spaced leaves)
      · have taken : eat? .newline (token :: rest) = some ⟨token, rest, length_lt_cons _ _⟩ :=
          if_pos marks
        have taken' : eat? .newline (mark :: rest') = some ⟨mark, rest', length_lt_cons _ _⟩ :=
          if_pos marks'
        rw [taken, taken']
        exact .ok rfl (spaced.after_newline marks marks')

theorem agree_typeExprAfter (mark : Punct) (spaced : Spaced move tokens tokens') :
    Agree id (Spaced move) (typeExprAfter mark tokens) (typeExprAfter mark tokens') := by
  rw [typeExprAfter, typeExprAfter]
  refine spaced.eat_cases (.punct mark) nofun (.ok rfl spaced) ?_
  intro token rest rest' h₁ h₁' later
  exact (agree_typeExpr quotedType rest rest' later).last (.ok rfl ⟨rfl, rfl⟩)

theorem agree_parameters (tokens tokens' : List Token) (spaced : Spaced move tokens tokens') :
    Agree (List.map (Parameter.moved move)) (Spaced move) (parameters tokens)
      (parameters tokens') := by
  rw [parameters.eq_def tokens, parameters.eq_def tokens', spaced.peek_eq]
  split
  · exact .ok rfl spaced
  · refine (agree_expect .identifier .parameterName nofun spaced).bind ?_
    intro name afterName h₁ afterName' h₁' leaves
    refine (agree_typeExprAfter .colon leaves).bind ?_
    intro written afterParam h₂ afterParam' h₂' leaves
    dsimp only
    refine leaves.eat_cases (.punct .comma) nofun (.ok rfl leaves) ?_
    intro token rest rest' h₃ h₃' later
    exact (agree_parameters rest rest' later).last (.ok rfl ⟨rfl, rfl⟩)
termination_by tokens.length

theorem agree_dottedRest (what : Expected) (tokens tokens' : List Token)
    (spaced : Spaced move tokens tokens') :
    Agree id (Spaced move) (dottedRest what tokens) (dottedRest what tokens') := by
  rw [dottedRest.eq_def what tokens, dottedRest.eq_def what tokens']
  refine spaced.eat_cases (.punct .dot) nofun (.ok rfl spaced) ?_
  intro token rest rest' h₁ h₁' later
  refine (agree_identifier what later).bind ?_
  intro part afterPart h₂ afterPart' h₂' leaves
  exact (agree_dottedRest what afterPart afterPart' leaves).last (.ok rfl ⟨rfl, rfl⟩)
termination_by tokens.length

theorem agree_dotted (what : Expected) (spaced : Spaced move tokens tokens') :
    Agree id (Spaced move) (dotted what tokens) (dotted what tokens') := by
  rw [dotted, dotted]
  refine (agree_identifier what spaced).bind ?_
  intro part afterPart h₁ afterPart' h₁' leaves
  exact (agree_dottedRest what afterPart afterPart' leaves).last (.ok rfl ⟨rfl, rfl⟩)

theorem agree_bases (tokens tokens' : List Token) (spaced : Spaced move tokens tokens') :
    Agree id (Spaced move) (bases tokens) (bases tokens') := by
  rw [bases.eq_def tokens, bases.eq_def tokens', spaced.peek_eq]
  split
  · exact .ok rfl spaced
  · refine (agree_dotted .baseName spaced).bind ?_
    intro parts afterBase h₁ afterBase' h₁' leaves
    dsimp only
    refine leaves.eat_cases (.punct .comma) nofun (.ok rfl leaves) ?_
    intro token rest rest' h₂ h₂' later
    exact (agree_bases rest rest' later).last (.ok rfl ⟨rfl, rfl⟩)
termination_by tokens.length

theorem agree_basesBetween (spaced : Spaced move tokens tokens') :
    Agree id (Spaced move) (basesBetween tokens) (basesBetween tokens') := by
  rw [basesBetween, basesBetween]
  refine spaced.eat_cases (.punct .leftParen) nofun (.ok rfl spaced) ?_
  intro token rest rest' h₁ h₁' later
  refine (agree_bases rest rest' later).bind ?_
  intro names afterNames h₂ afterNames' h₂' leaves
  exact (agree_expectPunct .rightParen leaves).last (.ok rfl ⟨rfl, rfl⟩)

theorem agree_importedNames (tokens tokens' : List Token) (spaced : Spaced move tokens tokens') :
    Agree id (Spaced move) (importedNames tokens) (importedNames tokens') := by
  rw [importedNames.eq_def tokens, importedNames.eq_def tokens']
  refine (agree_identifier .importedName spaced).bind ?_
  intro name afterName h₁ afterName' h₁' leaves
  dsimp only
  refine leaves.eat_cases (.punct .comma) nofun (.ok rfl leaves) ?_
  intro token rest rest' h₂ h₂' later
  exact (agree_importedNames rest rest' later).last (.ok rfl ⟨rfl, rfl⟩)
termination_by tokens.length

theorem agree_importList (selective : Bool) (spaced : Spaced move tokens tokens') :
    Agree id (Spaced move) (importList selective tokens) (importList selective tokens') := by
  rw [importList, importList]
  split
  · refine (agree_expectKeyword .import_ spaced).bind ?_
    intro _ afterImport h₁ afterImport' h₁' leaves
    exact (agree_importedNames afterImport afterImport' leaves).last (.ok rfl ⟨rfl, rfl⟩)
  · exact .ok rfl spaced

theorem agree_importForm (selective : Bool) (spaced : Spaced move tokens tokens') :
    Agree (Form.moved move) (Loose move) (importForm selective tokens)
      (importForm selective tokens') := by
  rw [importForm, importForm]
  refine (agree_dotted .moduleName spaced).bind ?_
  intro path afterPath h₁ afterPath' h₁' leaves
  refine (agree_importList selective leaves).bind ?_
  intro names afterNames h₂ afterNames' h₂' leaves
  exact (agree_statementEnd leaves).last (.ok rfl ⟨rfl, rfl⟩)

theorem agree_assignedValue (spaced : Spaced move tokens tokens') :
    Agree id (Spaced move) (assignedValue tokens) (assignedValue tokens') := by
  rw [assignedValue, assignedValue]
  refine spaced.eat_cases (.punct .assign) nofun (.ok rfl spaced) ?_
  intro token rest rest' h₁ h₁' later
  exact (agree_expression later).last (.ok rfl ⟨rfl, rfl⟩)

theorem agree_plainForm (spaced : Spaced move tokens tokens') :
    Agree (Form.moved move) (Loose move) (plainForm tokens) (plainForm tokens') := by
  rw [plainForm.eq_def, plainForm.eq_def]
  refine (agree_expression spaced).bind ?_
  intro target afterTarget h₁ afterTarget' h₁' leaves
  refine (agree_typeExprAfter .colon leaves).bind ?_
  intro written afterType h₂ afterType' h₂' leaves
  refine (agree_assignedValue leaves).bind ?_
  intro value afterValue h₃ afterValue' h₃' leaves
  refine (agree_statementEnd leaves).bind ?_
  intro _ left h₄ left' h₄' leaves
  rcases written with _ | written
  · rcases value with _ | value
    · exact .ok rfl leaves
    · exact .ok rfl leaves
  · exact .ok rfl leaves

theorem refused_statementForm (marks : mark.kind = .newline) (label : Option String)
    (rest : List Token) : ∃ refusal, statementForm label mark rest = .error refusal := by
  obtain ⟨refusal, refused⟩ := refused_expression marks rest
  rw [statementForm.eq_def, marks, plainForm, refused]
  exact ⟨refusal, rfl⟩

theorem agree_returnedValue (spaced : Spaced move tokens tokens') :
    Agree id (Spaced move) (returnedValue tokens) (returnedValue tokens') := by
  rw [returnedValue, returnedValue, spaced.peek_eq]
  split
  · exact .ok rfl spaced
  · exact (agree_expression spaced).last (.ok rfl ⟨rfl, rfl⟩)

theorem agree_casePattern (spaced : Spaced move tokens tokens') :
    Agree id (Spaced move) (casePattern tokens) (casePattern tokens') := by
  have value : Agree id (Spaced move)
      (do let parsed ← expression tokens
          return ⟨.value parsed.value, parsed.rest, parsed.shorter⟩ : Outcome Pattern _)
      (do let parsed ← expression tokens'
          return ⟨.value parsed.value, parsed.rest, parsed.shorter⟩ : Outcome Pattern _) :=
    (agree_expression spaced).last (.ok rfl ⟨rfl, rfl⟩)
  rw [casePattern, casePattern]
  refine spaced.eat_cases .identifier (by decide) value ?_
  intro token rest rest' h₁ h₁' later
  dsimp only
  have same : ((token.moved move).text = "_" && peek rest' = .punct .colon) =
      (token.text = "_" && peek rest = .punct .colon) := by
    rw [later.peek_eq]
    rfl
  rw [same]
  cases token.text = "_" && peek rest = .punct .colon with
  | true => exact .ok rfl later
  | false => exact value

theorem agree_blockStart (what : Expected) (spaced : Spaced move tokens tokens') :
    Agree id (Spaced move) (blockStart what tokens) (blockStart what tokens') := by
  rw [blockStart, blockStart]
  refine (agree_expectPunct .colon spaced).bind ?_
  intro _ afterColon h₁ afterColon' h₁' leaves
  refine (agree_expect .indent what nofun leaves.skipNewlines).bind ?_
  intro _ afterIndent h₂ afterIndent' h₂' leaves
  exact .ok rfl leaves.skipNewlines

/-- A label stands on a line of its own. -/
theorem splitLabel_of_word {literal next : Token} (isWord : next.kind ≠ .newline) :
    splitLabel (literal :: next :: rest) = (none, literal :: next :: rest) := by
  simp [splitLabel, isWord]

theorem splitLabel_of_lineEnd {literal next : Token} (ends : next.kind = .newline) :
    splitLabel (literal :: next :: rest) =
      if literal.kind = .string ∧ takesLabel (peek (skipNewlines rest)) then
        (some literal.text, skipNewlines rest)
      else (none, literal :: next :: rest) := by
  simp [splitLabel, ends]

theorem splitLabel_of_newline (marks : mark.kind = .newline) :
    splitLabel (mark :: rest) = (none, mark :: rest) := by
  cases rest with
  | nil => rfl
  | cons next rest => simp [splitLabel, marks]

theorem spaced_splitLabel (spaced : Spaced move tokens tokens') :
    (splitLabel tokens').1 = (splitLabel tokens).1 ∧
      Spaced move (splitLabel tokens).2 (splitLabel tokens').2 := by
  cases tokens with
  | nil =>
      obtain rfl := spaced.eq_nil
      exact ⟨rfl, spaced⟩
  | cons literal others =>
      rcases spaced.of_cons with ⟨others', rfl, _, later⟩ | ⟨mark, others', rfl, marks, marks'⟩
      · cases others with
        | nil =>
            obtain rfl := later.eq_nil
            exact ⟨rfl, spaced⟩
        | cons lineEnd rest =>
            rcases later.of_cons with ⟨rest', rfl, isWord, _⟩ | ⟨mark, rest', rfl, marks, marks'⟩
            · have isWord' : (lineEnd.moved move).kind ≠ .newline := isWord
              rw [splitLabel_of_word isWord, splitLabel_of_word isWord']
              exact ⟨rfl, spaced⟩
            · have following := later.after_newline marks marks'
              rw [splitLabel_of_lineEnd marks, splitLabel_of_lineEnd marks', following.peek_eq,
                Token.kind_moved]
              split
              · exact ⟨rfl, following⟩
              · exact ⟨rfl, spaced⟩
      · rw [splitLabel_of_newline marks, splitLabel_of_newline marks']
        exact ⟨rfl, spaced⟩

/-! ## Statements -/

mutual

theorem agree_statement (tokens tokens' : List Token) (spaced : Spaced move tokens tokens') :
    Agree (Statement.moved move) (Loose move) (statement tokens) (statement tokens') := by
  obtain ⟨label, leaves⟩ := spaced_splitLabel spaced
  rw [statement.eq_def tokens, statement.eq_def tokens']
  dsimp only
  split
  · rename_i none
    rw [none] at leaves
    split
    · exact .error _ _
    · rename_i some
      rw [some] at leaves
      exact nomatch leaves
  · rename_i token rest first
    rw [first] at leaves
    have shorter : rest.length < tokens.length := by
      have unlabelled := length_splitLabel_le tokens
      rwa [first, List.length_cons] at unlabelled
    split
    · rename_i none
      rw [none] at leaves
      exact nomatch leaves
    · rename_i token' rest' first'
      rw [first'] at leaves
      rw [label]
      rcases leaves.of_cons with ⟨_, isSame, _⟩ | ⟨_, _, isSame, marks, marks'⟩
      · obtain ⟨rfl, rfl⟩ := List.cons.inj isSame
        exact (agree_statementForm _ token rest _ rest' leaves).last (.ok rfl ⟨rfl, rfl⟩)
      · obtain ⟨rfl, rfl⟩ := List.cons.inj isSame
        obtain ⟨refusal, refused⟩ := refused_statementForm marks (splitLabel tokens).1 rest
        obtain ⟨refusal', refused'⟩ := refused_statementForm marks' (splitLabel tokens).1 rest'
        rw [refused, refused']
        exact .error refusal refusal'
termination_by 4 * tokens.length

theorem agree_statementForm (label : Option String) (token : Token) (rest : List Token)
    (token' : Token) (rest' : List Token) (spaced : Spaced move (token :: rest) (token' :: rest')) :
    Agree (Form.moved move) (Loose move) (statementForm label token rest)
      (statementForm label token' rest') := by
  rw [statementForm.eq_def label token rest, statementForm.eq_def label token' rest']
  rcases spaced.of_cons with ⟨_, isSame, _, later⟩ | ⟨mark, _, isSame, marks, marks'⟩
  · obtain ⟨rfl, rfl⟩ := List.cons.inj isSame
    dsimp only [Token.kind_moved]
    split
    · refine (agree_identifier .functionName later).bind ?_
      intro name afterName h₁ afterName' h₁' leaves
      refine (agree_expectPunct .leftParen leaves).bind ?_
      intro _ afterParen h₂ afterParen' h₂' leaves
      refine (agree_parameters afterParen afterParen' leaves).bind ?_
      intro params afterParams h₃ afterParams' h₃' leaves
      refine (agree_expectPunct .rightParen leaves).bind ?_
      intro _ afterHead h₄ afterHead' h₄' leaves
      refine (agree_typeExprAfter .arrow leaves).bind ?_
      intro returns afterReturns h₅ afterReturns' h₅' leaves
      refine (agree_block afterReturns afterReturns' leaves).bind ?_
      intro body left h₆ left' h₆' leaves
      exact .ok rfl (.of_spaced leaves)
    · refine (agree_identifier .className later).bind ?_
      intro name afterName h₁ afterName' h₁' leaves
      refine (agree_basesBetween leaves).bind ?_
      intro names afterBases h₂ afterBases' h₂' leaves
      refine (agree_block afterBases afterBases' leaves).bind ?_
      intro body left h₃ left' h₃' leaves
      refine .ok ?_ (.of_spaced leaves)
      simp only [Form.moved, id_eq, ClassDef.kindOf_moved]
    · refine (agree_branch rest rest' later).bind ?_
      intro form left h₁ left' h₁' leaves
      exact .ok rfl (.of_spaced leaves)
    · refine (agree_expression later).bind ?_
      intro test afterTest h₁ afterTest' h₁' leaves
      refine (agree_block afterTest afterTest' leaves).bind ?_
      intro body left h₂ left' h₂' leaves
      exact .ok rfl (.of_spaced leaves)
    · refine (agree_identifier .loopVariable later).bind ?_
      intro target afterTarget h₁ afterTarget' h₁' leaves
      refine (agree_expectKeyword .in_ leaves).bind ?_
      intro _ afterIn h₂ afterIn' h₂' leaves
      refine (agree_expression leaves).bind ?_
      intro iter afterIter h₃ afterIter' h₃' leaves
      refine (agree_block afterIter afterIter' leaves).bind ?_
      intro body left h₄ left' h₄' leaves
      exact .ok rfl (.of_spaced leaves)
    · refine (agree_expression later).bind ?_
      intro subject afterSubject h₁ afterSubject' h₁' leaves
      refine (agree_blockStart .caseBlock leaves).bind ?_
      intro _ within h₂ within' h₂' leaves
      refine (agree_cases within within' leaves).bind ?_
      intro arms afterArms h₃ afterArms' h₃' leaves
      dsimp only
      cases arms with
      | nil => exact .error _ _
      | cons arm arms =>
          obtain ⟨pattern, body, line⟩ := arm
          rw [if_neg nofun, if_neg nofun]
          refine (agree_expect .dedent .caseBlockEnd nofun leaves).bind ?_
          intro _ left h₄ left' h₄' leaves
          exact .ok rfl (.of_spaced leaves)
    · refine (agree_returnedValue later).bind ?_
      intro value afterValue h₁ afterValue' h₁' leaves
      exact (agree_statementEnd leaves).last (.ok rfl ⟨rfl, rfl⟩)
    · exact (agree_statementEnd later).last (.ok rfl ⟨rfl, rfl⟩)
    · exact (agree_statementEnd later).last (.ok rfl ⟨rfl, rfl⟩)
    · exact (agree_statementEnd later).last (.ok rfl ⟨rfl, rfl⟩)
    · exact (agree_importForm false later).last (.ok rfl ⟨rfl, rfl⟩)
    · exact (agree_importForm true later).last (.ok rfl ⟨rfl, rfl⟩)
    · exact agree_plainForm spaced
  · obtain ⟨rfl, rfl⟩ := List.cons.inj isSame
    rw [marks, marks']
    exact agree_plainForm spaced
termination_by 4 * rest.length + 3

theorem agree_branch (tokens tokens' : List Token) (spaced : Spaced move tokens tokens') :
    Agree (Form.moved move) (Spaced move) (branch tokens) (branch tokens') := by
  rw [branch.eq_def tokens, branch.eq_def tokens']
  refine (agree_expression spaced).bind ?_
  intro test afterTest h₁ afterTest' h₁' leaves
  refine (agree_block afterTest afterTest' leaves).bind ?_
  intro body afterBody h₂ afterBody' h₂' leaves
  dsimp only
  refine leaves.eat_cases (.keyword .elif_) nofun ?_ ?_
  · dsimp only
    refine leaves.eat_cases (.keyword .else_) nofun (.ok rfl leaves) ?_
    intro token rest rest' h₃ h₃' later
    exact (agree_block rest rest' later).last (.ok rfl ⟨rfl, rfl⟩)
  · intro token rest rest' h₃ h₃' later
    exact (agree_branch rest rest' later).last (.ok rfl ⟨rfl, rfl⟩)
termination_by 4 * tokens.length

theorem agree_block (tokens tokens' : List Token) (spaced : Spaced move tokens tokens') :
    Agree (movedBody move) (Spaced move) (block tokens) (block tokens') := by
  rw [block.eq_def tokens, block.eq_def tokens']
  refine (agree_blockStart .block spaced).bind ?_
  intro _ inside h₁ inside' h₁' leaves
  refine (agree_blockBody inside inside' leaves).bind ?_
  intro body afterBody h₂ afterBody' h₂' leaves
  exact (agree_expect .dedent .blockEnd nofun leaves).last (.ok rfl ⟨rfl, rfl⟩)
termination_by 4 * tokens.length

theorem agree_blockBody (tokens tokens' : List Token) (spaced : Spaced move tokens tokens') :
    Agree (movedBody move) (Spaced move) (blockBody tokens) (blockBody tokens') := by
  rw [blockBody.eq_def tokens, blockBody.eq_def tokens', spaced.peek_eq]
  split
  · exact .ok rfl spaced
  · refine (agree_statement tokens tokens' spaced).bind ?_
    intro first afterFirst h₁ afterFirst' h₁' leaves
    have shorter := length_skipNewlines_le afterFirst
    refine (agree_blockBody (skipNewlines afterFirst) (skipNewlines afterFirst') leaves).bind ?_
    intro others left h₂ left' h₂' leaves
    exact .ok (movedBody_cons move first others).symm leaves
termination_by 4 * tokens.length + 1

theorem agree_cases (tokens tokens' : List Token) (spaced : Spaced move tokens tokens') :
    Agree (movedCases move) (Spaced move) (cases tokens) (cases tokens') := by
  rw [cases.eq_def tokens, cases.eq_def tokens']
  refine spaced.eat_cases (.keyword .case_) nofun (.ok rfl spaced) ?_
  intro token rest rest' h₁ h₁' later
  refine (agree_casePattern later).bind ?_
  intro pattern afterPattern h₂ afterPattern' h₂' leaves
  refine (agree_block afterPattern afterPattern' leaves).bind ?_
  intro body afterBody h₃ afterBody' h₃' leaves
  have shorter := length_skipNewlines_le afterBody
  exact (agree_cases (skipNewlines afterBody) (skipNewlines afterBody')
    leaves.skipNewlines).last (.ok rfl ⟨rfl, rfl⟩)
termination_by 4 * tokens.length

end

end Grammar

end Offside
