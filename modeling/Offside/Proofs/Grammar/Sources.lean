import Offside.Proofs.Grammar.PrintingTaken

/-!
# What sources are made of

Whatever a statement is read off stands among the tokens of the source. So every literal in it, at
any depth, is denoted by a token, and the components of an imported path are identifiers.
-/

namespace Offside

mutual

def Expr.literals : Expr → List Constant
  | .name _ => []
  | .constant value => [value]
  | .binary _ left right | .compare _ left right | .logical _ left right
  | .subscript left right => left.literals ++ right.literals
  | .unary _ operand | .member operand _ => operand.literals
  | .call callee args => callee.literals ++ literalsIn args

def literalsIn : List Expr → List Constant
  | [] => []
  | expr :: exprs => expr.literals ++ literalsIn exprs

end

def Phrase.literals : Phrase → List Constant
  | .expression _ expr => expr.literals
  | .arguments args => literalsIn args

/-- Literals of two parts that are printed within a slice. -/
theorem exists_token_of_append {stands : Token → Constant → Prop} {first second : List Constant}
    {before after slice : List Token}
    (early : ∀ value ∈ first, ∃ token ∈ before, stands token value)
    (late : ∀ value ∈ second, ∃ token ∈ after, stands token value)
    (within : ∀ token, token ∈ before ∨ token ∈ after → token ∈ slice) :
    ∀ value ∈ first ++ second, ∃ token ∈ slice, stands token value := by
  intro value member
  rcases List.mem_append.mp member with isFirst | isSecond
  · obtain ⟨token, isToken, denotes⟩ := early value isFirst
    exact ⟨token, within token (.inl isToken), denotes⟩
  · obtain ⟨token, isToken, denotes⟩ := late value isSecond
    exact ⟨token, within token (.inr isToken), denotes⟩

theorem Printed.exists_token {stands : Token → Constant → Prop} {phrase : Phrase}
    {slice : List Token} (printed : Printed stands phrase slice) :
    ∀ value ∈ phrase.literals, ∃ token ∈ slice, stands token value := by
  induction printed with
  | name => exact nofun
  | @constant _ value token denotes =>
      rintro _ (_ | ⟨_, ⟨⟩⟩)
      exact ⟨token, List.mem_singleton_self token, denotes⟩
  | joined op _ _ _ _ first second =>
      cases op <;> exact exists_token_of_append first second (by grind)
  | compared _ _ _ _ _ first second =>
      exact exists_token_of_append first second (by grind)
  | under _ _ _ _ inner =>
      intro value member
      obtain ⟨token, isToken, denotes⟩ := inner value member
      exact ⟨token, List.mem_cons_of_mem _ isToken, denotes⟩
  | call _ _ _ _ first inner => exact exists_token_of_append first inner (by grind)
  | member _ _ _ _ first =>
      intro value member
      obtain ⟨token, isToken, denotes⟩ := first value member
      exact ⟨token, List.mem_append_left _ isToken, denotes⟩
  | subscript _ _ _ _ first inner => exact exists_token_of_append first inner (by grind)
  | enclosed _ _ _ inner =>
      intro value member
      obtain ⟨token, isToken, denotes⟩ := inner value member
      exact ⟨token, by simp [isToken], denotes⟩
  | noArguments => exact nofun
  | lastArgument _ first =>
      intro value member
      exact first value (by simpa [Phrase.literals, literalsIn] using member)
  | argument _ _ _ first further =>
      exact exists_token_of_append first further (by grind)

namespace Grammar

/-- Whether tokens of a source denote the literals of an expression. -/
def ExprFrom (source : List Token) (expr : Expr) : Prop :=
  ∀ value ∈ expr.literals, ∃ token ∈ source, token.Denotes value

def PatternFrom (source : List Token) : Pattern → Prop
  | .wildcard => True
  | .value expr => ExprFrom source expr

mutual

/-- Whether tokens of a source denote the literals and paths in a statement. -/
def FormFrom (source : List Token) : Form → Prop
  | .function ⟨_, _, _, body⟩ => BodyFrom source body
  | .classDef ⟨_, _, _, body⟩ => BodyFrom source body
  | .assign target value => ExprFrom source target ∧ ExprFrom source value
  | .declare target _ value => ExprFrom source target ∧ ∀ expr ∈ value, ExprFrom source expr
  | .branch test body orelse =>
      ExprFrom source test ∧ BodyFrom source body ∧ BodyFrom source orelse
  | .whileLoop test body _ => ExprFrom source test ∧ BodyFrom source body
  | .forLoop _ iter body _ => ExprFrom source iter ∧ BodyFrom source body
  | .jump _ _ => True
  | .ret value => ∀ expr ∈ value, ExprFrom source expr
  | .expr value => ExprFrom source value
  | .pass => True
  | .select subject cases => ExprFrom source subject ∧ CasesFrom source cases
  | .import_ request => ∀ part ∈ request.path, IsName source part

def BodyFrom (source : List Token) : List Statement → Prop
  | [] => True
  | ⟨_, form⟩ :: others => FormFrom source form ∧ BodyFrom source others

def CasesFrom (source : List Token) : List Case → Prop
  | [] => True
  | ⟨pattern, body, _⟩ :: others =>
      PatternFrom source pattern ∧ BodyFrom source body ∧ CasesFrom source others

end

variable {source : List Token}

/-- A statement of a body is made of the same tokens. -/
theorem BodyFrom.formFrom {body : List Statement} (isFrom : BodyFrom source body)
    {statement : Statement} (member : statement ∈ body) : FormFrom source statement.form := by
  induction body with
  | nil => cases member
  | cons first others induction =>
      obtain ⟨line, form⟩ := first
      rw [BodyFrom] at isFrom
      rcases List.mem_cons.mp member with rfl | later
      · exact isFrom.1
      · exact induction isFrom.2 later

theorem takes_expression (tokens : List Token) (inside : tokens <:+ source) :
    Takes tokens (ExprFrom source) (expression tokens) := by
  refine (printed_expressionAt .disjunction tokens).takes fun expr slice taken printed => ?_
  intro value member
  obtain ⟨token, isToken, denotes⟩ := printed.exists_token value member
  exact ⟨token, inside.mem (taken.mem isToken), denotes⟩

theorem suffix_splitLabel (tokens : List Token) : (splitLabel tokens).2 <:+ tokens := by
  unfold splitLabel
  split
  · dsimp only
    split
    · exact (suffix_skipNewlines _).trans ((List.suffix_cons _ _).trans (List.suffix_cons _ _))
    · exact List.suffix_rfl
  · exact List.suffix_rfl

theorem leaves_statementEnd (tokens : List Token) : Leaves tokens (statementEnd tokens) := by
  rw [statementEnd]
  cases eaten : eat? .newline tokens with
  | some parsed => exact .ok (suffix_of_eat? eaten) trivial
  | none =>
      cases eatenMark : eat? (.punct .semicolon) tokens with
      | some parsed => exact .ok (suffix_of_eat? eatenMark) trivial
      | none =>
          change Leaves tokens (if endsStatement (peek tokens) then _ else _)
          split
          · exact .ok List.suffix_rfl trivial
          · exact .error _ _

theorem leaves_typeExprAfter (mark : Punct) (tokens : List Token) :
    Leaves tokens (typeExprAfter mark tokens) := by
  rw [typeExprAfter]
  cases eaten : eat? (.punct mark) tokens with
  | none => exact .ok List.suffix_rfl trivial
  | some parsed =>
      exact ((leaves_typeExpr quotedType parsed.rest).of_suffix (suffix_of_eat? eaten)).bind
        fun _ suffix _ => .ok suffix trivial

theorem leaves_parameters (tokens : List Token) : Leaves tokens (parameters tokens) := by
  rw [parameters]
  split
  · exact .ok List.suffix_rfl trivial
  · refine (leaves_expect _ _ tokens).bind ?_
    rintro ⟨name, afterName, h₁⟩ suffix _
    refine ((leaves_typeExprAfter .colon afterName).of_suffix suffix).bind ?_
    rintro ⟨written, afterParam, h₂⟩ suffix _
    dsimp only
    cases eaten : eat? (.punct .comma) afterParam with
    | none => exact .ok suffix trivial
    | some parsed =>
        obtain ⟨_, rest, h₃⟩ := parsed
        exact ((leaves_parameters rest).of_suffix ((suffix_of_eat? eaten).trans suffix)).bind
          fun _ suffix _ => .ok suffix trivial
termination_by tokens.length

theorem takes_dottedRest (what : Expected) (tokens : List Token) :
    Takes tokens (fun parts => ∀ part ∈ parts, IsName tokens part) (dottedRest what tokens) := by
  rw [dottedRest]
  cases eaten : eat? (.punct .dot) tokens with
  | none => exact .ok List.suffix_rfl nofun
  | some parsed =>
      obtain ⟨_, rest, h₁⟩ := parsed
      have inside := suffix_of_eat? eaten
      refine ((takes_identifier what rest).of_suffix inside).bind ?_
      rintro ⟨part, afterPart, h₂⟩ suffix isName
      refine ((takes_dottedRest what afterPart).of_suffix suffix).bind ?_
      rintro ⟨parts, left, h₃⟩ leaves areNames
      refine .ok leaves (List.forall_mem_cons.mpr ⟨isName.of_suffix inside, ?_⟩)
      exact fun other member => (areNames other member).of_suffix suffix
termination_by tokens.length

theorem takes_dotted (what : Expected) (tokens : List Token) :
    Takes tokens (fun parts => ∀ part ∈ parts, IsName tokens part) (dotted what tokens) := by
  rw [dotted]
  refine (takes_identifier what tokens).bind ?_
  rintro ⟨part, afterPart, h₁⟩ suffix isName
  refine ((takes_dottedRest what afterPart).of_suffix suffix).bind ?_
  rintro ⟨parts, left, h₂⟩ leaves areNames
  refine .ok leaves (List.forall_mem_cons.mpr ⟨isName, ?_⟩)
  exact fun other member => (areNames other member).of_suffix suffix

theorem leaves_bases (tokens : List Token) : Leaves tokens (bases tokens) := by
  rw [bases]
  split
  · exact .ok List.suffix_rfl trivial
  · refine (takes_dotted .baseName tokens).bind ?_
    rintro ⟨parts, afterBase, h₁⟩ suffix _
    dsimp only
    cases eaten : eat? (.punct .comma) afterBase with
    | none => exact .ok suffix trivial
    | some parsed =>
        obtain ⟨_, rest, h₂⟩ := parsed
        exact ((leaves_bases rest).of_suffix ((suffix_of_eat? eaten).trans suffix)).bind
          fun _ suffix _ => .ok suffix trivial
termination_by tokens.length

theorem leaves_basesBetween (tokens : List Token) : Leaves tokens (basesBetween tokens) := by
  rw [basesBetween]
  cases eaten : eat? (.punct .leftParen) tokens with
  | none => exact .ok List.suffix_rfl trivial
  | some parsed =>
      refine ((leaves_bases parsed.rest).of_suffix (suffix_of_eat? eaten)).bind ?_
      rintro ⟨names, afterNames, h₂⟩ suffix _
      exact ((leaves_expect _ _ afterNames).of_suffix suffix).bind
        fun _ suffix _ => .ok suffix trivial

theorem leaves_importedNames (tokens : List Token) : Leaves tokens (importedNames tokens) := by
  rw [importedNames]
  refine (takes_identifier _ tokens).bind ?_
  rintro ⟨name, afterName, h₁⟩ suffix _
  dsimp only
  cases eaten : eat? (.punct .comma) afterName with
  | none => exact .ok suffix trivial
  | some parsed =>
      obtain ⟨_, rest, h₂⟩ := parsed
      exact ((leaves_importedNames rest).of_suffix ((suffix_of_eat? eaten).trans suffix)).bind
        fun _ suffix _ => .ok suffix trivial
termination_by tokens.length

theorem leaves_importList (selective : Bool) (tokens : List Token) :
    Leaves tokens (importList selective tokens) := by
  rw [importList]
  split
  · refine (leaves_expect _ _ tokens).bind ?_
    rintro ⟨_, afterImport, h₁⟩ suffix _
    exact ((leaves_importedNames afterImport).of_suffix suffix).bind
      fun _ suffix _ => .ok suffix trivial
  · exact .ok List.suffix_rfl trivial

theorem takes_importForm (selective : Bool) (tokens : List Token) (inside : tokens <:+ source) :
    Takes tokens (FormFrom source) (importForm selective tokens) := by
  rw [importForm]
  refine (takes_dotted _ tokens).bind ?_
  rintro ⟨path, afterPath, h₁⟩ suffix areNames
  refine ((leaves_importList selective afterPath).of_suffix suffix).bind ?_
  rintro ⟨names, afterNames, h₂⟩ suffix _
  refine ((leaves_statementEnd afterNames).of_suffix suffix).bind fun _ suffix _ => .ok suffix ?_
  rw [FormFrom]
  exact fun part member => (areNames part member).of_suffix inside

theorem takes_assignedValue (tokens : List Token) (inside : tokens <:+ source) :
    Takes tokens (fun value => ∀ expr ∈ value, ExprFrom source expr) (assignedValue tokens) := by
  rw [assignedValue]
  cases eaten : eat? (.punct .assign) tokens with
  | none => exact .ok List.suffix_rfl nofun
  | some parsed =>
      have later := suffix_of_eat? eaten
      refine ((takes_expression _ (later.trans inside)).of_suffix later).bind ?_
      rintro ⟨value, left, h₁⟩ suffix isFrom
      exact .ok suffix (by simpa using isFrom)

theorem takes_plainForm (tokens : List Token) (inside : tokens <:+ source) :
    Takes tokens (FormFrom source) (plainForm tokens) := by
  rw [plainForm.eq_def]
  refine (takes_expression tokens inside).bind ?_
  rintro ⟨target, afterTarget, h₁⟩ suffix isTarget
  refine ((leaves_typeExprAfter .colon afterTarget).of_suffix suffix).bind ?_
  rintro ⟨written, afterType, h₂⟩ suffix _
  refine ((takes_assignedValue afterType (suffix.trans inside)).of_suffix suffix).bind ?_
  rintro ⟨value, afterValue, h₃⟩ suffix areValues
  refine ((leaves_statementEnd afterValue).of_suffix suffix).bind fun _ leaves _ => .ok leaves ?_
  cases written with
  | some written =>
      simp only [FormFrom]
      exact ⟨isTarget, areValues⟩
  | none =>
      cases value with
      | some value =>
          simp only [FormFrom]
          exact ⟨isTarget, areValues value rfl⟩
      | none =>
          simp only [FormFrom]
          exact isTarget

theorem takes_returnedValue (tokens : List Token) (inside : tokens <:+ source) :
    Takes tokens (fun value => ∀ expr ∈ value, ExprFrom source expr) (returnedValue tokens) := by
  rw [returnedValue]
  split
  · exact .ok List.suffix_rfl nofun
  · refine (takes_expression tokens inside).bind ?_
    rintro ⟨value, left, h₁⟩ suffix isFrom
    exact .ok suffix (by simpa using isFrom)

theorem takes_casePattern (tokens : List Token) (inside : tokens <:+ source) :
    Takes tokens (PatternFrom source) (casePattern tokens) := by
  have expr : Takes tokens (PatternFrom source) (do
      let parsed ← expression tokens
      return ⟨.value parsed.value, parsed.rest, parsed.shorter⟩ : Outcome Pattern _) :=
    (takes_expression tokens inside).bind fun _ suffix isFrom => .ok suffix isFrom
  rw [casePattern]
  cases eaten : eat? .identifier tokens with
  | none => exact expr
  | some parsed =>
      dsimp only
      split
      · exact .ok (suffix_of_eat? eaten) trivial
      · exact expr

theorem leaves_blockStart (what : Expected) (tokens : List Token) :
    Leaves tokens (blockStart what tokens) := by
  rw [blockStart]
  refine (leaves_expect _ _ tokens).bind ?_
  rintro ⟨_, afterColon, h₁⟩ suffix _
  have skipped := (suffix_skipNewlines afterColon).trans suffix
  refine ((leaves_expect _ _ (skipNewlines afterColon)).of_suffix skipped).bind ?_
  rintro ⟨_, afterIndent, h₂⟩ suffix _
  exact .ok ((suffix_skipNewlines afterIndent).trans suffix) trivial

/-! ## Statements -/

mutual

theorem takes_statement (tokens : List Token) (inside : tokens <:+ source) :
    Takes tokens (fun statement => FormFrom source statement.form) (statement tokens) := by
  have suffix := suffix_splitLabel tokens
  rw [statement]
  split
  · exact .error _ _
  · rename_i token rest body
    rw [body] at suffix
    have shorter : rest.length < tokens.length := suffix.length_le
    have formed := takes_statementForm (splitLabel tokens).1 token rest (suffix.trans inside)
    refine (formed.of_suffix suffix).bind ?_
    rintro ⟨form, left, h₁⟩ leaves isFrom
    exact .ok leaves isFrom
termination_by 4 * tokens.length

theorem takes_statementForm (label : Option String) (token : Token) (rest : List Token)
    (within : token :: rest <:+ source) :
    Takes (token :: rest) (FormFrom source) (statementForm label token rest) := by
  have inside := List.suffix_cons token rest
  rw [statementForm]
  split
  · refine ((takes_identifier _ rest).of_suffix inside).bind ?_
    rintro ⟨name, afterName, h₁⟩ suffix _
    refine ((leaves_expect _ _ afterName).of_suffix suffix).bind ?_
    rintro ⟨_, afterParen, h₂⟩ suffix _
    refine ((leaves_parameters afterParen).of_suffix suffix).bind ?_
    rintro ⟨params, afterParams, h₃⟩ suffix _
    refine ((leaves_expect _ _ afterParams).of_suffix suffix).bind ?_
    rintro ⟨_, afterHead, h₄⟩ suffix _
    refine ((leaves_typeExprAfter _ afterHead).of_suffix suffix).bind ?_
    rintro ⟨returns, afterReturns, h₅⟩ suffix _
    refine ((takes_block afterReturns (suffix.trans within)).of_suffix suffix).bind ?_
    rintro ⟨body, left, h₆⟩ suffix isFrom
    exact .ok suffix (by simpa only [FormFrom] using isFrom)
  · refine ((takes_identifier _ rest).of_suffix inside).bind ?_
    rintro ⟨name, afterName, h₁⟩ suffix _
    refine ((leaves_basesBetween afterName).of_suffix suffix).bind ?_
    rintro ⟨names, afterBases, h₂⟩ suffix _
    refine ((takes_block afterBases (suffix.trans within)).of_suffix suffix).bind ?_
    rintro ⟨body, left, h₃⟩ suffix isFrom
    exact .ok suffix (by simpa only [FormFrom] using isFrom)
  · refine ((takes_branch rest (inside.trans within)).of_suffix inside).bind ?_
    rintro ⟨form, left, h₁⟩ suffix isFrom
    exact .ok suffix isFrom
  · refine ((takes_expression rest (inside.trans within)).of_suffix inside).bind ?_
    rintro ⟨test, afterTest, h₁⟩ suffix isTest
    refine ((takes_block afterTest (suffix.trans within)).of_suffix suffix).bind ?_
    rintro ⟨body, left, h₂⟩ suffix isFrom
    exact .ok suffix (by simpa only [FormFrom] using ⟨isTest, isFrom⟩)
  · refine ((takes_identifier _ rest).of_suffix inside).bind ?_
    rintro ⟨target, afterTarget, h₁⟩ suffix _
    refine ((leaves_expect _ _ afterTarget).of_suffix suffix).bind ?_
    rintro ⟨_, afterIn, h₂⟩ suffix _
    refine ((takes_expression afterIn (suffix.trans within)).of_suffix suffix).bind ?_
    rintro ⟨iter, afterIter, h₃⟩ suffix isIter
    refine ((takes_block afterIter (suffix.trans within)).of_suffix suffix).bind ?_
    rintro ⟨body, left, h₄⟩ suffix isFrom
    exact .ok suffix (by simpa only [FormFrom] using ⟨isIter, isFrom⟩)
  · refine ((takes_expression rest (inside.trans within)).of_suffix inside).bind ?_
    rintro ⟨subject, afterSubject, h₁⟩ suffix isSubject
    refine ((leaves_blockStart _ afterSubject).of_suffix suffix).bind ?_
    rintro ⟨_, block, h₂⟩ suffix _
    refine ((takes_cases block (suffix.trans within)).of_suffix suffix).bind ?_
    rintro ⟨arms, afterArms, h₃⟩ suffix areCases
    dsimp only
    split
    · exact .error _ _
    · refine ((leaves_expect _ _ afterArms).of_suffix suffix).bind fun _ suffix _ => .ok suffix ?_
      simpa only [FormFrom] using ⟨isSubject, areCases⟩
  · refine ((takes_returnedValue rest (inside.trans within)).of_suffix inside).bind ?_
    rintro ⟨value, afterValue, h₁⟩ suffix areValues
    refine ((leaves_statementEnd afterValue).of_suffix suffix).bind fun _ suffix _ =>
      .ok suffix ?_
    simpa only [FormFrom] using areValues
  · exact ((leaves_statementEnd rest).of_suffix inside).bind
      fun _ suffix _ => .ok suffix (by simp only [FormFrom])
  · exact ((leaves_statementEnd rest).of_suffix inside).bind
      fun _ suffix _ => .ok suffix (by simp only [FormFrom])
  · exact ((leaves_statementEnd rest).of_suffix inside).bind
      fun _ suffix _ => .ok suffix (by simp only [FormFrom])
  · refine ((takes_importForm false rest (inside.trans within)).of_suffix inside).bind ?_
    rintro ⟨form, left, h₁⟩ suffix isFrom
    exact .ok suffix isFrom
  · refine ((takes_importForm true rest (inside.trans within)).of_suffix inside).bind ?_
    rintro ⟨form, left, h₁⟩ suffix isFrom
    exact .ok suffix isFrom
  · exact takes_plainForm (token :: rest) within
termination_by 4 * rest.length + 3

theorem takes_branch (tokens : List Token) (inside : tokens <:+ source) :
    Takes tokens (FormFrom source) (branch tokens) := by
  rw [branch]
  refine (takes_expression tokens inside).bind ?_
  rintro ⟨test, afterTest, h₁⟩ suffix isTest
  refine ((takes_block afterTest (suffix.trans inside)).of_suffix suffix).bind ?_
  rintro ⟨body, afterBody, h₂⟩ suffix isBody
  dsimp only
  cases eaten : eat? (.keyword .elif_) afterBody with
  | some parsed =>
      obtain ⟨_, rest, h₃⟩ := parsed
      have later := (suffix_of_eat? eaten).trans suffix
      refine ((takes_branch rest (later.trans inside)).of_suffix later).bind ?_
      rintro ⟨inner, left, h₄⟩ suffix isInner
      refine .ok suffix ?_
      simpa only [FormFrom, BodyFrom, and_true] using ⟨isTest, isBody, isInner⟩
  | none =>
      dsimp only
      cases eatenElse : eat? (.keyword .else_) afterBody with
      | some parsed =>
          obtain ⟨_, rest, h₃⟩ := parsed
          have later := (suffix_of_eat? eatenElse).trans suffix
          refine ((takes_block rest (later.trans inside)).of_suffix later).bind ?_
          rintro ⟨orelse, left, h₄⟩ suffix isOrelse
          exact .ok suffix (by simpa only [FormFrom] using ⟨isTest, isBody, isOrelse⟩)
      | none =>
          refine .ok suffix ?_
          simpa only [FormFrom, BodyFrom, and_true] using ⟨isTest, isBody⟩
termination_by 4 * tokens.length

theorem takes_block (tokens : List Token) (inside : tokens <:+ source) :
    Takes tokens (BodyFrom source) (block tokens) := by
  rw [block]
  refine (leaves_blockStart _ tokens).bind ?_
  rintro ⟨_, start, h₁⟩ suffix _
  refine ((takes_blockBody start (suffix.trans inside)).of_suffix suffix).bind ?_
  rintro ⟨body, afterBody, h₂⟩ suffix isFrom
  exact ((leaves_expect _ _ afterBody).of_suffix suffix).bind
    fun _ suffix _ => .ok suffix isFrom
termination_by 4 * tokens.length

theorem takes_blockBody (tokens : List Token) (inside : tokens <:+ source) :
    Takes tokens (BodyFrom source) (blockBody tokens) := by
  rw [blockBody]
  split
  · exact .ok List.suffix_rfl (by simp only [BodyFrom])
  · refine (takes_statement tokens inside).bind ?_
    rintro ⟨⟨line, form⟩, afterFirst, h₁⟩ suffix isFirst
    have shorter := length_skipNewlines_le afterFirst
    have skipped := (suffix_skipNewlines afterFirst).trans suffix
    have others := takes_blockBody (skipNewlines afterFirst) (skipped.trans inside)
    refine (others.of_suffix skipped).bind ?_
    rintro ⟨others, left, h₂⟩ suffix areOthers
    exact .ok suffix (by simpa only [BodyFrom] using ⟨isFirst, areOthers⟩)
termination_by 4 * tokens.length + 1

theorem takes_cases (tokens : List Token) (inside : tokens <:+ source) :
    Takes tokens (CasesFrom source) (cases tokens) := by
  rw [cases]
  cases eaten : eat? (.keyword .case_) tokens with
  | none => exact .ok List.suffix_rfl (by simp only [CasesFrom])
  | some parsed =>
      obtain ⟨token, rest, h₁⟩ := parsed
      have later := suffix_of_eat? eaten
      refine ((takes_casePattern rest (later.trans inside)).of_suffix later).bind ?_
      rintro ⟨pattern, afterPattern, h₂⟩ suffix isPattern
      refine ((takes_block afterPattern (suffix.trans inside)).of_suffix suffix).bind ?_
      rintro ⟨body, afterBody, h₃⟩ suffix isBody
      have shorter := length_skipNewlines_le afterBody
      have skipped := (suffix_skipNewlines afterBody).trans suffix
      have others := takes_cases (skipNewlines afterBody) (skipped.trans inside)
      refine (others.of_suffix skipped).bind ?_
      rintro ⟨others, left, h₄⟩ suffix areOthers
      exact .ok suffix (by simpa only [CasesFrom] using ⟨isPattern, isBody, areOthers⟩)
termination_by 4 * tokens.length

end

/-- The statements of a source are made of its tokens. -/
theorem bodyFrom_of_sourceBody (tokens : List Token) (inside : tokens <:+ source)
    {body : List Statement} (parsed : sourceBody tokens = .ok body) : BodyFrom source body := by
  have skipped := suffix_skipNewlines tokens
  rw [sourceBody] at parsed
  split at parsed
  · obtain rfl := Except.ok.inj parsed
    simp only [BodyFrom]
  · simp only [Offside.Outcome.bind_eq_ok, Offside.Outcome.pure_eq_ok] at parsed
    obtain ⟨⟨⟨line, form⟩, afterFirst, shorter⟩, isFirst, others, areOthers, rfl⟩ := parsed
    obtain ⟨suffix, isFrom⟩ := (takes_statement _ (skipped.trans inside)).made _ isFirst
    have := length_skipNewlines_le tokens
    have later := bodyFrom_of_sourceBody afterFirst ((suffix.trans skipped).trans inside) areOthers
    simpa only [BodyFrom] using ⟨isFrom, later⟩
termination_by tokens.length

/-- The statements of a source fail by a rule of the grammar alone. -/
theorem refused_sourceBody (tokens : List Token) :
    Offside.Outcome.FailsAt .parsing (sourceBody tokens) := by
  rw [sourceBody]
  refine .ite (.ok _) (.bind (takes_statement _ List.suffix_rfl).refused fun parsed _ => ?_)
  obtain ⟨first, afterFirst, shorter⟩ := parsed
  have := length_skipNewlines_le tokens
  exact .bind (refused_sourceBody afterFirst) fun _ _ => .pure _
termination_by tokens.length

end Grammar

end Offside
