import Mathlib.Logic.Relation
import Offside.Proofs.Grammar.Annotations

/-!
# Turns of the loops

From one turn of a loop of the grammar to the next, tokens are taken. A loop that makes a list takes
one item a turn, and those that build an expression or a chain of alternatives go by turns as well,
so no loop has more turns than it has tokens.
-/

namespace Offside

namespace Grammar

open Offside.Outcome Relation

/-- Whether some tokens are left of others after at least one. -/
def Advances (tokens rest : List Token) : Prop := rest <:+ tokens ∧ rest.length < tokens.length

namespace Advances

variable {tokens middle rest : List Token}

theorem trans_suffix (first : Advances tokens middle) (second : rest <:+ middle) :
    Advances tokens rest :=
  ⟨second.trans first.1, Nat.lt_of_le_of_lt second.length_le first.2⟩

theorem of_suffix (first : middle <:+ tokens) (second : Advances middle rest) :
    Advances tokens rest :=
  ⟨second.1.trans first, Nat.lt_of_lt_of_le second.2 first.length_le⟩

theorem trans (first : Advances tokens middle) (second : Advances middle rest) :
    Advances tokens rest :=
  first.trans_suffix second.1

theorem of_takes {α : Type} {makes : α → Prop} {outcome : Outcome α tokens.length}
    (takes : Takes tokens makes outcome) {parsed : Parsed α tokens.length}
    (isOk : outcome = .ok parsed) : Advances tokens parsed.rest :=
  ⟨(takes.made parsed isOk).1, parsed.shorter⟩

theorem of_eat? {kind : Token.Kind} {parsed : Parsed Token tokens.length}
    (eaten : eat? kind tokens = some parsed) : Advances tokens parsed.rest :=
  ⟨suffix_of_eat? eaten, parsed.shorter⟩

theorem cons (token : Token) (rest : List Token) : Advances (token :: rest) rest :=
  ⟨List.suffix_cons token rest, length_lt_cons token rest⟩

end Advances

variable {tokens : List Token}

theorem advances_statement {parsed : Parsed Statement tokens.length}
    (isOk : statement tokens = .ok parsed) : Advances tokens parsed.rest :=
  .of_takes (takes_statement tokens List.suffix_rfl) isOk

theorem advances_block {parsed : Parsed (List Statement) tokens.length}
    (isOk : block tokens = .ok parsed) : Advances tokens parsed.rest :=
  .of_takes (takes_block tokens List.suffix_rfl) isOk

theorem advances_expressionAt {level : Level} {parsed : Parsed Expr tokens.length}
    (isOk : expressionAt level tokens = .ok parsed) : Advances tokens parsed.rest := by
  obtain ⟨expr, rest, shorter⟩ := parsed
  obtain ⟨slice, rfl, _⟩ := (printed_expressionAt level tokens).made expr rest shorter isOk
  exact ⟨List.suffix_append slice rest, shorter⟩

theorem advances_typeExpr {quoted : QuotedReader} {parsed : Parsed TypeExpr tokens.length}
    (isOk : typeExpr quoted tokens = .ok parsed) : Advances tokens parsed.rest :=
  .of_takes (leaves_typeExpr quoted tokens) isOk

theorem suffix_arguments {parsed : Parsed (List Expr) (tokens.length + 1)}
    (isOk : arguments tokens = .ok parsed) : parsed.rest <:+ tokens := by
  obtain ⟨args, rest, shorter⟩ := parsed
  obtain ⟨slice, rfl, _⟩ := (printed_arguments tokens).made args rest shorter isOk
  exact List.suffix_append slice rest

/-- From where a loop of the grammar starts a turn to where it starts the next. -/
inductive Turn : List Token → List Token → Prop
  | lineEnd {token rest} : token.kind = .newline → Turn (token :: rest) rest
  | statement {tokens parsed} : statement (skipNewlines tokens) = .ok parsed →
      Turn tokens parsed.rest
  | inBlock {tokens parsed} : statement tokens = .ok parsed →
      Turn tokens (skipNewlines parsed.rest)
  | case {tokens word pattern body} : eat? (.keyword .case_) tokens = some word →
      casePattern word.rest = .ok pattern → block pattern.rest = .ok body →
      Turn tokens (skipNewlines body.rest)
  | branch {tokens test body word} : expression tokens = .ok test →
      block test.rest = .ok body → eat? (.keyword .elif_) body.rest = some word →
      Turn tokens word.rest
  | parameter {tokens name written comma} :
      expect .identifier .parameterName tokens = .ok name →
      typeExprAfter .colon name.rest = .ok written →
      eat? (.punct .comma) written.rest = some comma → Turn tokens comma.rest
  | component {what tokens dot part} : eat? (.punct .dot) tokens = some dot →
      identifier what dot.rest = .ok part → Turn tokens part.rest
  | base {tokens parts comma} : dotted .baseName tokens = .ok parts →
      eat? (.punct .comma) parts.rest = some comma → Turn tokens comma.rest
  | importedName {tokens name comma} : identifier .importedName tokens = .ok name →
      eat? (.punct .comma) name.rest = some comma → Turn tokens comma.rest
  | size {tokens number comma} : eat? .number tokens = some number →
      eat? (.punct .comma) number.rest = some comma → Turn tokens comma.rest
  | typeArgument {quoted tokens arg comma} : typeExpr quoted tokens = .ok arg →
      eat? (.punct .comma) arg.rest = some comma → Turn tokens comma.rest
  | typeItem {quoted tokens comma item} : eat? (.punct .comma) tokens = some comma →
      typeExpr quoted comma.rest = .ok item → Turn tokens item.rest
  | operand {level token rest second} : expressionAt level rest = .ok second →
      Turn (token :: rest) second.rest
  | call {token rest args closing} : arguments rest = .ok args →
      expectPunct .rightParen args.rest = .ok closing → Turn (token :: rest) closing.rest
  | member {token rest name} : identifier .memberName rest = .ok name →
      Turn (token :: rest) name.rest
  | subscript {token rest index closing} : expression rest = .ok index →
      expectPunct .rightBracket index.rest = .ok closing → Turn (token :: rest) closing.rest
  | argument {tokens arg comma} : expression tokens = .ok arg →
      eat? (.punct .comma) arg.rest = some comma → Turn tokens comma.rest

theorem Turn.advances {later : List Token} (turn : Turn tokens later) : Advances tokens later := by
  cases turn with
  | lineEnd => exact .cons _ later
  | statement isOk => exact .of_suffix (suffix_skipNewlines tokens) (advances_statement isOk)
  | inBlock isOk => exact (advances_statement isOk).trans_suffix (suffix_skipNewlines _)
  | case isWord isPattern isBody =>
      have patterned := Advances.of_takes (takes_casePattern _ List.suffix_rfl) isPattern
      exact (((Advances.of_eat? isWord).trans patterned).trans (advances_block isBody)).trans_suffix
        (suffix_skipNewlines _)
  | branch isTest isBody isWord =>
      exact ((advances_expressionAt isTest).trans (advances_block isBody)).trans (.of_eat? isWord)
  | parameter isName isWritten isComma =>
      have named := Advances.of_takes (leaves_expect _ _ tokens) isName
      have annotated := named.trans_suffix ((leaves_typeExprAfter _ _).made _ isWritten).1
      exact annotated.trans (.of_eat? isComma)
  | component isDot isPart =>
      exact (Advances.of_eat? isDot).trans (.of_takes (takes_identifier _ _) isPart)
  | base areParts isComma =>
      exact (Advances.of_takes (takes_dotted _ tokens) areParts).trans (.of_eat? isComma)
  | importedName isName isComma =>
      exact (Advances.of_takes (takes_identifier _ tokens) isName).trans (.of_eat? isComma)
  | size isNumber isComma => exact (Advances.of_eat? isNumber).trans (.of_eat? isComma)
  | typeArgument isArg isComma => exact (advances_typeExpr isArg).trans (.of_eat? isComma)
  | typeItem isComma isItem => exact (Advances.of_eat? isComma).trans (advances_typeExpr isItem)
  | operand isSecond => exact (Advances.cons _ _).trans (advances_expressionAt isSecond)
  | call areArgs isClosing =>
      exact ((Advances.cons _ _).trans_suffix (suffix_arguments areArgs)).trans
        (.of_takes (leaves_expect _ _ _) isClosing)
  | member isName => exact (Advances.cons _ _).trans (.of_takes (takes_identifier _ _) isName)
  | subscript isIndex isClosing =>
      exact ((Advances.cons _ _).trans (advances_expressionAt isIndex)).trans
        (.of_takes (leaves_expect _ _ _) isClosing)
  | argument isArg isComma => exact (advances_expressionAt isArg).trans (.of_eat? isComma)

/-- A loop that takes one item a turn, where the last turn may end early. -/
inductive ByTurns : List Token → Nat → List Token → Prop
  | stop {tokens rest} : rest <:+ tokens → ByTurns tokens 0 rest
  | last {tokens rest} : Advances tokens rest → ByTurns tokens 1 rest
  | turn {tokens later count rest} : Turn tokens later → ByTurns later count rest →
      ByTurns tokens (count + 1) rest

/-- A loop takes no more items than tokens. -/
theorem ByTurns.count_le {count : Nat} {rest : List Token} (turns : ByTurns tokens count rest) :
    rest <:+ tokens ∧ count + rest.length ≤ tokens.length := by
  induction turns with
  | stop suffix => exact ⟨suffix, by simpa using suffix.length_le⟩
  | last advances =>
      have shorter := advances.2
      exact ⟨advances.1, by omega⟩
  | turn first _ induction =>
      obtain ⟨suffix, shorter⟩ := first.advances
      exact ⟨induction.1.trans suffix, by omega⟩

theorem turns_skipNewlines : (tokens : List Token) → ReflTransGen Turn tokens (skipNewlines tokens)
  | [] => .refl
  | token :: rest => by
      by_cases isEnd : token.kind = .newline
      · rw [skipNewlines, List.dropWhile_cons_of_pos (by simpa using isEnd)]
        exact .head (.lineEnd isEnd) (turns_skipNewlines rest)
      · rw [skipNewlines, List.dropWhile_cons_of_neg (by simpa using isEnd)]

theorem byTurns_dottedRest (what : Expected) (tokens : List Token)
    {parsed : Parsed (List String) (tokens.length + 1)}
    (isOk : dottedRest what tokens = .ok parsed) :
    ByTurns tokens parsed.value.length parsed.rest := by
  rw [dottedRest] at isOk
  cases isDot : eat? (.punct .dot) tokens with
  | none =>
      rw [isDot] at isOk
      obtain rfl := Except.ok.inj isOk
      exact .stop List.suffix_rfl
  | some dot =>
      rw [isDot] at isOk
      simp only [bind_eq_ok, pure_eq_ok] at isOk
      obtain ⟨part, isPart, others, areOthers, rfl⟩ := isOk
      have shorter := dot.shorter
      have shorter' := part.shorter
      exact .turn (.component isDot isPart) (byTurns_dottedRest what part.rest areOthers)
termination_by tokens.length

theorem byTurns_parameters (tokens : List Token)
    {parsed : Parsed (List Parameter) (tokens.length + 1)}
    (isOk : parameters tokens = .ok parsed) :
    ByTurns tokens parsed.value.length parsed.rest := by
  rw [parameters] at isOk
  split at isOk
  · obtain rfl := Except.ok.inj isOk
    exact .stop List.suffix_rfl
  · simp only [bind_eq_ok] at isOk
    obtain ⟨name, isName, written, isWritten, isOk⟩ := isOk
    cases isComma : eat? (.punct .comma) written.rest with
    | none =>
        rw [isComma] at isOk
        obtain rfl := Except.ok.inj isOk
        refine .last ((Advances.of_takes (leaves_expect _ _ tokens) isName).trans_suffix ?_)
        exact ((leaves_typeExprAfter _ _).made _ isWritten).1
    | some comma =>
        rw [isComma] at isOk
        simp only [bind_eq_ok, pure_eq_ok] at isOk
        obtain ⟨others, areOthers, rfl⟩ := isOk
        have first : Turn tokens comma.rest := .parameter isName isWritten isComma
        have := first.advances.2
        exact .turn first (byTurns_parameters comma.rest areOthers)
termination_by tokens.length


theorem byTurns_bases (tokens : List Token) {parsed : Parsed (List String) (tokens.length + 1)}
    (isOk : bases tokens = .ok parsed) : ByTurns tokens parsed.value.length parsed.rest := by
  rw [bases] at isOk
  split at isOk
  · obtain rfl := Except.ok.inj isOk
    exact .stop List.suffix_rfl
  · simp only [bind_eq_ok] at isOk
    obtain ⟨parts, areParts, isOk⟩ := isOk
    cases isComma : eat? (.punct .comma) parts.rest with
    | none =>
        rw [isComma] at isOk
        obtain rfl := Except.ok.inj isOk
        exact .last (.of_takes (takes_dotted _ tokens) areParts)
    | some comma =>
        rw [isComma] at isOk
        simp only [bind_eq_ok, pure_eq_ok] at isOk
        obtain ⟨others, areOthers, rfl⟩ := isOk
        have first : Turn tokens comma.rest := .base areParts isComma
        have := first.advances.2
        exact .turn first (byTurns_bases comma.rest areOthers)
termination_by tokens.length

theorem byTurns_importedNames (tokens : List Token) {parsed : Parsed (List String) tokens.length}
    (isOk : importedNames tokens = .ok parsed) :
    ByTurns tokens parsed.value.length parsed.rest := by
  rw [importedNames] at isOk
  simp only [bind_eq_ok] at isOk
  obtain ⟨name, isName, isOk⟩ := isOk
  cases isComma : eat? (.punct .comma) name.rest with
  | none =>
      rw [isComma] at isOk
      obtain rfl := Except.ok.inj isOk
      exact .last (.of_takes (takes_identifier _ tokens) isName)
  | some comma =>
      rw [isComma] at isOk
      simp only [bind_eq_ok, pure_eq_ok] at isOk
      obtain ⟨others, areOthers, rfl⟩ := isOk
      have first : Turn tokens comma.rest := .importedName isName isComma
      have := first.advances.2
      exact .turn first (byTurns_importedNames comma.rest areOthers)
termination_by tokens.length

theorem byTurns_arguments (tokens : List Token)
    {parsed : Parsed (List Expr) (tokens.length + 1)} (isOk : arguments tokens = .ok parsed) :
    ByTurns tokens parsed.value.length parsed.rest := by
  rw [arguments] at isOk
  split at isOk
  · obtain rfl := Except.ok.inj isOk
    exact .stop List.suffix_rfl
  · simp only [bind_eq_ok] at isOk
    obtain ⟨arg, isArg, isOk⟩ := isOk
    cases isComma : eat? (.punct .comma) arg.rest with
    | none =>
        rw [isComma] at isOk
        obtain rfl := Except.ok.inj isOk
        exact .last (advances_expressionAt isArg)
    | some comma =>
        rw [isComma] at isOk
        simp only [bind_eq_ok, pure_eq_ok] at isOk
        obtain ⟨others, areOthers, rfl⟩ := isOk
        have first : Turn tokens comma.rest := .argument isArg isComma
        have := first.advances.2
        exact .turn first (byTurns_arguments comma.rest areOthers)
termination_by tokens.length

theorem byTurns_typeArguments (quoted : QuotedReader) (tokens : List Token)
    {parsed : Parsed (List TypeExpr) tokens.length}
    (isOk : typeArguments quoted tokens = .ok parsed) :
    ByTurns tokens parsed.value.length parsed.rest := by
  rw [typeArguments] at isOk
  simp only [bind_eq_ok] at isOk
  obtain ⟨arg, isArg, isOk⟩ := isOk
  have taken : Advances tokens arg.rest ∧ ∀ {comma},
      eat? (.punct .comma) arg.rest = some comma → Turn tokens comma.rest := by
    cases isNumber : eat? .number tokens with
    | none =>
        rw [isNumber] at isArg
        exact ⟨advances_typeExpr isArg, .typeArgument isArg⟩
    | some number =>
        rw [isNumber] at isArg
        dsimp only at isArg
        split at isArg
        · obtain rfl := Except.ok.inj isArg
          exact ⟨.of_eat? isNumber, .size isNumber⟩
        · cases isArg
  cases isComma : eat? (.punct .comma) arg.rest with
  | none =>
      rw [isComma] at isOk
      obtain rfl := Except.ok.inj isOk
      exact .last taken.1
  | some comma =>
      rw [isComma] at isOk
      simp only [bind_eq_ok, pure_eq_ok] at isOk
      obtain ⟨others, areOthers, rfl⟩ := isOk
      have first := taken.2 isComma
      have := first.advances.2
      exact .turn first (byTurns_typeArguments quoted comma.rest areOthers)
termination_by tokens.length

theorem byTurns_typeItems (quoted : QuotedReader) (tokens : List Token)
    {parsed : Parsed (List TypeExpr) (tokens.length + 1)}
    (isOk : typeItems quoted tokens = .ok parsed) :
    ByTurns tokens parsed.value.length parsed.rest := by
  rw [typeItems] at isOk
  cases isComma : eat? (.punct .comma) tokens with
  | none =>
      rw [isComma] at isOk
      obtain rfl := Except.ok.inj isOk
      exact .stop List.suffix_rfl
  | some comma =>
      rw [isComma] at isOk
      dsimp only at isOk
      split at isOk
      · obtain rfl := Except.ok.inj isOk
        exact .stop (suffix_of_eat? isComma)
      · simp only [bind_eq_ok, pure_eq_ok] at isOk
        obtain ⟨item, isItem, others, areOthers, rfl⟩ := isOk
        have first : Turn tokens item.rest := .typeItem isComma isItem
        have := first.advances.2
        exact .turn first (byTurns_typeItems quoted item.rest areOthers)
termination_by tokens.length

theorem byTurns_blockBody (tokens : List Token)
    {parsed : Parsed (List Statement) (tokens.length + 1)} (isOk : blockBody tokens = .ok parsed) :
    ByTurns tokens parsed.value.length parsed.rest := by
  rw [blockBody] at isOk
  split at isOk
  · obtain rfl := Except.ok.inj isOk
    exact .stop List.suffix_rfl
  · simp only [bind_eq_ok, pure_eq_ok] at isOk
    obtain ⟨first, isFirst, others, areOthers, rfl⟩ := isOk
    have turn : Turn tokens (skipNewlines first.rest) := .inBlock isFirst
    have := turn.advances.2
    exact .turn turn (byTurns_blockBody _ areOthers)
termination_by tokens.length

theorem byTurns_cases (tokens : List Token) {parsed : Parsed (List Case) (tokens.length + 1)}
    (isOk : cases tokens = .ok parsed) : ByTurns tokens parsed.value.length parsed.rest := by
  rw [Grammar.cases] at isOk
  cases isWord : eat? (.keyword .case_) tokens with
  | none =>
      rw [isWord] at isOk
      obtain rfl := Except.ok.inj isOk
      exact .stop List.suffix_rfl
  | some word =>
      rw [isWord] at isOk
      simp only [bind_eq_ok, pure_eq_ok] at isOk
      obtain ⟨pattern, isPattern, body, isBody, others, areOthers, rfl⟩ := isOk
      have first : Turn tokens (skipNewlines body.rest) := .case isWord isPattern isBody
      have := first.advances.2
      exact .turn first (byTurns_cases _ areOthers)
termination_by tokens.length

/-- The statements of a source are taken one a turn, up to its end. -/
theorem byTurns_sourceBody (tokens : List Token) {body : List Statement}
    (isOk : sourceBody tokens = .ok body) :
    ∃ rest, ByTurns tokens body.length rest ∧ peek rest = .endOfFile := by
  rw [sourceBody] at isOk
  split at isOk
  · obtain rfl := Except.ok.inj isOk
    exact ⟨skipNewlines tokens, .stop (suffix_skipNewlines tokens), ‹_›⟩
  · simp only [bind_eq_ok, pure_eq_ok] at isOk
    obtain ⟨first, isFirst, others, areOthers, rfl⟩ := isOk
    have turn : Turn tokens first.rest := .statement isFirst
    have := turn.advances.2
    obtain ⟨rest, later, ends⟩ := byTurns_sourceBody first.rest areOthers
    exact ⟨rest, .turn turn later, ends⟩
termination_by tokens.length

theorem turns_joined (level : Level) (first : Expr) (tokens : List Token)
    {parsed : Parsed Expr (tokens.length + 1)} (isOk : joined level first tokens = .ok parsed) :
    ReflTransGen Turn tokens parsed.rest := by
  rw [joined.eq_def] at isOk
  cases tokens with
  | nil =>
      obtain rfl := Except.ok.inj isOk
      exact .refl
  | cons token rest =>
      dsimp only at isOk
      split at isOk
      · obtain rfl := Except.ok.inj isOk
        exact .refl
      · simp only [bind_eq_ok, pure_eq_ok] at isOk
        obtain ⟨second, isSecond, whole, isWhole, rfl⟩ := isOk
        have turn : Turn (token :: rest) second.rest := .operand isSecond
        have := turn.advances.2
        exact .head turn (turns_joined level _ second.rest isWhole)
termination_by tokens.length

theorem turns_trailers (base : Expr) (tokens : List Token)
    {parsed : Parsed Expr (tokens.length + 1)} (isOk : trailers base tokens = .ok parsed) :
    ReflTransGen Turn tokens parsed.rest := by
  rw [trailers.eq_def] at isOk
  cases tokens with
  | nil =>
      obtain rfl := Except.ok.inj isOk
      exact .refl
  | cons token rest =>
      dsimp only at isOk
      split at isOk
      · simp only [bind_eq_ok, pure_eq_ok] at isOk
        obtain ⟨args, areArgs, closing, isClosing, whole, isWhole, rfl⟩ := isOk
        have turn : Turn (token :: rest) closing.rest := .call areArgs isClosing
        have := turn.advances.2
        exact .head turn (turns_trailers _ closing.rest isWhole)
      · simp only [bind_eq_ok, pure_eq_ok] at isOk
        obtain ⟨name, isName, whole, isWhole, rfl⟩ := isOk
        have turn : Turn (token :: rest) name.rest := .member isName
        have := turn.advances.2
        exact .head turn (turns_trailers _ name.rest isWhole)
      · simp only [bind_eq_ok, pure_eq_ok] at isOk
        obtain ⟨index, isIndex, closing, isClosing, whole, isWhole, rfl⟩ := isOk
        have turn : Turn (token :: rest) closing.rest := .subscript isIndex isClosing
        have := turn.advances.2
        exact .head turn (turns_trailers _ closing.rest isWhole)
      · obtain rfl := Except.ok.inj isOk
        exact .refl
termination_by tokens.length

/-- A conditional goes by turns to its last alternative with a condition. -/
theorem turns_branch (tokens : List Token) {parsed : Parsed Form tokens.length}
    (isOk : branch tokens = .ok parsed) :
    ∃ start test body, ReflTransGen Turn tokens start ∧ expression start = .ok test ∧
      block test.rest = .ok body ∧ eat? (.keyword .elif_) body.rest = none ∧
      parsed.rest <:+ body.rest := by
  rw [branch] at isOk
  simp only [bind_eq_ok] at isOk
  obtain ⟨test, isTest, body, isBody, isOk⟩ := isOk
  cases isWord : eat? (.keyword .elif_) body.rest with
  | some word =>
      rw [isWord] at isOk
      simp only [bind_eq_ok, pure_eq_ok] at isOk
      obtain ⟨inner, isInner, rfl⟩ := isOk
      have turn : Turn tokens word.rest := .branch isTest isBody isWord
      have := turn.advances.2
      obtain ⟨start, last, chosen, turns, ends⟩ := turns_branch word.rest isInner
      exact ⟨start, last, chosen, .head turn turns, ends⟩
  | none =>
      refine ⟨tokens, test, body, .refl, isTest, isBody, isWord, ?_⟩
      rw [isWord] at isOk
      dsimp only at isOk
      cases isElse : eat? (.keyword .else_) body.rest with
      | some word =>
          rw [isElse] at isOk
          simp only [bind_eq_ok, pure_eq_ok] at isOk
          obtain ⟨orelse, isOrelse, rfl⟩ := isOk
          exact (advances_block isOrelse).1.trans (suffix_of_eat? isElse)
      | none =>
          rw [isElse] at isOk
          obtain rfl := Except.ok.inj isOk
          exact List.suffix_rfl
termination_by tokens.length

/-- Every loop of the grammar goes by turns from the tokens at which it starts. -/
structure LoopsByTurns (tokens : List Token) : Prop where
  lineEnds : ReflTransGen Turn tokens (skipNewlines tokens)
  source : ∀ body, sourceBody tokens = .ok body →
    ∃ rest, ByTurns tokens body.length rest ∧ peek rest = .endOfFile
  block : ∀ parsed, blockBody tokens = .ok parsed →
    ByTurns tokens parsed.value.length parsed.rest
  arms : ∀ parsed, cases tokens = .ok parsed → ByTurns tokens parsed.value.length parsed.rest
  branches : ∀ parsed, branch tokens = .ok parsed →
    ∃ start test body, ReflTransGen Turn tokens start ∧ expression start = .ok test ∧
      Grammar.block test.rest = .ok body ∧ eat? (.keyword .elif_) body.rest = none ∧
      parsed.rest <:+ body.rest
  params : ∀ parsed, parameters tokens = .ok parsed →
    ByTurns tokens parsed.value.length parsed.rest
  components : ∀ what parsed, dottedRest what tokens = .ok parsed →
    ByTurns tokens parsed.value.length parsed.rest
  baseNames : ∀ parsed, bases tokens = .ok parsed → ByTurns tokens parsed.value.length parsed.rest
  names : ∀ parsed, importedNames tokens = .ok parsed →
    ByTurns tokens parsed.value.length parsed.rest
  typeArgs : ∀ quoted parsed, typeArguments quoted tokens = .ok parsed →
    ByTurns tokens parsed.value.length parsed.rest
  items : ∀ quoted parsed, typeItems quoted tokens = .ok parsed →
    ByTurns tokens parsed.value.length parsed.rest
  args : ∀ parsed, arguments tokens = .ok parsed → ByTurns tokens parsed.value.length parsed.rest
  operands : ∀ level first parsed, joined level first tokens = .ok parsed →
    ReflTransGen Turn tokens parsed.rest
  trailed : ∀ base parsed, trailers base tokens = .ok parsed →
    ReflTransGen Turn tokens parsed.rest

theorem loopsByTurns (tokens : List Token) : LoopsByTurns tokens where
  lineEnds := turns_skipNewlines tokens
  source _ := byTurns_sourceBody tokens
  block _ := byTurns_blockBody tokens
  arms _ := byTurns_cases tokens
  branches _ := turns_branch tokens
  params _ := byTurns_parameters tokens
  components what _ := byTurns_dottedRest what tokens
  baseNames _ := byTurns_bases tokens
  names _ := byTurns_importedNames tokens
  typeArgs quoted _ := byTurns_typeArguments quoted tokens
  items quoted _ := byTurns_typeItems quoted tokens
  args _ := byTurns_arguments tokens
  operands level first _ := turns_joined level first tokens
  trailed base _ := turns_trailers base tokens

end Grammar

end Offside
