import Offside.Proofs.Grammar.Turns

/-!
# Progress of the grammar

Each rule for a statement, an expression or an annotation that succeeds moves the position forward,
and so does each turn of a loop, never beyond the token that ends the list. A quoted annotation is
read again as a text of its own, which is shorter than the text it stands in.
-/

namespace Offside

namespace Grammar

/-- Whether tokens are those from a later position on, which is not beyond the end. -/
def LeftAfter (body : List Token) (position : Nat) (rest : List Token) : Prop :=
  ∃ later, position < later ∧ later ≤ body.length ∧ rest = body.drop later

theorem Advances.leftAfter {body rest : List Token} {position : Nat}
    (advances : Advances (body.drop position) rest) : LeftAfter body position rest := by
  obtain ⟨⟨taken, split⟩, shorter⟩ := advances
  have lengths := congrArg List.length split
  simp only [List.length_append, List.length_drop] at lengths shorter
  refine ⟨position + taken.length, by omega, by omega, ?_⟩
  rw [← List.drop_drop, ← split, List.drop_left]

variable {tokens : List Token}

theorem bind_congr_of_takes {α β : Type} {bound : Nat} {makes : α → Prop}
    {outcome : Outcome α bound} {next next' : Parsed α bound → Except Fault β}
    (takes : Takes tokens makes outcome)
    (same : ∀ parsed, parsed.rest <:+ tokens → next parsed = next' parsed) :
    outcome >>= next = outcome >>= next' := by
  cases outcome with
  | error fault => rfl
  | ok parsed => exact same parsed (takes.made parsed rfl).1

/-- Whether two readers agree on the quoted texts among tokens. -/
def ReadAlike (quoted quoted' : QuotedReader) (tokens : List Token) : Prop :=
  ∀ token ∈ tokens, token.kind = .string → quoted token.text = quoted' token.text

variable {quoted quoted' : QuotedReader}

theorem ReadAlike.of_suffix {rest : List Token} (alike : ReadAlike quoted quoted' tokens)
    (suffix : rest <:+ tokens) : ReadAlike quoted quoted' rest :=
  fun token member => alike token (suffix.mem member)

mutual

/-- An annotation is read by means of the quoted texts among its tokens only. -/
theorem typeExpr_congr (tokens : List Token) : ReadAlike quoted quoted' tokens →
    typeExpr quoted tokens = typeExpr quoted' tokens := by
  rw [typeExpr.eq_def quoted, typeExpr.eq_def quoted']
  cases tokens with
  | nil => exact fun _ => rfl
  | cons token rest =>
      intro alike
      have inside := List.suffix_cons token rest
      dsimp only
      split
      · cases eaten : eat? (.punct .leftBracket) rest with
        | none => rfl
        | some parsed =>
            obtain ⟨_, inner, h₁⟩ := parsed
            dsimp only
            rw [typeArguments_congr inner (alike.of_suffix ((suffix_of_eat? eaten).trans inside))]
      · rfl
      · rename_i isString
        rw [alike token List.mem_cons_self isString]
      · rw [typeExpr_congr rest (alike.of_suffix inside)]
        refine bind_congr_of_takes (leaves_typeExpr quoted' rest) fun parsed suffix => ?_
        obtain ⟨first, afterFirst, h₁⟩ := parsed
        dsimp only
        rw [typeItems_congr afterFirst (alike.of_suffix (suffix.trans inside))]
      · rfl
termination_by 2 * tokens.length

theorem typeArguments_congr (tokens : List Token) (alike : ReadAlike quoted quoted' tokens) :
    typeArguments quoted tokens = typeArguments quoted' tokens := by
  rw [typeArguments.eq_def quoted, typeArguments.eq_def quoted', typeExpr_congr tokens alike]
  refine bind_congr_of_takes (?_ : Leaves tokens _) fun parsed suffix => ?_
  · cases eaten : eat? .number tokens with
    | none => exact leaves_typeExpr quoted' tokens
    | some parsed =>
        dsimp only
        split
        · exact .ok (suffix_of_eat? eaten) trivial
        · exact .error _ _
  · obtain ⟨arg, afterArg, h₁⟩ := parsed
    dsimp only
    cases eaten : eat? (.punct .comma) afterArg with
    | none => rfl
    | some parsed =>
        obtain ⟨_, rest, h₂⟩ := parsed
        dsimp only
        rw [typeArguments_congr rest (alike.of_suffix ((suffix_of_eat? eaten).trans suffix))]
termination_by 2 * tokens.length + 1

theorem typeItems_congr (tokens : List Token) (alike : ReadAlike quoted quoted' tokens) :
    typeItems quoted tokens = typeItems quoted' tokens := by
  rw [typeItems.eq_def quoted, typeItems.eq_def quoted']
  cases eaten : eat? (.punct .comma) tokens with
  | none => rfl
  | some parsed =>
      obtain ⟨_, rest, h₁⟩ := parsed
      have inside := suffix_of_eat? eaten
      dsimp only
      split
      · rfl
      · rw [typeExpr_congr rest (alike.of_suffix inside)]
        refine bind_congr_of_takes (leaves_typeExpr quoted' rest) fun parsed suffix => ?_
        obtain ⟨item, afterItem, h₂⟩ := parsed
        dsimp only
        rw [typeItems_congr afterItem (alike.of_suffix (suffix.trans inside))]
termination_by 2 * tokens.length

end

/-- A literal takes no more bytes than what is written for it. -/
theorem byteLength_le_of_quotes {quote : Char} {inner decoded : List Char}
    (quotes : Quotes quote inner decoded) : byteLength decoded ≤ byteLength inner := by
  induction quotes with
  | nil => exact Nat.le_refl 0
  | @escape char meant inner decoded known _ induction =>
      have single : meant.utf8Size = 1 := by
        unfold Lexeme.escaped? at known
        split at known
        case h_7 => simp at known
        all_goals
          obtain rfl := Option.some.inj known
          rfl
      have written := char.utf8Size_pos
      simp only [byteLength]
      omega
  | backslash _ _ induction => exact Nat.add_le_add_left induction _
  | plain _ _ _ _ induction => exact Nat.add_le_add_left induction _

/-- A quoted text is shorter than a text that it stands in. -/
theorem utf8ByteSize_lt_of_string {text : String} {token : Token}
    (faultless : ∀ token ∈ Token.ofSource text, token.kind ≠ .error)
    (member : token ∈ Token.ofSource text) (isString : token.kind = .string) :
    token.text.utf8ByteSize < text.utf8ByteSize := by
  obtain ⟨spelling, ⟨before, after, isText⟩, spells⟩ :=
    exists_spells faultless member (by simp [Token.isSpelled, isString])
  rw [isString] at spells
  obtain ⟨quote, inner, decoded, _, rfl, quotes, isLexeme⟩ := spells
  have fewer := byteLength_le_of_quotes quotes
  have mark := quote.utf8Size_pos
  rw [Token.text, isLexeme, Option.getD_some, utf8ByteSize_ofList,
    ← String.ofList_toList (s := text), utf8ByteSize_ofList, ← isText]
  simp only [byteLength_append, byteLength]
  omega

/-- Reads the inside of a quoted annotation, given a reader for texts quoted in it. -/
def quotedWith (reader : QuotedReader) (text : String) : Except Fault TypeExpr :=
  let tokens := Token.ofSource text
  match scanFault? tokens with
  | some token => .error (.scanning token)
  | none =>
      let (body, last) := splitEnd tokens
      match typeExpr reader body with
      | .error fault => .error (fault.endingAt last)
      | .ok parsed =>
          if peek parsed.rest = .endOfFile then .ok parsed.value
          else refuse parsed.rest .trailingInput

/-- An annotation is read by means of shorter texts only. -/
theorem quotedWith_eq {reader : QuotedReader} {text : String}
    (alike : ∀ inside, inside.utf8ByteSize < text.utf8ByteSize →
      reader inside = quotedType inside) : quotedWith reader text = quotedType text := by
  rw [quotedWith, quotedType]
  cases isFault : scanFault? (Token.ofSource text) with
  | some fault => rfl
  | none =>
      have faultless : ∀ token ∈ Token.ofSource text, token.kind ≠ .error := by
        simpa [scanFault?] using isFault
      have same : typeExpr reader (splitEnd (Token.ofSource text)).1 =
          typeExpr (readerIn text) (splitEnd (Token.ofSource text)).1 := by
        refine typeExpr_congr _ fun token member isString => ?_
        have shorter := utf8ByteSize_lt_of_string faultless (mem_of_mem_splitEnd member) isString
        rw [alike token.text shorter, readerIn, if_pos shorter]
      dsimp only
      rw [same]
      rfl

/-- A statement, an expression, an annotation and each turn of a loop end at a later position than
they start, at most that of the last token, and the loops go by such turns. A quoted annotation is
read by means of shorter texts only. -/
theorem position_increases (tokens : List Token) (position : Nat) :
    (∀ parsed, statement ((splitEnd tokens).1.drop position) = .ok parsed →
      LeftAfter (splitEnd tokens).1 position parsed.rest) ∧
    (∀ parsed, expression ((splitEnd tokens).1.drop position) = .ok parsed →
      LeftAfter (splitEnd tokens).1 position parsed.rest) ∧
    (∀ quoted parsed, typeExpr quoted ((splitEnd tokens).1.drop position) = .ok parsed →
      LeftAfter (splitEnd tokens).1 position parsed.rest) ∧
    (∀ later, Turn ((splitEnd tokens).1.drop position) later →
      LeftAfter (splitEnd tokens).1 position later) ∧
    LoopsByTurns ((splitEnd tokens).1.drop position) ∧
    (∀ count rest, ByTurns ((splitEnd tokens).1.drop position) count rest →
      count + rest.length ≤ ((splitEnd tokens).1.drop position).length) ∧
    (∀ text reader, (∀ inside, inside.utf8ByteSize < text.utf8ByteSize →
      reader inside = quotedType inside) → quotedWith reader text = quotedType text) :=
  ⟨fun _ isOk => (advances_statement isOk).leftAfter,
    fun _ isOk => (advances_expressionAt isOk).leftAfter,
    fun _ _ isOk => (advances_typeExpr isOk).leftAfter,
    fun _ turn => turn.advances.leftAfter, loopsByTurns _, fun _ _ turns => turns.count_le.2,
    fun _ _ => quotedWith_eq⟩

end Grammar

end Offside
