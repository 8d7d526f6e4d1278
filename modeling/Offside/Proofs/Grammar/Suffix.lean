import Offside.Grammar.Statement
import Offside.Proofs.Outcome

/-!
# What rules leave

Every rule of the grammar takes tokens from the front: what it leaves is an end of what it was
given. So whatever a rule reads is among the tokens of the source. A rule that fails is refused by
the grammar, also where it reads a text that the scan of a quoted annotation stops in.
-/

namespace Offside

namespace Grammar

/-- Whether a rule leaves an end of given tokens, or is refused by the grammar. -/
structure Takes {α : Type} {bound : Nat} (tokens : List Token) (makes : α → Prop)
    (outcome : Outcome α bound) : Prop where
  made : ∀ parsed, outcome = .ok parsed → parsed.rest <:+ tokens ∧ makes parsed.value
  refused : Offside.Outcome.FailsAt .parsing outcome

/-- Whether a rule leaves an end of given tokens or is refused. -/
abbrev Leaves {α : Type} {bound : Nat} (tokens : List Token) (outcome : Outcome α bound) : Prop :=
  Takes tokens (fun _ => True) outcome

namespace Takes

variable {α β : Type} {bound bound' : Nat} {tokens rest : List Token} {makes : α → Prop}
  {makes' : β → Prop}

theorem ok {parsed : Parsed α bound} (suffix : parsed.rest <:+ tokens)
    (holds : makes parsed.value) : Takes tokens makes (.ok parsed) where
  made other isOk := by
    obtain rfl := Except.ok.inj isOk
    exact ⟨suffix, holds⟩
  refused := by rintro _ ⟨⟩

theorem error (reason : Reason) (place : Option Token) :
    Takes tokens makes (.error (.parsing reason place) : Outcome α bound) where
  made := by rintro _ ⟨⟩
  refused := by
    rintro _ ⟨⟩
    rfl

theorem bind {outcome : Outcome α bound} {next : Parsed α bound → Outcome β bound'}
    (first : Takes tokens makes outcome)
    (follow : ∀ parsed, parsed.rest <:+ tokens → makes parsed.value →
      Takes tokens makes' (next parsed)) : Takes tokens makes' (outcome >>= next) := by
  cases outcome with
  | error fault =>
      refine ⟨by rintro _ ⟨⟩, ?_⟩
      rintro _ ⟨⟩
      exact first.refused fault rfl
  | ok parsed =>
      obtain ⟨suffix, holds⟩ := first.made parsed rfl
      exact follow parsed suffix holds

theorem mono {outcome : Outcome α bound} {weaker : α → Prop} (takes : Takes tokens makes outcome)
    (implies : ∀ value, makes value → weaker value) : Takes tokens weaker outcome where
  made parsed isOk := ⟨(takes.made parsed isOk).1, implies _ (takes.made parsed isOk).2⟩
  refused := takes.refused

theorem of_suffix {outcome : Outcome α bound} (takes : Takes rest makes outcome)
    (suffix : rest <:+ tokens) : Takes tokens makes outcome where
  made parsed isOk := ⟨(takes.made parsed isOk).1.trans suffix, (takes.made parsed isOk).2⟩
  refused := takes.refused

end Takes

theorem eq_of_eat? {kind : Token.Kind} {tokens rest : List Token} {token : Token}
    {shorter : rest.length < tokens.length}
    (eaten : eat? kind tokens = some ⟨token, rest, shorter⟩) :
    tokens = token :: rest ∧ token.kind = kind := by
  cases tokens with
  | nil => simp [eat?] at eaten
  | cons first others =>
      simp only [eat?, Option.ite_none_right_eq_some, Option.some.injEq, Parsed.mk.injEq] at eaten
      obtain ⟨isKind, rfl, rfl⟩ := eaten
      exact ⟨rfl, isKind⟩

theorem suffix_of_eat? {kind : Token.Kind} {tokens : List Token}
    {parsed : Parsed Token tokens.length} (eaten : eat? kind tokens = some parsed) :
    parsed.rest <:+ tokens :=
  ⟨[parsed.value], (eq_of_eat? eaten).1.symm⟩

theorem takes_expect (kind : Token.Kind) (what : Expected) (tokens : List Token) :
    Takes tokens (fun token => token ∈ tokens ∧ token.kind = kind) (expect kind what tokens) := by
  rw [expect]
  cases eaten : eat? kind tokens with
  | none => exact .error _ _
  | some parsed =>
      obtain ⟨token, rest, shorter⟩ := parsed
      obtain ⟨rfl, isKind⟩ := eq_of_eat? eaten
      exact .ok (suffix_of_eat? eaten) ⟨List.mem_cons_self, isKind⟩

theorem leaves_expect (kind : Token.Kind) (what : Expected) (tokens : List Token) :
    Leaves tokens (expect kind what tokens) :=
  (takes_expect kind what tokens).mono fun _ _ => trivial

/-- Whether a text is that of an identifier among given tokens. -/
def IsName (tokens : List Token) (text : String) : Prop :=
  ∃ token ∈ tokens, token.kind = .identifier ∧ token.text = text

theorem takes_identifier (what : Expected) (tokens : List Token) :
    Takes tokens (IsName tokens) (identifier what tokens) := by
  rw [identifier]
  refine (takes_expect .identifier what tokens).bind ?_
  rintro ⟨token, rest, _⟩ suffix ⟨member, isName⟩
  exact .ok suffix ⟨token, member, isName, rfl⟩

theorem suffix_skipNewlines (tokens : List Token) : skipNewlines tokens <:+ tokens :=
  List.dropWhile_suffix _

theorem IsName.of_suffix {tokens rest : List Token} {text : String} (isName : IsName rest text)
    (suffix : rest <:+ tokens) : IsName tokens text := by
  obtain ⟨token, member, named⟩ := isName
  exact ⟨token, suffix.mem member, named⟩

/-- A condition on annotations, inside brackets or not, that passes from parts to the whole. -/
structure Inherited (tokens : List Token) (quoted : QuotedReader)
    (fits : Bool → TypeExpr → Prop) : Prop where
  none : ∀ bracketed, fits bracketed (.name "None")
  name : ∀ bracketed text, IsName tokens text → fits bracketed (.name text)
  size : ∀ text count, Number.size? text = some count → fits true (.size count)
  generic : ∀ bracketed text args, IsName tokens text → args ≠ [] → (∀ arg ∈ args, fits true arg) →
    fits bracketed (.generic text args)
  quoted : ∀ bracketed text written, quoted text = .ok written → fits bracketed written
  tuple : ∀ bracketed items, 2 ≤ items.length → (∀ item ∈ items, fits false item) →
    fits bracketed (.tuple items)

theorem Inherited.of_suffix {tokens rest : List Token} {quoted : QuotedReader}
    {fits : Bool → TypeExpr → Prop} (inherited : Inherited tokens quoted fits)
    (suffix : rest <:+ tokens) : Inherited rest quoted fits where
  none := inherited.none
  name bracketed text isName := inherited.name bracketed text (isName.of_suffix suffix)
  size := inherited.size
  generic bracketed text args isName :=
    inherited.generic bracketed text args (isName.of_suffix suffix)
  quoted := inherited.quoted
  tuple := inherited.tuple

mutual

theorem takes_typeExpr {quoted : QuotedReader} {fits : Bool → TypeExpr → Prop}
    (tokens : List Token) : Inherited tokens quoted fits →
    Takes tokens (fun written => ∀ bracketed, fits bracketed written) (typeExpr quoted tokens) := by
  rw [typeExpr.eq_def]
  cases tokens with
  | nil => exact fun _ => .error _ _
  | cons token rest =>
      intro inherited
      have inside := List.suffix_cons token rest
      dsimp only
      split
      · rename_i isIdentifier
        have isName : IsName (token :: rest) token.text :=
          ⟨token, List.mem_cons_self, isIdentifier, rfl⟩
        cases eaten : eat? (.punct .leftBracket) rest with
        | none => exact .ok inside fun bracketed => inherited.name bracketed _ isName
        | some parsed =>
            obtain ⟨_, inner, h₁⟩ := parsed
            have opened := (suffix_of_eat? eaten).trans inside
            have arguments := takes_typeArguments inner (inherited.of_suffix opened)
            refine (arguments.of_suffix opened).bind ?_
            rintro ⟨args, afterArgs, h₂⟩ suffix ⟨nonempty, fit⟩
            exact ((leaves_expect _ _ afterArgs).of_suffix suffix).bind fun _ suffix _ =>
              .ok suffix fun bracketed => inherited.generic bracketed _ args isName nonempty fit
      · exact .ok inside inherited.none
      · split
        · rename_i written isQuoted
          exact .ok inside fun bracketed => inherited.quoted bracketed _ written isQuoted
        · exact .error _ _
      · refine ((takes_typeExpr rest (inherited.of_suffix inside)).of_suffix inside).bind ?_
        rintro ⟨first, afterFirst, h₁⟩ suffix fitsFirst
        refine ((takes_typeItems afterFirst (inherited.of_suffix suffix)).of_suffix suffix).bind ?_
        rintro ⟨others, afterItems, h₂⟩ suffix fit
        refine ((leaves_expect _ _ afterItems).of_suffix suffix).bind fun _ suffix _ =>
          .ok suffix ?_
        cases others with
        | nil => exact fitsFirst
        | cons second others =>
            intro bracketed
            exact inherited.tuple bracketed (first :: second :: others) (by simp)
              (List.forall_mem_cons.mpr ⟨fitsFirst false, fit⟩)
      · exact .error _ _
termination_by 2 * tokens.length

theorem takes_typeArguments {quoted : QuotedReader} {fits : Bool → TypeExpr → Prop}
    (tokens : List Token) (inherited : Inherited tokens quoted fits) :
    Takes tokens (fun args => args ≠ [] ∧ ∀ arg ∈ args, fits true arg)
      (typeArguments quoted tokens) := by
  rw [typeArguments]
  have first : Takes tokens (fits true)
      (match eat? .number tokens with
        | some ⟨token, rest, h⟩ =>
            match Number.size? token.text with
            | some count => .ok ⟨.size count, rest, h⟩
            | none => .error (.parsing .invalidSize (some token))
        | none => typeExpr quoted tokens : Outcome TypeExpr tokens.length) := by
    cases eaten : eat? .number tokens with
    | none => exact (takes_typeExpr tokens inherited).mono fun _ fit => fit true
    | some parsed =>
        dsimp only
        split
        · rename_i count isSize
          exact .ok (suffix_of_eat? eaten) (inherited.size _ count isSize)
        · exact .error _ _
  refine first.bind ?_
  rintro ⟨arg, afterArg, h₁⟩ suffix fitsArg
  dsimp only
  cases eaten : eat? (.punct .comma) afterArg with
  | none => exact .ok suffix (by simpa using fitsArg)
  | some parsed =>
      obtain ⟨_, rest, h₂⟩ := parsed
      have separated := (suffix_of_eat? eaten).trans suffix
      have others := takes_typeArguments rest (inherited.of_suffix separated)
      refine (others.of_suffix separated).bind ?_
      rintro ⟨args, left, h₃⟩ suffix ⟨_, fit⟩
      exact .ok suffix ⟨List.cons_ne_nil arg args, List.forall_mem_cons.mpr ⟨fitsArg, fit⟩⟩
termination_by 2 * tokens.length + 1

theorem takes_typeItems {quoted : QuotedReader} {fits : Bool → TypeExpr → Prop}
    (tokens : List Token) (inherited : Inherited tokens quoted fits) :
    Takes tokens (fun items => ∀ item ∈ items, fits false item) (typeItems quoted tokens) := by
  rw [typeItems]
  cases eaten : eat? (.punct .comma) tokens with
  | none => exact .ok List.suffix_rfl nofun
  | some parsed =>
      obtain ⟨_, rest, h₁⟩ := parsed
      have inside := suffix_of_eat? eaten
      dsimp only
      split
      · exact .ok inside nofun
      · refine ((takes_typeExpr rest (inherited.of_suffix inside)).of_suffix inside).bind ?_
        rintro ⟨item, afterItem, h₂⟩ suffix fitsItem
        refine ((takes_typeItems afterItem (inherited.of_suffix suffix)).of_suffix suffix).bind ?_
        rintro ⟨items, left, h₃⟩ suffix fit
        exact .ok suffix (List.forall_mem_cons.mpr ⟨fitsItem false, fit⟩)
termination_by 2 * tokens.length

end

theorem leaves_typeExpr (quoted : QuotedReader) (tokens : List Token) :
    Leaves tokens (typeExpr quoted tokens) := by
  have inherited : Inherited tokens quoted fun _ _ => True := by
    constructor <;> exact fun _ => by simp
  exact (takes_typeExpr tokens inherited).mono fun _ _ => trivial

end Grammar

end Offside
