import Offside.Proofs.Grammar.BareLines
import Offside.Proofs.Token.CarriageReturns

/-!
# Sources with carriage returns

The grammar asks for the sorts, texts and lines of tokens and never for their columns. So a source
that is written with carriage returns in front of its line ends makes the tree that it makes without
them, on the same lines.
-/

namespace Offside

mutual

theorem Form.moved_id : (form : Form) → form.moved id = form
  | .function ⟨name, params, returns, body⟩ => by
      have params_eq : params.map (Parameter.moved id) = params := List.map_id params
      rw [Form.moved, params_eq, movedBody_id body]
  | .classDef ⟨name, bases, kind, body⟩ => by rw [Form.moved, movedBody_id body]
  | .branch test body orelse => by rw [Form.moved, movedBody_id body, movedBody_id orelse]
  | .whileLoop test body label => by rw [Form.moved, movedBody_id body]
  | .forLoop target iter body label => by rw [Form.moved, movedBody_id body]
  | .select subject cases => by rw [Form.moved, movedCases_id cases]
  | .assign target value => rfl
  | .declare target written value => rfl
  | .jump jump label => rfl
  | .ret value => rfl
  | .expr value => rfl
  | .pass => rfl
  | .import_ request => rfl

theorem movedBody_id : (body : List Statement) → movedBody id body = body
  | [] => rfl
  | ⟨line, form⟩ :: body => by rw [movedBody, Form.moved_id form, movedBody_id body, id_eq]

theorem movedCases_id : (cases : List Case) → movedCases id cases = cases
  | [] => rfl
  | ⟨pattern, body, line⟩ :: cases => by
      rw [movedCases, movedBody_id body, movedCases_id cases, id_eq]

end

namespace Token

/-- Where no literal is left open, carriage returns only move line ends. -/
theorem Pushed.spaced {chars : List Char} {tokens tokens' : List Token}
    (pushed : List.Forall₂ (Pushed chars) tokens tokens')
    (sound : ∀ token ∈ tokens, token.kind ≠ .error) : Spaced id tokens tokens' := by
  induction pushed with
  | nil => exact .nil
  | @cons token token' rest rest' first _ induction =>
      have later := induction fun other member => sound other (List.mem_cons_of_mem _ member)
      by_cases ends : token.kind = .newline
      · exact .lineEnd ends (first.kind_eq.trans ends) later
      · have away : ¬ AtLineEnd chars token := by
          rintro (isLineEnd | ⟨isFault, _⟩)
          · exact ends isLineEnd
          · exact sound token List.mem_cons_self (congrArg Token.kind isFault)
        have same : token' = token.moved id := by
          obtain ⟨kind, lexeme, line, column⟩ := token'
          obtain ⟨rfl, rfl, rfl, _, kept⟩ := first
          obtain rfl := kept away
          rfl
        rw [same]
        exact .word ends later

end Token

theorem toOption_parse_withReturns (source : String) :
    (parse (String.ofList (withReturns source.toList))).toOption = (parse source).toOption := by
  have closes (source : String) : Token.Closes 0 (Token.ofSource source) :=
    .of_scans (Token.scans_ofSource source) (by simp)
  obtain ⟨front, last, scanned, ends, inside⟩ := (closes source).ends
  obtain ⟨front', last', scanned', ends', inside'⟩ :=
    (closes (String.ofList (withReturns source.toList))).ends
  have pushed := Token.pushed_ofSource source
  rw [scanned, scanned', ← List.forall₂_reverse_iff, List.reverse_concat, List.reverse_concat,
    List.forall₂_cons, List.forall₂_reverse_iff] at pushed
  obtain ⟨lasts, fronts⟩ := pushed
  have spaced : Token.Spaced id front front' :=
    Token.Pushed.spaced fronts fun token member isError => inside token member (.inr isError)
  rw [toOption_parse scanned inside ends, toOption_parse scanned' inside' ends', lasts.kind_eq]
  split
  · rfl
  · rw [Grammar.toOption_sourceBody front front' spaced.skipNewlines, funext movedBody_id]
    exact Option.map_id'

/-- Carriage returns in front of line ends change no token but for the columns of what stands at a
line end, and leave the tree with its lines as it is. -/
theorem carriage_returns_are_inert (source : String) :
    List.Forall₂ (Token.Pushed source.toList) (Token.ofSource source)
      (Token.ofSource (String.ofList (withReturns source.toList))) ∧
    ∀ body, parse (String.ofList (withReturns source.toList)) = .ok body ↔
      parse source = .ok body := by
  refine ⟨Token.pushed_ofSource source, fun body => ?_⟩
  rw [← Outcome.toOption_eq_some, ← Outcome.toOption_eq_some, toOption_parse_withReturns]

end Offside
