import Offside.Compile
import Offside.Proofs.Grammar.Spacing
import Offside.Proofs.Outcome
import Offside.Proofs.Token.Balance

/-!
# Lines without words

A line of blanks, with or without a comment, can be put in before any line of a source. The source
is accepted as before, and its tree is the same with the later lines moved down by one.
-/

namespace Offside

theorem Token.Spaced.of_concat {move : Nat → Nat} {front tokens' : List Token} {last : Token}
    (spaced : Spaced move (front ++ [last]) tokens') (isWord : last.kind ≠ .newline) :
    ∃ front', tokens' = front' ++ [last.moved move] ∧ Spaced move front front' := by
  generalize whole : front ++ [last] = tokens at spaced
  induction spaced generalizing front with
  | nil => simp at whole
  | @word token rest rest' isWord' later induction =>
      cases front with
      | nil =>
          obtain ⟨rfl, rfl⟩ := List.cons.inj whole
          obtain rfl := later.eq_nil
          exact ⟨[], rfl, .nil⟩
      | cons first front =>
          obtain ⟨rfl, isRest⟩ := List.cons.inj whole
          obtain ⟨front', rfl, inner⟩ := induction isRest
          exact ⟨first.moved move :: front', rfl, .word isWord' inner⟩
  | @lineEnd mark mark' rest rest' marks marks' later induction =>
      cases front with
      | nil =>
          obtain ⟨rfl, _⟩ := List.cons.inj whole
          exact absurd marks isWord
      | cons first front =>
          obtain ⟨rfl, isRest⟩ := List.cons.inj whole
          obtain ⟨front', rfl, inner⟩ := induction isRest
          exact ⟨mark' :: front', rfl, .lineEnd marks marks' inner⟩
  | @further mark mark' rest rest' marks marks' later induction =>
      cases front with
      | nil =>
          obtain ⟨rfl, _⟩ := List.cons.inj whole
          exact absurd marks isWord
      | cons first front =>
          obtain ⟨front', rfl, inner⟩ := induction whole
          obtain ⟨rfl, _⟩ := List.cons.inj whole
          exact ⟨mark' :: front', rfl, .further marks marks' inner⟩

namespace Grammar

/-- Both are refused, or both make the same tree on other lines. -/
theorem toOption_sourceBody {move : Nat → Nat} (tokens tokens' : List Token)
    (loose : Loose move tokens tokens') :
    (sourceBody tokens').toOption = (sourceBody tokens).toOption.map (movedBody move) := by
  have skipped := length_skipNewlines_le tokens
  rw [sourceBody.eq_def tokens, sourceBody.eq_def tokens', loose.peek_eq]
  split
  · rfl
  · rcases (agree_statement _ _ loose).cases with ⟨refusal, refusal', refused, refused'⟩ |
      ⟨first, rest, shorter, rest', shorter', isFirst, isFirst', leaves⟩
    · rw [refused, refused']
      rfl
    · have later := toOption_sourceBody rest rest' leaves
      rw [isFirst, isFirst']
      simp only [Offside.Outcome.ok_bind, Offside.Outcome.toOption_bind_pure, later, Option.map_map,
        Function.comp_def, movedBody_cons]
termination_by tokens.length

end Grammar

theorem toOption_parse {source : String} {body : List Token} {last : Token}
    (scanned : Token.ofSource source = body ++ [last])
    (inside : ∀ token ∈ body, ¬ token.EndsScan) (ends : last.EndsScan) :
    (parse source).toOption =
      if last.kind = .error then none else (Grammar.sourceBody body).toOption := by
  rw [parse, tokenize, scanned, List.getLast?_concat]
  dsimp only
  split
  · rfl
  · rename_i sound
    have isEnd : last.kind = .endOfFile := ends.resolve_right sound
    have noFault : Grammar.scanFault? (body ++ [last]) = none := by
      refine List.find?_eq_none.mpr fun token member isError => ?_
      rcases List.mem_append.mp member with member | isLast
      · exact inside token member (.inr (by simpa using isError))
      · obtain rfl := List.mem_singleton.mp isLast
        exact sound (by simpa using isError)
    rw [Offside.Outcome.ok_bind, parseTokens, noFault]
    dsimp only
    rw [Grammar.splitEnd, List.getLast?_concat]
    dsimp only
    rw [if_pos isEnd, List.dropLast_concat]
    dsimp only
    cases Grammar.sourceBody body <;> rfl

theorem ofSource_insert_bareLine {before bare after : String} (whole : WholeLines before.toList)
    (isBareLine : BareLine bare.toList) {body : List Token} {last : Token}
    (scanned : Token.ofSource (before ++ after) = body ++ [last]) (ends : last.EndsScan) :
    ∃ body', Token.ofSource (before ++ bare ++ after) =
        body' ++ [last.moved (shiftedLine (before.toList.count '\n' + 1))] ∧
      Grammar.Loose (shiftedLine (before.toList.count '\n' + 1)) body body' := by
  have isWord : last.kind ≠ .newline := by
    rcases ends with isEnd | isError
    · rw [isEnd]
      nofun
    · rw [isError]
      nofun
  -- A line end in front shows the line that is put in also where it is the first one.
  obtain ⟨mark, marks⟩ : ∃ mark : Token, mark.kind = .newline := ⟨⟨.newline, none, 0, 0⟩, rfl⟩
  have spaced := (Token.spaced_scan isBareLine after.toList).2 [0] 1 before.toList whole mark marks
  have joined :
      before.toList ++ (bare.toList ++ after.toList) = (before ++ bare ++ after).toList := by
    simp
  rw [Nat.add_comm 1, joined, ← String.toList_append] at spaced
  change Token.Spaced _ (mark :: Token.ofSource (before ++ after))
    (mark :: Token.ofSource (before ++ bare ++ after)) at spaced
  rw [scanned, ← List.cons_append] at spaced
  obtain ⟨front', isFront, inner⟩ := spaced.of_concat isWord
  cases front' with
  | nil => exact nomatch inner
  | cons first body' =>
      obtain ⟨rfl, isBody⟩ := List.cons.inj isFront
      exact ⟨body', isBody, inner.after_newline marks marks⟩

/-- A line without words changes nothing but the numbers of the lines from it on. -/
theorem parse_insert_bareLine (before bare after : String) (whole : WholeLines before.toList)
    (isBareLine : BareLine bare.toList) :
    (parse (before ++ bare ++ after)).toOption =
      (parse (before ++ after)).toOption.map
        (movedBody (shiftedLine (before.toList.count '\n' + 1))) := by
  have closes (source : String) : Token.Closes 0 (Token.ofSource source) :=
    .of_scans (Token.scans_ofSource source) (by simp)
  obtain ⟨body, last, scanned, ends, inside⟩ := (closes (before ++ after)).ends
  obtain ⟨body', scanned', loose⟩ := ofSource_insert_bareLine whole isBareLine scanned ends
  obtain ⟨front, end_, isScan, _, inside'⟩ := (closes (before ++ bare ++ after)).ends
  obtain ⟨rfl, _⟩ := List.append_inj' (isScan.symm.trans scanned') rfl
  rw [toOption_parse scanned inside ends, toOption_parse scanned' inside' ends, Token.kind_moved]
  split
  · rfl
  · exact Grammar.toOption_sourceBody body front loose

theorem parse_insert_bareLine_inBlock :
    WholeLines "def main():\n".toList ∧ BareLine "\t # note\n".toList ∧
      (parse ("def main():\n" ++ "    pass\n")).toOption.map linesOf = some [1, 2] ∧
      (parse ("def main():\n" ++ "\t # note\n" ++ "    pass\n")).toOption.map linesOf =
        some [1, 3] := by
  have whole : WholeLines "def main():\n".toList := .inr (by decide)
  have blanks : ∀ char ∈ ['\t', ' '], Token.isIndentation char := List.all_eq_true.mp (by decide)
  have isBareLine : BareLine "\t # note\n".toList :=
    ⟨['\t', ' '], "# note".toList, by decide, blanks, .inr ⟨" note".toList, by decide, by decide⟩⟩
  refine ⟨whole, isBareLine, by decide +kernel, ?_⟩
  rw [parse_insert_bareLine _ _ _ whole isBareLine]
  decide +kernel

end Offside
