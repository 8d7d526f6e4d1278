import Offside.Proofs.Token.Scan

/-!
# Balanced layout

Indentation opens and closes blocks like brackets. A scan keeps the widths of the open blocks on a
stack whose lowest entry is zero; no line is narrower than that, so nothing closes the outermost
level, and the end of a source closes exactly what is still open.
-/

namespace Offside

namespace Token

def count (kind : Kind) (tokens : List Token) : Nat := tokens.countP (·.kind = kind)

@[simp]
theorem count_nil (kind : Kind) : count kind [] = 0 := rfl

theorem count_cons (kind : Kind) (token : Token) (tokens : List Token) :
    count kind (token :: tokens) = count kind [token] + count kind tokens := by
  simp only [count]
  rw [← List.countP_append, List.singleton_append]

/-- No line is narrower than the outermost level, which stays open. -/
theorem Shift.zero_mem_indents {indents : List Nat} (width : Nat) (base : 0 ∈ indents) :
    0 ∈ (Shift.of indents width).indents := by
  rw [Shift.of]
  split
  · exact List.mem_cons_of_mem _ base
  · rw [← List.takeWhile_append_dropWhile (p := (width < ·)) (l := indents)] at base
    rcases List.mem_append.mp base with closed | kept
    · exact absurd (List.mem_takeWhile_imp closed) (by simp)
    · exact kept

/-- Whether a token stands for the end of a scan. -/
def EndsScan (token : Token) : Prop := token.kind = .endOfFile ∨ token.kind = .error

/-- Tokens that close no more blocks than are open, with an end as the last alone. -/
structure Closes (depth : Nat) (tokens : List Token) : Prop where
  ends : ∃ body last, tokens = body ++ [last] ∧ last.EndsScan ∧ ∀ token ∈ body, ¬ token.EndsScan
  within : ∀ {front : List Token}, front <+: tokens →
    count .dedent front ≤ depth + count .indent front
  settled : ∀ {body : List Token} {last : Token}, tokens = body ++ [last] →
    last.kind = .endOfFile → count .dedent tokens = depth + count .indent tokens

namespace Closes

variable {depth depth' : Nat} {tokens : List Token} {token : Token}

theorem cons (goesOn : ¬ token.EndsScan)
    (shifts : depth + count .indent [token] = depth' + count .dedent [token])
    (later : Closes depth' tokens) : Closes depth (token :: tokens) where
  ends := by
    obtain ⟨body, last, rfl, isLast, others⟩ := later.ends
    refine ⟨token :: body, last, rfl, isLast, ?_⟩
    intro other member
    rcases List.mem_cons.mp member with rfl | member
    · exact goesOn
    · exact others other member
  within := by
    intro front isFront
    rcases List.prefix_cons_iff.mp isFront with rfl | ⟨inner, rfl, isInner⟩
    · simp
    · have inside := later.within isInner
      rw [count_cons .dedent, count_cons .indent]
      omega
  settled := by
    intro body last isLast isEnd
    cases body with
    | nil =>
        obtain ⟨rfl, _⟩ := List.cons.inj isLast
        exact absurd (.inl isEnd) goesOn
    | cons first body =>
        have inside := later.settled (List.cons.inj isLast).2 isEnd
        rw [count_cons .dedent, count_cons .indent]
        omega

theorem plain (goesOn : ¬ token.EndsScan) (opensNone : token.kind ≠ .indent)
    (closesNone : token.kind ≠ .dedent) (later : Closes depth tokens) :
    Closes depth (token :: tokens) := by
  refine cons goesOn ?_ later
  simp [count, opensNone, closesNone]

theorem opens (line : Nat) (later : Closes (depth + 1) tokens) :
    Closes depth (layout line .indent :: tokens) :=
  cons (by simp [EndsScan, layout]) (by simp [count, layout]) later

theorem closes (line : Nat) (later : Closes depth tokens) :
    Closes (depth + 1) (layout line .dedent :: tokens) :=
  cons (by simp [EndsScan, layout]) (by simp [count, layout]) later

theorem closesAll (line : Nat) (later : Closes depth tokens) (blocks : Nat) :
    Closes (depth + blocks) (List.replicate blocks (layout line .dedent) ++ tokens) := by
  induction blocks with
  | zero => simpa using later
  | succ blocks induction =>
      rw [List.replicate_succ, List.cons_append]
      exact closes line induction

theorem last (ends : token.EndsScan) (settled : token.kind = .endOfFile → depth = 0) :
    Closes depth [token] := by
  have opensNone : count .indent [token] = 0 := by
    rcases ends with isEnd | isError <;> simp [count, *]
  have closesNone : count .dedent [token] = 0 := by
    rcases ends with isEnd | isError <;> simp [count, *]
  refine ⟨⟨[], token, rfl, ends, by simp⟩, ?_, ?_⟩
  · intro front isFront
    rcases List.prefix_cons_iff.mp isFront with rfl | ⟨inner, rfl, isInner⟩
    · simp
    · obtain rfl := List.prefix_nil.mp isInner
      omega
  · intro body last isLast isEnd
    obtain ⟨rfl, rfl⟩ : body = [] ∧ last = token := by
      simpa [eq_comm, and_comm] using List.append_eq_singleton_iff.mp isLast.symm
    have closed := settled isEnd
    omega

theorem faulty (line column : Nat) (reason : LexicalFault) :
    Closes depth [Token.faulty line column reason] :=
  last (.inr rfl) nofun

theorem closing (indents : List Nat) (line : Nat) :
    Closes (indents.length - 1) (Token.closing indents line) := by
  have closed : Closes 0 [layout line .endOfFile] := last (.inl rfl) fun _ => rfl
  have all := closesAll line closed (indents.length - 1)
  rw [Nat.zero_add] at all
  exact all

/-- A line opens one block or closes some, but never the outermost level. -/
theorem shift {indents : List Nat} {width : Nat} (line : Nat) (base : 0 ∈ indents)
    (later : Closes ((Shift.of indents width).indents.length - 1) tokens) :
    Closes (indents.length - 1) ((Shift.of indents width).kinds.map (layout line) ++ tokens) := by
  have open_pos := List.length_pos_of_mem base
  have left_pos := List.length_pos_of_mem (Shift.zero_mem_indents width base)
  rw [Shift.of] at later left_pos ⊢
  split at later
  · rename_i wider
    rw [if_pos wider]
    refine opens line ?_
    rwa [List.length_cons, Nat.add_sub_cancel, ← Nat.sub_add_cancel open_pos] at later
  · rename_i narrower
    rw [if_neg narrower] at left_pos ⊢
    dsimp only at later left_pos ⊢
    have kept := (List.dropWhile_suffix (width < ·) (l := indents)).length_le
    have all := closesAll line later
      (indents.length - (indents.dropWhile (width < ·)).length)
    rw [List.map_replicate]
    have depth_eq : (indents.dropWhile (width < ·)).length - 1 +
        (indents.length - (indents.dropWhile (width < ·)).length) = indents.length - 1 := by
      omega
    rwa [depth_eq] at all

theorem of_scans {indents : List Nat} {line : Nat} {column : Option Nat} {chars : List Char}
    (scans : Scans indents line column chars tokens) (base : 0 ∈ indents) :
    Closes (indents.length - 1) tokens := by
  induction scans with
  | finish => exact closing _ _
  | fault => exact faulty _ _ _
  | blank _ _ later => exact later base
  | word spells _ _ later =>
      refine plain ?_ ?_ ?_ (later base)
      · rintro (rfl | rfl) <;> exact spells.elim
      · rintro rfl
        exact spells.elim
      · rintro rfl
        exact spells.elim
  | lineEnd _ later => exact plain (by simp [EndsScan]) nofun nofun (later base)
  | bare _ _ _ later => exact later base
  | aligned _ _ _ later => exact shift _ base (later (Shift.zero_mem_indents _ base))
  | misaligned => exact shift _ base (faulty _ _ _)

end Closes

/-- The tokens of a source end with its end or with the first fault, and no other token is one. From
the left, no more blocks are closed than were opened; at the end of the source all are closed. -/
theorem ofSource_balanced (source : String) :
    ∃ body last, ofSource source = body ++ [last] ∧
      (last.kind = .endOfFile ∨ last.kind = .error) ∧
      (∀ token ∈ body, token.kind ≠ .endOfFile ∧ token.kind ≠ .error) ∧
      (∀ front, front <+: ofSource source → count .dedent front ≤ count .indent front) ∧
      (last.kind = .endOfFile →
        count .dedent (ofSource source) = count .indent (ofSource source)) := by
  have closes : Closes 0 (ofSource source) := .of_scans (scans_ofSource source) (by simp)
  obtain ⟨body, last, whole, isLast, others⟩ := closes.ends
  refine ⟨body, last, whole, isLast, ?_, ?_, ?_⟩
  · intro token member
    exact not_or.mp (others token member)
  · intro front isFront
    simpa using closes.within isFront
  · intro isEnd
    simpa using closes.settled whole isEnd

end Token

end Offside
