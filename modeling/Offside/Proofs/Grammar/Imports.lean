import Offside.Compile
import Offside.Proofs.Grammar.Sources
import Offside.Proofs.Token.Words

/-!
# Paths of imports

The components of an imported path are identifiers of the source, so none is empty and none holds a
dot. The dotted form of a path therefore tells the path.
-/

namespace Offside

open Outcome

variable {path : List String} {source : String}

namespace IsIdentifier

variable {chars : List Char}

theorem ne_nil (isIdentifier : IsIdentifier chars) : chars ≠ [] := by
  obtain ⟨first, rest, rfl, _⟩ := isIdentifier
  exact List.cons_ne_nil first rest

theorem notMem (isIdentifier : IsIdentifier chars) {char : Char}
    (foreign : Lexeme.isIdentifierRest char = false) : char ∉ chars := by
  obtain ⟨first, rest, rfl, starts, continues⟩ := isIdentifier
  intro member
  rcases List.mem_cons.mp member with rfl | later
  · simp_all [Lexeme.isIdentifierStart, Lexeme.isIdentifierRest, Char.isAlphanum]
  · exact absurd (continues char later) (by simp [foreign])

theorem dot_notMem (isIdentifier : IsIdentifier chars) : '.' ∉ chars :=
  isIdentifier.notMem (by decide)

end IsIdentifier

/-- A dotted path is cut at its dots into its components. -/
theorem splitOn_dotted (areIdentifiers : ∀ part ∈ path, IsIdentifier part.toList)
    (nonempty : path ≠ []) :
    (".".intercalate path).toList.splitOn '.' = path.map String.toList := by
  rw [String.toList_intercalate]
  refine List.splitOn_intercalate '.' ?_ (by simpa using nonempty)
  intro chars member
  obtain ⟨part, isPart, rfl⟩ := List.mem_map.mp member
  exact (areIdentifiers part isPart).dot_notMem

theorem dotted_ne_empty (areIdentifiers : ∀ part ∈ path, IsIdentifier part.toList)
    (nonempty : path ≠ []) : ".".intercalate path ≠ "" := by
  intro isEmpty
  have cut := splitOn_dotted areIdentifiers nonempty
  rw [isEmpty] at cut
  obtain ⟨part, rfl, isNil⟩ := List.map_eq_singleton_iff.mp cut.symm
  exact (areIdentifiers part List.mem_cons_self).ne_nil isNil

/-- Paths of identifiers with the same dotted form are the same. -/
theorem eq_of_dotted_eq {path' : List String}
    (areIdentifiers : ∀ part ∈ path, IsIdentifier part.toList)
    (areIdentifiers' : ∀ part ∈ path', IsIdentifier part.toList)
    (same : ".".intercalate path = ".".intercalate path') : path = path' := by
  by_cases isNil : path = []
  · subst isNil
    by_contra differ
    exact dotted_ne_empty areIdentifiers' (Ne.symm differ) same.symm
  · by_cases isNil' : path' = []
    · subst isNil'
      exact absurd same (dotted_ne_empty areIdentifiers isNil)
    · have cut := splitOn_dotted areIdentifiers isNil
      rw [same, splitOn_dotted areIdentifiers' isNil'] at cut
      exact List.map_injective_iff.mpr (fun _ _ => String.toList_injective) cut.symm

/-- The tokens of a source without faults have spellings in it. -/
theorem exists_spells {token : Token}
    (faultless : ∀ token ∈ Token.ofSource source, token.kind ≠ .error)
    (member : token ∈ Token.ofSource source) (isSpelled : token.isSpelled) :
    ∃ spelling, spelling <:+: source.toList ∧ Token.Spells token.kind token.lexeme spelling := by
  obtain ⟨words, trailing, areTokens, makesUp⟩ :=
    Token.exists_makesUp (Token.scans_ofSource source) faultless .start
  have spelled : token ∈ words.map (·.token) := by
    rw [areTokens]
    exact List.mem_filter.mpr ⟨member, isSpelled⟩
  obtain ⟨word, isWord, rfl⟩ := List.mem_map.mp spelled
  obtain ⟨earlier, later, rfl⟩ := List.append_of_mem isWord
  refine ⟨word.spelling, ⟨Token.textOf earlier ++ word.gap, Token.textOf later ++ trailing, ?_⟩,
    (makesUp.between earlier word later rfl).spells⟩
  simp [makesUp.text_eq, Token.textOf]

theorem isWord_of_isName {name : String}
    (faultless : ∀ token ∈ Token.ofSource source, token.kind ≠ .error)
    (isName : Grammar.IsName (Token.ofSource source) name) : IsWord name := by
  obtain ⟨token, member, isIdentifier, rfl⟩ := isName
  obtain ⟨spelling, _, spells⟩ :=
    exists_spells faultless member (by simp [Token.isSpelled, isIdentifier])
  rw [isIdentifier] at spells
  obtain ⟨isText, spelling, notReserved⟩ := spells
  rw [Token.text, isText, Option.getD_some]
  exact ⟨by rwa [String.toList_ofList], notReserved⟩

theorem eq_of_tokenize {tokens : List Token} (isTokens : tokenize source = .ok tokens) :
    Token.ofSource source = tokens := by
  rw [tokenize] at isTokens
  split at isTokens
  · simpa using (error_ite_eq_ok.mp isTokens).2
  · exact Except.ok.inj isTokens

theorem mem_of_mem_splitEnd {tokens : List Token} {token : Token}
    (member : token ∈ (Grammar.splitEnd tokens).1) : token ∈ tokens := by
  rw [Grammar.splitEnd] at member
  cases isLast : tokens.getLast? with
  | none => simp [isLast] at member
  | some last =>
      simp only [isLast] at member
      by_cases isEnd : last.kind = .endOfFile
      · exact (List.dropLast_sublist tokens).mem (by simpa [isEnd] using member)
      · simpa [isEnd] using member

/-- A source that is parsed has no faults, and its tokens make its statements. -/
theorem bodyFrom_of_parse {body : List Statement} (parsed : parse source = .ok body) :
    (∀ token ∈ Token.ofSource source, token.kind ≠ .error) ∧
      Grammar.BodyFrom (Grammar.splitEnd (Token.ofSource source)).1 body := by
  simp only [parse, bind_eq_ok] at parsed
  obtain ⟨tokens, isTokens, parsed⟩ := parsed
  obtain rfl := eq_of_tokenize isTokens
  rw [parseTokens] at parsed
  cases fault : Grammar.scanFault? (Token.ofSource source) with
  | some token => simp [fault] at parsed
  | none =>
      simp only [fault, mapError_eq_ok] at parsed
      exact ⟨by simpa [Grammar.scanFault?] using fault,
        Grammar.bodyFrom_of_sourceBody _ List.suffix_rfl parsed⟩

/-- Whether the components of an imported path are identifiers. -/
def Import.IsNamed (request : Import) : Prop := ∀ part ∈ request.path, IsIdentifier part.toList

theorem isNamed_of_imports {requests : List Import} (read : imports source = .ok requests) :
    ∀ request ∈ requests, request.IsNamed := by
  simp only [imports, bind_eq_ok, pure_eq_ok] at read
  obtain ⟨body, parsed, rfl⟩ := read
  obtain ⟨faultless, isFrom⟩ := bodyFrom_of_parse parsed
  intro request member part isPart
  obtain ⟨⟨line, form⟩, isStatement, isImport⟩ := List.mem_filterMap.mp member
  cases form with
  | import_ other =>
      obtain rfl := Option.some.inj isImport
      have named := isFrom.formFrom isStatement
      rw [Grammar.FormFrom] at named
      obtain ⟨token, isToken, isName⟩ := named part isPart
      exact (isWord_of_isName faultless ⟨token, mem_of_mem_splitEnd isToken, isName⟩).1
  | _ => simp at isImport

end Offside
