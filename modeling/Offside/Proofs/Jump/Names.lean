import Mathlib.Data.List.Nodup
import Offside.Lower.Body
import Offside.Proofs.Jump.Lines

/-!
# Names of loops

The name of a loop is made of what its label looks like and of a number that is given out once. The
number can be read off the labels that come of the name, whatever characters the label had, so loops
with different numbers have no label in common.
-/

namespace Offside

namespace C

/-- The words that are no identifiers. -/
def keywords : List String :=
  ["auto", "break", "case", "char", "const", "continue", "default", "do", "double", "else", "enum",
    "extern", "float", "for", "goto", "if", "inline", "int", "long", "register", "restrict",
    "return", "short", "signed", "sizeof", "static", "struct", "switch", "typedef", "union",
    "unsigned", "void", "volatile", "while", "_Alignas", "_Alignof", "_Atomic", "_Bool",
    "_Complex", "_Generic", "_Imaginary", "_Noreturn", "_Static_assert", "_Thread_local"]

def isIdentifierChar (char : Char) : Bool := char.isAlphanum || char = '_'

/-- A letter or underscore, then letters, digits and underscores, and no keyword. -/
def IsIdentifier (text : String) : Prop :=
  (∃ first rest, text.toList = first :: rest ∧ first.isDigit = false ∧
    ∀ char ∈ first :: rest, isIdentifierChar char) ∧ text ∉ keywords

/-- Equal lists are cut alike at items with as many marked ones before them. -/
theorem cut_at_mark {α : Type} {p : α → Bool} {before before' after after' : List α} {mark : α}
    (marked : p mark = true) (sameCount : before.countP p = before'.countP p)
    (same : before ++ mark :: after = before' ++ mark :: after') :
    before = before' ∧ after = after' := by
  induction before generalizing before' with
  | nil =>
      cases before' with
      | nil => exact ⟨rfl, (List.cons.inj same).2⟩
      | cons head rest =>
          obtain ⟨rfl, _⟩ := List.cons.inj same
          simp [marked] at sameCount
  | cons head rest induction =>
      cases before' with
      | nil =>
          obtain ⟨rfl, _⟩ := List.cons.inj same
          simp [marked] at sameCount
      | cons head' rest' =>
          obtain ⟨rfl, sameRest⟩ := List.cons.inj same
          obtain ⟨rfl, rfl⟩ := induction (by simpa [List.countP_cons] using sameCount) sameRest
          exact ⟨rfl, rfl⟩

/-- A text is cut in one way at its last underscore. -/
theorem cut_at_last {stem stem' tail tail' : List Char} (plain : '_' ∉ tail) (plain' : '_' ∉ tail')
    (same : stem ++ '_' :: tail = stem' ++ '_' :: tail') : stem = stem' ∧ tail = tail' := by
  refine cut_at_mark (p := (· == '_')) rfl ?_ same
  have counts := congrArg (List.count '_') same
  simp only [List.count_append, List.count_cons_self, List.count_eq_zero_of_not_mem plain,
    List.count_eq_zero_of_not_mem plain'] at counts
  exact Nat.succ.inj counts

theorem underscore_notMem_word (jump : Jump) : '_' ∉ jump.word.toList := by
  cases jump <;> decide

theorem toList_jumpLabel (name : String) (jump : Jump) :
    (jumpLabel name jump).toList = name.toList ++ '_' :: jump.word.toList := by
  simp [jumpLabel]

/-- A label tells the name of its loop and which of the two it is. -/
theorem jumpLabel_inj {name name' : String} {jump jump' : Jump}
    (same : jumpLabel name jump = jumpLabel name' jump') : name = name' ∧ jump = jump' := by
  have cut := congrArg String.toList same
  rw [toList_jumpLabel, toList_jumpLabel] at cut
  obtain ⟨sameName, sameWord⟩ :=
    cut_at_last (underscore_notMem_word jump) (underscore_notMem_word jump') cut
  refine ⟨String.toList_inj.mp sameName, ?_⟩
  cases jump <;> cases jump' <;> first | rfl | exact absurd sameWord (by decide)

theorem jumpLabel_notMem_keywords (name : String) (jump : Jump) :
    jumpLabel name jump ∉ keywords := by
  intro member
  have isSuffix : '_' :: jump.word.toList <:+ (jumpLabel name jump).toList := by
    rw [toList_jumpLabel]
    exact List.suffix_append _ _
  have none_ : ∀ word ∈ keywords, ¬ '_' :: jump.word.toList <:+ word.toList := by
    cases jump <;> decide
  exact none_ _ member isSuffix

end C

namespace Lower

/-- The name of the loop that got a number. -/
def loopName (label : String) (number : Nat) : String :=
  cIdentifier label ++ "_" ++ toString number

theorem toList_loopName (label : String) (number : Nat) :
    (loopName label number).toList =
      (cIdentifier label).toList ++ '_' :: Nat.toDigits 10 number := by
  simp [loopName, Nat.toString_eq_repr, Nat.toList_repr]

/-- The name of a loop tells its number. -/
theorem number_eq_of_loopName_eq {label label' : String} {number number' : Nat}
    (same : loopName label number = loopName label' number') : number = number' := by
  have cut := congrArg String.toList same
  rw [toList_loopName, toList_loopName] at cut
  obtain ⟨_, digits⟩ :=
    C.cut_at_last Nat.underscore_not_in_toDigits Nat.underscore_not_in_toDigits cut
  rw [← Nat.ofDigitChars_ten_toDigits (n := number), digits, Nat.ofDigitChars_ten_toDigits]

theorem isIdentifierChar_of_isPlainLetter (char : Char) :
    C.isIdentifierChar (if isPlainLetter char then char else '_') = true := by
  split
  · rename_i plain
    have word : (char.isAlpha || char.isDigit) = true := plain
    simp [C.isIdentifierChar, Char.isAlphanum, word]
  · decide

theorem identifier_cIdentifier (label : String) :
    ∃ first rest, (cIdentifier label).toList = first :: rest ∧ first.isDigit = false ∧
      ∀ char ∈ first :: rest, C.isIdentifierChar char := by
  have each : ∀ char ∈ label.toList.map (fun char => if isPlainLetter char then char else '_'),
      C.isIdentifierChar char = true := by
    intro char member
    obtain ⟨char, _, rfl⟩ := List.mem_map.mp member
    exact isIdentifierChar_of_isPlainLetter char
  unfold cIdentifier
  generalize label.toList.map (fun char => if isPlainLetter char then char else '_') = chars
    at each ⊢
  cases chars with
  | nil => exact ⟨'_', [], rfl, rfl, List.all_eq_true.mp (by decide)⟩
  | cons first rest =>
      by_cases digit : first.isDigit = true
      · refine ⟨'_', first :: rest, by simp [digit], rfl, ?_⟩
        exact List.forall_mem_cons.mpr ⟨by decide, each⟩
      · exact ⟨first, rest, by simp [digit], by simpa using digit, each⟩

theorem isIdentifier_jumpLabel (label : String) (number : Nat) (jump : Jump) :
    C.IsIdentifier (C.jumpLabel (loopName label number) jump) := by
  obtain ⟨first, rest, isLabel, notDigit, plain⟩ := identifier_cIdentifier label
  refine ⟨⟨first, rest ++ '_' :: (Nat.toDigits 10 number ++ '_' :: jump.word.toList), ?_, notDigit,
    ?_⟩, C.jumpLabel_notMem_keywords _ jump⟩
  · simp [C.toList_jumpLabel, toList_loopName, isLabel]
  · have digits : ∀ char ∈ Nat.toDigits 10 number, C.isIdentifierChar char = true := by
      intro char member
      have digit := Nat.isDigit_of_mem_toDigits (by decide) (by decide) member
      simp [C.isIdentifierChar, Char.isAlphanum, digit]
    have word : ∀ char ∈ '_' :: jump.word.toList, C.isIdentifierChar char = true := by
      cases jump <;> exact List.all_eq_true.mp (by decide)
    refine List.forall_mem_append.mpr ⟨plain, List.forall_mem_cons.mpr ⟨by decide, ?_⟩⟩
    exact List.forall_mem_append.mpr ⟨digits, word⟩

/-- Different names that loops got while the numbers rose. -/
structure MadeBetween (first last : Nat) (names : List String) : Prop where
  le : first ≤ last
  nodup : names.Nodup
  /-- Each name holds a number that was given out meanwhile. -/
  made : ∀ name ∈ names, ∃ label number, name = loopName label number ∧
    first < number ∧ number ≤ last

namespace MadeBetween

variable {first middle last : Nat} {names names' : List String}

theorem nil (le : first ≤ last) : MadeBetween first last [] := ⟨le, List.nodup_nil, nofun⟩

theorem append (earlier : MadeBetween first middle names) (later : MadeBetween middle last names') :
    MadeBetween first last (names ++ names') where
  le := Nat.le_trans earlier.le later.le
  nodup := by
    refine List.nodup_append.mpr ⟨earlier.nodup, later.nodup, ?_⟩
    rintro name isEarlier _ isLater rfl
    obtain ⟨label, number, rfl, _, above⟩ := earlier.made name isEarlier
    obtain ⟨label', number', same, below, _⟩ := later.made _ isLater
    have := number_eq_of_loopName_eq same
    omega
  made := by
    intro name member
    rcases List.mem_append.mp member with isEarlier | isLater
    · obtain ⟨label, number, isName, below, above⟩ := earlier.made name isEarlier
      exact ⟨label, number, isName, below, Nat.le_trans above later.le⟩
    · obtain ⟨label, number, isName, below, above⟩ := later.made name isLater
      exact ⟨label, number, isName, Nat.lt_of_le_of_lt earlier.le below, above⟩

theorem perm (made : MadeBetween first last names) (same : names.Perm names') :
    MadeBetween first last names' :=
  ⟨made.le, same.nodup_iff.mp made.nodup,
    fun name member => made.made name (same.mem_iff.mpr member)⟩

theorem left (made : MadeBetween first last (names ++ names')) : MadeBetween first last names :=
  ⟨made.le, made.nodup.of_append_left,
    fun name member => made.made name (List.mem_append_left _ member)⟩

theorem single (label : String) (number : Nat) :
    MadeBetween number (number + 1) [loopName label (number + 1)] where
  le := Nat.le_succ number
  nodup := List.nodup_singleton _
  made := by
    intro name member
    exact ⟨label, number + 1, List.mem_singleton.mp member, Nat.lt_succ_self number, Nat.le_refl _⟩

theorem labels_nodup (made : MadeBetween first last names) :
    (names.flatMap C.labelsFor).Nodup := by
  refine List.nodup_flatMap.mpr ⟨fun name _ => ?_, made.nodup.imp fun differ => ?_⟩
  · simpa [C.labelsFor] using fun same => absurd (C.jumpLabel_inj same).2 (by decide)
  · intro label isLabel isLabel'
    obtain ⟨jump, rfl⟩ := C.mem_labelsFor.mp isLabel
    obtain ⟨jump', same⟩ := C.mem_labelsFor.mp isLabel'
    exact differ (C.jumpLabel_inj same).1

theorem isIdentifier_label (made : MadeBetween first last names) {label : String}
    (member : label ∈ names.flatMap C.labelsFor) : C.IsIdentifier label := by
  obtain ⟨name, isName, isLabel⟩ := List.mem_flatMap.mp member
  obtain ⟨jump, rfl⟩ := C.mem_labelsFor.mp isLabel
  obtain ⟨word, number, rfl, _⟩ := made.made name isName
  exact isIdentifier_jumpLabel word number jump

end MadeBetween

end Lower

end Offside
