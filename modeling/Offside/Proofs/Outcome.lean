import Offside.Fault

/-!
# Outcomes

When a computation that may fail succeeds: each of its parts did, and what came out is what the
parts gave. What such a computation comes across on its way is a list that ends where it fails, and
it fails only for what one of its parts fails for.
-/

namespace Offside

namespace Outcome

variable {ε ε' α β : Type}
variable {next : α → Except ε β} {result : α} {outcome : Except ε α} {cause : ε} {σ : Type}
  {items : List α} {results : List β} {step : σ → α → Except ε σ} {state : σ}

/-- A sequence succeeds exactly when both of its parts do. -/
@[simp]
theorem bind_eq_ok {first : Except ε α} {result : β} :
    (first >>= next) = .ok result ↔ ∃ value, first = .ok value ∧ next value = .ok result := by
  cases first with
  | error cause => simp [bind, Except.bind]
  | ok value => simp [bind, Except.bind]

@[simp]
theorem map_eq_ok {change : α → β} {result : β} :
    change <$> outcome = .ok result ↔ ∃ value, outcome = .ok value ∧ change value = result := by
  cases outcome <;> simp [Functor.map, Except.map]

@[simp]
theorem mapError_eq_ok {rename : ε → ε'} :
    outcome.mapError rename = .ok result ↔ outcome = .ok result := by
  cases outcome with
  | error cause => exact iff_of_false (by rintro ⟨⟩) (by rintro ⟨⟩)
  | ok value =>
      exact ⟨fun same => congrArg Except.ok (Except.ok.inj same),
        fun same => congrArg Except.ok (Except.ok.inj same)⟩

theorem mapError_eq_error {rename : ε → ε'} {cause : ε'} :
    outcome.mapError rename = .error cause ↔
      ∃ inner, outcome = .error inner ∧ rename inner = cause := by
  constructor
  · intro failed
    cases outcome with
    | error inner => exact ⟨inner, rfl, Except.error.inj failed⟩
    | ok value => cases failed
  · rintro ⟨inner, rfl, rfl⟩
    rfl

@[simp]
theorem onLine_eq_ok {line : Nat} {outcome : Except Fault α} :
    Check.onLine line outcome = .ok result ↔ outcome = .ok result :=
  mapError_eq_ok

@[simp]
theorem pure_eq_ok {value : α} : (pure value : Except ε α) = .ok result ↔ value = result := by
  simp [pure, Except.pure]

@[simp]
theorem ok_bind {value : α} : (Except.ok value >>= next) = next value := rfl

@[simp]
theorem error_bind : (Except.error cause >>= next) = .error cause := rfl

@[simp]
theorem reject_ne_ok {line : Nat} {cause : Check.Cause} :
    (Check.reject line cause : Except Fault α) ≠ .ok result := by
  simp [Check.reject]

theorem toOption_eq_some : outcome.toOption = some result ↔ outcome = .ok result := by
  cases outcome <;> simp [Except.toOption]

theorem toOption_bind_pure {change : α → β} :
    (outcome >>= fun value => pure (change value)).toOption = outcome.toOption.map change := by
  cases outcome <;> rfl

@[simp]
theorem ite_error_eq_ok {guard : Prop} [Decidable guard] :
    (if guard then outcome else .error cause) = .ok result ↔ guard ∧ outcome = .ok result := by
  split <;> simp_all

@[simp]
theorem error_ite_eq_ok {bar : Prop} [Decidable bar] :
    (if bar then .error cause else outcome) = .ok result ↔ ¬ bar ∧ outcome = .ok result := by
  split <;> simp_all

theorem foldlM_preserves_of_mem {σ : Type} {step : σ → α → Except ε σ} (holds : σ → Prop) :
    (items : List α) →
      (∀ {state item next}, item ∈ items → holds state → step state item = .ok next →
        holds next) →
      {state last : σ} → holds state → items.foldlM step state = .ok last → holds last
  | [], _, state, last, start, folded => by
      obtain rfl : state = last := by simpa using folded
      exact start
  | item :: items, preserved, state, last, start, folded => by
      rw [List.foldlM_cons, bind_eq_ok] at folded
      obtain ⟨next, isNext, folded⟩ := folded
      exact foldlM_preserves_of_mem holds items
        (fun member => preserved (List.mem_cons_of_mem _ member))
        (preserved List.mem_cons_self start isNext) folded

/-- What every step of a fold preserves holds after the fold. -/
theorem foldlM_preserves (holds : σ → Prop)
    (preserved : ∀ {state item next}, holds state → step state item = .ok next → holds next)
    (items : List α) {last : σ} (start : holds state)
    (folded : items.foldlM step state = .ok last) : holds last :=
  foldlM_preserves_of_mem holds items (fun _ => preserved) start folded

/-- A fold takes a step for each of its items. -/
theorem exists_step_of_foldlM {item : α} {last : σ} (member : item ∈ items)
    (folded : items.foldlM step state = .ok last) :
    ∃ (earlier later : List α) (before after : σ), earlier.foldlM step state = .ok before ∧
      step before item = .ok after ∧ later.foldlM step after = .ok last := by
  obtain ⟨earlier, later, rfl⟩ := List.append_of_mem member
  rw [List.foldlM_append, bind_eq_ok] at folded
  obtain ⟨before, isBefore, folded⟩ := folded
  rw [List.foldlM_cons, bind_eq_ok] at folded
  obtain ⟨after, isAfter, folded⟩ := folded
  exact ⟨earlier, later, before, after, isBefore, isAfter, folded⟩

/-- A fold fails at the step for one of its items. -/
theorem exists_error_of_foldlM (failed : items.foldlM step state = .error cause) :
    ∃ item ∈ items, ∃ before, step before item = .error cause := by
  induction items generalizing state with
  | nil => exact nomatch failed
  | cons item items induction =>
      rw [List.foldlM_cons] at failed
      cases taken : step state item with
      | error other =>
          rw [taken] at failed
          obtain rfl := Except.error.inj failed
          exact ⟨item, List.mem_cons_self, state, taken⟩
      | ok next =>
          rw [taken, ok_bind] at failed
          obtain ⟨later, member, found⟩ := induction failed
          exact ⟨later, List.mem_cons_of_mem _ member, found⟩

theorem forM_eq_ok {check : α → Except ε Unit} :
    items.forM check = .ok () ↔ ∀ item ∈ items, check item = .ok () := by
  induction items with
  | nil => simp
  | cons item items induction =>
      have sequence : (item :: items).forM check = (check item >>= fun _ => items.forM check) := rfl
      rw [List.forall_mem_cons, ← induction, sequence]
      cases check item <;> simp

theorem map_eq_of_mapM {γ : Type} {step : α → Except ε β} {observe : β → γ} {expected : α → γ} :
    (items : List α) → {results : List β} →
      (∀ item ∈ items, ∀ result, step item = .ok result → observe result = expected item) →
      items.mapM step = .ok results → results.map observe = items.map expected
  | [], results, _, mapped => by
      obtain rfl : [] = results := by simpa using mapped
      rfl
  | item :: items, results, same, mapped => by
      simp only [List.mapM_cons, bind_eq_ok, pure_eq_ok] at mapped
      obtain ⟨first, isFirst, others, areOthers, rfl⟩ := mapped
      rw [List.map_cons, List.map_cons, same item List.mem_cons_self first isFirst,
        map_eq_of_mapM items (fun other member => same other (List.mem_cons_of_mem _ member))
          areOthers]

theorem map_ok_of_mapM {step : α → Except ε β} (mapped : items.mapM step = .ok results) :
    results.map .ok = items.map step :=
  map_eq_of_mapM items (fun _ _ _ isResult => isResult.symm) mapped

theorem exists_ok_of_mapM {step : α → Except ε β} (mapped : items.mapM step = .ok results)
    {item : α} (member : item ∈ items) : ∃ result ∈ results, step item = .ok result := by
  have isResult : step item ∈ results.map .ok := by
    rw [map_ok_of_mapM mapped]
    exact List.mem_map_of_mem member
  obtain ⟨result, isMember, given⟩ := List.mem_map.mp isResult
  exact ⟨result, isMember, given.symm⟩

/-- A list of results has no others. -/
theorem exists_of_mem_mapM {step : α → Except ε β} (mapped : items.mapM step = .ok results)
    {result : β} (member : result ∈ results) : ∃ item ∈ items, step item = .ok result := by
  have isResult : .ok result ∈ items.map step := by
    rw [← map_ok_of_mapM mapped]
    exact List.mem_map_of_mem member
  exact List.mem_map.mp isResult

/-- Success can be read off a computation by running it. -/
theorem exists_ok_of_toBool (succeeds : outcome.toBool = true) :
    ∃ result, outcome = .ok result := by
  cases outcome with
  | ok result => exact ⟨result, rfl⟩
  | error cause => simp [Except.toBool] at succeeds

/-- What follows a result; nothing follows a failure. -/
def given (outcome : Except ε α) (next : α → List β) : List β :=
  match outcome with
  | .ok value => next value
  | .error _ => []

@[simp]
theorem given_ok (value : α) (next : α → List β) :
    given (.ok value : Except ε α) next = next value := rfl

@[simp]
theorem given_error (cause : ε) (next : α → List β) :
    given (.error cause : Except ε α) next = [] := rfl

@[simp]
theorem given_nil (outcome : Except ε α) : given outcome (fun _ => ([] : List β)) = [] := by
  cases outcome <;> rfl

theorem flatMap_given {γ : Type} (outcome : Except ε α) (next : α → List β)
    (change : β → List γ) :
    (given outcome next).flatMap change =
      given outcome fun value => (next value).flatMap change := by
  cases outcome <;> rfl

/-- What the steps of a fold come across, each told its position. -/
def along {σ : Type} (step : σ → α → Except ε σ) (visits : Nat → σ → α → List β) :
    Nat → σ → List α → List β
  | _, _, [] => []
  | position, state, item :: items =>
      visits position state item ++
        given (step state item) fun state => along step visits (position + 1) state items

/-- A computation that fails for allowed causes alone. -/
def FailsFor (allowed : ε → Prop) (outcome : Except ε α) : Prop :=
  ∀ cause, outcome = .error cause → allowed cause

/-- A computation that fails with faults of a given stage alone. -/
abbrev FailsAt (stage : Stage) (outcome : Except Fault α) : Prop :=
  FailsFor (fun fault => fault.stage = stage) outcome

section Failing

variable {allowed : ε → Prop}

@[simp]
theorem failsFor_error : FailsFor allowed (.error cause : Except ε α) ↔ allowed cause := by
  refine ⟨fun fails => fails cause rfl, fun isAllowed => ?_⟩
  rintro _ ⟨⟩
  exact isAllowed

@[simp]
theorem failsFor_map {change : α → β} :
    FailsFor allowed (change <$> outcome) ↔ FailsFor allowed outcome := by
  cases outcome <;> simp [Functor.map, Except.map, FailsFor]

@[simp]
theorem failsFor_of_all (all : ∀ cause, allowed cause) :
    FailsFor allowed outcome := fun cause _ => all cause

namespace FailsFor

@[simp]
theorem ok (value : α) : FailsFor allowed (.ok value : Except ε α) := by rintro _ ⟨⟩

@[simp]
theorem pure (value : α) : FailsFor allowed (pure value : Except ε α) := by rintro _ ⟨⟩

theorem error (isAllowed : allowed cause) : FailsFor allowed (.error cause : Except ε α) :=
  failsFor_error.mpr isAllowed

theorem mono {wider : ε → Prop} (fails : FailsFor allowed outcome)
    (included : ∀ cause, allowed cause → wider cause) : FailsFor wider outcome :=
  fun cause failed => included cause (fails cause failed)

theorem bind {first : Except ε α} (fails : FailsFor allowed first)
    (rest : ∀ value, first = .ok value → FailsFor allowed (next value)) :
    FailsFor allowed (first >>= next) := by
  cases outcome : first with
  | error cause =>
      rw [error_bind]
      exact error (fails cause outcome)
  | ok value =>
      rw [ok_bind]
      exact rest value outcome

theorem ite {guard : Prop} [Decidable guard] {left right : Except ε α}
    (failsLeft : FailsFor allowed left) (failsRight : FailsFor allowed right) :
    FailsFor allowed (if guard then left else right) := by
  split
  · exact failsLeft
  · exact failsRight

theorem mapError {allowed : ε' → Prop} {rename : ε → ε'}
    (included : ∀ cause, outcome = .error cause → allowed (rename cause)) :
    FailsFor allowed (outcome.mapError rename) := by
  cases result : outcome with
  | error cause => exact error (included cause result)
  | ok value => exact ok value

theorem mapM {change : α → Except ε β} :
    (items : List α) → (∀ item ∈ items, FailsFor allowed (change item)) →
      FailsFor allowed (items.mapM change)
  | [], _ => by
      rw [List.mapM_nil]
      exact pure []
  | item :: items, fails => by
      rw [List.mapM_cons]
      refine bind (fails item List.mem_cons_self) fun _ _ => bind ?_ fun _ _ => pure _
      exact mapM items fun other member => fails other (List.mem_cons_of_mem _ member)

theorem foldlM :
    (items : List α) → (state : σ) →
      (∀ item ∈ items, ∀ state, FailsFor allowed (step state item)) →
      FailsFor allowed (items.foldlM step state)
  | [], state, _ => pure state
  | item :: items, state, fails => by
      rw [List.foldlM_cons]
      refine bind (fails item List.mem_cons_self state) fun _ _ => ?_
      exact foldlM items _ fun other member => fails other (List.mem_cons_of_mem _ member)

end FailsFor

@[simp]
theorem failsFor_bind {first : Except ε α} :
    FailsFor allowed (first >>= next) ↔
      FailsFor allowed first ∧ ∀ value, first = .ok value → FailsFor allowed (next value) := by
  cases first <;> simp

@[simp]
theorem failsFor_ite {guard : Prop} [Decidable guard] {left right : Except ε α} :
    FailsFor allowed (if guard then left else right) ↔
      (guard → FailsFor allowed left) ∧ (¬ guard → FailsFor allowed right) := by
  split <;> simp_all

@[simp]
theorem failsFor_mapError {rename : ε → ε'} {allowed : ε' → Prop} :
    FailsFor allowed (outcome.mapError rename) ↔
      FailsFor (fun cause => allowed (rename cause)) outcome := by
  refine ⟨fun fails cause failed => fails _ ?_, .mapError⟩
  rw [failed]
  rfl

end Failing

/-- Two computations that fail for the same cause or have related results. -/
inductive Agree (related : α → β → Prop) : Except ε α → Except ε β → Prop
  | ok {value : α} {value' : β} (holds : related value value') :
      Agree related (.ok value) (.ok value')
  | error (cause : ε) : Agree related (.error cause) (.error cause)

namespace Agree

variable {γ δ : Type} {related : α → β → Prop}
variable {outcome : Except ε α} {outcome' : Except ε β}

theorem bind {next : γ → δ → Prop} {first : Except ε α} {first' : Except ε β}
    {rest : α → Except ε γ} {rest' : β → Except ε δ} (agree : Agree related first first')
    (follow : ∀ {value value'}, related value value' → Agree next (rest value) (rest' value')) :
    Agree next (first >>= rest) (first' >>= rest') := by
  cases agree with
  | ok holds => exact follow holds
  | error cause => exact .error cause

theorem after {first : Except ε γ} {rest : γ → Except ε α} {rest' : γ → Except ε β}
    (follow : ∀ value, Agree related (rest value) (rest' value)) :
    Agree related (first >>= rest) (first >>= rest') := by
  cases first with
  | ok value => exact follow value
  | error cause => exact .error cause

theorem ite {guard : Prop} [Decidable guard] {other : Except ε α} {other' : Except ε β}
    (agree : Agree related outcome outcome') (others : Agree related other other') :
    Agree related (if guard then outcome else other) (if guard then outcome' else other') := by
  split
  · exact agree
  · exact others

theorem mapError {rename : ε → ε'} (agree : Agree related outcome outcome') :
    Agree related (outcome.mapError rename) (outcome'.mapError rename) := by
  cases agree with
  | ok holds => exact .ok holds
  | error cause => exact .error (rename cause)

theorem foldlM {step : α → γ → Except ε α} {step' : β → γ → Except ε β} {items : List γ}
    (steps : ∀ item ∈ items, ∀ {state state'}, related state state' →
      Agree related (step state item) (step' state' item))
    {state : α} {state' : β} (start : related state state') :
    Agree related (items.foldlM step state) (items.foldlM step' state') := by
  induction items generalizing state state' with
  | nil => exact .ok start
  | cons item items induction =>
      rw [List.foldlM_cons, List.foldlM_cons]
      refine (steps item List.mem_cons_self start).bind fun related => ?_
      exact induction (fun other member => steps other (List.mem_cons_of_mem _ member)) related

theorem exists_ok {value : α} (agree : Agree related outcome outcome')
    (isOk : outcome = .ok value) : ∃ value', outcome' = .ok value' ∧ related value value' := by
  cases agree with
  | ok holds =>
      obtain rfl := Except.ok.inj isOk
      exact ⟨_, rfl, holds⟩
  | error cause => simp at isOk

theorem exists_ok_iff (agree : Agree related outcome outcome') :
    (∃ value, outcome = .ok value) ↔ ∃ value', outcome' = .ok value' := by
  cases agree with
  | ok holds => simp
  | error cause => simp

end Agree

end Outcome

end Offside
