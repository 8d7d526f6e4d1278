import Mathlib.Data.List.Forall2
import Offside.Proofs.Scope.Table

/-!
# How tables grow

What a statement does to a table: it adds symbols to the scope at hand and opens scopes, which are
closed again, but leaves every other scope alone.
-/

namespace Offside

namespace Scope

/-- A scope after symbols with given names were declared in it. -/
structure Extends (names : List String) (before after : Scope) : Prop where
  parent_eq : after.parent = before.parent
  symbols_eq : ∃ more, after.symbols = before.symbols ++ more ∧ more.map (·.name) = names

namespace Extends

theorem refl (scope : Scope) : Extends [] scope scope where
  parent_eq := rfl
  symbols_eq := ⟨[], by simp⟩

theorem trans {first second : List String} {before middle after : Scope}
    (left : Extends first before middle) (right : Extends second middle after) :
    Extends (first ++ second) before after := by
  obtain ⟨more, isMore, named⟩ := left.symbols_eq
  obtain ⟨evenMore, isEvenMore, evenNamed⟩ := right.symbols_eq
  refine ⟨right.parent_eq.trans left.parent_eq, more ++ evenMore, ?_, ?_⟩
  · rw [isEvenMore, isMore, List.append_assoc]
  · rw [List.map_append, named, evenNamed]

end Extends

end Scope

namespace Table

/-- A table after declarations in the scope at hand, and scopes opened and closed. -/
structure Grows (names : List String) (before after : Table) : Prop where
  wellFormed : after.WellFormed
  current_eq : after.current = before.current
  here : ∃ holder holder', before.scopes[before.current]? = some holder ∧
    after.scopes[before.current]? = some holder' ∧ holder.Extends names holder'
  elsewhere : ∀ {scope : Nat} {holder : Scope}, scope ≠ before.current →
    before.scopes[scope]? = some holder → after.scopes[scope]? = some holder

namespace Grows

variable {names first second : List String} {before middle after : Table}

theorem refl {table : Table} (formed : table.WellFormed) : Grows [] table table := by
  obtain ⟨holder, opened⟩ := formed.exists_current
  exact ⟨formed, rfl, ⟨holder, holder, opened, opened, .refl holder⟩, fun _ opened => opened⟩

theorem trans (left : Grows first before middle) (right : Grows second middle after) :
    Grows (first ++ second) before after := by
  obtain ⟨holder, holder', opened, opened', extended⟩ := left.here
  obtain ⟨holder₁, holder₂, opened₁, opened₂, extended'⟩ := right.here
  rw [left.current_eq, opened'] at opened₁
  obtain rfl : holder' = holder₁ := by simpa using opened₁
  rw [left.current_eq] at opened₂
  refine ⟨right.wellFormed, right.current_eq.trans left.current_eq,
    ⟨holder, holder₂, opened, opened₂, extended.trans extended'⟩, ?_⟩
  intro scope other away isOther
  exact right.elsewhere (by rwa [left.current_eq]) (left.elsewhere away isOther)

theorem parent_eq (grown : Grows names before after) {scope : Nat} {holder : Scope}
    (opened : before.scopes[scope]? = some holder) :
    after.scopes[scope]?.map (·.parent) = some holder.parent := by
  by_cases here : scope = before.current
  · subst here
    obtain ⟨same, holder', isSame, opened', extended⟩ := grown.here
    obtain rfl : same = holder := by simpa [opened] using isSame.symm
    simp [opened', extended.parent_eq]
  · simp [grown.elsewhere here opened]

/-- The scopes around an opened scope stay. -/
theorem enclosing_eq (grown : Grows names before after) {scope : Nat}
    (opened : scope < before.scopes.length) :
    after.enclosing scope = before.enclosing scope := by
  apply enclosing_congr
  intro around earlier
  obtain ⟨holder, isOpened⟩ : ∃ holder, before.scopes[around]? = some holder :=
    ⟨_, List.getElem?_eq_getElem (Nat.lt_of_le_of_lt earlier opened)⟩
  rw [grown.parent_eq isOpened, isOpened, Option.map_some]

theorem of_insert {symbol : Symbol} (formed : before.WellFormed)
    (inserted : before.insert symbol = .ok after) : Grows [symbol.name] before after := by
  obtain ⟨holder, opened⟩ := formed.exists_current
  rw [insert] at inserted
  split at inserted
  · simp at inserted
  · obtain rfl := Except.ok.inj inserted
    have scopes (scope : Nat) := List.getElem?_modify
      (fun holder : Scope => { holder with symbols := holder.symbols ++ [symbol] })
      before.current before.scopes scope
    refine ⟨⟨?_, ?_⟩, rfl, ⟨holder, { holder with symbols := holder.symbols ++ [symbol] }, opened,
      ?_, rfl, [symbol], rfl, rfl⟩, ?_⟩
    · simpa using formed.current_lt
    · intro scope parent holder' opened' isChild
      rw [scopes] at opened'
      obtain ⟨original, isOriginal, rfl⟩ := Option.map_eq_some_iff.mp opened'
      apply formed.parent_lt isOriginal
      rw [← isChild]
      split <;> rfl
    · simp [scopes, opened]
    · intro scope other away isOther
      simp [scopes, isOther, Ne.symm away]

theorem exists_block (grown : Grows names before.push after) :
    ∃ holder, after.scopes[before.scopes.length]? = some holder ∧
      holder.parent = some before.current := by
  obtain ⟨holder, holder', opened, opened', extended⟩ := grown.here
  rw [push_current, getElem?_push, if_pos rfl] at opened
  obtain rfl := Option.some.inj opened
  exact ⟨holder', opened', extended.parent_eq⟩

/-- Leaving a block returns to the scope around it. -/
theorem pop_eq (grown : Grows names before.push after) :
    after.pop = { after with current := before.current } := by
  obtain ⟨holder, opened, isChild⟩ := grown.exists_block
  have current : after.current = before.scopes.length := grown.current_eq
  simp [pop, parent?, current, opened, isChild]

/-- A block declares nothing in the scope around it. -/
theorem of_block (formed : before.WellFormed) (grown : Grows names before.push after) :
    Grows [] before after.pop := by
  have kept {scope : Nat} {holder : Scope} (opened : before.scopes[scope]? = some holder) :
      after.scopes[scope]? = some holder := by
    have earlier : scope ≠ before.scopes.length :=
      Nat.ne_of_lt (List.getElem?_eq_some_iff.mp opened).1
    exact grown.elsewhere earlier (by simpa [getElem?_push, earlier] using opened)
  obtain ⟨holder, opened⟩ := formed.exists_current
  rw [grown.pop_eq]
  refine ⟨⟨?_, ?_⟩, rfl, ⟨holder, holder, opened, kept opened, .refl holder⟩, ?_⟩
  · exact (List.getElem?_eq_some_iff.mp (kept opened)).1
  · intro scope parent holder opened isChild
    exact grown.wellFormed.parent_lt opened isChild
  · intro scope holder _ opened
    exact kept opened

end Grows

@[simp]
theorem pop_scopes (table : Table) : table.pop.scopes = table.scopes := by
  rw [pop]
  split <;> rfl

theorem length_of_insert {before after : Table} {symbol : Symbol}
    (inserted : before.insert symbol = .ok after) :
    after.scopes.length = before.scopes.length := by
  rw [insert] at inserted
  split at inserted
  · simp at inserted
  · obtain rfl := Except.ok.inj inserted
    simp

/-- A table after symbols were declared in the scope at hand, with no other change. -/
def Fills (before after : Table) : Prop :=
  (∃ names, Grows names before after) ∧ after.scopes.length = before.scopes.length

namespace Fills

theorem refl {table : Table} (formed : table.WellFormed) : Fills table table :=
  ⟨⟨[], .refl formed⟩, rfl⟩

theorem trans {before middle after : Table} (left : Fills before middle)
    (right : Fills middle after) : Fills before after := by
  obtain ⟨⟨first, grown⟩, sameLength⟩ := left
  obtain ⟨⟨second, grown'⟩, sameLength'⟩ := right
  exact ⟨⟨first ++ second, grown.trans grown'⟩, sameLength'.trans sameLength⟩

theorem of_insert {before after : Table} {symbol : Symbol} (formed : before.WellFormed)
    (inserted : before.insert symbol = .ok after) : Fills before after :=
  ⟨⟨_, .of_insert formed inserted⟩, length_of_insert inserted⟩

theorem wellFormed {before after : Table} (filled : Fills before after) : after.WellFormed := by
  obtain ⟨⟨_, grown⟩, _⟩ := filled
  exact grown.wellFormed

end Fills

/-- What a scope of a table still lacks of the same scope of another. -/
def Continues (table final : Table) (scope : Nat) (names : List String) : Prop :=
  ∃ holder holder', table.scopes[scope]? = some holder ∧ final.scopes[scope]? = some holder' ∧
    holder.Extends names holder'

theorem held?_of_continues {table final : Table} {scope : Nat} {later : List String}
    (continues : Continues table final scope later) (name : String) :
    (∀ symbol, table.held? name scope = some symbol → final.held? name scope = some symbol) ∧
      (table.held? name scope = none → ((final.held? name scope).isSome ↔ name ∈ later)) := by
  obtain ⟨holder, holder', opened, opened', extended⟩ := continues
  obtain ⟨more, isMore, rfl⟩ := extended.symbols_eq
  have now : table.held? name scope = holder.symbols.find? (·.name = name) := by
    simp [held?, opened, Scope.find?]
  have finally' : final.held? name scope =
      (holder.symbols.find? (·.name = name)).or (more.find? (·.name = name)) := by
    simp [held?, opened', Scope.find?, isMore, List.find?_append]
  rw [now, finally']
  constructor
  · intro symbol found
    simp [found]
  · intro absent
    simp [absent, List.find?_isSome]

theorem Grows.held?_eq {names : List String} {before after : Table} {scope : Nat} {name : String}
    {symbol : Symbol} (grown : Grows names before after)
    (found : before.held? name scope = some symbol) : after.held? name scope = some symbol := by
  obtain ⟨holder, opened, isHeld⟩ := Option.bind_eq_some_iff.mp found
  have continues : ∃ later, Continues before after scope later := by
    by_cases here : scope = before.current
    · subst here
      exact ⟨names, grown.here⟩
    · exact ⟨[], holder, holder, opened, grown.elsewhere here opened, .refl holder⟩
  obtain ⟨later, continues⟩ := continues
  exact (held?_of_continues continues name).1 symbol found

theorem held?_of_insert {before after : Table} {symbol : Symbol} (formed : before.WellFormed)
    (inserted : before.insert symbol = .ok after) :
    after.held? symbol.name before.current = some symbol := by
  obtain ⟨holder, opened⟩ := formed.exists_current
  rw [insert] at inserted
  split at inserted
  · simp at inserted
  · rename_i new
    obtain rfl := Except.ok.inj inserted
    have absent : holder.symbols.find? (·.name = symbol.name) = none := by
      simpa [lookupLocal, opened, Scope.find?] using new
    simp [held?, opened, Scope.find?, List.find?_append, absent]

/-- A table during a check, and the finished one with all pending names. -/
structure Completes (pending : List (List String)) (table final : Table) : Prop where
  chain : List.Forall₂ (Continues table final) (table.enclosing table.current) pending
  closed : ∀ {scope : Nat} {holder : Scope}, scope ∉ table.enclosing table.current →
    table.scopes[scope]? = some holder → final.scopes[scope]? = some holder

namespace Completes

variable {names later : List String} {outer pending : List (List String)}
  {before after final : Table}

theorem parent_eq (rest : Completes pending before final) {scope : Nat} {holder : Scope}
    (opened : before.scopes[scope]? = some holder) :
    final.scopes[scope]?.map (·.parent) = some holder.parent := by
  by_cases around : scope ∈ before.enclosing before.current
  · obtain ⟨position, inRange, rfl⟩ := List.mem_iff_getElem.mp around
    obtain ⟨same, holder', isSame, opened', extended⟩ :=
      rest.chain.get inRange (rest.chain.length_eq ▸ inRange)
    rw [List.get_eq_getElem] at isSame opened'
    obtain rfl : same = holder := by simpa [opened] using isSame.symm
    simp [opened', extended.parent_eq]
  · simp [rest.closed around opened]

/-- The scopes around an opened scope stay. -/
theorem enclosing_eq (rest : Completes pending before final) {scope : Nat}
    (opened : scope < before.scopes.length) :
    final.enclosing scope = before.enclosing scope := by
  apply enclosing_congr
  intro around earlier
  obtain ⟨holder, isOpened⟩ : ∃ holder, before.scopes[around]? = some holder :=
    ⟨_, List.getElem?_eq_getElem (Nat.lt_of_le_of_lt earlier opened)⟩
  rw [rest.parent_eq isOpened, isOpened, Option.map_some]

/-- Nothing is pending in a finished table. -/
theorem refl {table : Table} (formed : table.WellFormed) (outermost : table.current = 0) :
    Completes [[]] table table := by
  obtain ⟨holder, opened⟩ := formed.exists_current
  have orphan : holder.parent = none := by
    cases isChild : holder.parent with
    | none => rfl
    | some parent =>
        have := formed.parent_lt opened isChild
        omega
  refine ⟨?_, fun _ opened => opened⟩
  rw [enclosing_eq_singleton opened orphan]
  exact .cons ⟨holder, holder, opened, opened, .refl holder⟩ .nil

/-- What a statement declares was pending before it. -/
theorem before_growth (formed : before.WellFormed) (grown : Grows names before after)
    (rest : Completes (later :: outer) after final) :
    Completes ((names ++ later) :: outer) before final := by
  obtain ⟨holder, holder', opened, opened', extended⟩ := grown.here
  obtain ⟨around, chain, earlier⟩ := exists_enclosing_eq_cons opened
  have sameChain : after.enclosing after.current = before.current :: around := by
    rw [grown.current_eq, grown.enclosing_eq formed.current_lt, chain]
  have continued := rest.chain
  rw [sameChain, List.forall₂_cons] at continued
  obtain ⟨⟨middle, last, isMiddle, isLast, extended'⟩, continued⟩ := continued
  obtain rfl : holder' = middle := by simpa [opened'] using isMiddle
  constructor
  · rw [chain]
    refine .cons ⟨holder, last, opened, isLast, extended.trans extended'⟩ ?_
    -- A scope further out is not the one at hand, so the statement left it alone.
    have both := (List.forall₂_and_left around outer).mpr
      ⟨fun scope member => And.intro (earlier scope member) member, continued⟩
    refine both.imp fun scope names ⟨⟨isOuter, member⟩, middle, last, isMiddle, isLast, more⟩ => ?_
    obtain ⟨original, isOriginal⟩ : ∃ original, before.scopes[scope]? = some original :=
      ⟨_, List.getElem?_eq_getElem (Nat.lt_trans isOuter formed.current_lt)⟩
    have same := grown.elsewhere (Nat.ne_of_lt isOuter) isOriginal
    obtain rfl : original = middle := by simpa [same] using isMiddle
    exact ⟨original, last, isOriginal, isLast, more⟩
  · intro scope other outside isOther
    rw [chain] at outside
    refine rest.closed (by rwa [sameChain]) (grown.elsewhere ?_ isOther)
    rintro rfl
    simp at outside

theorem before_pop {table : Table} (grown : Grows names before.push table)
    (rest : Completes pending table.pop final) : Completes ([] :: pending) table final := by
  obtain ⟨holder, opened, isChild⟩ := grown.exists_block
  have current : table.current = before.scopes.length := grown.current_eq
  have inside := grown.wellFormed.parent_lt opened isChild
  have chain := enclosing_eq_cons opened isChild inside
  have popped : table.pop.enclosing table.pop.current = table.enclosing before.current := by
    rw [grown.pop_eq]
    exact enclosing_congr fun _ _ => rfl
  have continued := rest.chain
  rw [popped] at continued
  have outer : before.scopes.length ∉ table.enclosing before.current := by
    intro member
    have := (opened_of_mem_enclosing member).1
    omega
  have kept {scope : Nat} {other : Scope} (outside : scope ∉ table.enclosing before.current)
      (isOther : table.scopes[scope]? = some other) : final.scopes[scope]? = some other :=
    rest.closed (by rwa [popped]) (by rw [grown.pop_eq]; exact isOther)
  constructor
  · rw [current, chain]
    refine .cons ⟨holder, holder, opened, kept outer opened, .refl holder⟩ (continued.imp ?_)
    rw [grown.pop_eq]
    exact fun _ _ continued => continued
  · intro scope other outside isOther
    rw [current, chain] at outside
    exact kept (by simp_all) isOther

end Completes

end Table

end Offside
