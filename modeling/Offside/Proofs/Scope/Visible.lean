import Mathlib.Data.List.Find
import Mathlib.Data.List.Forall2
import Mathlib.Data.List.Nodup
import Offside.Proofs.Scope.Growth

/-!
# What can be seen from a scope

The symbols of the scope at hand and of those around it, innermost first. Opening a scope, leaving
it and declaring a symbol act on this list as on a stack, and names are looked up in it alone.
-/

namespace Offside

namespace Table

def symbolsOf (table : Table) (scope : Nat) : List Symbol :=
  (table.scopes[scope]?.map (·.symbols)).getD []

/-- The symbols of the scope at hand and of those around it, innermost first. -/
def visible (table : Table) : List (List Symbol) :=
  (table.enclosing table.current).map table.symbolsOf

theorem held?_eq_find? (table : Table) (name : String) (scope : Nat) :
    table.held? name scope = (table.symbolsOf scope).find? (·.name = name) := by
  rw [held?, symbolsOf]
  cases table.scopes[scope]? <;> rfl

structure Rooted (table : Table) : Prop extends table.WellFormed where
  eq_zero_of_orphan : ∀ {scope : Nat} {holder : Scope}, table.scopes[scope]? = some holder →
    holder.parent = none → scope = 0

variable {table after : Table} {inner : List Symbol} {outer : List (List Symbol)}

theorem Rooted.getLast?_enclosing (rooted : table.Rooted) {scope : Nat}
    (opened : scope < table.scopes.length) : (table.enclosing scope).getLast? = some 0 := by
  fun_induction table.enclosing scope with
  | case1 scope missing =>
      have := List.getElem?_eq_none_iff.mp missing
      omega
  | case2 scope holder isOpened orphan => simp [rooted.eq_zero_of_orphan isOpened orphan]
  | case3 scope holder isOpened parent isChild inside induction =>
      rw [List.getLast?_cons, induction (by omega)]
      rfl
  | case4 scope holder isOpened parent isChild outside =>
      exact absurd (rooted.parent_lt isOpened isChild) outside

/-- A name stands for the symbol of the innermost visible scope that holds it. -/
theorem lookup_eq_findSome? (table : Table) (name : String) :
    table.lookup name = table.visible.findSome? (·.find? (·.name = name)) := by
  rw [lookup, lookupFrom_eq_map_locate, locate, visible, List.findSome?_map]
  generalize table.enclosing table.current = around
  induction around with
  | nil => rfl
  | cons scope around induction =>
      rw [List.findSome?_cons, List.findSome?_cons, ← induction, Function.comp_apply,
        held?_eq_find?]
      cases (table.symbolsOf scope).find? (·.name = name) <;> rfl

theorem visible_eq_cons (formed : table.WellFormed) :
    ∃ outer, table.visible = table.symbolsOf table.current :: outer := by
  obtain ⟨holder, opened⟩ := formed.exists_current
  obtain ⟨outer, chain, _⟩ := exists_enclosing_eq_cons opened
  exact ⟨outer.map table.symbolsOf, by rw [visible, chain, List.map_cons]⟩

theorem lookupLocal_eq_find? (formed : table.WellFormed) (seen : table.visible = inner :: outer)
    (name : String) : table.lookupLocal name = inner.find? (·.name = name) := by
  obtain ⟨around, isVisible⟩ := visible_eq_cons formed
  obtain ⟨rfl, _⟩ := List.cons.inj (seen.symm.trans isVisible)
  exact held?_eq_find? table name table.current

theorem Rooted.getLast?_visible (rooted : table.Rooted) :
    table.visible.getLast? = some table.globals := by
  rw [visible, List.getLast?_map, rooted.getLast?_enclosing rooted.current_lt, Option.map_some,
    symbolsOf, globals]
  cases table.scopes[0]? <;> rfl

/-- The table with given symbols in its outermost scope, and no other scope. -/
def outermost (symbols : List Symbol) : Table := ⟨[⟨none, symbols⟩], 0⟩

theorem rooted_outermost (symbols : List Symbol) : (outermost symbols).Rooted where
  current_lt := by simp [outermost]
  parent_lt := by
    intro scope parent holder opened isChild
    simp only [outermost, List.getElem?_singleton] at opened
    split at opened
    · obtain rfl := Option.some.inj opened
      simp at isChild
    · simp at opened
  eq_zero_of_orphan := by
    intro scope holder opened orphan
    simp only [outermost, List.getElem?_singleton] at opened
    split at opened
    · assumption
    · simp at opened

theorem visible_outermost (symbols : List Symbol) : (outermost symbols).visible = [symbols] := by
  have opened : (outermost symbols).scopes[0]? = some ⟨none, symbols⟩ := rfl
  have chain : (outermost symbols).enclosing (outermost symbols).current = [0] :=
    enclosing_eq_singleton opened rfl
  rw [visible, chain]
  rfl

theorem visible_push (formed : table.WellFormed) : table.push.visible = [] :: table.visible := by
  have opened : table.push.scopes[table.scopes.length]? = some ⟨some table.current, []⟩ := by
    rw [getElem?_push, if_pos rfl]
  have earlier {scope : Nat} (isEarlier : scope < table.scopes.length) :
      table.push.scopes[scope]? = table.scopes[scope]? := by
    rw [getElem?_push, if_neg (Nat.ne_of_lt isEarlier)]
  have chain : table.push.enclosing table.current = table.enclosing table.current :=
    enclosing_congr fun scope within => by
      rw [earlier (Nat.lt_of_le_of_lt within formed.current_lt)]
  rw [visible, push_current, enclosing_eq_cons opened rfl formed.current_lt, chain, List.map_cons,
    visible]
  congr 1
  · rw [symbolsOf, opened]
    rfl
  · refine List.map_congr_left fun scope member => ?_
    have within := (opened_of_mem_enclosing member).1
    rw [symbolsOf, symbolsOf, earlier (Nat.lt_of_le_of_lt within formed.current_lt)]

theorem Rooted.push (rooted : table.Rooted) : table.push.Rooted where
  toWellFormed := rooted.toWellFormed.push
  eq_zero_of_orphan := by
    intro scope holder opened orphan
    rw [getElem?_push] at opened
    split at opened
    · obtain rfl := Option.some.inj opened
      simp at orphan
    · exact rooted.eq_zero_of_orphan opened orphan

theorem visible_pop (formed : table.WellFormed) {around : List Symbol}
    (seen : table.visible = inner :: around :: outer) : table.pop.visible = around :: outer := by
  obtain ⟨holder, opened⟩ := formed.exists_current
  cases isChild : holder.parent with
  | none =>
      rw [visible, enclosing_eq_singleton opened isChild] at seen
      simp at seen
  | some parent =>
      rw [visible, enclosing_eq_cons opened isChild (formed.parent_lt opened isChild),
        List.map_cons] at seen
      have popped : table.pop = { table with current := parent } := by
        simp [pop, parent?, opened, isChild]
      rw [popped, ← (List.cons.inj seen).2]
      exact congrArg (List.map _) (enclosing_congr fun _ _ => rfl)

/-- The outermost scope is not left. -/
theorem pop_of_visible (formed : table.WellFormed) (seen : table.visible = [inner]) :
    table.pop = table := by
  obtain ⟨holder, opened⟩ := formed.exists_current
  cases isChild : holder.parent with
  | none => simp [pop, parent?, opened, isChild]
  | some parent =>
      have inside := formed.parent_lt opened isChild
      obtain ⟨outer, chain, _⟩ := exists_enclosing_eq_cons
        (List.getElem?_eq_getElem (Nat.lt_trans inside formed.current_lt))
      rw [visible, enclosing_eq_cons opened isChild inside, chain] at seen
      simp at seen

theorem Rooted.pop (rooted : table.Rooted) : table.pop.Rooted := by
  rw [Table.pop]
  split
  · rename_i parent isParent
    obtain ⟨holder, opened, isChild⟩ := Option.bind_eq_some_iff.mp isParent
    have inside := rooted.parent_lt opened isChild
    exact ⟨⟨Nat.lt_trans inside rooted.current_lt, rooted.parent_lt⟩, rooted.eq_zero_of_orphan⟩
  · exact rooted

theorem Rooted.insert {symbol : Symbol} (rooted : table.Rooted)
    (inserted : table.insert symbol = .ok after) : after.Rooted := by
  have grown := Grows.of_insert rooted.toWellFormed inserted
  refine ⟨grown.wellFormed, ?_⟩
  intro scope holder opened orphan
  have earlier : scope < table.scopes.length := by
    rw [← length_of_insert inserted]
    exact (List.getElem?_eq_some_iff.mp opened).1
  have sameParent := grown.parent_eq (List.getElem?_eq_getElem earlier)
  rw [opened, Option.map_some, orphan] at sameParent
  exact rooted.eq_zero_of_orphan (List.getElem?_eq_getElem earlier) (Option.some.inj sameParent).symm

theorem symbolsOf_insert {symbol : Symbol} (formed : table.WellFormed)
    (inserted : table.insert symbol = .ok after) (scope : Nat) :
    after.symbolsOf scope =
      if scope = table.current then table.symbolsOf scope ++ [symbol]
      else table.symbolsOf scope := by
  rw [Table.insert] at inserted
  split at inserted
  · simp at inserted
  · obtain rfl := Except.ok.inj inserted
    simp only [symbolsOf, List.getElem?_modify]
    by_cases here : scope = table.current
    · obtain ⟨holder, opened⟩ := formed.exists_current
      simp [here, opened]
    · simp [here, Ne.symm here]

theorem visible_insert {symbol : Symbol} (formed : table.WellFormed)
    (inserted : table.insert symbol = .ok after) (seen : table.visible = inner :: outer) :
    after.visible = (inner ++ [symbol]) :: outer := by
  have grown := Grows.of_insert formed inserted
  obtain ⟨holder, opened⟩ := formed.exists_current
  obtain ⟨around, chain, earlier⟩ := exists_enclosing_eq_cons opened
  rw [visible, chain, List.map_cons] at seen
  obtain ⟨rfl, rfl⟩ := List.cons.inj seen
  rw [visible, grown.current_eq, grown.enclosing_eq formed.current_lt, chain, List.map_cons,
    symbolsOf_insert formed inserted, if_pos rfl]
  refine congrArg (List.cons _) (List.map_congr_left fun scope member => ?_)
  rw [symbolsOf_insert formed inserted, if_neg (Nat.ne_of_lt (earlier scope member))]

/-- A symbol is declared exactly when its name is free. -/
theorem insert_eq (symbol : Symbol) (formed : table.WellFormed)
    (seen : table.visible = inner :: outer) :
    ((inner.find? (·.name = symbol.name)).isSome → table.insert symbol = .error symbol.name) ∧
      (inner.find? (·.name = symbol.name) = none → ∃ after, table.insert symbol = .ok after) := by
  rw [Table.insert, lookupLocal_eq_find? formed seen]
  constructor
  · intro taken
    obtain ⟨other, found⟩ := Option.isSome_iff_exists.mp taken
    rw [found]
  · intro free
    exact ⟨_, by rw [free]⟩

theorem Grows.visible_eq {before : Table} (formed : before.WellFormed)
    (grown : Grows [] before after) : after.visible = before.visible := by
  rw [visible, visible, grown.current_eq, grown.enclosing_eq formed.current_lt]
  refine List.map_congr_left fun scope member => ?_
  have opened := (opened_of_mem_enclosing member).2
  obtain ⟨holder, isOpened⟩ := Option.isSome_iff_exists.mp opened
  by_cases here : scope = before.current
  · subst here
    obtain ⟨same, holder', isSame, opened', extended⟩ := grown.here
    obtain ⟨more, isMore, named⟩ := extended.symbols_eq
    obtain rfl : more = [] := List.map_eq_nil_iff.mp named
    simp [symbolsOf, isSame, opened', isMore]
  · rw [symbolsOf, symbolsOf, isOpened, grown.elsewhere here isOpened]

/-- Lists of symbols in which every name stands for the same. -/
def SameNames (symbols symbols' : List Symbol) : Prop :=
  ∀ name, symbols.find? (·.name = name) = symbols'.find? (·.name = name)

/-- Permuted lists without repeated names show the same. -/
theorem sameNames_of_perm {symbols symbols' : List Symbol} (permuted : symbols.Perm symbols')
    (distinct : (symbols.map (·.name)).Nodup) : SameNames symbols symbols' := by
  intro name
  apply List.find?_eq_find?_of_perm permuted
  intro symbol isSymbol other isOther
  apply List.inj_on_of_nodup_map distinct isSymbol.1 isOther.1
  simp_all

/-- Tables in which, scope by scope, every name stands for the same. -/
structure Alike (table table' : Table) : Prop where
  rooted : table.Rooted
  rooted' : table'.Rooted
  visible : List.Forall₂ SameNames table.visible table'.visible

namespace Alike

variable {table table' : Table}

/-- Names are looked up in what is seen. -/
theorem lookup_eq (alike : Alike table table') : table.lookup = table'.lookup := by
  funext name
  rw [lookup_eq_findSome?, lookup_eq_findSome?]
  have seen := alike.visible
  generalize table.visible = lists at seen
  generalize table'.visible = lists' at seen
  induction seen with
  | nil => rfl
  | cons same _ induction => rw [List.findSome?_cons, List.findSome?_cons, same name, induction]

theorem exists_visible (alike : Alike table table') :
    ∃ inner outer inner' outer', table.visible = inner :: outer ∧
      table'.visible = inner' :: outer' ∧ SameNames inner inner' ∧
      List.Forall₂ SameNames outer outer' := by
  obtain ⟨outer, seen⟩ := visible_eq_cons alike.rooted.toWellFormed
  obtain ⟨outer', seen'⟩ := visible_eq_cons alike.rooted'.toWellFormed
  have same := alike.visible
  rw [seen, seen', List.forall₂_cons] at same
  exact ⟨_, _, _, _, seen, seen', same⟩

theorem lookupLocal_eq (alike : Alike table table') : table.lookupLocal = table'.lookupLocal := by
  obtain ⟨inner, outer, inner', outer', seen, seen', same, _⟩ := alike.exists_visible
  funext name
  rw [lookupLocal_eq_find? alike.rooted.toWellFormed seen,
    lookupLocal_eq_find? alike.rooted'.toWellFormed seen', same name]

theorem global?_eq (alike : Alike table table') : table.global? = table'.global? := by
  have last {lists lists' : List (List Symbol)} (same : List.Forall₂ SameNames lists lists') :
      ∀ {symbols symbols'}, lists.getLast? = some symbols → lists'.getLast? = some symbols' →
        SameNames symbols symbols' := by
    induction same with
    | nil => simp
    | @cons symbols symbols' lists lists' first others induction =>
        intro final final' isFinal isFinal'
        cases others with
        | nil =>
            obtain rfl : symbols = final := by simpa using isFinal
            obtain rfl : symbols' = final' := by simpa using isFinal'
            exact first
        | cons next others =>
            rw [List.getLast?_cons_cons] at isFinal isFinal'
            exact induction isFinal isFinal'
  funext name
  exact last alike.visible alike.rooted.getLast?_visible alike.rooted'.getLast?_visible name

theorem push (alike : Alike table table') : Alike table.push table'.push := by
  refine ⟨alike.rooted.push, alike.rooted'.push, ?_⟩
  rw [visible_push alike.rooted.toWellFormed, visible_push alike.rooted'.toWellFormed]
  exact .cons (fun _ => rfl) alike.visible

theorem pop (alike : Alike table table') : Alike table.pop table'.pop := by
  refine ⟨alike.rooted.pop, alike.rooted'.pop, ?_⟩
  obtain ⟨inner, outer, inner', outer', seen, seen', same, others⟩ := alike.exists_visible
  cases others with
  | nil =>
      rw [pop_of_visible alike.rooted.toWellFormed seen,
        pop_of_visible alike.rooted'.toWellFormed seen']
      exact alike.visible
  | cons next others =>
      rw [visible_pop alike.rooted.toWellFormed seen, visible_pop alike.rooted'.toWellFormed seen']
      exact .cons next others

theorem insert (alike : Alike table table') (symbol : Symbol) :
    (∃ after after', table.insert symbol = .ok after ∧ table'.insert symbol = .ok after' ∧
      Alike after after') ∨
    (table.insert symbol = .error symbol.name ∧ table'.insert symbol = .error symbol.name) := by
  obtain ⟨inner, outer, inner', outer', seen, seen', same, others⟩ := alike.exists_visible
  have formed := alike.rooted.toWellFormed
  have formed' := alike.rooted'.toWellFormed
  obtain ⟨taken, free⟩ := insert_eq symbol formed seen
  obtain ⟨taken', free'⟩ := insert_eq symbol formed' seen'
  cases found : inner.find? (·.name = symbol.name) with
  | some other =>
      have found' := (same symbol.name).symm.trans found
      exact .inr ⟨taken (by rw [found]; rfl), taken' (by rw [found']; rfl)⟩
  | none =>
      obtain ⟨after, inserted⟩ := free found
      obtain ⟨after', inserted'⟩ := free' ((same symbol.name).symm.trans found)
      refine .inl ⟨after, after', inserted, inserted', alike.rooted.insert inserted,
        alike.rooted'.insert inserted', ?_⟩
      rw [visible_insert formed inserted seen, visible_insert formed' inserted' seen']
      refine .cons (fun name => ?_) others
      rw [List.find?_append, List.find?_append, same name]

end Alike

end Table

end Offside
