import Mathlib.Tactic.ByContra
import Offside.Proofs.Scope.LowerVisits
import Offside.Proofs.Scope.Mismatch

/-!
# What ties a lowering to a check

A lowering walks through the scopes of a finished table while a check opens them. At each statement
the walk stands in the scope at hand, the scope it entered last is the one opened last, and the C
objects in scope are the variables of the blocks around, apart from those with made-up names.
-/

namespace Offside

namespace Lower

open Outcome
open Table (Completes Grows)

variable {view : View} {target : String}

/-- Whether an object stands for nothing in the source. -/
def Object.isMade (object : Object) : Bool :=
  match object.origin with
  | .made => true
  | _ => false

/-- The variables of an inner scope as objects, the last one first. -/
def scopeObjects (table : Table) (scope : Nat) : List Object :=
  if scope = 0 then []
  else (((table.scopes[scope]?.map (·.symbols)).getD []).map
    fun symbol => ⟨symbol.name, .scoped scope⟩).reverse

/-- The variables of the blocks around as objects, innermost first. -/
def localObjects (table : Table) : List Object :=
  (table.enclosing table.current).flatMap (scopeObjects table)

/-- Objects that stand for the variables around and for given ones outside. -/
def Shows (outside : List Object) (table : Table) (objects : List Object) : Prop :=
  objects.filter (!·.isMade) = localObjects table ++ outside

/-- A walk that stands where a check stands. -/
structure Keeps (table : Table) (walk : Walk) : Prop where
  scope_eq : walk.scope = table.current
  cursor_eq : walk.cursor + 1 = table.scopes.length

/-- An expression whose surroundings a check knows, but not its own objects. -/
structure Fits (outside : List Object) (table : Table) (use : Use) : Prop where
  shows : Shows outside table use.around
  own_new : ∀ object ∈ use.own, object.origin = .made ∨
    ∃ scope, object.origin = .scoped scope ∧ table.held? object.name scope = none

/-- A visit of a lowering under a finished table that matches one of a check. -/
inductive Agrees (outside : List Object) (final : Table) : Check.Visit → Visit → Prop
  | opens (site : Site) (scope : Nat) :
      Agrees outside final (.opens site scope) (.enters site scope)
  | reaches {site : Site} {moment : Check.Moment} {uses : List Use}
      (formed : moment.table.WellFormed) (rest : Completes moment.pending moment.table final)
      (fits : ∀ use ∈ uses, Fits outside moment.table use) :
      Agrees outside final (.reaches site moment) (.reaches site moment.table.current uses)

/-- A lowering that matches a check up to where it fails. -/
structure Follows {α : Type} (outside : List Object) (final : Table)
    (expected : List Check.Visit) (visits : List Visit) (outcome : Except Fault α)
    (condition : α → Prop) : Prop where
  steady : Steady outcome
  reached : ∃ reached later, expected = reached ++ later ∧
    List.Forall₂ (Agrees outside final) reached visits
  finished : ∀ value, outcome = .ok value →
    List.Forall₂ (Agrees outside final) expected visits ∧ condition value

namespace Follows

variable {α β : Type} {outside : List Object} {final : Table}
  {expected expected' : List Check.Visit} {visits : List Visit}
variable {condition : β → Prop} {first : Except Fault α}

theorem ok {value : α} {condition : α → Prop} (holds : condition value) :
    Follows outside final [] [] (.ok value) condition where
  steady := .ok value
  reached := ⟨[], [], rfl, .nil⟩
  finished := by
    rintro _ ⟨⟩
    exact ⟨.nil, holds⟩

theorem cons {outcome : Except Fault α} {condition : α → Prop} {first : Check.Visit}
    {visit : Visit} (agrees : Agrees outside final first visit)
    (rest : Follows outside final expected visits outcome condition) :
    Follows outside final (first :: expected) (visit :: visits) outcome condition where
  steady := rest.steady
  reached := by
    obtain ⟨reached, later, rfl, all⟩ := rest.reached
    exact ⟨first :: reached, later, rfl, .cons agrees all⟩
  finished value isValue := by
    obtain ⟨all, holds⟩ := rest.finished value isValue
    exact ⟨.cons agrees all, holds⟩

theorem append {next : α → Except Fault β} {visits' : α → List Visit} {middle : α → Prop}
    (left : Follows outside final expected visits first middle)
    (right : ∀ value, first = .ok value → middle value →
      Follows outside final expected' (visits' value) (next value) condition) :
    Follows outside final (expected ++ expected') (visits ++ given first visits')
      (first >>= next) condition := by
  cases outcome : first with
  | error cause =>
      subst outcome
      obtain ⟨reached, later, rfl, all⟩ := left.reached
      refine ⟨?_, ⟨reached, later ++ expected', by simp, by simpa using all⟩, ?_⟩
      · rw [error_bind]
        exact .error (left.steady cause rfl)
      · simp
  | ok value =>
      obtain ⟨all, holds⟩ := left.finished value outcome
      have rest := right value outcome holds
      refine ⟨rest.steady, ?_, ?_⟩
      · obtain ⟨reached, later, rfl, all'⟩ := rest.reached
        refine ⟨expected ++ reached, later, by simp, ?_⟩
        exact List.rel_append all all'
      · intro result isResult
        obtain ⟨all', holds'⟩ := rest.finished result isResult
        exact ⟨List.rel_append all all', holds'⟩

theorem given {next : α → Except Fault β} {visits' : α → List Visit} (spared : Steady first)
    (rest : ∀ value, first = .ok value →
      Follows outside final expected (visits' value) (next value) condition) :
    Follows outside final expected (Outcome.given first visits') (first >>= next) condition := by
  have silent : Follows outside final [] [] first fun _ => True :=
    ⟨spared, ⟨[], [], rfl, .nil⟩, fun _ _ => ⟨.nil, trivial⟩⟩
  simpa using silent.append fun value isValue _ => rest value isValue

/-- What a lowering comes across matches what the check comes across there. -/
theorem exists_agrees {outcome : Except Fault α} {condition : α → Prop}
    (follows : Follows outside final expected visits outcome condition) {position : Nat}
    {visit : Visit} (visited : visits[position]? = some visit) :
    ∃ first, expected[position]? = some first ∧ Agrees outside final first visit := by
  obtain ⟨reached, later, rfl, matching⟩ := follows.reached
  obtain ⟨inRange, rfl⟩ := List.getElem?_eq_some_iff.mp visited
  have inRange' : position < reached.length := matching.length_eq ▸ inRange
  refine ⟨reached[position], ?_, matching.get inRange' inRange⟩
  rw [List.getElem?_append_left inRange', List.getElem?_eq_getElem inRange']

theorem quiet {next : α → β} (spared : Steady first) (holds : ∀ value, condition (next value)) :
    Follows outside final [] [] (first >>= fun value => pure (next value)) condition := by
  have rest (value : α) (_ : first = .ok value) :
      Follows outside final [] [] (pure (next value)) condition := ok (holds value)
  simpa using given spared rest

theorem last {next : α → Except Fault β} {middle : α → Prop}
    (left : Follows outside final expected visits first middle)
    (right : ∀ value, middle value → ∃ result, next value = .ok result ∧ condition result) :
    Follows outside final expected visits (first >>= next) condition := by
  have nothing (value : α) (_ : first = .ok value) (holds : middle value) :
      Follows outside final [] [] (next value) condition := by
    obtain ⟨result, isResult, holds'⟩ := right value holds
    rw [isResult]
    exact ok holds'
  simpa using left.append nothing

end Follows

variable {table after : Table} {walk : Walk}

theorem scopeObjects_congr {before : Table} {scope : Nat}
    (same : after.scopes[scope]? = before.scopes[scope]?) :
    scopeObjects after scope = scopeObjects before scope := by
  rw [scopeObjects, scopeObjects, same]

theorem localObjects_of_grows {names : List String} (formed : table.WellFormed)
    (inside : names ≠ [] → table.current ≠ 0) (grown : Grows names table after) :
    localObjects after =
      (names.map fun name => ⟨name, .scoped table.current⟩).reverse ++ localObjects table := by
  obtain ⟨holder, holder', opened, opened', extended⟩ := grown.here
  obtain ⟨outer, chain, earlier⟩ := Table.exists_enclosing_eq_cons opened
  obtain ⟨more, isMore, rfl⟩ := extended.symbols_eq
  have here : scopeObjects after table.current =
      ((more.map (·.name)).map fun name => ⟨name, .scoped table.current⟩).reverse ++
        scopeObjects table table.current := by
    by_cases outermost : table.current = 0
    · have nothing : more = [] := by
        by_contra some
        exact inside (by simpa using some) outermost
      simp [scopeObjects, outermost, nothing]
    · simp [scopeObjects, outermost, opened, opened', isMore, Function.comp_def]
  have elsewhere : outer.flatMap (scopeObjects after) = outer.flatMap (scopeObjects table) := by
    apply List.flatMap_congr
    intro scope member
    obtain ⟨other, isOther⟩ : ∃ other, table.scopes[scope]? = some other :=
      ⟨_, List.getElem?_eq_getElem (Nat.lt_trans (earlier scope member) formed.current_lt)⟩
    apply scopeObjects_congr
    rw [grown.elsewhere (Nat.ne_of_lt (earlier scope member)) isOther, isOther]
  rw [localObjects, localObjects, grown.current_eq, grown.enclosing_eq formed.current_lt, chain,
    List.flatMap_cons, List.flatMap_cons, here, elsewhere, List.append_assoc]

theorem localObjects_push (formed : table.WellFormed) :
    localObjects table.push = localObjects table := by
  have opened : table.push.scopes[table.scopes.length]? = some ⟨some table.current, []⟩ := by
    rw [Table.getElem?_push, if_pos rfl]
  have old {scope : Nat} (earlier : scope ≤ table.current) :
      table.push.scopes[scope]? = table.scopes[scope]? := by
    have := formed.current_lt
    rw [Table.getElem?_push, if_neg (by omega)]
  have chain := Table.enclosing_eq_cons opened rfl formed.current_lt
  have outer : table.push.enclosing table.current = table.enclosing table.current :=
    Table.enclosing_congr fun scope earlier => by rw [old earlier]
  have nothing : scopeObjects table.push table.scopes.length = [] := by
    rw [scopeObjects, opened]
    simp
  rw [localObjects, localObjects, Table.push_current, chain, outer, List.flatMap_cons, nothing,
    List.nil_append]
  apply List.flatMap_congr
  intro scope member
  exact scopeObjects_congr (old (Table.opened_of_mem_enclosing member).1)

namespace Shows

variable {names : List String} {outside objects : List Object} {table after : Table}

theorem push (shown : Shows outside table objects) (formed : table.WellFormed) :
    Shows outside table.push objects := by
  rw [Shows, localObjects_push formed]
  exact shown

theorem grow (shown : Shows outside table objects) (formed : table.WellFormed)
    (inside : names ≠ [] → table.current ≠ 0) (grown : Grows names table after) :
    Shows outside after
      ((names.map fun name => ⟨name, .scoped table.current⟩).reverse ++ objects) := by
  rw [Shows, localObjects_of_grows formed inside grown, List.filter_append, shown,
    List.append_assoc]
  congr 1
  apply List.filter_eq_self.mpr
  intro object member
  obtain ⟨name, _, rfl⟩ : ∃ name ∈ names, (⟨name, .scoped table.current⟩ : Object) = object := by
    simpa using member
  rfl

theorem made (shown : Shows outside table objects) (temporaries : List Object)
    (areMade : ∀ object ∈ temporaries, object.isMade) :
    Shows outside table (temporaries ++ objects) := by
  have none : temporaries.filter (!·.isMade) = [] := by simpa using areMade
  rw [Shows, List.filter_append, none, List.nil_append]
  exact shown

end Shows

namespace Keeps

variable {names : List String} {pending : List (List String)} {table after final : Table}
  {walk next : Walk}

/-- Where a check opens a scope, a walk enters the same scope. -/
theorem enter (kept : Keeps table walk) (rest : Completes pending table.push final) :
    walk.enter final =
      .ok { walk with scope := table.scopes.length, cursor := table.scopes.length } := by
  have opened : table.push.scopes[table.scopes.length]? = some ⟨some table.current, []⟩ := by
    rw [Table.getElem?_push, if_pos rfl]
  obtain ⟨holder, isHolder, isChild⟩ :
      ∃ holder, final.scopes[table.scopes.length]? = some holder ∧
        holder.parent = some table.current := by
    simpa using rest.parent_eq opened
  have inRange : table.scopes.length < final.scopes.length :=
    (List.getElem?_eq_some_iff.mp isHolder).1
  have lies : final.parent? table.scopes.length = some table.current := by
    simp [Table.parent?, isHolder, isChild]
  simp [Walk.enter, kept.cursor_eq, inRange, lies, kept.scope_eq]

theorem push (table : Table) (walk : Walk) :
    Keeps table.push { walk with scope := table.scopes.length, cursor := table.scopes.length } :=
  ⟨rfl, by simp⟩

/-- Where a check closes a scope, a walk leaves it. -/
theorem leave (kept : Keeps after next) (grown : Grows names table.push after)
    (rest : Completes pending after final) : Keeps after.pop (next.leave final) := by
  obtain ⟨holder, opened, isChild⟩ := grown.exists_block
  have current : after.current = table.scopes.length := grown.current_eq
  have left : final.parent? table.scopes.length = some table.current := by
    obtain ⟨holder', isHolder', sameParent⟩ :
        ∃ holder', final.scopes[table.scopes.length]? = some holder' ∧
          holder'.parent = holder.parent := by
      simpa using rest.parent_eq opened
    simp [Table.parent?, isHolder', sameParent, isChild]
  constructor
  · simp [Walk.leave, kept.scope_eq, current, left, grown.pop_eq]
  · simpa [Walk.leave] using kept.cursor_eq

theorem fill (kept : Keeps table walk) (filled : Table.Fills table after) :
    Keeps after walk := by
  obtain ⟨⟨_, grown⟩, sameLength⟩ := filled
  exact ⟨kept.scope_eq.trans grown.current_eq.symm, kept.cursor_eq.trans sameLength.symm⟩

theorem of_eq (kept : Keeps table walk) (sameScope : next.scope = walk.scope)
    (sameCursor : next.cursor = walk.cursor) : Keeps table next :=
  ⟨sameScope.trans kept.scope_eq, by rw [sameCursor]; exact kept.cursor_eq⟩

end Keeps

theorem inLoop_table (around : Surroundings) (label : Option String) (walk : Walk) :
    (around.inLoop label walk).2.1.table = around.table := by
  cases label <;> rfl

theorem Keeps.inLoop (kept : Keeps table walk) (around : Surroundings) (label : Option String) :
    Keeps table (around.inLoop label walk).2.2 := by
  cases label with
  | none => exact kept
  | some word => exact kept.of_eq rfl rfl

theorem Keeps.counting {next : Walk} (kept : Keeps table walk) {iter : Expr} {counted : Counting}
    (counts : counting view target iter walk = .ok (counted, next)) : Keeps table next := by
  cases countsBy_of_counting counts with
  | upTo => exact kept
  | between => exact kept
  | positions => exact kept.of_eq rfl rfl

theorem Keeps.lowerSubject {next : Walk} (kept : Keeps table walk) {subject : Expr}
    {lowered : Subject} (lowers : lowerSubject view subject walk = .ok (lowered, next)) :
    Keeps table next := by
  cases lowersTo_of_lowerSubject lowers with
  | shown => exact kept
  | kept => exact kept.of_eq rfl rfl

theorem isMade_of_mem_keptObject {subject : Expr} {object : Object}
    (member : object ∈ keptObject view subject walk) : object.origin = .made := by
  rw [keptObject] at member
  split at member
  · obtain rfl : object = ⟨(walk.fresh "_match").1, .made⟩ := by simpa using member
    rfl
  · simp at member

theorem new_of_mem_loopObjects {iter : Expr} (kept : Keeps table walk) {object : Object}
    (member : object ∈ loopObjects target iter walk) :
    object.origin = .made ∨
      ∃ scope, object.origin = .scoped scope ∧ table.held? object.name scope = none := by
  have unopened (name : String) : table.held? name (walk.cursor + 1) = none := by
    simp [Table.held?, kept.cursor_eq]
  rw [loopObjects, counterObject] at member
  split at member
  · obtain rfl : object = ⟨target, .scoped (walk.cursor + 1)⟩ := by simpa using member
    exact .inr ⟨_, rfl, unopened _⟩
  · rcases List.mem_cons.mp member with rfl | member
    · exact .inr ⟨_, rfl, unopened _⟩
    · obtain rfl : object = ⟨(walk.fresh "_i").1, .made⟩ := by simpa using member
      exact .inl rfl

theorem fits_usesOf {outside objects : List Object} {checked : Check.Surroundings}
    {around : Surroundings} {line : Nat} {form : Form} (kept : Keeps table walk)
    (shown : Shows outside table objects)
    (accepted : Check.checkForm checked line form table = .ok after) :
    ∀ use ∈ usesOf around objects form walk, Fits outside table use := by
  have plain (mentions : List Mention) : Fits outside table ⟨[], objects, mentions⟩ :=
    ⟨shown, by simp⟩
  have looping {target : String} {iter : Expr} (mentions : List Mention) :
      Fits outside table ⟨loopObjects target iter walk, objects, mentions⟩ :=
    ⟨shown, fun _ => new_of_mem_loopObjects kept⟩
  intro use member
  cases form with
  | declare target written value =>
      rw [Check.checkForm, onLine_eq_ok] at accepted
      obtain ⟨name, _, rfl, fresh, _⟩ := Check.declare_of_declareVariable accepted
      cases value with
      | none => simp [usesOf] at member
      | some value =>
          simp only [usesOf] at member
          split at member
          · simp at member
          · obtain rfl := List.mem_singleton.mp member
            refine ⟨shown, fun object isObject => .inr ?_⟩
            obtain rfl : object = ⟨name, .scoped walk.scope⟩ := by
              simpa [declaredObjects] using isObject
            exact ⟨_, rfl, by rw [kept.scope_eq]; exact fresh⟩
  | forLoop target iter body label =>
      simp only [usesOf] at member
      split at member
      · obtain ⟨mentioned, _, rfl⟩ := List.mem_map.mp member
        exact looping mentioned
      · obtain rfl := List.mem_singleton.mp member
        exact looping _
  | select subject cases =>
      simp only [usesOf] at member
      split at member
      · simp at member
      · obtain rfl := List.mem_singleton.mp member
        exact ⟨shown, fun _ isKept => .inl (isMade_of_mem_keptObject isKept)⟩
  | assign target value =>
      rcases List.mem_cons.mp member with rfl | member
      · exact plain _
      · obtain rfl := List.mem_singleton.mp member
        exact plain _
  | ret value =>
      cases value with
      | none => simp [usesOf] at member
      | some value =>
          simp only [usesOf] at member
          split at member
          · simp at member
          · obtain rfl := List.mem_singleton.mp member
            exact plain _
  | branch test body orelse =>
      obtain rfl := List.mem_singleton.mp member
      exact plain _
  | whileLoop test body label =>
      obtain rfl := List.mem_singleton.mp member
      exact plain _
  | expr value =>
      obtain rfl := List.mem_singleton.mp member
      exact plain _
  | _ => simp [usesOf] at member

/-- After a statement, the objects in scope stand for what the check knows. -/
theorem shows_declaredObjects {outside objects : List Object} {checked : Check.Surroundings}
    (view : View) {line : Nat} {form : Form} (kept : Keeps table walk)
    (shown : Shows outside table objects) (formed : table.WellFormed) (inside : table.current ≠ 0)
    (accepted : Check.checkForm checked line form table = .ok after) :
    Shows outside after (declaredObjects view form walk ++ objects) := by
  have grown := shown.grow formed (fun _ => inside)
    (Check.grows_of_checkForm form formed accepted)
  cases form with
  | declare target written value =>
      rw [Check.checkForm, onLine_eq_ok] at accepted
      obtain ⟨name, _, rfl, _, _⟩ := Check.declare_of_declareVariable accepted
      simpa [declaredObjects, Form.declares, kept.scope_eq] using grown
  | select subject cases =>
      refine Shows.made grown _ ?_
      intro object isKept
      rw [Object.isMade, isMade_of_mem_keptObject isKept]
  | _ => exact grown

theorem shows_loopObjects {outside objects : List Object} (kept : Keeps table walk)
    (shown : Shows outside table objects) (formed : table.WellFormed) (iter : Expr)
    (grown : Grows [target] table.push after) :
    Shows outside after (loopObjects target iter walk ++ objects) := by
  rw [loopObjects, counterObject, kept.cursor_eq]
  split
  · exact (shown.push formed).grow formed.push (fun _ => formed.push_current_ne_zero) grown
  · have shown' : Shows outside table (⟨(walk.fresh "_i").1, .made⟩ :: objects) :=
      shown.made [⟨(walk.fresh "_i").1, .made⟩] (by simp [Object.isMade])
    exact (shown'.push formed).grow formed.push (fun _ => formed.push_current_ne_zero) grown

end Lower

end Offside
