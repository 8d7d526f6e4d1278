import Offside.Proofs.Scope.Walk

/-!
# What names resolve to

A check looks names up in scopes that are still being filled, a lowering in the finished ones. The
two find the same declaration exactly when no block around the name, inside the one that holds it,
declares it in the same statement or later.
-/

namespace Offside

namespace Check

/-- Whether a block that has yet to declare a name hides one that holds it. -/
def overtakes (table : Table) (name : String) : List Nat → List (List String) → Bool
  | scope :: scopes, later :: pending =>
      if (table.held? name scope).isSome then false
      else later.contains name || overtakes table name scopes pending
  | _, _ => false

/-- Whether a name will be found further inside once the blocks around are finished. -/
def Moment.overtakes (moment : Moment) (name : String) : Bool :=
  Check.overtakes moment.table name (moment.table.enclosing moment.table.current) moment.pending

end Check

namespace Table

theorem pairwise_enclosing (table : Table) (scope : Nat) :
    (table.enclosing scope).Pairwise (· > ·) := by
  fun_induction table.enclosing scope with
  | case1 => exact .nil
  | case2 scope => exact List.pairwise_singleton _ _
  | case3 scope holder opened parent isChild inside induction =>
      refine .cons ?_ induction
      intro outer member
      exact Nat.lt_of_le_of_lt (opened_of_mem_enclosing member).1 inside
  | case4 scope => exact List.pairwise_singleton _ _

theorem findSome?_held?_eq_iff {table final : Table} {name : String} {scopes : List Nat}
    {pending : List (List String)} (chain : List.Forall₂ (Continues table final) scopes pending)
    (ordered : scopes.Pairwise (· > ·)) :
    (scopes.findSome? fun holder => (final.held? name holder).map (holder, ·)) =
        (scopes.findSome? fun holder => (table.held? name holder).map (holder, ·)) ↔
      Check.overtakes table name scopes pending = false := by
  induction chain with
  | nil => simp [Check.overtakes]
  | @cons scope later scopes pending continues _ induction =>
      obtain ⟨outer, ordered⟩ := List.pairwise_cons.mp ordered
      obtain ⟨stays, comes⟩ := held?_of_continues continues name
      rw [List.findSome?_cons, List.findSome?_cons, Check.overtakes]
      cases now : table.held? name scope with
      | some symbol => simp [stays symbol now]
      | none =>
          by_cases declared : name ∈ later
          · obtain ⟨symbol, found⟩ := Option.isSome_iff_exists.mp ((comes now).mpr declared)
            -- What is found further out lies in a scope with a smaller number.
            have elsewhere : (scopes.findSome? fun holder =>
                (table.held? name holder).map (holder, ·)) ≠ some (scope, symbol) := by
              intro same
              obtain ⟨holder, member, isHolder⟩ := List.exists_of_findSome?_eq_some same
              obtain ⟨_, _, sameScope⟩ := Option.map_eq_some_iff.mp isHolder
              have smaller := outer holder member
              have : holder = scope := congrArg Prod.fst sameScope
              omega
            simp [found, declared, elsewhere.symm]
          · have absent : final.held? name scope = none := by
              simpa [declared] using comes now
            simpa [absent, declared] using induction ordered

/-- A name stands for the same after a check exactly when it is not overtaken. -/
theorem locate_eq_iff {table final : Table} {pending : List (List String)}
    (formed : table.WellFormed) (rest : Completes pending table final) (name : String) :
    final.locate table.current name = table.locate table.current name ↔
      Check.overtakes table name (table.enclosing table.current) pending = false := by
  rw [locate, locate, rest.enclosing_eq formed.current_lt]
  exact findSome?_held?_eq_iff rest.chain (pairwise_enclosing table table.current)

end Table

/-- Wherever a lowering looks a name up, the check did so at the same statement. Both found the same
declaration exactly when no block around, inside the one that held the name, declares it there or
later. -/
theorem lookup_agrees_iff {kind : UnitKind} {modules : List Fragment} {body : List Statement}
    {table : Table} (analyzed : analyze kind modules body = .ok table) :
    (∀ (position : Nat) (site : Site) (scope : Nat) (uses : List Lower.Use),
      (Lower.visits table body)[position]? = some (.reaches site scope uses) →
        ∃ moment, (Check.visits kind modules body)[position]? = some (.reaches site moment) ∧
          ∀ name,
            (⟨table, scope⟩ : Lower.View).lookup name = (table.locate scope name).map (·.2) ∧
            moment.table.lookup name =
              (moment.table.locate moment.table.current name).map (·.2) ∧
            (table.locate scope name = moment.table.locate moment.table.current name ↔
              moment.overtakes name = false)) ∧
      ∀ (support : String) (target : UnitKind) (unit : C.Unit),
        generate table support target body = .ok unit →
          (Lower.visits table body).length = (Check.visits kind modules body).length := by
  obtain ⟨_, _, follows⟩ := Lower.follows_unit analyzed
  constructor
  · intro position site scope uses reached
    obtain ⟨first, isFirst, agrees⟩ := follows.exists_agrees reached
    cases agrees with
    | @reaches _ moment _ formed rest _ =>
        refine ⟨moment, isFirst, fun name => ⟨?_, ?_, ?_⟩⟩
        · exact Table.lookupFrom_eq_map_locate table moment.table.current name
        · exact Table.lookupFrom_eq_map_locate moment.table moment.table.current name
        · exact Table.locate_eq_iff formed rest name
  · intro support target unit generated
    obtain ⟨functions, walk, folded, _, _⟩ :=
      Lower.functions_of_lowerUnit generated
    exact (follows.finished _ folded).1.length_eq.symm

/-- A block reads a variable before it declares one of the same name. -/
def shadowedLater : List Statement :=
  let x : Expr := .name "x"
  let shows : Form := .expr (.call (.name "print") [x])
  [⟨1, .function ⟨"main", [], none,
    [⟨2, .declare x (.name "int") (some (.constant (.int 1)))⟩,
     ⟨3, .branch (.constant (.bool true))
       [⟨4, shows⟩, ⟨5, .declare x (.name "str") (some (.constant (.str "s")))⟩] []⟩]⟩⟩]

theorem lookup_agrees_iff_shadowedLater :
    ∃ table moment, analyze .program [] shadowedLater = .ok table ∧
      (Check.visits .program [] shadowedLater)[4]? = some (.reaches [0, 0, 1, 0, 0] moment) ∧
      table.locate 2 "x" ≠ moment.table.locate moment.table.current "x" := by
  let outer : List Scope :=
    [⟨none, [.function "main" ⟨[], .none⟩]⟩, ⟨some 0, [.value "x" .int false]⟩]
  let table : Table := ⟨outer ++ [⟨some 1, [.value "x" .str false]⟩, ⟨some 1, []⟩], 0⟩
  let moment : Check.Moment := ⟨⟨outer ++ [⟨some 1, []⟩], 2⟩, [["x"], [], []]⟩
  have analyzed : analyze .program [] shadowedLater = .ok table := by with_unfolding_all rfl
  have reached : (Lower.visits table shadowedLater)[4]? =
      some (.reaches [0, 0, 1, 0, 0] 2 [⟨[], [⟨"x", .scoped 1⟩], [.plain "x"]⟩]) := by
    with_unfolding_all rfl
  have known : (Check.visits .program [] shadowedLater)[4]? =
      some (.reaches [0, 0, 1, 0, 0] moment) := by with_unfolding_all rfl
  obtain ⟨found, isFound, agrees⟩ := (lookup_agrees_iff analyzed).1 _ _ _ _ reached
  obtain rfl : found = moment := by simpa [known] using isFound.symm
  have overtaken : moment.overtakes "x" = true := by with_unfolding_all rfl
  refine ⟨table, moment, analyzed, known, ?_⟩
  rw [Ne, (agrees "x").2.2, overtaken]
  decide

end Offside
