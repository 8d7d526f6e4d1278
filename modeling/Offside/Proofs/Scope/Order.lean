import Offside.Compile
import Offside.Proofs.Scope.Alike

/-!
# The order of a unit

The first round of a check declares at the top level what each statement brings, which does not
depend on the statements before it. The second round shows every statement the same table.
-/

namespace Offside

namespace Table

theorem outermost_nil : outermost [] = empty := rfl

@[simp]
theorem globals_outermost (symbols : List Symbol) : (outermost symbols).globals = symbols := rfl

theorem insert_outermost {symbols : List Symbol} {symbol : Symbol} {after : Table} :
    (outermost symbols).insert symbol = .ok after ↔
      symbol.name ∉ symbols.map (·.name) ∧ after = outermost (symbols ++ [symbol]) := by
  have held : (outermost symbols).lookupLocal symbol.name =
      symbols.find? (·.name = symbol.name) := rfl
  rw [Table.insert, held]
  cases found : symbols.find? (·.name = symbol.name) with
  | some other =>
      have taken : symbol.name ∈ symbols.map (·.name) :=
        List.mem_map.mpr ⟨other, List.mem_of_find?_eq_some found, name_of_find? found⟩
      simp [taken]
  | none =>
      have fresh : symbol.name ∉ symbols.map (·.name) := by
        simpa using found
      simp only [fresh, not_false_eq_true, true_and, Except.ok.injEq]
      exact eq_comm

theorem alike_outermost {symbols symbols' : List Symbol} (permuted : symbols.Perm symbols')
    (distinct : (symbols.map (·.name)).Nodup) :
    Alike (outermost symbols) (outermost symbols') := by
  refine ⟨rooted_outermost symbols, rooted_outermost symbols', ?_⟩
  rw [visible_outermost, visible_outermost]
  exact .cons (sameNames_of_perm permuted distinct) .nil

theorem alike_of_visible_eq {table table' : Table} (rooted : table.Rooted)
    (rooted' : table'.Rooted) (same : table.visible = table'.visible) : table.Alike table' := by
  refine ⟨rooted, rooted', ?_⟩
  rw [same]
  exact List.forall₂_same.mpr fun _ _ _ => rfl

end Table

namespace Check

open Outcome Table

/-- A step that brings the same symbols wherever their names are free. -/
def Local {ε : Type} (step : Table → Except ε Table) : Prop :=
  ∀ ⦃symbols : List Symbol⦄ ⦃after : Table⦄, (symbols.map (·.name)).Nodup →
    (step (outermost symbols) = .ok after ↔
      ∃ more, step .empty = .ok (outermost more) ∧
        ((symbols ++ more).map (·.name)).Nodup ∧ after = outermost (symbols ++ more))

namespace Local

variable {ε ε' : Type}

theorem fail (cause : ε) : Local fun _ => .error cause := by
  intro symbols after distinct
  simp

theorem keep : Local fun table => (.ok table : Except ε Table) := by
  intro symbols after distinct
  constructor
  · intro kept
    obtain rfl := Except.ok.inj kept
    exact ⟨[], rfl, by simpa using distinct, by rw [List.append_nil]⟩
  · rintro ⟨more, kept, _, rfl⟩
    obtain rfl : [] = more := congrArg globals (Except.ok.inj kept)
    rw [List.append_nil]

theorem mapError {step : Table → Except ε Table} (isLocal : Local step) (rename : ε → ε') :
    Local fun table => (step table).mapError rename := by
  intro symbols after distinct
  simp only [mapError_eq_ok]
  exact isLocal distinct

theorem after {α : Type} {first : Except ε α} {step : α → Table → Except ε Table}
    (isLocal : ∀ value, Local (step value)) : Local fun table => first >>= (step · table) := by
  cases first with
  | error cause => exact fail cause
  | ok value => exact isLocal value

theorem exists_outermost {step : Table → Except ε Table} {table : Table} (isLocal : Local step)
    (ran : step .empty = .ok table) :
    ∃ more, table = outermost more ∧ (more.map (·.name)).Nodup := by
  rw [← outermost_nil] at ran
  obtain ⟨more, _, distinct, rfl⟩ := (@isLocal [] table List.nodup_nil).mp ran
  exact ⟨more, rfl, distinct⟩

theorem bind {step next : Table → Except ε Table} (first : Local step) (second : Local next) :
    Local fun table => step table >>= next := by
  intro symbols after distinct
  simp only [bind_eq_ok]
  -- What each step brings alone decides both the sequence at hand and the sequence alone.
  constructor
  · rintro ⟨between, isBetween, isAfter⟩
    obtain ⟨more, alone, free, rfl⟩ := (first distinct).mp isBetween
    obtain ⟨later, aloneLater, freeLater, rfl⟩ := (second free).mp isAfter
    rw [List.append_assoc] at freeLater ⊢
    have own : ((more ++ later).map (·.name)).Nodup :=
      (List.map_append ▸ freeLater).of_append_right
    have isOwn : next (outermost more) = .ok (outermost (more ++ later)) :=
      (second (List.map_append ▸ own).of_append_left).mpr ⟨later, aloneLater, own, rfl⟩
    exact ⟨more ++ later, ⟨outermost more, alone, isOwn⟩, freeLater, rfl⟩
  · rintro ⟨all, ⟨between, isBetween, isAll⟩, free, rfl⟩
    obtain ⟨more, rfl, own⟩ := first.exists_outermost isBetween
    obtain ⟨later, aloneLater, _, isMore⟩ := (second own).mp isAll
    obtain rfl : all = more ++ later := congrArg globals isMore
    rw [← List.append_assoc] at free ⊢
    have earlier : ((symbols ++ more).map (·.name)).Nodup :=
      (List.map_append ▸ free).of_append_left
    exact ⟨outermost (symbols ++ more), (first distinct).mpr ⟨more, isBetween, earlier, rfl⟩,
      (second earlier).mpr ⟨later, aloneLater, free, rfl⟩⟩

theorem foldlM {α : Type} {step : Table → α → Except ε Table} (items : List α)
    (steps : ∀ item ∈ items, Local (step · item)) : Local fun table => items.foldlM step table := by
  induction items with
  | nil => exact keep
  | cons item items induction =>
      simp only [List.foldlM_cons]
      exact (steps item List.mem_cons_self).bind
        (induction fun other member => steps other (List.mem_cons_of_mem _ member))

end Local

theorem local_declare (symbol : Symbol) : Local (declare · symbol) := by
  intro symbols after distinct
  simp only [declare, error_ite_eq_ok, mapError_eq_ok, ← outermost_nil, insert_outermost]
  constructor
  · rintro ⟨plain, fresh, rfl⟩
    refine ⟨[symbol], ⟨plain, List.not_mem_nil, rfl⟩, ?_, rfl⟩
    rw [List.map_append, List.map_singleton]
    exact distinct.append (List.nodup_singleton _) (by simpa using fresh)
  · rintro ⟨more, ⟨plain, _, isMore⟩, free, rfl⟩
    obtain rfl : more = [symbol] := congrArg globals isMore
    rw [List.map_append, List.map_singleton] at free
    exact ⟨plain, by simpa using List.disjoint_of_nodup_append free, rfl⟩

theorem local_declareImport (fragments : List Fragment) (request : Import) :
    Local (declareImport fragments · request) := by
  simp only [declareImport]
  split
  · exact .keep
  · split
    · exact .fail _
    · split
      · exact local_declare _
      · refine .foldlM _ fun name _ => ?_
        split
        · exact .fail _
        · exact local_declare _

/-- What a statement brings does not depend on what is declared. -/
theorem local_declareTop (fragments : List Fragment) (statement : Statement) :
    Local (declareTop fragments · statement) := by
  simp only [declareTop]
  split
  · exact (local_declareImport fragments _).mapError _
  · exact .after fun signature => (local_declare _).mapError _
  · exact .after fun symbol => (local_declare _).mapError _
  · exact .mapError (.after fun name => .after fun annotated => local_declare _) _
  · split
    · exact .keep
    · exact .fail _

/-- What a statement brings to the top level, wherever it stands. -/
def brought (fragments : List Fragment) (statement : Statement) : List Symbol :=
  given (declareTop fragments .empty statement) globals

/-- The first round succeeds when no two of its symbols share a name. -/
theorem foldlM_declareTop_eq_ok {fragments : List Fragment} (body : List Statement)
    {symbols : List Symbol} {after : Table} (distinct : (symbols.map (·.name)).Nodup) :
    body.foldlM (declareTop fragments) (outermost symbols) = .ok after ↔
      (∀ statement ∈ body, ∃ alone, declareTop fragments .empty statement = .ok alone) ∧
        ((symbols ++ body.flatMap (brought fragments)).map (·.name)).Nodup ∧
        after = outermost (symbols ++ body.flatMap (brought fragments)) := by
  induction body generalizing symbols with
  | nil =>
      simp only [List.foldlM_nil, pure_eq_ok, List.not_mem_nil, false_implies, implies_true,
        List.flatMap_nil, List.append_nil, distinct, true_and]
      exact eq_comm
  | cons statement body induction =>
      have isLocal := local_declareTop fragments statement
      have brought_eq {more : List Symbol}
          (alone : declareTop fragments .empty statement = .ok (outermost more)) :
          brought fragments statement = more := by rw [brought, alone, given_ok, globals_outermost]
      rw [List.foldlM_cons, bind_eq_ok, List.forall_mem_cons, List.flatMap_cons,
        ← List.append_assoc]
      constructor
      · rintro ⟨next, isNext, folded⟩
        obtain ⟨more, alone, free, rfl⟩ := (isLocal distinct).mp isNext
        obtain ⟨standing, all, rfl⟩ := (induction free).mp folded
        rw [brought_eq alone]
        exact ⟨⟨⟨_, alone⟩, standing⟩, all, rfl⟩
      · rintro ⟨⟨⟨table, alone⟩, standing⟩, all, isAll⟩
        obtain ⟨more, rfl, _⟩ := isLocal.exists_outermost alone
        rw [brought_eq alone] at all isAll
        have free : ((symbols ++ more).map (·.name)).Nodup :=
          (List.map_append ▸ all).of_append_left
        exact ⟨_, (isLocal distinct).mpr ⟨more, alone, free, rfl⟩,
          (induction free).mpr ⟨standing, all, isAll⟩⟩

variable {table : Table} {body : List Statement} {kind : UnitKind} {fragments : List Fragment}

theorem rooted_of_checkTop {after : Table} {statement : Statement} (rooted : table.Rooted)
    (checked : checkTop table statement = .ok after) : after.Rooted := by
  have same := agree_checkTop (alike_of_visible_eq rooted rooted rfl) statement
  obtain ⟨_, _, alike⟩ := same.exists_ok checked
  exact alike.rooted

theorem alike_of_checkTop {after : Table} {statement : Statement} (rooted : table.Rooted)
    (checked : checkTop table statement = .ok after) : after.Alike table :=
  alike_of_visible_eq (rooted_of_checkTop rooted checked) rooted
    (Grows.visible_eq rooted.toWellFormed (grows_of_checkTop rooted.toWellFormed checked))

/-- The second round succeeds when every statement passes on its own. -/
theorem exists_foldlM_checkTop_iff (rooted : table.Rooted) (body : List Statement) :
    (∃ after, body.foldlM checkTop table = .ok after) ↔
      ∀ statement ∈ body, ∃ after, checkTop table statement = .ok after := by
  induction body generalizing table with
  | nil => simp
  | cons statement body induction =>
      simp only [List.foldlM_cons, bind_eq_ok, List.forall_mem_cons]
      -- The later statements see another table than the first, but one that shows the same.
      have others {next : Table} (checked : checkTop table statement = .ok next) :
          (∃ after, body.foldlM checkTop next = .ok after) ↔
            ∀ other ∈ body, ∃ after, checkTop table other = .ok after := by
        rw [induction (rooted_of_checkTop rooted checked)]
        exact forall₂_congr fun other _ =>
          (agree_checkTop (alike_of_checkTop rooted checked) other).exists_ok_iff
      constructor
      · rintro ⟨after, next, checked, folded⟩
        exact ⟨⟨next, checked⟩, (others checked).mp ⟨after, folded⟩⟩
      · rintro ⟨⟨next, checked⟩, passing⟩
        obtain ⟨after, folded⟩ := (others checked).mpr passing
        exact ⟨after, next, checked, folded⟩

/-- The second round declares nothing at the top level. -/
theorem globals_of_foldlM_checkTop {after : Table} (rooted : table.Rooted)
    (checked : body.foldlM checkTop table = .ok after) : after.globals = table.globals := by
  refine (foldlM_preserves (fun state => state.Rooted ∧ state.globals = table.globals) ?_ body
    ⟨rooted, rfl⟩ checked).2
  rintro state statement next ⟨stateRooted, same⟩ step
  have nextRooted := rooted_of_checkTop stateRooted step
  have seen := Grows.visible_eq stateRooted.toWellFormed
    (grows_of_checkTop stateRooted.toWellFormed step)
  have outer := nextRooted.getLast?_visible
  rw [seen, stateRooted.getLast?_visible] at outer
  exact ⟨nextRooted, (Option.some.inj outer).symm.trans same⟩

/-! ## Units -/

/-- What a unit has to fulfil, whatever the order of its statements. -/
structure Acceptable (kind : UnitKind) (fragments : List Fragment) (body : List Statement)
    (table : Table) : Prop where
  alone : ∀ statement ∈ body, ∃ alone, declareTop fragments .empty statement = .ok alone
  distinct : ((body.flatMap (brought fragments)).map (·.name)).Nodup
  provided : ∀ statement ∈ body, checkImplements table statement = .ok ()
  entry : kind = .program → checkEntry table = .ok ()
  passing : ∀ statement ∈ body, ∃ after, checkTop table statement = .ok after

/-- A unit is declared against the symbols that its statements bring. -/
theorem declareAll_eq_ok :
    declareAll kind fragments body = .ok table ↔
      (∀ statement ∈ body, ∃ alone, declareTop fragments .empty statement = .ok alone) ∧
        ((body.flatMap (brought fragments)).map (·.name)).Nodup ∧
        (∀ statement ∈ body, checkImplements table statement = .ok ()) ∧
        (kind = .program → checkEntry table = .ok ()) ∧
        table = outermost (body.flatMap (brought fragments)) := by
  have round (filled : Table) := @foldlM_declareTop_eq_ok fragments body [] filled List.nodup_nil
  simp only [outermost_nil, List.nil_append] at round
  have entered (filled : Table) :
      (if kind = .program then onLine 1 (checkEntry filled) >>= fun _ => pure filled
        else pure filled : Except Fault Table) = .ok table ↔
      (kind = .program → checkEntry filled = .ok ()) ∧ filled = table := by
    by_cases isProgram : kind = .program <;> cases checkEntry filled <;> simp [isProgram]
  simp only [declareAll, bind_eq_ok, round, entered]
  constructor
  · rintro ⟨_, ⟨alone, distinct, rfl⟩, _, provided, entry, rfl⟩
    exact ⟨alone, distinct, forM_eq_ok.mp provided, entry, rfl⟩
  · rintro ⟨alone, distinct, provided, entry, rfl⟩
    exact ⟨_, ⟨alone, distinct, rfl⟩, (), forM_eq_ok.mpr provided, entry, rfl⟩

/-- A unit is accepted exactly when it fulfils what does not depend on the order. -/
theorem exists_checkUnit_iff :
    (∃ table, checkUnit kind fragments body = .ok table) ↔
      Acceptable kind fragments body (outermost (body.flatMap (brought fragments))) := by
  simp only [checkUnit, bind_eq_ok, declareAll_eq_ok]
  constructor
  · rintro ⟨table, _, ⟨alone, distinct, provided, entry, rfl⟩, checked⟩
    exact ⟨alone, distinct, provided, entry,
      (exists_foldlM_checkTop_iff (rooted_outermost _) body).mp ⟨table, checked⟩⟩
  · intro acceptable
    obtain ⟨table, checked⟩ :=
      (exists_foldlM_checkTop_iff (rooted_outermost _) body).mpr acceptable.passing
    exact ⟨table, _, ⟨acceptable.alone, acceptable.distinct, acceptable.provided,
      acceptable.entry, rfl⟩, checked⟩

theorem globals_of_checkUnit (checked : checkUnit kind fragments body = .ok table) :
    table.globals = body.flatMap (brought fragments) := by
  simp only [checkUnit, bind_eq_ok, declareAll_eq_ok] at checked
  obtain ⟨_, ⟨_, _, _, _, rfl⟩, checked⟩ := checked
  rw [globals_of_foldlM_checkTop (rooted_outermost _) checked, globals_outermost]

theorem Acceptable.perm {body' : List Statement} (permuted : body.Perm body')
    (acceptable : Acceptable kind fragments body (outermost (body.flatMap (brought fragments)))) :
    Acceptable kind fragments body' (outermost (body'.flatMap (brought fragments))) := by
  have symbols := permuted.flatMap_right (brought fragments)
  have alike := alike_outermost symbols acceptable.distinct
  have member {statement : Statement} (isMember : statement ∈ body') : statement ∈ body :=
    permuted.mem_iff.mpr isMember
  refine ⟨?_, ?_, ?_, ?_, ?_⟩
  · exact fun statement isMember => acceptable.alone statement (member isMember)
  · exact (symbols.map _).nodup_iff.mp acceptable.distinct
  · intro statement isMember
    rw [← checkImplements_eq alike]
    exact acceptable.provided statement (member isMember)
  · rw [← checkEntry_eq alike]
    exact acceptable.entry
  · intro statement isMember
    exact (agree_checkTop alike statement).exists_ok_iff.mp
      (acceptable.passing statement (member isMember))

end Check

open Check Outcome

/-- The order of its statements decides neither whether a unit is accepted nor what each statement
brings. -/
theorem analyze_perm {body body' : List Statement} (permuted : body.Perm body') (kind : UnitKind)
    (fragments : List Fragment) :
    ((∃ table, analyze kind fragments body = .ok table) ↔
        ∃ table', analyze kind fragments body' = .ok table') ∧
      ∀ {table table' : Table}, analyze kind fragments body = .ok table →
        analyze kind fragments body' = .ok table' →
          table.globals = body.flatMap (brought fragments) ∧
          table'.globals = body'.flatMap (brought fragments) ∧
          table.globals.Perm table'.globals ∧
          ∀ path, (table.exports path).Perm (table'.exports path) := by
  refine ⟨?_, fun {table table'} checked checked' => ?_⟩
  · rw [exists_checkUnit_iff, exists_checkUnit_iff]
    exact ⟨.perm permuted, .perm permuted.symm⟩
  · have globals := globals_of_checkUnit checked
    have globals' := globals_of_checkUnit checked'
    have symbols : table.globals.Perm table'.globals := by
      rw [globals, globals']
      exact permuted.flatMap_right (brought fragments)
    exact ⟨globals, globals', symbols, fun path => (symbols.filter _).map _⟩

/-- A struct may stand before or after the interface that it provides. -/
theorem analyze_perm_laterInterface :
    let struct : Statement := ⟨1, .classDef ⟨"Dog", ["Loud"], .struct,
      [⟨2, .function ⟨"bark", [⟨"self", none, 2⟩], none, [⟨3, .pass⟩]⟩⟩]⟩⟩
    let interface : Statement := ⟨4, .classDef ⟨"Loud", [], .interface,
      [⟨5, .function ⟨"bark", [⟨"self", none, 5⟩], none, [⟨6, .pass⟩]⟩⟩]⟩⟩
    [struct, interface].Perm [interface, struct] ∧
      ∃ table table', analyze .library [] [struct, interface] = .ok table ∧
        analyze .library [] [interface, struct] = .ok table' ∧
        table.globals.Perm table'.globals := by
  intro struct interface
  have swapped : [struct, interface].Perm [interface, struct] := .swap _ _ _
  have accepted : ∃ table, analyze .library [] [struct, interface] = .ok table := ⟨_, rfl⟩
  have same := analyze_perm swapped .library []
  obtain ⟨table, isTable⟩ := accepted
  obtain ⟨table', isTable'⟩ := same.1.mp ⟨table, isTable⟩
  exact ⟨swapped, table, table', isTable, isTable', (same.2 isTable isTable').2.2.1⟩

end Offside
