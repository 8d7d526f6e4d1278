import Offside.Proofs.Scope.Occurrences
import Offside.Proofs.Scope.Resolution

/-!
# What identifiers bind to

An identifier in generated code binds to the innermost C object of its name. That is the object for
the variable which the check found, unless the statement declares the name itself, a made-up name
comes between, or an object outside all functions is hidden by a block or by another one.
-/

namespace Offside

namespace Lower

open Outcome

/-- What an identifier in an expression binds to. -/
def Use.binding (use : Use) (name : String) : Option Origin :=
  ((use.own ++ use.around).find? (·.name = name)).map (·.origin)

/-- The variable that the check finds a mention to stand for. -/
def Mention.meant? (table : Table) : Mention → Option Origin
  | plain name =>
      (table.locate table.current name).bind fun (holder, symbol) =>
        match symbol.kind with
        | .value _ | .module _ => some (if holder = 0 then .file symbol else .scoped holder)
        | _ => none
  | exported base name =>
      ((table.lookup base).bind (·.exported? name)).bind fun symbol =>
        if (variableType? symbol).isSome then some (.file symbol) else none
  | member _ _ => none
  | made _ => none

/-- Nothing comes between an identifier and the object that it should bind to. -/
structure Clear (outside : List Object) (table : Table) (use : Use) (name : String)
    (origin : Origin) : Prop where
  own_ne : ∀ object ∈ use.own, object.name ≠ name
  /-- No made-up name hides the object. -/
  not_made : ∀ object, use.around.find? (·.name = name) = some object → object.isMade = false
  file : ∀ symbol, origin = .file symbol →
    (∀ holder found, table.locate table.current name = some (holder, found) → holder = 0) ∧
      (outside.find? (·.name = name)).map (·.origin) = some (.file symbol)

theorem held?_of_locate {table : Table} {scope holder : Nat} {name : String} {symbol : Symbol}
    (found : table.locate scope name = some (holder, symbol)) :
    table.held? name holder = some symbol := by
  obtain ⟨around, _, isHeld⟩ := List.exists_of_findSome?_eq_some found
  obtain ⟨_, isSymbol, same⟩ := Option.map_eq_some_iff.mp isHeld
  obtain ⟨rfl, rfl⟩ := by simpa using same
  exact isSymbol

theorem find?_scopeObjects (table : Table) (name : String) (scope : Nat) :
    (scopeObjects table scope).find? (·.name = name) =
      if scope = 0 then none else (table.held? name scope).map fun _ => ⟨name, .scoped scope⟩ := by
  rw [scopeObjects]
  split
  · rfl
  · cases opened : table.scopes[scope]? with
    | none => simp [Table.held?, opened]
    | some holder =>
        have isHeld : table.held? name scope = holder.symbols.find? (·.name = name) := by
          simp [Table.held?, opened, Scope.find?]
        rw [isHeld]
        cases found : holder.symbols.find? (·.name = name) with
        | none => simpa using found
        | some symbol =>
            have named : symbol.name = name := Table.name_of_find? found
            have member := List.mem_of_find?_eq_some found
            -- The search starts at the other end, but every object it can find is the same.
            have isSome : ((holder.symbols.map fun symbol =>
                (⟨symbol.name, .scoped scope⟩ : Object)).reverse.find? (·.name = name)).isSome := by
              rw [List.find?_isSome]
              exact ⟨⟨symbol.name, .scoped scope⟩, by simpa using ⟨symbol, member, rfl⟩, by simpa⟩
            obtain ⟨object, isObject⟩ := Option.isSome_iff_exists.mp isSome
            obtain ⟨other, _, rfl⟩ : ∃ other ∈ holder.symbols,
                (⟨other.name, .scoped scope⟩ : Object) = object := by
              simpa using List.mem_of_find?_eq_some isObject
            have sameName : other.name = name := by simpa using List.find?_some isObject
            simpa [sameName] using isObject

theorem find?_localObjects (table : Table) (name : String) :
    (localObjects table).find? (·.name = name) =
      (table.locate table.current name).bind fun (holder, _) =>
        if holder = 0 then none else some ⟨name, .scoped holder⟩ := by
  have general {scopes : List Nat} (ordered : scopes.Pairwise (· > ·)) :
      (scopes.flatMap (scopeObjects table)).find? (·.name = name) =
        (scopes.findSome? fun holder => (table.held? name holder).map (holder, ·)).bind
          fun (holder, _) => if holder = 0 then none else some ⟨name, .scoped holder⟩ := by
    induction ordered with
    | nil => rfl
    | @cons scope scopes smaller _ induction =>
        rw [List.flatMap_cons, List.find?_append, find?_scopeObjects, induction,
          List.findSome?_cons]
        cases held : table.held? name scope with
        | none => simp
        | some symbol =>
            by_cases outermost : scope = 0
            · -- Nothing lies outside the outermost scope.
              obtain rfl : scopes = [] := by
                apply List.eq_nil_iff_forall_not_mem.mpr
                intro other member
                have := smaller other member
                omega
              simp [outermost]
            · simp [outermost]
  exact general (Table.pairwise_enclosing table table.current)

/-- A meant variable is one of a block around or lies outside all functions. -/
theorem meant?_cases {table : Table} {mention : Mention} {origin : Origin}
    (meant : mention.meant? table = some origin) :
    (∃ holder symbol, origin = .scoped holder ∧ holder ≠ 0 ∧
      table.locate table.current mention.emitted = some (holder, symbol)) ∨
    ∃ symbol, origin = .file symbol := by
  cases mention with
  | plain name =>
      obtain ⟨⟨holder, symbol⟩, located, isMeant⟩ := Option.bind_eq_some_iff.mp meant
      dsimp only at isMeant
      have same : (if holder = 0 then .file symbol else .scoped holder) = origin := by
        split at isMeant <;> simp_all
      by_cases outermost : holder = 0
      · exact .inr ⟨symbol, by rw [← same, if_pos outermost]⟩
      · exact .inl ⟨holder, symbol, by rw [← same, if_neg outermost], outermost, located⟩
  | exported base name =>
      obtain ⟨symbol, _, isMeant⟩ := Option.bind_eq_some_iff.mp meant
      refine .inr ⟨symbol, ?_⟩
      split at isMeant <;> simp_all
  | member => simp [Mention.meant?] at meant
  | made => simp [Mention.meant?] at meant

theorem find?_of_shows (name : String) {outside objects : List Object} {table : Table}
    (shown : Shows outside table objects) :
    (∃ object, objects.find? (·.name = name) = some object ∧ object.isMade = true) ∨
      objects.find? (·.name = name) =
        ((localObjects table).find? (·.name = name)).or (outside.find? (·.name = name)) := by
  rw [← List.find?_append, ← shown]
  clear shown
  induction objects with
  | nil => exact .inr rfl
  | cons object objects induction =>
      by_cases named : object.name = name
      · cases made : object.isMade with
        | true => exact .inl ⟨object, by simp [named], made⟩
        | false => exact .inr (by simp [named, made])
      · cases made : object.isMade <;> simpa [named, made] using induction

theorem origin_of_isMade {object : Object} (made : object.isMade = true) :
    object.origin = .made := by
  rw [Object.isMade] at made
  split at made <;> simp_all

section Binding

variable {outside : List Object} {table : Table} {use : Use}

theorem own_origin_ne {mention : Mention} {origin : Origin} {object : Object}
    (fits : Fits outside table use) (meant : mention.meant? table = some origin)
    (member : object ∈ use.own) (named : object.name = mention.emitted) :
    object.origin ≠ origin := by
  rintro rfl
  rcases fits.own_new object member with isMade | ⟨scope, isScoped, absent⟩
  · rcases meant?_cases meant with ⟨_, _, same, _⟩ | ⟨_, same⟩ <;> simp [isMade] at same
  · rcases meant?_cases meant with ⟨holder, symbol, same, _, located⟩ | ⟨_, same⟩
    · obtain rfl : scope = holder := by simpa [isScoped] using same
      simp [named, held?_of_locate located] at absent
    · simp [isScoped] at same

/-- An identifier finds the variable of a block unless a made-up name hides it. -/
theorem find?_around_of_scoped (shown : Shows outside table use.around) {name : String}
    {holder : Nat} {symbol : Symbol} (inner : holder ≠ 0)
    (located : table.locate table.current name = some (holder, symbol)) :
    (use.around.find? (·.name = name)).map (·.origin) = some (.scoped holder) ↔
      ∀ object, use.around.find? (·.name = name) = some object → object.isMade = false := by
  rcases find?_of_shows name shown with ⟨object, isFirst, made⟩ | isFirst
  · simp [isFirst, made, origin_of_isMade made]
  · rw [isFirst, find?_localObjects, located]
    simp [inner, Object.isMade]

/-- An identifier finds an object outside unless a made-up name or a block hides it. -/
theorem find?_around_of_file (shown : Shows outside table use.around) (name : String)
    (symbol : Symbol) :
    (use.around.find? (·.name = name)).map (·.origin) = some (.file symbol) ↔
      (∀ object, use.around.find? (·.name = name) = some object → object.isMade = false) ∧
        (∀ holder found, table.locate table.current name = some (holder, found) → holder = 0) ∧
          (outside.find? (·.name = name)).map (·.origin) = some (.file symbol) := by
  rcases find?_of_shows name shown with ⟨object, isFirst, made⟩ | isFirst
  · simp [isFirst, made, origin_of_isMade made]
  · rw [find?_localObjects] at isFirst
    by_cases hidden : ∃ holder found,
        table.locate table.current name = some (holder, found) ∧ holder ≠ 0
    · obtain ⟨holder, found, located, inner⟩ := hidden
      simp [isFirst, located, inner]
    · have outermost : ∀ holder found,
          table.locate table.current name = some (holder, found) → holder = 0 := by
        simpa using hidden
      have isOutside : use.around.find? (·.name = name) = outside.find? (·.name = name) := by
        rw [isFirst]
        cases located : table.locate table.current name with
        | none => simp
        | some pair => simp [outermost pair.1 pair.2 located]
      rw [isOutside]
      refine ⟨fun bound => ⟨?_, outermost, bound⟩, fun clear => clear.2.2⟩
      intro object isObject
      have isFile : object.origin = .file symbol := by simpa [isObject] using bound
      rw [Object.isMade, isFile]

/-- An identifier binds to what is meant exactly when nothing comes between. -/
theorem binding_eq_iff {mention : Mention} {origin : Origin} (fits : Fits outside table use)
    (meant : mention.meant? table = some origin) :
    use.binding mention.emitted = some origin ↔
      Clear outside table use mention.emitted origin := by
  rw [Use.binding, List.find?_append]
  cases captured : use.own.find? (·.name = mention.emitted) with
  | some object =>
      have member := List.mem_of_find?_eq_some captured
      have named : object.name = mention.emitted := by simpa using List.find?_some captured
      constructor
      · intro bound
        exact absurd (by simpa using bound) (own_origin_ne fits meant member named)
      · intro clear
        exact absurd named (clear.own_ne object member)
  | none =>
      have notOwn : ∀ object ∈ use.own, object.name ≠ mention.emitted := by simpa using captured
      rw [Option.none_or]
      rcases meant?_cases meant with ⟨holder, symbol, rfl, inner, located⟩ | ⟨symbol, rfl⟩
      · rw [find?_around_of_scoped fits.shows inner located]
        exact ⟨fun notMade => ⟨notOwn, notMade, nofun⟩, fun clear => clear.not_made⟩
      · rw [find?_around_of_file fits.shows]
        constructor
        · rintro ⟨notMade, outermost, isOutside⟩
          refine ⟨notOwn, notMade, ?_⟩
          rintro _ ⟨⟩
          exact ⟨outermost, isOutside⟩
        · intro clear
          exact ⟨clear.not_made, clear.file symbol rfl⟩

end Binding

end Lower

/-- The identifiers in the functions of a unit are those that its lowering comes across. One for a
variable binds to its object exactly when nothing comes between: no declaration of the same
statement, no made-up name and, outside all functions, no other variable of the name. -/
theorem binds_as_meant_iff {kind target : UnitKind} {modules : List Fragment}
    {body : List Statement} {table : Table} {support : String} {unit : C.Unit}
    (analyzed : analyze kind modules body = .ok table)
    (generated : generate table support target body = .ok unit) :
    (∀ definition ∈ unit.functions ++ unit.entry,
      ∃ account ∈ Lower.accounts table body, account.Covers unit.objects definition) ∧
    ∀ (position : Nat) (site : Site) (scope : Nat) (uses : List Lower.Use),
      (Lower.visits table body)[position]? = some (.reaches site scope uses) →
        ∃ moment, (Check.visits kind modules body)[position]? = some (.reaches site moment) ∧
          ∀ use ∈ uses, ∀ mention ∈ use.mentions, ∀ origin,
            mention.meant? moment.table = some origin →
              (use.binding mention.emitted = some origin ↔
                Lower.Clear (Lower.fileObjects table body) moment.table use mention.emitted
                  origin) := by
  constructor
  · intro definition member
    obtain ⟨functions, walk, folded, isFunctions, isEntry⟩ := Lower.functions_of_lowerUnit generated
    have isLowered : definition ∈ functions.others ++ functions.entry := by
      rw [isFunctions, isEntry] at member
      split at member
      · exact List.mem_append_left _ (by simpa using member)
      · exact member
    rw [C.Unit.objects, ← Lower.names_fileObjects analyzed generated]
    exact Lower.exists_account analyzed folded isLowered
  · intro position site scope uses reached
    obtain ⟨_, _, follows⟩ := Lower.follows_unit analyzed
    obtain ⟨first, isFirst, agrees⟩ := follows.exists_agrees reached
    cases agrees with
    | @reaches _ moment _ _ _ fits =>
        refine ⟨moment, isFirst, fun use member mention _ origin meant => ?_⟩
        exact Lower.binding_eq_iff (fits use member) meant

def shadowedByItself : List Statement :=
  let x : Expr := .name "x"
  let one : Expr := .constant (.int 1)
  [⟨1, .function ⟨"main", [], none,
    [⟨2, .declare x (.name "int") (some one)⟩,
     ⟨3, .branch (.constant (.bool true))
       [⟨4, .declare x (.name "int") (some (.binary .add x one))⟩] []⟩]⟩⟩]

theorem binds_as_meant_iff_shadowedByItself :
    ∃ table unit use moment, analyze .program [] shadowedByItself = .ok table ∧
      generate table defaultSupport .program shadowedByItself = .ok unit ∧
      (Lower.visits table shadowedByItself)[4]? = some (.reaches [0, 0, 1, 0, 0] 2 [use]) ∧
      (Check.visits .program [] shadowedByItself)[4]? = some (.reaches [0, 0, 1, 0, 0] moment) ∧
      use.mentions = [.plain "x"] ∧
      (Lower.Mention.plain "x").meant? moment.table = some (.scoped 1) ∧
      use.binding "x" ≠ some (.scoped 1) := by
  let outer : List Scope :=
    [⟨none, [.function "main" ⟨[], .none⟩]⟩, ⟨some 0, [.value "x" .int false]⟩]
  let table : Table := ⟨outer ++ [⟨some 1, [.value "x" .int false]⟩, ⟨some 1, []⟩], 0⟩
  let use : Lower.Use := ⟨[⟨"x", .scoped 2⟩], [⟨"x", .scoped 1⟩], [.plain "x"]⟩
  let moment : Check.Moment := ⟨⟨outer ++ [⟨some 1, []⟩], 2⟩, [["x"], [], []]⟩
  have analyzed : analyze .program [] shadowedByItself = .ok table := by with_unfolding_all rfl
  have reached : (Lower.visits table shadowedByItself)[4]? =
      some (.reaches [0, 0, 1, 0, 0] 2 [use]) := by with_unfolding_all rfl
  have known : (Check.visits .program [] shadowedByItself)[4]? =
      some (.reaches [0, 0, 1, 0, 0] moment) := by with_unfolding_all rfl
  have meant : (Lower.Mention.plain "x").meant? moment.table = some (.scoped 1) := by
    with_unfolding_all rfl
  obtain ⟨unit, generated⟩ : ∃ unit,
      generate table defaultSupport .program shadowedByItself = .ok unit :=
    ⟨_, by with_unfolding_all rfl⟩
  obtain ⟨found, isFound, binds⟩ := (binds_as_meant_iff analyzed generated).2 _ _ _ _ reached
  obtain rfl : found = moment := by simpa [known] using isFound.symm
  refine ⟨table, unit, use, moment, analyzed, generated, reached, known, rfl, meant, ?_⟩
  intro bound
  have clear := (binds use (by simp) (.plain "x") (by simp [use]) _ meant).mp bound
  exact clear.own_ne ⟨"x", .scoped 2⟩ (by simp [use]) rfl

end Offside
