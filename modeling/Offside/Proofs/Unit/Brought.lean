import Offside.Proofs.Scope.Order

/-!
# What statements bring

The symbols that a statement brings to the top level of a unit: a definition brings its own symbol,
and an import the module or the symbols that it takes out of it.
-/

namespace Offside

namespace Check

open Outcome Table

theorem offered_of_declareNames {fragment : Fragment} {step : Table → String → Except Fault Table}
    (declares : ∀ {table next name}, step table name = .ok next →
      ∃ symbol, fragment.find? name = some symbol ∧ declare table symbol = .ok next)
    {names : List String} {symbols : List Symbol} {after : Table}
    (declared : names.foldlM step (outermost symbols) = .ok after) :
    ∃ more, after = outermost (symbols ++ more) ∧ more.map some = names.map fragment.find? := by
  induction names generalizing symbols with
  | nil =>
      obtain rfl : outermost symbols = after := by simpa using declared
      exact ⟨[], by rw [List.append_nil], rfl⟩
  | cons name names induction =>
      rw [List.foldlM_cons, bind_eq_ok] at declared
      obtain ⟨next, isNext, later⟩ := declared
      obtain ⟨symbol, found, isDeclared⟩ := declares isNext
      simp only [declare, error_ite_eq_ok, mapError_eq_ok, insert_outermost] at isDeclared
      obtain ⟨_, _, rfl⟩ := isDeclared
      obtain ⟨more, isAfter, areFound⟩ := induction later
      refine ⟨symbol :: more, ?_, ?_⟩
      · rw [isAfter, List.append_assoc, List.singleton_append]
      · rw [List.map_cons, List.map_cons, found, areFound]

theorem eq_outermost_of_declare {symbol : Symbol} {after : Table}
    (declared : declare .empty symbol = .ok after) : after = outermost [symbol] := by
  simp only [declare, error_ite_eq_ok, mapError_eq_ok, ← outermost_nil, insert_outermost]
    at declared
  exact declared.2.2

variable {fragments : List Fragment} {alone : Table}

/-- An import brings the module or what is taken out of it. -/
theorem brought_of_import {line : Nat} {request : Import}
    (declared : declareTop fragments .empty ⟨line, .import_ request⟩ = .ok alone)
    (notMarker : isMarkerModule request.dotted = false) :
    ∃ fragment, fragments.find? (·.path = request.dotted) = some fragment ∧
      ((request.names = [] ∧ brought fragments ⟨line, .import_ request⟩ =
          [.module (request.path.getLast?.getD request.dotted) request.dotted fragment.symbols]) ∨
        (request.names ≠ [] ∧ (brought fragments ⟨line, .import_ request⟩).map some =
          request.names.map fragment.find?)) := by
  have brought_eq : brought fragments ⟨line, .import_ request⟩ = alone.globals := by
    rw [brought, declared, given_ok]
  simp only [declareTop, onLine_eq_ok, declareImport, notMarker] at declared
  rw [brought_eq]
  cases found : fragments.find? (·.path = request.dotted) with
  | none => simp [found] at declared
  | some fragment =>
      refine ⟨fragment, rfl, ?_⟩
      by_cases whole : request.names = []
      · have isModule : declare .empty (.module (request.path.getLast?.getD request.dotted)
            request.dotted fragment.symbols) = .ok alone := by
          simpa [found, whole] using declared
        left
        rw [eq_outermost_of_declare isModule, globals_outermost]
        exact ⟨whole, rfl⟩
      · have areNames : request.names.isEmpty = false := by simpa using whole
        simp only [found, areNames, Bool.false_eq_true, if_false, ← outermost_nil] at declared
        have taken : ∃ more, alone = outermost ([] ++ more) ∧
            more.map some = request.names.map fragment.find? := by
          refine offered_of_declareNames (fun {table next name} isNext => ?_) declared
          cases offered : fragment.find? name with
          | none => simp [offered] at isNext
          | some symbol => exact ⟨symbol, rfl, by simpa [offered] using isNext⟩
        obtain ⟨more, rfl, areFound⟩ := taken
        right
        rw [List.nil_append, globals_outermost]
        exact ⟨whole, areFound⟩

theorem brought_of_function {line : Nat} {decl : FunctionDef}
    (declared : declareTop fragments .empty ⟨line, .function decl⟩ = .ok alone) :
    ∃ signature, brought fragments ⟨line, .function decl⟩ = [.function decl.name signature] := by
  have brought_eq : brought fragments ⟨line, .function decl⟩ = alone.globals := by
    rw [brought, declared, given_ok]
  simp only [declareTop, bind_eq_ok, onLine_eq_ok] at declared
  obtain ⟨signature, _, declared⟩ := declared
  refine ⟨signature, ?_⟩
  rw [brought_eq, eq_outermost_of_declare declared, globals_outermost]

/-- Whether a statement takes a name out of a module. -/
def Takes (statement : Statement) (name : String) : Prop :=
  ∃ request, statement.form = .import_ request ∧ isMarkerModule request.dotted = false ∧
    name ∈ request.names

/-- Whether a statement defines a function with a name. -/
def DefinesFunction (statement : Statement) (name : String) : Prop :=
  ∃ decl, statement.form = .function decl ∧ decl.name = name

theorem function_of_mem_brought {statement : Statement}
    (declared : declareTop fragments .empty statement = .ok alone) {symbol : Symbol}
    (member : symbol ∈ brought fragments statement) {signature : Signature}
    (isFunction : symbol.kind = .function signature) :
    DefinesFunction statement symbol.name ∨ Takes statement symbol.name := by
  obtain ⟨line, form⟩ := statement
  have inGlobals : symbol ∈ alone.globals := by
    rwa [brought, declared, given_ok] at member
  cases form with
  | function decl =>
      obtain ⟨own, brought_eq⟩ := brought_of_function declared
      rw [brought_eq, List.mem_singleton] at member
      left
      exact ⟨decl, rfl, by rw [member]; rfl⟩
  | import_ request =>
      by_cases isMarker : isMarkerModule request.dotted = true
      · simp only [declareTop, onLine_eq_ok, declareImport, isMarker, if_true] at declared
        obtain rfl := Except.ok.inj declared
        exact absurd inGlobals List.not_mem_nil
      · have notMarker : isMarkerModule request.dotted = false := by simpa using isMarker
        obtain ⟨fragment, _, ⟨_, brought_eq⟩ | ⟨_, areFound⟩⟩ :=
          brought_of_import declared notMarker
        · rw [brought_eq, List.mem_singleton] at member
          rw [member] at isFunction
          simp [Symbol.module, Symbol.plain] at isFunction
        · right
          refine ⟨request, rfl, notMarker, ?_⟩
          have isFound : some symbol ∈ request.names.map fragment.find? := by
            rw [← areFound]
            exact List.mem_map_of_mem member
          obtain ⟨name, isName, found⟩ := List.mem_map.mp isFound
          rwa [name_of_find? found]
  | classDef decl =>
      simp only [declareTop, bind_eq_ok, onLine_eq_ok] at declared
      obtain ⟨own, isOwn, declared⟩ := declared
      rw [eq_outermost_of_declare declared, globals_outermost, List.mem_singleton] at inGlobals
      subst inGlobals
      rw [classSymbol] at isOwn
      split at isOwn
      all_goals
        simp only [bind_eq_ok, pure_eq_ok] at isOwn
        obtain ⟨_, _, rfl⟩ := isOwn
        simp [Symbol.plain] at isFunction
  | declare target written value =>
      simp only [declareTop, onLine_eq_ok, bind_eq_ok] at declared
      obtain ⟨name, _, annotated, _, declared⟩ := declared
      rw [eq_outermost_of_declare declared, globals_outermost, List.mem_singleton] at inGlobals
      simp [inGlobals, Symbol.value, Symbol.plain] at isFunction
  | _ =>
      simp only [declareTop] at declared
      split at declared
      · obtain rfl := Except.ok.inj declared
        exact absurd inGlobals List.not_mem_nil
      · simp at declared

theorem mem_names_brought {statement : Statement}
    (declared : declareTop fragments .empty statement = .ok alone) {name : String}
    (brings : DefinesFunction statement name ∨ Takes statement name) :
    name ∈ (brought fragments statement).map (·.name) := by
  obtain ⟨line, form⟩ := statement
  rcases brings with ⟨decl, isForm, rfl⟩ | ⟨request, isForm, notMarker, member⟩
  · obtain rfl : form = .function decl := isForm
    obtain ⟨signature, brought_eq⟩ := brought_of_function declared
    rw [brought_eq]
    exact List.mem_singleton.mpr rfl
  · obtain rfl : form = .import_ request := isForm
    obtain ⟨fragment, _, ⟨isEmpty, _⟩ | ⟨_, areFound⟩⟩ := brought_of_import declared notMarker
    · simp [isEmpty] at member
    · have isFound : fragment.find? name ∈ request.names.map fragment.find? :=
        List.mem_map_of_mem member
      rw [← areFound] at isFound
      obtain ⟨symbol, isBrought, found⟩ := List.mem_map.mp isFound
      exact List.mem_map.mpr ⟨symbol, isBrought, name_of_find? found.symm⟩

theorem distinct_of_checkUnit {kind : UnitKind} {body : List Statement} {table : Table}
    (checked : checkUnit kind fragments body = .ok table) :
    (∀ statement ∈ body, ∃ alone, declareTop fragments .empty statement = .ok alone) ∧
      (table.globals.map (·.name)).Nodup := by
  have globals_eq := globals_of_checkUnit checked
  obtain ⟨alone, distinct, _, _, _⟩ := exists_checkUnit_iff.mp ⟨table, checked⟩
  rw [globals_eq]
  exact ⟨alone, distinct⟩

end Check

end Offside
