import Offside.Proofs.Unit.Brought
import Offside.Proofs.Unit.Functions

/-!
# The entry function

A check asks for a function with the name of the entry point among everything that a unit declares
or imports; the C form of a program defines the function that the unit defines itself.
-/

namespace Offside

open Outcome

def C.Unit.entries (unit : C.Unit) : List C.FunctionDef :=
  (unit.functions ++ unit.entry).filter (·.name = entryPoint)

theorem exists_compile_iff {request : Request} {modules : List Fragment} {source text : String} :
    (∃ compiled, compile request modules source = .ok compiled ∧ compiled.text = text) ↔
      ∃ body table unit, parse source = .ok body ∧
        analyze request.kind modules body = .ok table ∧
        generate table request.support request.kind body = .ok unit ∧ unit.text = text := by
  simp only [compile, parse, bind_eq_ok, pure_eq_ok]
  constructor
  · rintro ⟨_, ⟨tokens, areTokens, body, isBody, table, analyzed, unit, generated, rfl⟩, isText⟩
    exact ⟨body, table, unit, ⟨tokens, areTokens, isBody⟩, analyzed, generated, isText⟩
  · rintro ⟨body, table, unit, ⟨tokens, areTokens, isBody⟩, analyzed, generated, isText⟩
    exact ⟨_, ⟨tokens, areTokens, body, isBody, table, analyzed, unit, generated, rfl⟩, isText⟩

def definesEntry (statement : Statement) : Bool :=
  match statement.form with
  | .function decl => decl.name = entryPoint
  | _ => false

theorem definesEntry_iff {statement : Statement} :
    definesEntry statement = true ↔ Check.DefinesFunction statement entryPoint := by
  obtain ⟨line, form⟩ := statement
  cases form <;> simp [definesEntry, Check.DefinesFunction]

namespace Lower

/-- Whether a definition has the form of an entry function. -/
structure IsEntry (table : Table) (definition : C.FunctionDef) : Prop where
  name_eq : definition.name = entryPoint
  returns_eq : definition.returns = .int
  params_eq : ∃ decl signature, decl.name = entryPoint ∧
    signatureOf table none decl = .ok signature ∧
    lowerParameters table none decl signature = .ok definition.params

theorem isEntry_of_lowerFunction {table : Table} {owner : Option String} {decl : FunctionDef}
    {walk after : Walk} {definition : C.FunctionDef} (name_eq : definition.name = entryPoint)
    (lowered : lowerFunction table owner decl walk = .ok (definition, after)) :
    IsEntry table definition := by
  have named := (name_of_lowerFunction lowered).symm.trans name_eq
  cases owner with
  | some owner => exact absurd named (functionName_ne_entryPoint owner decl.name)
  | none =>
      have named : decl.name = entryPoint := named
      simp only [lowerFunction, bind_eq_ok, pure_eq_ok, named, Option.isNone_none, Bool.true_and,
        decide_true, if_true] at lowered
      obtain ⟨signature, isSignature, params, areParams, _, isInt, _, _, _, _, isDefinition⟩ :=
        lowered
      obtain rfl := Except.ok.inj isInt
      obtain ⟨rfl, _⟩ := Prod.mk.inj isDefinition
      exact ⟨name_eq, rfl, decl, signature, named, isSignature, areParams⟩

theorem countP_defined (body : List Statement) :
    (body.flatMap Statement.defined).countP (fun item =>
      functionName item.1 item.2.name = entryPoint) = body.countP definesEntry := by
  induction body with
  | nil => rfl
  | cons statement body induction =>
      rw [List.flatMap_cons, List.countP_append, induction, List.countP_cons, Nat.add_comm]
      congr 1
      obtain ⟨line, form⟩ := statement
      cases form with
      | function decl =>
          by_cases named : decl.name = entryPoint <;>
            simp [Statement.defined, definesEntry, functionName, named]
      | classDef decl =>
          simp only [Statement.defined, definesEntry]
          split
          · simp [List.countP_eq_zero, functionName_ne_entryPoint]
          · rfl
      | _ => rfl

end Lower

namespace Check

/-- A name is brought to the top level by one statement at most. -/
theorem notMem_names_brought {fragments : List Fragment} {earlier later : List Statement}
    {statement : Statement} {name : String}
    (distinct : (((earlier ++ statement :: later).flatMap (brought fragments)).map (·.name)).Nodup)
    (member : name ∈ (brought fragments statement).map (·.name)) :
    ∀ other ∈ earlier ++ later, name ∉ (brought fragments other).map (·.name) := by
  simp only [List.flatMap_append, List.flatMap_cons, List.map_append] at distinct
  have inside {statements : List Statement} {other : Statement} (isOther : other ∈ statements)
      (brings : name ∈ (brought fragments other).map (·.name)) :
      name ∈ (statements.flatMap (brought fragments)).map (·.name) := by
    obtain ⟨symbol, isSymbol, named⟩ := List.mem_map.mp brings
    exact List.mem_map.mpr ⟨symbol, List.mem_flatMap.mpr ⟨other, isOther, isSymbol⟩, named⟩
  intro other isOther brings
  rcases List.mem_append.mp isOther with isEarlier | isLater
  · exact List.disjoint_of_nodup_append distinct (inside isEarlier brings)
      (List.mem_append_left _ member)
  · exact List.disjoint_of_nodup_append distinct.of_append_right member (inside isLater brings)

/-- A name at the top level comes out of a module or is defined once. -/
theorem countP_definesEntry {kind : UnitKind} {fragments : List Fragment} {body : List Statement}
    {table : Table} (checked : checkUnit kind fragments body = .ok table) {statement : Statement}
    (member : statement ∈ body)
    (brings : DefinesFunction statement entryPoint ∨ Takes statement entryPoint) :
    body.countP definesEntry = if definesEntry statement then 1 else 0 := by
  obtain ⟨alone, distinct⟩ := distinct_of_checkUnit checked
  rw [globals_of_checkUnit checked] at distinct
  obtain ⟨earlier, later, rfl⟩ := List.append_of_mem member
  obtain ⟨table, declared⟩ := alone statement member
  have others := notMem_names_brought distinct (mem_names_brought declared brings)
  have none_of {statements : List Statement} (subset : statements ⊆ earlier ++ later) :
      statements.countP definesEntry = 0 := by
    rw [List.countP_eq_zero]
    intro other isOther defines
    have isMember : other ∈ earlier ++ statement :: later := by
      rcases List.mem_append.mp (subset isOther) with isEarlier | isLater
      · exact List.mem_append_left _ isEarlier
      · exact List.mem_append_right _ (List.mem_cons_of_mem _ isLater)
    obtain ⟨table, declared⟩ := alone other isMember
    exact others other (subset isOther)
      (mem_names_brought declared (.inl (definesEntry_iff.mp defines)))
  rw [List.countP_append, List.countP_cons, none_of (List.subset_append_left _ _),
    none_of (List.subset_append_right _ _), Nat.zero_add, Nat.zero_add]

/-- A checked program has an entry point without parameters. -/
theorem exists_entry_of_checkUnit {fragments : List Fragment} {body : List Statement}
    {table : Table} (checked : checkUnit .program fragments body = .ok table) :
    (∃ symbol signature, table.global? entryPoint = some symbol ∧
        symbol.kind = .function signature ∧ signature.params = []) ∧
      ∃ statement ∈ body,
        DefinesFunction statement entryPoint ∨ Takes statement entryPoint := by
  have globals_eq := globals_of_checkUnit checked
  obtain ⟨alone, _, _, entry, _⟩ := exists_checkUnit_iff.mp ⟨table, checked⟩
  have known := entry rfl
  have global_eq : (Table.outermost (body.flatMap (brought fragments))).global? entryPoint =
      table.global? entryPoint := by
    rw [Table.global?, Table.global?, globals_eq, Table.globals_outermost]
  rw [checkEntry, global_eq] at known
  cases found : table.global? entryPoint with
  | none => simp [found] at known
  | some symbol =>
      cases isKind : symbol.kind with
      | function signature =>
          have isEmpty : signature.params = [] := by simpa [found, isKind] using known
          refine ⟨⟨symbol, signature, rfl, isKind, isEmpty⟩, ?_⟩
          have isGlobal : symbol ∈ table.globals := List.mem_of_find?_eq_some found
          rw [globals_eq] at isGlobal
          obtain ⟨statement, isStatement, isBrought⟩ := List.mem_flatMap.mp isGlobal
          obtain ⟨table, declared⟩ := alone statement isStatement
          have brings := function_of_mem_brought declared isBrought isKind
          rw [Table.name_of_find? found] at brings
          exact ⟨statement, isStatement, brings⟩
      | _ => simp [found, isKind] at known

end Check

theorem entries_of_generate {table : Table} {support : String} {kind : UnitKind}
    {body : List Statement} {unit : C.Unit}
    (generated : generate table support kind body = .ok unit) :
    (kind = .library → unit.entries = []) ∧ (kind = .program →
      unit.entries.length = body.countP definesEntry ∧
        ∀ definition ∈ unit.entries, Lower.IsEntry table definition) := by
  obtain ⟨definitions, last, inTurn, isFunctions, isEntry⟩ :=
    Lower.definitions_of_lowerUnit generated
  have others : unit.functions.filter (·.name = entryPoint) = [] := by
    simp [isFunctions]
  constructor
  · rintro rfl
    simp [C.Unit.entries, isEntry, others]
  · rintro rfl
    have entries_eq : unit.entries = definitions.filter (·.name = entryPoint) := by
      simp [C.Unit.entries, isEntry, others]
    rw [entries_eq]
    constructor
    · have names_eq := congrArg (List.countP (· = entryPoint)) inTurn.map_name
      rw [List.countP_map, List.countP_map] at names_eq
      rw [← List.countP_eq_length_filter, ← Lower.countP_defined]
      exact names_eq
    · intro definition member
      obtain ⟨isDefinition, named⟩ := List.mem_filter.mp member
      obtain ⟨_, _, _, _, _, lowered⟩ := inTurn.exists_of_mem isDefinition
      exact Lower.isEntry_of_lowerFunction (by simpa using named) lowered

/-- The C text of a compiled source is that of a unit which defines no entry function in a library,
and one without parameters in a program, unless the program takes the name out of a module: then
there is none. -/
theorem entry_defined_iff {request : Request} {modules : List Fragment} {source : String}
    {compiled : Compiled} (compiles : compile request modules source = .ok compiled) :
    ∃ body table unit, parse source = .ok body ∧ analyze request.kind modules body = .ok table ∧
      generate table request.support request.kind body = .ok unit ∧ unit.text = compiled.text ∧
      (request.kind = .library → unit.entries = []) ∧
      (request.kind = .program →
        ((∃ definition, unit.entries = [definition] ∧ definition.returns = .int ∧
            definition.params = []) ↔
          ∀ statement ∈ body, ¬ Check.Takes statement entryPoint) ∧
        ((∃ statement ∈ body, Check.Takes statement entryPoint) → unit.entries = [])) := by
  obtain ⟨body, table, unit, parsed, analyzed, generated, isText⟩ :=
    exists_compile_iff.mp ⟨compiled, compiles, rfl⟩
  obtain ⟨library, program⟩ := entries_of_generate generated
  refine ⟨body, table, unit, parsed, analyzed, generated, isText, library, fun isProgram => ?_⟩
  obtain ⟨length_eq, areEntries⟩ := program isProgram
  rw [isProgram] at analyzed
  have absent {statement : Statement} (member : statement ∈ body)
      (takes : Check.Takes statement entryPoint) : unit.entries = [] := by
    have count := Check.countP_definesEntry analyzed member (.inr takes)
    have defines : definesEntry statement = false := by
      obtain ⟨request, isForm, _⟩ := takes
      rw [definesEntry, isForm]
    rw [count, defines] at length_eq
    simpa using length_eq
  refine ⟨⟨?_, fun free => ?_⟩, fun ⟨statement, member, takes⟩ => absent member takes⟩
  · rintro ⟨definition, isOnly, _⟩ statement member takes
    simp [absent member takes] at isOnly
  · obtain ⟨⟨symbol, signature, known, isKind, noParams⟩, statement, member, brings⟩ :=
      Check.exists_entry_of_checkUnit analyzed
    have defines : Check.DefinesFunction statement entryPoint :=
      brings.resolve_right (free statement member)
    have count := Check.countP_definesEntry analyzed member brings
    rw [count, if_pos (definesEntry_iff.mpr defines)] at length_eq
    obtain ⟨definition, isOnly⟩ := List.length_eq_one_iff.mp length_eq
    have isEntry := areEntries definition (by simp [isOnly])
    refine ⟨definition, isOnly, isEntry.returns_eq, ?_⟩
    obtain ⟨decl, own, named, isSignature, areParams⟩ := isEntry.params_eq
    obtain rfl : signature = own := by
      simpa [Lower.signatureOf, named, known, Lower.functionSignature?, isKind] using isSignature
    have noneLeft : [] = definition.params := by
      simpa [Lower.lowerParameters, noParams] using areParams
    exact noneLeft.symm

def offersEntry : Fragment :=
  ⟨"lib", [{ Symbol.function entryPoint ⟨[], .none⟩ with origin := .module "lib" }]⟩

theorem entry_defined_iff_imported :
    ∃ (compiled : Compiled) (unit : C.Unit),
      compile {} [offersEntry] "from lib import main\n" = .ok compiled ∧
        unit.text = compiled.text ∧ unit.entries = [] := by
  let statement : Statement := ⟨1, .import_ ⟨["lib"], [entryPoint]⟩⟩
  have parsed : parse "from lib import main\n" = .ok [statement] := by with_unfolding_all rfl
  obtain ⟨table, analyzed⟩ : ∃ table, analyze .program [offersEntry] [statement] = .ok table :=
    ⟨_, rfl⟩
  obtain ⟨lowered, generated⟩ :
      ∃ unit, generate table defaultSupport .program [statement] = .ok unit := by
    obtain rfl := Except.ok.inj analyzed
    exact ⟨_, rfl⟩
  obtain ⟨compiled, compiles, _⟩ :=
    (@exists_compile_iff {} [offersEntry] "from lib import main\n" lowered.text).mpr
      ⟨[statement], table, lowered, parsed, analyzed, generated, rfl⟩
  obtain ⟨body, _, unit, isBody, _, _, isText, _, program⟩ := entry_defined_iff compiles
  obtain rfl : body = [statement] := Except.ok.inj (isBody.symm.trans parsed)
  have takes : Check.Takes statement entryPoint := ⟨_, rfl, rfl, by simp⟩
  exact ⟨compiled, unit, compiles, isText, (program rfl).2 ⟨statement, by simp, takes⟩⟩

end Offside
