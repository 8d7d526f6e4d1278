import Offside.Proofs.Scope.Declared
import Offside.Proofs.Scope.Walk

/-!
# Functions of a unit

The functions and methods that a unit defines are lowered one after another, each from where the one
before it left off. In the C form those with the name of the entry point are kept apart.
-/

namespace Offside

/-- The functions and methods that a statement defines, each with its struct. -/
def Statement.defined (statement : Statement) : List (Option String × FunctionDef) :=
  match statement.form with
  | .function decl => [(none, decl)]
  | .classDef decl => if decl.kind = .struct then decl.methods.map (some decl.name, ·) else []
  | _ => []

theorem defines_of_mem_defined {body : List Statement} {owner : Option String} {decl : FunctionDef}
    (member : (owner, decl) ∈ body.flatMap Statement.defined) : Defines body owner decl := by
  obtain ⟨⟨line, form⟩, isStatement, isDefined⟩ := List.mem_flatMap.mp member
  cases form with
  | function found =>
      obtain ⟨rfl, rfl⟩ : owner = none ∧ decl = found := by
        simpa [Statement.defined] using isDefined
      exact .function isStatement
  | classDef found =>
      by_cases isStruct : found.kind = .struct
      · obtain ⟨isMethod, rfl⟩ : decl ∈ found.methods ∧ some found.name = owner := by
          simpa [Statement.defined, isStruct] using isDefined
        obtain ⟨⟨line', form⟩, inside, isForm⟩ := List.mem_filterMap.mp isMethod
        obtain rfl : form = .function decl := by cases form <;> simp_all
        exact .method isStatement isStruct inside
      · simp [Statement.defined, isStruct] at isDefined
  | _ => simp [Statement.defined] at isDefined

namespace Lower

open Outcome

/-- No method has the C name of the entry function. -/
theorem functionName_ne_entryPoint (owner name : String) :
    functionName (some owner) name ≠ entryPoint := by
  intro same
  have joined : '_' ∈ (functionName (some owner) name).toList := by simp [functionName]
  rw [same] at joined
  exact absurd joined (by decide)

variable {table : Table} {walk middle last : Walk}
  {items items' : List (Option String × FunctionDef)} {definition : C.FunctionDef}
  {definitions definitions' : List C.FunctionDef}

theorem name_of_lowerFunction {owner : Option String} {decl : FunctionDef}
    (lowered : lowerFunction table owner decl walk = .ok (definition, last)) :
    definition.name = functionName owner decl.name := by
  simp only [lowerFunction_eq, bind_eq_ok, pure_eq_ok] at lowered
  obtain ⟨entered, _, ⟨body, walk⟩, _, isDefinition⟩ := lowered
  obtain ⟨rfl, _⟩ := Prod.mk.inj isDefinition
  rfl

/-- Functions that are lowered in turn, and their definitions. -/
inductive LowersInTurn (table : Table) :
    Walk → List (Option String × FunctionDef) → List C.FunctionDef → Walk → Prop
  | nil (walk : Walk) : LowersInTurn table walk [] [] walk
  | cons {owner : Option String} {decl : FunctionDef} {walk next last : Walk}
      {items : List (Option String × FunctionDef)} {definition : C.FunctionDef}
      {definitions : List C.FunctionDef} :
      lowerFunction table owner decl walk = .ok (definition, next) →
      LowersInTurn table next items definitions last →
      LowersInTurn table walk ((owner, decl) :: items) (definition :: definitions) last

namespace LowersInTurn

theorem append (first : LowersInTurn table walk items definitions middle)
    (second : LowersInTurn table middle items' definitions' last) :
    LowersInTurn table walk (items ++ items') (definitions ++ definitions') last := by
  induction first with
  | nil _ => exact second
  | cons lowered _ induction => exact .cons lowered (induction second)

theorem map_name (inTurn : LowersInTurn table walk items definitions last) :
    definitions.map (·.name) = items.map fun item => functionName item.1 item.2.name := by
  induction inTurn with
  | nil _ => rfl
  | cons lowered _ induction => simp [name_of_lowerFunction lowered, induction]

theorem exists_of_mem (inTurn : LowersInTurn table walk items definitions last)
    (member : definition ∈ definitions) : ∃ owner decl before after, (owner, decl) ∈ items ∧
      lowerFunction table owner decl before = .ok (definition, after) := by
  induction inTurn with
  | nil _ => cases member
  | cons lowered _ induction =>
      rcases List.mem_cons.mp member with rfl | isLater
      · exact ⟨_, _, _, _, List.mem_cons_self, lowered⟩
      · obtain ⟨owner, decl, before, after, isItem, isLowered⟩ := induction isLater
        exact ⟨owner, decl, before, after, List.mem_cons_of_mem _ isItem, isLowered⟩

end LowersInTurn

/-- More definitions behind the functions of a tree. -/
def Functions.extended (functions : Functions) (definitions : List C.FunctionDef) : Functions :=
  ⟨functions.others ++ definitions.filter (·.name ≠ entryPoint),
    functions.entry ++ definitions.filter (·.name = entryPoint)⟩

/-- Whether a state comes about when functions are lowered in turn and added. -/
def AddsInTurn (table : Table) (items : List (Option String × FunctionDef))
    (state next : Functions × Walk) : Prop :=
  ∃ definitions, LowersInTurn table state.2 items definitions next.2 ∧
    next.1 = state.1.extended definitions

variable {state between next : Functions × Walk}

namespace AddsInTurn

theorem refl (state : Functions × Walk) : AddsInTurn table [] state state :=
  ⟨[], .nil _, by simp [Functions.extended]⟩

theorem trans (first : AddsInTurn table items state between)
    (second : AddsInTurn table items' between next) :
    AddsInTurn table (items ++ items') state next := by
  obtain ⟨earlier, inTurn, isBetween⟩ := first
  obtain ⟨later, inTurn', isNext⟩ := second
  refine ⟨earlier ++ later, inTurn.append inTurn', ?_⟩
  simp [isNext, isBetween, Functions.extended]

end AddsInTurn

theorem addsInTurn_of_addMethods {owner : String} {methods : List FunctionDef}
    (added : methods.foldlM (addMethod table owner) state = .ok next) :
    AddsInTurn table (methods.map (some owner, ·)) state next := by
  induction methods generalizing state with
  | nil =>
      obtain rfl := Except.ok.inj added
      exact .refl state
  | cons method methods induction =>
      simp only [List.foldlM_cons, addMethod, bind_eq_ok, pure_eq_ok] at added
      obtain ⟨_, ⟨⟨definition, after⟩, lowered, rfl⟩, added⟩ := added
      have notEntry := name_of_lowerFunction lowered ▸ functionName_ne_entryPoint owner method.name
      have first : AddsInTurn table [(some owner, method)] state
          ({ state.1 with others := state.1.others ++ [definition] }, after) :=
        ⟨[definition], .cons lowered (.nil _), by simp [Functions.extended, notEntry]⟩
      exact first.trans (induction added)

theorem addsInTurn_of_addFunctions {statement : Statement}
    (added : addFunctions table state statement = .ok next) :
    AddsInTurn table statement.defined state next := by
  obtain ⟨line, form⟩ := statement
  cases form with
  | function decl =>
      simp only [addFunctions, bind_eq_ok] at added
      obtain ⟨⟨definition, after⟩, lowered, added⟩ := added
      have name_eq : definition.name = decl.name := name_of_lowerFunction lowered
      by_cases isEntry : decl.name = entryPoint
      · obtain rfl := by simpa [isEntry] using added
        exact ⟨[definition], .cons lowered (.nil _), by simp [Functions.extended, name_eq, isEntry]⟩
      · obtain rfl := by simpa [isEntry] using added
        exact ⟨[definition], .cons lowered (.nil _), by simp [Functions.extended, name_eq, isEntry]⟩
  | classDef decl =>
      simp only [addFunctions] at added
      by_cases isStruct : decl.kind = .struct
      · simp only [isStruct, if_true] at added
        simpa [Statement.defined, isStruct] using addsInTurn_of_addMethods added
      · obtain rfl := by simpa [isStruct] using added
        simpa [Statement.defined, isStruct] using .refl state
  | _ =>
      obtain rfl := Except.ok.inj added
      exact .refl state

theorem addsInTurn_of_foldlM {body : List Statement}
    (folded : body.foldlM (addFunctions table) state = .ok next) :
    AddsInTurn table (body.flatMap Statement.defined) state next := by
  induction body generalizing state with
  | nil =>
      obtain rfl := Except.ok.inj folded
      exact .refl state
  | cons statement body induction =>
      rw [List.foldlM_cons, bind_eq_ok] at folded
      obtain ⟨between, added, folded⟩ := folded
      exact (addsInTurn_of_addFunctions added).trans (induction folded)

/-- The functions of a unit of C are the definitions of what its statements define. -/
theorem definitions_of_lowerUnit {support : String} {kind : UnitKind} {body : List Statement}
    {unit : C.Unit} (lowered : lowerUnit table support kind body = .ok unit) :
    ∃ definitions last,
      LowersInTurn table .start (body.flatMap Statement.defined) definitions last ∧
      unit.functions = definitions.filter (·.name ≠ entryPoint) ∧
      unit.entry = if kind = .library then [] else definitions.filter (·.name = entryPoint) := by
  obtain ⟨functions, last, folded, isFunctions, isEntry⟩ := functions_of_lowerUnit lowered
  obtain ⟨definitions, inTurn, rfl⟩ := addsInTurn_of_foldlM folded
  exact ⟨definitions, last, inTurn, isFunctions, isEntry⟩

end Lower

end Offside
