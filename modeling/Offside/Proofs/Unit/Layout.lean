import Offside.Proofs.Unit.Tags

/-!
# Layouts across units

A unit that imports a function knows the structs in its signature by name only, and finds them again
among its own. Where it finds a struct of the same form, both units define the struct alike; nothing
but the name makes sure that it does.
-/

namespace Offside

open Outcome

/-- The declared type that values of a type are, hold as items or point to. -/
def Ty.carried? : Ty → Option String
  | .named name => some name
  | .ptr target => target.carried?
  | .array item _ => item.carried?
  | _ => Option.none

namespace Lower

variable {table : Table} {name : String}

theorem exists_namedType_of_typeOf {ty : Ty} {lowered : C.Ty}
    (isType : typeOf table ty = .ok lowered) (carries : ty.carried? = some name) :
    ∃ named, namedType table name = .ok named := by
  induction ty generalizing lowered with
  | named own =>
      obtain rfl : own = name := Option.some.inj carries
      exact ⟨lowered, isType⟩
  | ptr target induction =>
      simp only [typeOf, bind_eq_ok] at isType
      obtain ⟨inner, isInner, _⟩ := isType
      exact induction isInner carries
  | array item size induction =>
      simp only [typeOf, bind_eq_ok] at isType
      obtain ⟨inner, isInner, _⟩ := isType
      exact induction isInner carries
  | _ => simp [Ty.carried?] at carries

theorem typeOf_congr {table' : Table} {ty : Ty}
    (same : ∀ name, ty.carried? = some name → namedType table name = namedType table' name) :
    typeOf table ty = typeOf table' ty := by
  induction ty with
  | named name => exact same name rfl
  | ptr target induction => rw [typeOf, typeOf, induction same]
  | array item size induction => rw [typeOf, typeOf, induction same]
  | _ => rfl

theorem carried?_dimensions (ty : Ty) : (dimensions ty).1.carried? = ty.carried? := by
  induction ty with
  | array item size induction => exact induction
  | _ => rfl

theorem sameForm_of_kind_eq {table' : Table} {symbol symbol' : Symbol}
    (isDeclared : isAggregate symbol = true) (sameKind : symbol.kind = symbol'.kind)
    (same : ∀ field ∈ fieldsOf symbol, ∀ name, field.ty.carried? = some name →
      namedType table name = namedType table' name) :
    SameForm table table' symbol symbol' := by
  cases isKind : symbol.kind with
  | enum members => exact .inl ⟨members, isKind, sameKind ▸ isKind⟩
  | struct fields methods =>
      have isStruct : symbol.kind.isStruct = true := by rw [isKind]; rfl
      have sameFields : fieldsOf symbol' = fieldsOf symbol := by rw [fieldsOf, fieldsOf, sameKind]
      refine .inr ⟨isStruct, sameKind ▸ isStruct, ?_⟩
      rw [fieldForms, fieldForms, sameFields]
      apply List.map_congr_left
      intro field member
      have sameType : typeOf table (dimensions field.ty).1 =
          typeOf table' (dimensions field.ty).1 := by
        apply typeOf_congr
        rw [carried?_dimensions]
        exact same field member
      simp only [declarator, sameType]
  | _ => simp [isAggregate, isKind, SymbolKind.isStruct, SymbolKind.isEnum] at isDeclared

theorem exists_aggregate?_of_global? {symbol : Symbol} (found : table.global? name = some symbol)
    (isDeclared : isAggregate symbol = true) : ∃ first, aggregate? table name = some first := by
  rw [← Option.isSome_iff_exists, aggregate?_eq, List.find?_isSome]
  have unpacked : symbol ∈ symbol.unpacked := by simp [unpacked_of_isAggregate isDeclared]
  refine ⟨symbol, List.mem_flatMap.mpr ⟨symbol, List.mem_of_find?_eq_some found, unpacked⟩, ?_⟩
  simp [isDeclared, Table.name_of_find? found]

theorem exists_aggregate?_of_namedType {named : C.Ty} (isType : namedType table name = .ok named) :
    ∃ first, aggregate? table name = some first := by
  cases isGlobal : table.global? name with
  | none =>
      cases found : aggregate? table name with
      | none => simp [namedType, found, isGlobal] at isType
      | some first => exact ⟨first, rfl⟩
  | some symbol =>
      by_cases isDeclared : isAggregate symbol = true
      · exact exists_aggregate?_of_global? isGlobal isDeclared
      -- A name that stands for something else may still be that of an imported declaration.
      · cases found : aggregate? table name with
        | none =>
            cases isKind : symbol.kind <;>
              simp_all [namedType, tagged?, isAggregate, SymbolKind.isStruct, SymbolKind.isEnum]
        | some first => exact ⟨first, rfl⟩

theorem exists_aggregate?_of_isStruct (isStruct : isStruct table name = true) :
    ∃ first, aggregate? table name = some first := by
  rw [Lower.isStruct, hasAggregate, Bool.or_eq_true, Option.any_eq_true, Option.any_eq_true]
    at isStruct
  rcases isStruct with ⟨symbol, found, isKind⟩ | ⟨first, found, _⟩
  · exact exists_aggregate?_of_global? found (by simp [isAggregate, isKind])
  · exact ⟨first, found⟩

/-- The declared types in the signature of a callable function are found in the unit. -/
theorem exists_aggregate?_of_signature {support : String} {kind : UnitKind} {body : List Statement}
    {unit : C.Unit} (lowered : lowerUnit table support kind body = .ok unit) {function : Symbol}
    (member : function ∈ reachable table) {signature : Signature}
    (isFunction : function.kind = .function signature) (notForeign : function.isForeign = false)
    (notEntry : function.name ≠ entryPoint) {ty : Ty}
    (isPart : ty ∈ signature.returns :: signature.params) (carries : ty.carried? = some name) :
    ∃ first, aggregate? table name = some first := by
  simp only [lowerUnit, bind_eq_ok, pure_eq_ok] at lowered
  obtain ⟨_, _, _, _, _, _, _, _, prototypes, declared, _, _, _⟩ := lowered
  simp only [lowerPrototypes, bind_eq_ok] at declared
  obtain ⟨lists, areLists, _⟩ := declared
  obtain ⟨own, _, isOwn⟩ := exists_ok_of_mapM areLists member
  simp only [prototypesOf, isFunction, notForeign, notEntry, decide_false, Bool.or_self,
    Bool.false_eq_true, if_false, bind_eq_ok, prototype] at isOwn
  obtain ⟨_, ⟨params, areParams, returns, isReturns, _⟩, _⟩ := isOwn
  obtain ⟨lowered, isLowered⟩ : ∃ lowered, typeOf table ty = .ok lowered := by
    rcases List.mem_cons.mp isPart with rfl | isParam
    · exact ⟨returns, isReturns⟩
    · obtain ⟨lowered, _, isLowered⟩ := exists_ok_of_mapM areParams isParam
      exact ⟨lowered, isLowered⟩
  obtain ⟨named, isNamed⟩ := exists_namedType_of_typeOf isLowered carries
  exact exists_aggregate?_of_namedType isNamed

end Lower

namespace Check

/-- Whether a unit imports a name from a module, alone or with the module. -/
def Brings (body : List Statement) (path name : String) : Prop :=
  ∃ request ∈ importsOf body, request.dotted = path ∧ isMarkerModule path = false ∧
    (request.names = [] ∨ name ∈ request.names)

theorem mem_reachable_of_brings {kind : UnitKind} {fragments : List Fragment}
    {body : List Statement} {table : Table} (checked : checkUnit kind fragments body = .ok table)
    {path name : String} (brings : Brings body path name) {fragment : Fragment}
    (offered : fragments.find? (·.path = path) = some fragment) {symbol : Symbol}
    (found : fragment.find? name = some symbol) {signature : Signature}
    (isFunction : symbol.kind = .function signature) : symbol ∈ Lower.reachable table := by
  obtain ⟨request, isRequest, rfl, notMarker, names⟩ := brings
  obtain ⟨⟨line, form⟩, isStatement, isForm⟩ := List.mem_filterMap.mp isRequest
  obtain rfl : form = .import_ request := by cases form <;> simp_all
  obtain ⟨alone, _⟩ := distinct_of_checkUnit checked
  obtain ⟨after, declared⟩ := alone _ isStatement
  have inGlobals {other : Symbol} (isBrought : other ∈ brought fragments ⟨line, .import_ request⟩) :
      other ∈ table.globals := by
    rw [globals_of_checkUnit checked]
    exact List.mem_flatMap.mpr ⟨_, isStatement, isBrought⟩
  obtain ⟨own, isOwn, choice⟩ := brought_of_import declared notMarker
  obtain rfl : own = fragment := Option.some.inj (isOwn.symm.trans offered)
  rcases choice with ⟨_, isModule⟩ | ⟨notWhole, areFound⟩
  · refine List.mem_flatMap.mpr ⟨_, inGlobals (isModule ▸ List.mem_singleton_self _), ?_⟩
    exact List.mem_of_find?_eq_some found
  · have isName : name ∈ request.names := names.resolve_left notWhole
    have isBrought : some symbol ∈ (brought fragments ⟨line, .import_ request⟩).map some := by
      rw [areFound, ← found]
      exact List.mem_map_of_mem isName
    obtain ⟨other, isOther, same⟩ := List.mem_map.mp isBrought
    obtain rfl := Option.some.inj same
    refine List.mem_flatMap.mpr ⟨other, inGlobals isOther, ?_⟩
    simp [Symbol.unpacked, isFunction]

end Check

theorem find?_exports {kind : UnitKind} {modules : List Fragment} {body : List Statement}
    {table : Table} (checked : Check.checkUnit kind modules body = .ok table) {path : String}
    {symbol : Symbol} (exported : symbol ∈ table.exports path) :
    (table.exports path).find? (·.name = symbol.name) = some symbol := by
  obtain ⟨_, distinct⟩ := Check.distinct_of_checkUnit checked
  have names : ((table.exports path).map (·.name)).Nodup := by
    rw [Table.exports, List.map_map]
    exact distinct.sublist (List.filter_sublist.map _)
  have isFound : symbol ∈ (table.exports path).filter (·.name = symbol.name) :=
    List.mem_filter.mpr ⟨exported, by simp⟩
  rw [Lower.filter_name_eq_toList names, Option.mem_toList] at isFound
  exact isFound

section Shared

variable {modules modules' : List Fragment} {body body' : List Statement} {table table' : Table}
  {support support' path name : String} {kind : UnitKind} {unit unit' : C.Unit}

/-- A unit defines the declared types in the signatures of functions that it imports. -/
theorem exists_definitionsOf_of_brings (analyzed : analyze .library modules body = .ok table)
    (analyzed' : analyze kind modules' body' = .ok table')
    (generated' : generate table' support' kind body' = .ok unit')
    (offered : modules'.find? (·.path = path) = some ⟨path, table.exports path⟩)
    {function : Symbol} {signature : Signature} (exported : function ∈ table.exports path)
    (isFunction : function.kind = .function signature)
    (brings : Check.Brings body' path function.name) (notEntry : function.name ≠ entryPoint)
    {ty : Ty} (isPart : ty ∈ signature.returns :: signature.params)
    (carries : ty.carried? = some name) :
    ∃ definition, unit'.definitionsOf name = [definition] := by
  have reached : function ∈ Lower.reachable table' :=
    Check.mem_reachable_of_brings analyzed' brings offered (find?_exports analyzed exported)
      isFunction
  have notForeign : function.isForeign = false := by
    obtain ⟨own, _, rfl⟩ := List.mem_map.mp exported
    rfl
  obtain ⟨ours, isOurs⟩ := Lower.exists_aggregate?_of_signature generated' reached isFunction
    notForeign notEntry isPart carries
  obtain ⟨definition, isOnly, _⟩ := Lower.exists_definitionsOf generated' isOurs
  exact ⟨definition, isOnly⟩

/-- A library defines the tag of every struct that it knows once. A unit defines it in the same way
exactly when what it finds under the name has the same form, and finds one for each declared type in
the signature of a function that it imports. -/
theorem layout_shared_iff (analyzed : analyze .library modules body = .ok table)
    (generated : generate table support .library body = .ok unit)
    (analyzed' : analyze kind modules' body' = .ok table')
    (generated' : generate table' support' kind body' = .ok unit')
    (offered : modules'.find? (·.path = path) = some ⟨path, table.exports path⟩)
    (isStruct : Lower.isStruct table name = true) :
    ∃ theirs definition, Lower.aggregate? table name = some theirs ∧
      unit.definitionsOf name = [definition] ∧ Lower.Lists table theirs definition ∧
      (unit'.definitionsOf name = [definition] ↔ ∃ ours, Lower.aggregate? table' name = some ours ∧
        Lower.SameForm table table' theirs ours) ∧
      (∀ ours, Lower.aggregate? table' name = some ours → theirs.kind = ours.kind →
        (∀ field ∈ Lower.fieldsOf theirs, ∀ inner, field.ty.carried? = some inner →
          Lower.namedType table inner = Lower.namedType table' inner) →
        unit'.definitionsOf name = [definition]) ∧
      (∀ function ∈ table.exports path, ∀ signature, function.kind = .function signature →
        Check.Brings body' path function.name → function.name ≠ entryPoint →
        (∃ ty ∈ signature.returns :: signature.params, ty.carried? = some name) →
        ∃ definition', unit'.definitionsOf name = [definition']) := by
  obtain ⟨theirs, isTheirs⟩ := Lower.exists_aggregate?_of_isStruct isStruct
  obtain ⟨isDeclared, isName⟩ := Lower.isAggregate_of_aggregate? isTheirs
  obtain ⟨definition, isOnly, listed⟩ := Lower.exists_definitionsOf generated isTheirs
  have shared := Lower.definitionsOf_eq_singleton_iff generated' listed
  rw [isName] at shared
  refine ⟨theirs, definition, isTheirs, isOnly, listed, shared, ?_, ?_⟩
  · intro ours isOurs sameKind sameTypes
    exact shared.mpr ⟨ours, isOurs, Lower.sameForm_of_kind_eq isDeclared sameKind sameTypes⟩
  · rintro function exported signature isFunction brings notEntry ⟨ty, isPart, carries⟩
    exact exists_definitionsOf_of_brings analyzed analyzed' generated' offered exported isFunction
      brings notEntry isPart carries

end Shared

def structLibrary : List Statement :=
  [definesStruct "P" "y" (.name "float"),
    ⟨3, .function ⟨"f", [⟨"p", some (.generic "ptr" [.name "P"]), 3⟩], none, [⟨4, .pass⟩]⟩⟩]

def structImporter : List Statement :=
  [⟨1, .import_ ⟨["other"], []⟩⟩, ⟨2, .import_ ⟨["lib"], ["P", "f"]⟩⟩]

theorem layout_shared_iff_hidden :
    ∃ table unit table' unit', analyze .library [] structLibrary = .ok table ∧
      generate table defaultSupport .library structLibrary = .ok unit ∧
      analyze .library [offersStruct "other" "P" ⟨"x", .int⟩, ⟨"lib", table.exports "lib"⟩]
        structImporter = .ok table' ∧
      generate table' defaultSupport .library structImporter = .ok unit' ∧
      unit.definitionsOf "P" = [.struct ⟨"P", [⟨.float, "y", []⟩]⟩] ∧
      ∃ definition, unit'.definitionsOf "P" = [definition] ∧
        definition ≠ .struct ⟨"P", [⟨.float, "y", []⟩]⟩ := by
  let signature : Signature := ⟨[.ptr (.named "P")], .none⟩
  let function : Symbol := .function "f" signature
  let table : Table := ⟨[⟨none, [definedStruct, function]⟩,
    ⟨some 0, [.value "p" (.ptr (.named "P")) false]⟩], 0⟩
  let other := offersStruct "other" "P" ⟨"x", .int⟩
  let table' : Table :=
    .outermost (.module "other" "other" other.symbols :: table.exports "lib")
  have analyzed : analyze .library [] structLibrary = .ok table := rfl
  have analyzed' :
      analyze .library [other, ⟨"lib", table.exports "lib"⟩] structImporter = .ok table' := rfl
  obtain ⟨unit, generated⟩ :
      ∃ unit, generate table defaultSupport .library structLibrary = .ok unit :=
    exists_ok_of_toBool (by with_unfolding_all rfl)
  obtain ⟨unit', generated'⟩ :
      ∃ unit', generate table' defaultSupport .library structImporter = .ok unit' :=
    exists_ok_of_toBool (by with_unfolding_all rfl)
  have offered : [other, ⟨"lib", table.exports "lib"⟩].find? (·.path = "lib") =
      some ⟨"lib", table.exports "lib"⟩ := rfl
  have isStruct : Lower.isStruct table "P" = true := rfl
  have brings : Check.Brings structImporter "lib" "f" :=
    ⟨⟨["lib"], ["P", "f"]⟩, by decide, rfl, rfl, by simp⟩
  obtain ⟨theirs, definition, isTheirs, isOnly, listed, shared, _, defined⟩ :=
    layout_shared_iff analyzed generated analyzed' generated' offered isStruct
  obtain rfl : definedStruct = theirs := Option.some.inj isTheirs
  obtain rfl : .struct ⟨"P", [⟨.float, "y", []⟩]⟩ = definition :=
    Lower.Lists.unique ⟨rfl, rfl, rfl⟩ listed
  obtain ⟨definition', isOnly'⟩ := defined { function with origin := .module "lib" }
    (.tail _ (.head _)) signature rfl brings (by decide)
    ⟨.ptr (.named "P"), by simp [signature], rfl⟩
  refine ⟨table, unit, table', unit', analyzed, generated, analyzed', generated', isOnly,
    definition', isOnly', ?_⟩
  rintro rfl
  obtain ⟨ours, isOurs, sameForm⟩ := shared.mp isOnly'
  obtain rfl := Option.some.inj isOurs
  rcases sameForm with ⟨_, isEnum, _⟩ | ⟨_, _, areFields⟩
  · cases isEnum
  · cases areFields

end Offside
