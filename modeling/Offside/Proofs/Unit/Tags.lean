import Offside.Proofs.Scope.Walk
import Offside.Proofs.Unit.Brought
import Offside.Proofs.Unit.Containment

/-!
# Tags

The C form of a unit defines a tag once for every name of a struct or enumeration, and the first
symbol with that name decides what the definition lists. The exports of a module that is imported
whole stand in the place of the module, so one that comes before a declaration of the same name
takes the tag away from it.
-/

namespace Offside

open Outcome

namespace C

inductive TagDef
  | enum (definition : EnumDef)
  | struct (definition : StructDef)

def TagDef.tag : TagDef → String
  | enum definition => definition.tag
  | struct definition => definition.tag

def Unit.definitionsOf (unit : Unit) (tag : String) : List TagDef :=
  (unit.enums.map TagDef.enum ++ unit.structs.map TagDef.struct).filter (·.tag = tag)

theorem Unit.definitionsOf_eq (unit : Unit) (tag : String) :
    unit.definitionsOf tag = (unit.enums.filter (·.tag = tag)).map TagDef.enum ++
      (unit.structs.filter (·.tag = tag)).map TagDef.struct := by
  rw [definitionsOf, List.filter_append, List.filter_map, List.filter_map]
  rfl

end C

namespace Lower

variable {symbols : List Symbol} {definition : C.TagDef} {support : String} {kind : UnitKind}
  {body : List Statement} {unit : C.Unit}

/-- Keeping the first of every key finds what stands first, and repeats no key. -/
theorem foldl_firstOfKey {α : Type} (key : α → String) (items seen : List α)
    (distinct : (seen.map key).Nodup) :
    let kept := items.foldl (fun seen item =>
      if seen.any (key · = key item) then seen else seen ++ [item]) seen
    (kept.map key).Nodup ∧
      ∀ name, kept.find? (key · = name) = (seen ++ items).find? (key · = name) := by
  induction items generalizing seen with
  | nil => exact ⟨distinct, fun name => by simp⟩
  | cons item items induction =>
      rw [List.foldl_cons]
      by_cases isSeen : seen.any (key · = key item) = true
      · rw [if_pos isSeen]
        obtain ⟨nodup, found⟩ := induction seen distinct
        refine ⟨nodup, fun name => ?_⟩
        rw [found, List.find?_append, List.find?_append, List.find?_cons]
        by_cases isName : key item = name
        · subst isName
          have isSome : (seen.find? (key · = key item)).isSome := by
            simpa [List.find?_isSome] using isSeen
          obtain ⟨earlier, isEarlier⟩ := Option.isSome_iff_exists.mp isSome
          rw [isEarlier, Option.some_or, Option.some_or]
        · simp [isName]
      · rw [if_neg isSeen]
        have isNew : key item ∉ seen.map key := by simpa using isSeen
        have longer : ((seen ++ [item]).map key).Nodup := by
          rw [List.map_append, List.map_singleton, ← List.concat_eq_append]
          exact distinct.concat isNew
        obtain ⟨nodup, found⟩ := induction (seen ++ [item]) longer
        refine ⟨nodup, fun name => ?_⟩
        rw [found, List.append_assoc, List.singleton_append]

theorem nodup_firstOfName (symbols : List Symbol) :
    ((firstOfName symbols).map (·.name)).Nodup :=
  (foldl_firstOfKey Symbol.name symbols [] List.nodup_nil).1

theorem find?_firstOfName (symbols : List Symbol) (name : String) :
    (firstOfName symbols).find? (·.name = name) = symbols.find? (·.name = name) :=
  (foldl_firstOfKey Symbol.name symbols [] List.nodup_nil).2 name

theorem filter_name_eq_toList (distinct : (symbols.map (·.name)).Nodup) (name : String) :
    symbols.filter (·.name = name) = (symbols.find? (·.name = name)).toList := by
  induction symbols with
  | nil => rfl
  | cons symbol symbols induction =>
      rw [List.map_cons, List.nodup_cons] at distinct
      by_cases isName : symbol.name = name
      · have others : symbols.filter (·.name = name) = [] := by
          rw [List.filter_eq_nil_iff]
          intro other member sameName
          apply distinct.1
          rw [isName]
          exact List.mem_map.mpr ⟨other, member, by simpa using sameName⟩
        simp [isName, others]
      · simp [isName, induction distinct.2]

/-- The struct or enumeration with a name is the first that can be reached. -/
theorem aggregate?_eq (table : Table) (name : String) :
    aggregate? table name =
      (reachable table).find? fun symbol => isAggregate symbol && symbol.name = name := by
  rw [aggregate?, aggregates, find?_firstOfName, List.find?_filter]
  simp

variable {table : Table} {symbol : Symbol}

theorem isAggregate_of_aggregate? {name : String} (found : aggregate? table name = some symbol) :
    isAggregate symbol = true ∧ symbol.name = name := by
  rw [aggregate?_eq] at found
  have holds := List.find?_some found
  simpa using holds

def fieldForms (table : Table) (symbol : Symbol) : List (Except Fault C.Declarator) :=
  (fieldsOf symbol).map fun field => declarator table field.ty field.name

/-- Whether a definition lists the members or fields that a symbol declares. -/
def Lists (table : Table) (symbol : Symbol) : C.TagDef → Prop
  | .enum definition => definition.tag = symbol.name ∧ symbol.kind = .enum definition.members
  | .struct definition => definition.tag = symbol.name ∧ symbol.kind.isStruct ∧
      definition.fields.map .ok = fieldForms table symbol

/-- Whether symbols have the same members, or fields of the same C forms. -/
def SameForm (table table' : Table) (symbol symbol' : Symbol) : Prop :=
  (∃ members, symbol.kind = .enum members ∧ symbol'.kind = .enum members) ∨
    (symbol.kind.isStruct ∧ symbol'.kind.isStruct ∧
      fieldForms table symbol = fieldForms table' symbol')

theorem lists_iff_sameForm {table' : Table} {symbol' : Symbol}
    (listed : Lists table symbol definition) (sameName : symbol.name = symbol'.name) :
    Lists table' symbol' definition ↔ SameForm table table' symbol symbol' := by
  cases definition with
  | enum definition =>
      obtain ⟨isTag, isEnum⟩ := listed
      simp [Lists, SameForm, isTag, isEnum, sameName, SymbolKind.isStruct]
  | struct definition =>
      obtain ⟨isTag, isStruct, areFields⟩ := listed
      have notEnum (members : List (String × Int)) : symbol.kind ≠ .enum members := by
        intro isEnum
        simp [isEnum, SymbolKind.isStruct] at isStruct
      simp [Lists, SameForm, isTag, isStruct, areFields, sameName, notEnum]

theorem Lists.unique {definition' : C.TagDef} (listed : Lists table symbol definition)
    (listed' : Lists table symbol definition') : definition = definition' := by
  cases definition with
  | enum first =>
      obtain ⟨isTag, isEnum⟩ := listed
      cases definition' with
      | enum second =>
          obtain ⟨isTag', isEnum'⟩ := listed'
          obtain ⟨tag, members⟩ := first
          obtain ⟨tag', members'⟩ := second
          simp_all
      | struct second => simp [Lists, isEnum, SymbolKind.isStruct] at listed'
  | struct first =>
      obtain ⟨isTag, isStruct, areFields⟩ := listed
      cases definition' with
      | enum second => simp [listed'.2, SymbolKind.isStruct] at isStruct
      | struct second =>
          obtain ⟨isTag', _, areFields'⟩ := listed'
          obtain ⟨tag, fields⟩ := first
          obtain ⟨tag', fields'⟩ := second
          have same : fields = fields' := by
            apply List.map_injective_iff.mpr (fun _ _ => Except.ok.inj)
            exact areFields.trans areFields'.symm
          simp_all

theorem lists_of_structDef {definition : C.StructDef} (isStruct : symbol.kind.isStruct = true)
    (defined : structDef table symbol = .ok definition) :
    Lists table symbol (.struct definition) := by
  simp only [structDef, bind_eq_ok, pure_eq_ok] at defined
  obtain ⟨fields, areFields, rfl⟩ := defined
  refine ⟨rfl, isStruct, ?_⟩
  exact map_ok_of_mapM areFields

theorem tag_of_structDef {definition : C.StructDef}
    (defined : structDef table symbol = .ok definition) : definition.tag = symbol.name := by
  simp only [structDef, bind_eq_ok, pure_eq_ok] at defined
  obtain ⟨_, _, rfl⟩ := defined
  rfl

theorem filter_tag_of_mapM {definitions : List C.StructDef}
    (defined : symbols.mapM (structDef table) = .ok definitions) (tag : String) :
    (symbols.filter (·.name = tag)).mapM (structDef table) =
      .ok (definitions.filter (·.tag = tag)) := by
  induction symbols generalizing definitions with
  | nil =>
      obtain rfl : [] = definitions := by simpa using defined
      rfl
  | cons symbol symbols induction =>
      simp only [List.mapM_cons, bind_eq_ok, pure_eq_ok] at defined
      obtain ⟨first, isFirst, others, areOthers, rfl⟩ := defined
      have later := induction areOthers
      by_cases isName : symbol.name = tag
      · simp [isName, tag_of_structDef isFirst, isFirst, later]
      · simp [isName, tag_of_structDef isFirst, later]

theorem filter_tag_of_filterMap (symbols : List Symbol) (tag : String) :
    (symbols.filterMap enumDef?).filter (·.tag = tag) =
      (symbols.filter (·.name = tag)).filterMap enumDef? := by
  rw [List.filter_filterMap, List.filterMap_filter]
  congr 1
  funext symbol
  rw [enumDef?]
  split
  · simp [Option.filter]
  · simp

theorem forall₂_lists_definitionsOf (lowered : lowerUnit table support kind body = .ok unit)
    (tag : String) :
    List.Forall₂ (Lists table) (aggregate? table tag).toList (unit.definitionsOf tag) := by
  simp only [lowerUnit, bind_eq_ok, pure_eq_ok] at lowered
  obtain ⟨ordered, isOrdered, definitions, areDefinitions, _, _, _, _, _, _, _, _, rfl⟩ := lowered
  have distinct : ((aggregates table).map (·.name)).Nodup := nodup_firstOfName _
  have named : (aggregates table).filter (·.name = tag) = (aggregate? table tag).toList :=
    filter_name_eq_toList distinct tag
  have isPerm : (ordered.filter (·.name = tag)).Perm
      ((aggregate? table tag).toList.filter (·.kind.isStruct)) := by
    rw [← named, List.filter_comm]
    exact (perm_of_orderStructs (distinct.sublist (List.filter_sublist.map _)) isOrdered).filter _
  have structs := filter_tag_of_mapM areDefinitions tag
  rw [C.Unit.definitionsOf_eq, filter_tag_of_filterMap, named]
  cases found : aggregate? table tag with
  | none =>
      rw [found] at isPerm
      rw [isPerm.eq_nil] at structs
      obtain none : [] = definitions.filter (·.tag = tag) := by simpa using structs
      simp [← none]
  | some symbol =>
      obtain ⟨isDeclared, _⟩ := isAggregate_of_aggregate? found
      rw [found] at isPerm
      cases isKind : symbol.kind with
      | struct fields methods =>
          have isStruct : symbol.kind.isStruct = true := by rw [isKind]; rfl
          have only : ordered.filter (·.name = tag) = [symbol] := by simpa [isStruct] using isPerm
          rw [only] at structs
          obtain ⟨definition, defined, isOnly⟩ : ∃ definition,
              structDef table symbol = .ok definition ∧
                [definition] = definitions.filter (·.tag = tag) := by
            simpa using structs
          simpa [enumDef?, isKind, ← isOnly] using lists_of_structDef isStruct defined
      | enum members =>
          have none : ordered.filter (·.name = tag) = [] := by
            simpa [isKind, SymbolKind.isStruct] using isPerm
          rw [none] at structs
          obtain noStructs : [] = definitions.filter (·.tag = tag) := by simpa using structs
          simp [enumDef?, isKind, ← noStructs, Lists]
      | _ => simp [isAggregate, isKind, SymbolKind.isStruct, SymbolKind.isEnum] at isDeclared

/-- The tag of a struct or enumeration has one definition, which lists what it declares. -/
theorem exists_definitionsOf (lowered : lowerUnit table support kind body = .ok unit) {tag : String}
    (found : aggregate? table tag = some symbol) :
    ∃ definition, unit.definitionsOf tag = [definition] ∧ Lists table symbol definition := by
  have listed := forall₂_lists_definitionsOf lowered tag
  rw [found, Option.toList_some] at listed
  obtain ⟨definition, none, isListed, isNil, isOnly⟩ := List.forall₂_cons_left_iff.mp listed
  obtain rfl := List.forall₂_nil_left_iff.mp isNil
  exact ⟨definition, isOnly, isListed⟩

theorem definitionsOf_eq_singleton_iff {table' : Table}
    (lowered : lowerUnit table' support kind body = .ok unit)
    (listed : Lists table symbol definition) :
    unit.definitionsOf symbol.name = [definition] ↔
      ∃ own, aggregate? table' symbol.name = some own ∧ SameForm table table' symbol own := by
  cases found : aggregate? table' symbol.name with
  | none =>
      have undefined := forall₂_lists_definitionsOf lowered symbol.name
      rw [found, Option.toList_none, List.forall₂_nil_left_iff] at undefined
      simp [undefined]
  | some own =>
      obtain ⟨definition', isOnly, listed'⟩ := exists_definitionsOf lowered found
      have sameName : symbol.name = own.name := (isAggregate_of_aggregate? found).2.symm
      simp only [Option.some.injEq, exists_eq_left']
      rw [isOnly, List.singleton_inj, ← lists_iff_sameForm listed sameName]
      constructor
      · intro same
        exact same ▸ listed'
      · exact listed'.unique

/-- The struct or enumeration with a name that is offered first. -/
def offered? (symbols : List Symbol) (name : String) : Option Symbol :=
  symbols.findSome? fun symbol =>
    match symbol.kind with
    | .module exports => exports.find? fun offered => isAggregate offered && offered.name = name
    | _ => none

theorem find?_flatMap_unpacked {name : String} (others : name ∉ symbols.map (·.name)) :
    ((symbols.flatMap Symbol.unpacked).find? fun symbol =>
        isAggregate symbol && symbol.name = name) = offered? symbols name := by
  rw [List.find?_flatMap, offered?]
  induction symbols with
  | nil => rfl
  | cons symbol symbols induction =>
      rw [List.map_cons, List.mem_cons, not_or] at others
      have isOther : symbol.name ≠ name := fun same => others.1 same.symm
      rw [List.findSome?_cons, List.findSome?_cons, induction others.2]
      cases isKind : symbol.kind <;> simp [Symbol.unpacked, isKind, isOther]

theorem unpacked_of_isAggregate (isDeclared : isAggregate symbol = true) :
    symbol.unpacked = [symbol] := by
  cases isKind : symbol.kind <;> simp [isAggregate, isKind, SymbolKind.isStruct,
    SymbolKind.isEnum, Symbol.unpacked] at isDeclared ⊢

/-- A declared struct is the one with its name, unless a module offers one before. -/
theorem aggregate?_of_globals {before after : List Symbol}
    (globals_eq : table.globals = before ++ symbol :: after)
    (distinct : (table.globals.map (·.name)).Nodup) (isDeclared : isAggregate symbol = true) :
    aggregate? table symbol.name = some ((offered? before symbol.name).getD symbol) := by
  have others : symbol.name ∉ before.map (·.name) := by
    rw [globals_eq, List.map_append, List.map_cons] at distinct
    intro member
    exact List.disjoint_of_nodup_append distinct member List.mem_cons_self
  rw [aggregate?_eq, reachable, globals_eq, List.flatMap_append, List.flatMap_cons,
    unpacked_of_isAggregate isDeclared, List.find?_append, find?_flatMap_unpacked others,
    List.singleton_append, List.find?_cons]
  cases offered? before symbol.name <;> simp [isDeclared]

end Lower

/-- The tag of a struct or enumeration at the top level has one definition. It lists what is
declared there, unless a module imported whole before offers one of that name, which is then listed.
-/
theorem defined_as_declared_iff {kind : UnitKind} {modules : List Fragment} {body : List Statement}
    {table : Table} {support : String} {unit : C.Unit}
    (analyzed : analyze kind modules body = .ok table)
    (generated : generate table support kind body = .ok unit) {before after : List Symbol}
    {symbol : Symbol} (globals_eq : table.globals = before ++ symbol :: after)
    (isDeclared : Lower.isAggregate symbol = true) :
    ∃ definition, unit.definitionsOf symbol.name = [definition] ∧
      Lower.Lists table ((Lower.offered? before symbol.name).getD symbol) definition ∧
      (Lower.Lists table symbol definition ↔
        ∀ other, Lower.offered? before symbol.name = some other →
          Lower.SameForm table table other symbol) := by
  obtain ⟨_, distinct⟩ := Check.distinct_of_checkUnit analyzed
  have found := Lower.aggregate?_of_globals globals_eq distinct isDeclared
  obtain ⟨definition, isOnly, listed⟩ :=
    Lower.exists_definitionsOf generated found
  refine ⟨definition, isOnly, listed, ?_⟩
  cases isOffered : Lower.offered? before symbol.name with
  | none =>
      rw [isOffered] at listed
      simpa using listed
  | some other =>
      rw [isOffered] at listed found
      have sameName : other.name = symbol.name := (Lower.isAggregate_of_aggregate? found).2
      rw [Lower.lists_iff_sameForm listed sameName]
      simp

/-- A module that offers a struct. -/
def offersStruct (path name : String) (field : Field) : Fragment :=
  ⟨path, [{ Symbol.plain name (.struct [field] []) with origin := .module path }]⟩

/-- The definition of a struct with one field. -/
def definesStruct (name field : String) (written : TypeExpr) : Statement :=
  ⟨1, .classDef ⟨name, [], .struct, [⟨2, .declare (.name field) written none⟩]⟩⟩

/-- A unit imports a module and then defines a struct that the module also offers. -/
def importsThenDefines : List Statement :=
  [⟨1, .import_ ⟨["lib"], []⟩⟩, definesStruct "P" "y" (.name "float")]

/-- The struct as it is defined. -/
def definedStruct : Symbol := .plain "P" (.struct [⟨"y", .float⟩] [])

theorem defined_as_declared_iff_offered :
    ∃ table unit,
      analyze .library [offersStruct "lib" "P" ⟨"x", .int⟩] importsThenDefines = .ok table ∧
      table.global? "P" = some definedStruct ∧
      generate table defaultSupport .library importsThenDefines = .ok unit ∧
      unit.definitionsOf "P" = [.struct ⟨"P", [⟨.int, "x", []⟩]⟩] ∧
      ¬ Lower.Lists table definedStruct (.struct ⟨"P", [⟨.int, "x", []⟩]⟩) := by
  let fragment := offersStruct "lib" "P" ⟨"x", .int⟩
  let table : Table := .outermost [.module "lib" "lib" fragment.symbols, definedStruct]
  have analyzed : analyze .library [fragment] importsThenDefines = .ok table := rfl
  obtain ⟨unit, generated⟩ :
      ∃ unit, generate table defaultSupport .library importsThenDefines = .ok unit :=
    exists_ok_of_toBool (by with_unfolding_all rfl)
  obtain ⟨definition, isOnly, listed, isOwn⟩ :=
    @defined_as_declared_iff _ _ _ _ _ _ analyzed generated [.module "lib" "lib" fragment.symbols]
      [] definedStruct rfl rfl
  obtain rfl : .struct ⟨"P", [⟨.int, "x", []⟩]⟩ = definition :=
    Lower.Lists.unique ⟨rfl, rfl, rfl⟩ listed
  refine ⟨table, unit, analyzed, rfl, generated, isOnly, ?_⟩
  rintro ⟨_, _, areFields⟩
  cases areFields

end Offside
