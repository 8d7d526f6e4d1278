import Offside.Proofs.Unit.Prototypes

/-!
# C names outside functions

A unit of C names its functions and objects as the source does. It names the methods of a struct and
the members of an enumeration by both names, with an underscore between them, and whatever it takes
out of a module as the module does. Underscores may also stand inside names, so a name can be cut in
several ways, and nothing tells modules apart.
-/

namespace Offside

open Outcome

/-- What has a C name outside functions: functions, objects, methods and enumerators. -/
structure Entity where
  origin : Origin
  name : String
  part : Option String
deriving DecidableEq

namespace Entity

def cName (entity : Entity) : String :=
  match entity.part with
  | none => entity.name
  | some part => Lower.functionName (some entity.name) part

/-- Whether two entities get one name out of parts that differ. -/
inductive Joined : Entity → Entity → Prop
  | whole {origin origin' : Origin} (owner part : String) :
      Joined ⟨origin, owner ++ "_" ++ part, none⟩ ⟨origin', owner, some part⟩
  | shifted {origin origin' : Origin} (owner middle part : String) :
      Joined ⟨origin, owner ++ "_" ++ middle, some part⟩
        ⟨origin', owner, some (middle ++ "_" ++ part)⟩

theorem Joined.cName_eq {first second : Entity} (joined : Joined first second) :
    first.cName = second.cName := by
  cases joined with
  | whole owner part => rfl
  | shifted owner middle part => simp [cName, Lower.functionName, String.append_assoc]

theorem Joined.length_lt {first second : Entity} (joined : Joined first second) :
    second.name.length < first.name.length := by
  cases joined <;> simp only [String.length_append, show "_".length = 1 from rfl] <;> omega

theorem Joined.ne {first second : Entity} (joined : Joined first second) : first ≠ second := by
  rintro rfl
  exact Nat.lt_irrefl _ joined.length_lt

end Entity

theorem append_cons_cases {α : Type} {item : α} {front back front' back' : List α}
    (same : front ++ item :: back = front' ++ item :: back') :
    (front = front' ∧ back = back') ∨
      (∃ middle, front = front' ++ item :: middle ∧ back' = middle ++ item :: back) ∨
      ∃ middle, front' = front ++ item :: middle ∧ back = middle ++ item :: back' := by
  rcases List.append_eq_append_iff.mp same with ⟨between, isFront, isBack⟩ |
    ⟨between, isFront, isBack⟩ <;> cases between <;> simp_all

theorem functionName_cases {owner part owner' part' : String}
    (same : Lower.functionName (some owner) part = Lower.functionName (some owner') part') :
    (owner = owner' ∧ part = part') ∨
      (∃ middle, owner = owner' ++ "_" ++ middle ∧ part' = middle ++ "_" ++ part) ∨
      ∃ middle, owner' = owner ++ "_" ++ middle ∧ part = middle ++ "_" ++ part' := by
  have sameChars : owner.toList ++ '_' :: part.toList = owner'.toList ++ '_' :: part'.toList := by
    simpa [Lower.functionName] using congrArg String.toList same
  rcases append_cons_cases sameChars with ⟨sameOwner, samePart⟩ | ⟨middle, longer, rest⟩ |
    ⟨middle, longer, rest⟩
  · exact .inl ⟨String.toList_inj.mp sameOwner, String.toList_inj.mp samePart⟩
  · exact .inr (.inl ⟨.ofList middle, String.toList_inj.mp (by simp [longer]),
      String.toList_inj.mp (by simp [rest])⟩)
  · exact .inr (.inr ⟨.ofList middle, String.toList_inj.mp (by simp [longer]),
      String.toList_inj.mp (by simp [rest])⟩)

namespace Entity

/-- Entities share their C name if they are named alike or joined. -/
theorem cName_eq_iff {first second : Entity} :
    first.cName = second.cName ↔
      (first.name = second.name ∧ first.part = second.part) ∨ Joined first second ∨
        Joined second first := by
  constructor
  · obtain ⟨origin, name, part⟩ := first
    obtain ⟨origin', name', part'⟩ := second
    intro same
    cases part with
    | none =>
        cases part' with
        | none => exact .inl ⟨same, rfl⟩
        | some part' =>
            obtain rfl : name = name' ++ "_" ++ part' := same
            exact .inr (.inl (.whole name' part'))
    | some part =>
        cases part' with
        | none =>
            obtain rfl : name ++ "_" ++ part = name' := same
            exact .inr (.inr (.whole name part))
        | some part' =>
            rcases functionName_cases same with ⟨rfl, rfl⟩ | ⟨middle, rfl, rfl⟩ |
              ⟨middle, rfl, rfl⟩
            · exact .inl ⟨rfl, rfl⟩
            · exact .inr (.inl (.shifted name' middle part))
            · exact .inr (.inr (.shifted name middle part'))
  · rintro (⟨sameName, samePart⟩ | joined | joined)
    · rw [cName, cName, sameName, samePart]
    · exact joined.cName_eq
    · exact joined.cName_eq.symm

end Entity

/-- The functions, objects, methods and enumerators of a symbol. -/
def Symbol.entities (symbol : Symbol) : List Entity :=
  match symbol.kind with
  | .value _ | .function _ => [⟨symbol.origin, symbol.name, none⟩]
  | .struct _ methods => methods.map fun method => ⟨symbol.origin, symbol.name, some method.name⟩
  | .enum members => members.map fun member => ⟨symbol.origin, symbol.name, some member.1⟩
  | .interface _ | .module _ => []

theorem name_of_mem_entities {symbol : Symbol} {entity : Entity}
    (member : entity ∈ symbol.entities) : entity.name = symbol.name := by
  rw [Symbol.entities] at member
  split at member <;> simp at member
  · rw [member]
  · rw [member]
  · obtain ⟨_, _, rfl⟩ := member
    rfl
  · obtain ⟨_, _, rfl⟩ := member
    rfl

def Lower.entities (table : Table) : List Entity := (reachable table).flatMap Symbol.entities

def Statement.part? (kind : ClassKind) (statement : Statement) : Option String :=
  match kind, statement.form with
  | .struct, .function method => some method.name
  | .enum, .assign (.name name) _ => some name
  | _, _ => none

def ClassDef.parts (decl : ClassDef) : List Entity :=
  (decl.body.filterMap (Statement.part? decl.kind)).map fun part => ⟨.own, decl.name, some part⟩

namespace Statement

/-- What a statement at the top level declares. -/
def entities (statement : Statement) : List Entity :=
  match statement.form with
  | .function decl => [⟨.own, decl.name, none⟩]
  | .classDef decl => decl.parts
  | .declare (.name name) _ _ => [⟨.own, name, none⟩]
  | _ => []

/-- The object among it. -/
def objects (statement : Statement) : List Entity :=
  match statement.form with
  | .declare _ _ _ => statement.entities
  | _ => []

def functions (statement : Statement) : List Entity :=
  match statement.form with
  | .function _ => statement.entities
  | .classDef decl => if decl.kind = .struct then statement.entities else []
  | _ => []

theorem sublist_entities (statement : Statement) :
    (statement.objects ++ statement.functions).Sublist statement.entities := by
  obtain ⟨line, form⟩ := statement
  cases form with
  | classDef decl =>
      simp only [objects, functions, List.nil_append]
      split
      · exact .refl _
      · exact List.nil_sublist _
  | _ => simp [objects, functions]

end Statement

theorem functions_of_isStruct (line : Nat) {decl : ClassDef} (isStruct : decl.kind = .struct) :
    Statement.functions ⟨line, .classDef decl⟩ = decl.parts := if_pos isStruct

theorem map_cName_parts {decl : ClassDef} (isStruct : decl.kind = .struct) :
    decl.parts.map Entity.cName =
      decl.methods.map fun method => Lower.functionName (some decl.name) method.name := by
  rw [ClassDef.parts, ClassDef.methods, isStruct, List.map_map, List.map_filterMap,
    List.map_filterMap]
  congr 1
  funext statement
  cases form : statement.form <;> simp [Statement.part?, form, Entity.cName]

/-- What a unit defines outside functions; a library has no entry function. -/
def definitions (kind : UnitKind) (body : List Statement) : List Entity :=
  body.flatMap Statement.objects ++ (body.flatMap Statement.functions).filter fun entity =>
    kind ≠ .library ∨ entity.cName ≠ entryPoint

namespace C

def Unit.definedNames (unit : Unit) : List String :=
  unit.globals.map (·.declarator.name) ++ (unit.functions ++ unit.entry).map (·.name)

/-- The names that a unit of C declares or defines outside functions, apart from tags. -/
def Unit.fileNames (unit : Unit) : List String :=
  unit.enums.flatMap (fun definition => definition.members.map fun member =>
    enumerator definition.tag member.1) ++ unit.externals.map (·.declarator.name) ++
    unit.prototypes.map (·.name) ++ unit.definedNames

end C

namespace Lower

/-! ## Definitions -/

variable {table : Table} {body : List Statement}
variable {support : String} {unit : C.Unit}

theorem toList_name_of_lowerGlobal? {statement : Statement} {result : Option C.Definition}
    (lowered : lowerGlobal? table statement = .ok result) :
    (result.map (·.declarator.name)).toList = statement.objects.map Entity.cName := by
  obtain ⟨line, form⟩ := statement
  cases form with
  | declare target written value =>
      cases target with
      | name name =>
          simp only [lowerGlobal?, bind_eq_ok] at lowered
          obtain ⟨_, _, declared, declares, lowered⟩ := lowered
          have named := name_of_declarator declares
          cases value with
          | none =>
              obtain rfl := Except.ok.inj lowered
              simp [Statement.objects, Statement.entities, Entity.cName, named]
          | some value =>
              obtain ⟨_, _, rfl⟩ := by simpa using lowered
              simp [Statement.objects, Statement.entities, Entity.cName, named]
      | _ =>
          obtain rfl := Except.ok.inj lowered
          rfl
  | _ =>
      obtain rfl := Except.ok.inj lowered
      rfl

theorem map_name_defined (statement : Statement) :
    (statement.defined.map fun item => functionName item.1 item.2.name) =
      statement.functions.map Entity.cName := by
  obtain ⟨line, form⟩ := statement
  cases form with
  | classDef decl =>
      by_cases isStruct : decl.kind = .struct
      · rw [functions_of_isStruct line isStruct, map_cName_parts isStruct]
        simp [Statement.defined, isStruct, Function.comp_def]
      · simp [Statement.defined, Statement.functions, isStruct]
  | _ => rfl

theorem globalNames_of_lowerUnit {kind : UnitKind}
    (lowered : lowerUnit table support kind body = .ok unit) :
    unit.globals.map (·.declarator.name) = (body.flatMap Statement.objects).map Entity.cName := by
  simp only [lowerUnit, bind_eq_ok, pure_eq_ok] at lowered
  obtain ⟨_, _, _, _, _, _, results, areResults, _, _, _, _, rfl⟩ := lowered
  have named : results.map (fun result => (result.map (·.declarator.name)).toList) =
      body.map fun statement => statement.objects.map Entity.cName :=
    map_eq_of_mapM body (fun _ _ _ isResult => toList_name_of_lowerGlobal? isResult) areResults
  calc (results.filterMap id).map (·.declarator.name)
      = (results.map fun result => (result.map (·.declarator.name)).toList).flatten := by
        rw [List.map_filterMap, List.filterMap_eq_flatMap_toList, List.flatMap_def]
        rfl
    _ = (body.flatMap Statement.objects).map Entity.cName := by
        rw [named, List.map_flatMap, List.flatMap_def]

theorem functionNames_of_lowerUnit {kind : UnitKind}
    (lowered : lowerUnit table support kind body = .ok unit) :
    ((unit.functions ++ unit.entry).map (·.name)).Perm
      (((body.flatMap Statement.functions).filter fun entity =>
        kind ≠ .library ∨ entity.cName ≠ entryPoint).map Entity.cName) := by
  obtain ⟨definitions, last, inTurn, isFunctions, isEntry⟩ := definitions_of_lowerUnit lowered
  have names_eq : definitions.map (·.name) =
      (body.flatMap Statement.functions).map Entity.cName := by
    simp only [inTurn.map_name, List.map_flatMap, map_name_defined]
  rw [isFunctions, isEntry]
  by_cases isLibrary : kind = .library
  · have others := congrArg (List.filter (· ≠ entryPoint)) names_eq
    simp only [List.filter_map, Function.comp_def] at others
    have same := List.Perm.of_eq others
    simpa [isLibrary] using same
  · have whole := (List.perm_append_comm.trans (List.filter_append_perm
      (fun definition : C.FunctionDef => decide (definition.name = entryPoint)) definitions)).map
      (·.name)
    simpa [isLibrary, names_eq] using whole

/-- A unit of C defines what its statements define, each under its C name. -/
theorem definedNames_perm {kind : UnitKind}
    (lowered : lowerUnit table support kind body = .ok unit) :
    unit.definedNames.Perm ((definitions kind body).map Entity.cName) := by
  rw [C.Unit.definedNames, definitions, globalNames_of_lowerUnit lowered]
  simpa only [List.map_append] using (functionNames_of_lowerUnit lowered).append_left _

end Lower

namespace Check

theorem names_of_foldlM {σ : Type} {step : σ → Statement → Except Fault σ}
    (names : σ → List String) (name? : Statement → Option String) {body : List Statement}
    {state final : σ} (folded : body.foldlM step state = .ok final)
    (distinct : (names state).Nodup)
    (adds : ∀ {state statement next}, step state statement = .ok next →
      names next = names state ++ (name? statement).toList ∧
        ∀ name ∈ name? statement, name ∉ names state) :
    names final = names state ++ body.filterMap name? ∧ (names final).Nodup := by
  induction body generalizing state with
  | nil =>
      obtain rfl := Except.ok.inj folded
      exact ⟨by simp, distinct⟩
  | cons statement body induction =>
      simp only [List.foldlM_cons, bind_eq_ok] at folded
      obtain ⟨next, added, folded⟩ := folded
      obtain ⟨names_eq, isNew⟩ := adds added
      cases isName : name? statement with
      | none =>
          obtain same : names next = names state := by simpa [isName] using names_eq
          simpa [isName, same] using induction folded (same ▸ distinct)
      | some name =>
          obtain grown : names next = names state ++ [name] := by simpa [isName] using names_eq
          have distinctNext : (names next).Nodup := by
            rw [grown, List.nodup_append_comm]
            exact List.nodup_cons.mpr ⟨isNew name isName, distinct⟩
          simpa [isName, grown] using induction folded distinctNext

variable {statement : Statement}

theorem part_of_structMember {owner : String} {members after : Members}
    (added : structMember owner members statement = .ok after) :
    after.methods.map (·.name) =
        members.methods.map (·.name) ++ (statement.part? .struct).toList ∧
      ∀ name ∈ statement.part? .struct, name ∉ members.methods.map (·.name) := by
  obtain ⟨line, form⟩ := statement
  cases form with
  | function method =>
      simp only [structMember, Members.addMethod, bind_eq_ok, onLine_eq_ok, pure_eq_ok,
        Members.isFree, error_ite_eq_ok] at added
      obtain ⟨signature, _, _, ⟨free, _⟩, rfl⟩ := added
      refine ⟨by simp [Statement.part?], ?_⟩
      rintro _ ⟨⟩ taken
      obtain ⟨other, isOther, sameName⟩ := List.mem_map.mp taken
      simp only [Bool.or_eq_true, List.any_eq_true, decide_eq_true_eq, not_or] at free
      exact free.2 ⟨other, isOther, sameName⟩
  | declare target written value =>
      simp only [structMember, Members.addField, onLine_eq_ok, bind_eq_ok, error_bind,
        error_ite_eq_ok, pure_eq_ok] at added
      obtain ⟨_, _, _, _, _, _, _, _, rfl⟩ := added
      simp [Statement.part?]
  | _ =>
      simp only [structMember] at added
      split at added
      · obtain rfl := pure_eq_ok.mp added
        simp [Statement.part?]
      · exact absurd added reject_ne_ok

theorem part_of_enumMember {owner : String} {members after : List (String × Int)}
    (added : enumMember owner members statement = .ok after) :
    after.map (·.1) = members.map (·.1) ++ (statement.part? .enum).toList ∧
      ∀ name ∈ statement.part? .enum, name ∉ members.map (·.1) := by
  obtain ⟨line, form⟩ := statement
  have inert (none : Statement.part? .enum ⟨line, form⟩ = none)
      (added : (if isInert form then return members else reject line (.enumContents owner)) =
        .ok after) :
      after.map (·.1) = members.map (·.1) ++ (Statement.part? .enum ⟨line, form⟩).toList ∧
        ∀ name ∈ Statement.part? .enum ⟨line, form⟩, name ∉ members.map (·.1) := by
    split at added
    · obtain rfl := pure_eq_ok.mp added
      simp [none]
    · exact absurd added reject_ne_ok
  cases form with
  | assign target value =>
      cases target with
      | name name =>
          simp only [enumMember, onLine_eq_ok, addEnumMember] at added
          split at added
          · simp at added
          · simp only [bind_eq_ok, error_bind, error_ite_eq_ok, pure_eq_ok] at added
            obtain ⟨_, _, free, rfl⟩ := added
            refine ⟨by simp [Statement.part?], ?_⟩
            rintro _ ⟨⟩ taken
            obtain ⟨other, isOther, sameName⟩ := List.mem_map.mp taken
            exact free (List.any_eq_true.mpr ⟨other, isOther, decide_eq_true sameName⟩)
      | _ => exact inert rfl added
  | _ => exact inert rfl added

/-- The parts that a class declares are those of its symbol, and they differ. -/
theorem parts_of_classSymbol {decl : ClassDef} {symbol : Symbol}
    (declared : classSymbol decl = .ok symbol) :
    decl.parts.Nodup ∧ symbol.entities = decl.parts ∧ symbol.unpacked = [symbol] := by
  let part (name : String) : Entity := ⟨.own, decl.name, some name⟩
  have isPart : Function.Injective part := fun _ _ same => by simpa [part] using same
  cases kind : decl.kind with
  | enum =>
      simp only [classSymbol, kind, bind_eq_ok, pure_eq_ok] at declared
      obtain ⟨members, folded, rfl⟩ := declared
      obtain ⟨names_eq, distinct⟩ := names_of_foldlM (·.map (·.1))
        (Statement.part? .enum) folded List.nodup_nil part_of_enumMember
      have parts_eq : decl.parts = (members.map (·.1)).map part := by
        rw [names_eq, ClassDef.parts, kind]
        rfl
      refine ⟨parts_eq ▸ distinct.map isPart, ?_, rfl⟩
      simp [Symbol.entities, Symbol.plain, parts_eq, part]
  | struct =>
      simp only [classSymbol, kind, bind_eq_ok, pure_eq_ok] at declared
      obtain ⟨members, folded, rfl⟩ := declared
      obtain ⟨names_eq, distinct⟩ := names_of_foldlM (·.methods.map (·.name))
        (Statement.part? .struct) folded List.nodup_nil part_of_structMember
      have parts_eq : decl.parts = (members.methods.map (·.name)).map part := by
        rw [names_eq, ClassDef.parts, kind]
        rfl
      refine ⟨parts_eq ▸ distinct.map isPart, ?_, rfl⟩
      simp [Symbol.entities, Symbol.plain, parts_eq, part]
  | interface =>
      simp only [classSymbol, kind, bind_eq_ok, pure_eq_ok] at declared
      obtain ⟨members, _, rfl⟩ := declared
      have parts_eq : decl.parts = [] := by
        simp [ClassDef.parts, kind, Statement.part?]
      exact ⟨parts_eq ▸ List.nodup_nil, parts_eq.symm, rfl⟩

theorem mem_brought_of_topSymbol {fragments : List Fragment} {alone : Table}
    (declared : declareTop fragments .empty statement = .ok alone) {symbol : Symbol}
    (isSymbol : topSymbol statement = .ok (some symbol)) :
    symbol ∈ brought fragments statement := by
  rw [brought, declared, given_ok]
  have only (declared : declare .empty symbol = .ok alone) : symbol ∈ alone.globals := by
    rw [eq_outermost_of_declare declared, Table.globals_outermost]
    exact List.mem_singleton_self symbol
  obtain ⟨line, form⟩ := statement
  cases form with
  | function decl =>
      obtain ⟨signature, isSignature, rfl⟩ := by simpa [topSymbol] using isSymbol
      exact only (by simpa [declareTop, isSignature] using declared)
  | classDef decl =>
      obtain isSymbol : classSymbol decl = .ok symbol := by simpa [topSymbol] using isSymbol
      exact only (by simpa [declareTop, isSymbol] using declared)
  | declare target written value =>
      obtain ⟨name, isName, annotated, isAnnotated, rfl⟩ := by simpa [topSymbol] using isSymbol
      exact only (by simpa [declareTop, isName, isAnnotated] using declared)
  | _ => cases isSymbol

theorem entities_of_topSymbol {found : Option Symbol} (isFound : topSymbol statement = .ok found) :
    statement.entities.Nodup ∧
      ∀ entity ∈ statement.entities,
        ∃ symbol, found = some symbol ∧ symbol.unpacked = [symbol] ∧ entity ∈ symbol.entities := by
  obtain ⟨line, form⟩ := statement
  cases form with
  | function decl =>
      simp only [topSymbol, bind_eq_ok, pure_eq_ok] at isFound
      obtain ⟨signature, _, rfl⟩ := isFound
      refine ⟨List.nodup_singleton _, fun entity member => ⟨_, rfl, rfl, member⟩⟩
  | classDef decl =>
      simp only [topSymbol, bind_eq_ok, pure_eq_ok] at isFound
      obtain ⟨symbol, isSymbol, rfl⟩ := isFound
      obtain ⟨distinct, entities_eq, alone⟩ := parts_of_classSymbol isSymbol
      exact ⟨distinct, fun entity member => ⟨symbol, rfl, alone, entities_eq ▸ member⟩⟩
  | declare target written value =>
      simp only [topSymbol, onLine_eq_ok, bind_eq_ok, pure_eq_ok] at isFound
      obtain ⟨name, isName, annotated, _, rfl⟩ := isFound
      cases target with
      | name id =>
          obtain rfl := Except.ok.inj isName
          exact ⟨List.nodup_singleton _, fun entity member => ⟨_, rfl, rfl, member⟩⟩
      | _ => cases isName
  | _ => exact ⟨List.nodup_nil, List.forall_mem_nil _⟩

end Check

namespace Lower

variable {kind : UnitKind} {modules : List Fragment} {body : List Statement} {table : Table}

/-- A unit can reach what its statements declare. -/
theorem mem_entities_of_statement (checked : Check.checkUnit kind modules body = .ok table)
    {statement : Statement} (member : statement ∈ body) {entity : Entity}
    (isEntity : entity ∈ statement.entities) : entity ∈ entities table := by
  obtain ⟨found, isFound, known⟩ := Check.global?_of_checkUnit checked member
  obtain ⟨symbol, isSymbol, alone, isPart⟩ :=
    (Check.entities_of_topSymbol isFound).2 entity isEntity
  have isGlobal : symbol ∈ table.globals := List.mem_of_find?_eq_some (known symbol isSymbol)
  refine List.mem_flatMap.mpr ⟨symbol, List.mem_flatMap.mpr ⟨symbol, isGlobal, ?_⟩, isPart⟩
  exact alone ▸ List.mem_singleton_self symbol

theorem nodup_entities (checked : Check.checkUnit kind modules body = .ok table) :
    (body.flatMap Statement.entities).Nodup := by
  obtain ⟨alone, distinct⟩ := Check.distinct_of_checkUnit checked
  rw [Check.globals_of_checkUnit checked, List.map_flatMap, List.nodup_flatMap] at distinct
  -- What a statement declares is named as the symbol that it brings.
  have named {statement : Statement} (member : statement ∈ body) {entity : Entity}
      (isEntity : entity ∈ statement.entities) :
      entity.name ∈ (Check.brought modules statement).map (·.name) := by
    obtain ⟨found, isFound, _⟩ := Check.global?_of_checkUnit checked member
    obtain ⟨symbol, rfl, _, isPart⟩ := (Check.entities_of_topSymbol isFound).2 entity isEntity
    obtain ⟨_, declared⟩ := alone statement member
    rw [name_of_mem_entities isPart]
    exact List.mem_map_of_mem (Check.mem_brought_of_topSymbol declared isFound)
  refine List.nodup_flatMap.mpr ⟨fun statement member => ?_, ?_⟩
  · obtain ⟨_, isFound, _⟩ := Check.global?_of_checkUnit checked member
    exact (Check.entities_of_topSymbol isFound).1
  · refine distinct.2.imp_of_mem fun member member' apart entity isEntity isEntity' => ?_
    exact apart (named member isEntity) (named member' isEntity')

theorem definitions_subperm (kind : UnitKind) (body : List Statement) :
    (definitions kind body).Subperm (body.flatMap Statement.entities) := by
  have split := List.flatMap_append_perm body Statement.objects Statement.functions
  have kept : (definitions kind body).Sublist
      (body.flatMap Statement.objects ++ body.flatMap Statement.functions) :=
    List.filter_sublist.append_left _
  have inside : (body.flatMap fun statement => statement.objects ++ statement.functions).Sublist
      (body.flatMap Statement.entities) := by
    clear split kept
    induction body with
    | nil => exact .refl _
    | cons statement body induction =>
        simp only [List.flatMap_cons]
        exact statement.sublist_entities.append induction
  exact kept.subperm.trans (split.subperm.trans inside.subperm)

/-- Whether something within reach has a C name. -/
def IsNameIn (table : Table) (name : String) : Prop :=
  ∃ entity ∈ entities table, entity.cName = name

theorem isNameIn_whole {symbol : Symbol} (member : symbol ∈ reachable table)
    (isWhole : ⟨symbol.origin, symbol.name, none⟩ ∈ symbol.entities) :
    IsNameIn table symbol.name :=
  ⟨_, List.mem_flatMap.mpr ⟨symbol, member, isWhole⟩, rfl⟩

theorem isNameIn_part {symbol : Symbol} {part : String} (member : symbol ∈ reachable table)
    (isPart : ⟨symbol.origin, symbol.name, some part⟩ ∈ symbol.entities) :
    IsNameIn table (functionName (some symbol.name) part) :=
  ⟨_, List.mem_flatMap.mpr ⟨symbol, member, isPart⟩, rfl⟩

theorem firstOfName_subset (symbols : List Symbol) : firstOfName symbols ⊆ symbols := by
  rw [firstOfName]
  exact foldl_subset (fun seen (symbol : Symbol) => seen.any (·.name = symbol.name)) symbols []

theorem isNameIn_of_enumDef {definition : C.EnumDef}
    (member : definition ∈ (aggregates table).filterMap enumDef?) {name : String} {value : Int}
    (isMember : (name, value) ∈ definition.members) :
    IsNameIn table (C.enumerator definition.tag name) := by
  obtain ⟨symbol, isSymbol, defines⟩ := List.mem_filterMap.mp member
  have isReachable := (List.mem_filter.mp (firstOfName_subset _ isSymbol)).1
  cases kind : symbol.kind with
  | enum members =>
      obtain rfl : ⟨symbol.name, members⟩ = definition := by simpa [enumDef?, kind] using defines
      refine isNameIn_part isReachable ?_
      simpa [Symbol.entities, kind] using ⟨value, isMember⟩
  | _ => simp [enumDef?, kind] at defines

theorem isNameIn_of_lowerExternals {externals : List C.External}
    (areExternals : lowerExternals table = .ok externals) {external : C.External}
    (member : external ∈ externals) : IsNameIn table external.declarator.name := by
  simp only [lowerExternals] at areExternals
  obtain ⟨symbol, isFirst, lowered⟩ := exists_of_mem_mapM areExternals member
  obtain ⟨isSymbol, isValue⟩ := List.mem_filter.mp (firstOfName_subset _ isFirst)
  obtain ⟨global, isGlobal, isUnpacked⟩ := List.mem_flatMap.mp isSymbol
  have isReachable : symbol ∈ reachable table :=
    List.mem_flatMap.mpr ⟨global, (List.mem_filter.mp isGlobal).1, isUnpacked⟩
  obtain ⟨declared, declares, rfl⟩ := by simpa using lowered
  rw [name_of_declarator declares]
  cases kind : symbol.kind with
  | value ty => exact isNameIn_whole isReachable (by simp [Symbol.entities, kind])
  | _ => simp [variableType?, kind] at isValue

theorem isNameIn_of_lowerPrototypes {prototypes : List C.Prototype}
    (declared : lowerPrototypes table = .ok prototypes) {declaration : C.Prototype}
    (member : declaration ∈ prototypes) : IsNameIn table declaration.name := by
  obtain ⟨symbol, isReachable, made, isMade, isMember⟩ := exists_made_of_mem declared member
  cases kind : symbol.kind with
  | function signature =>
      simp only [prototypesOf, kind] at isMade
      split at isMade
      · obtain rfl := Except.ok.inj isMade
        cases isMember
      · simp only [bind_eq_ok, pure_eq_ok] at isMade
        obtain ⟨_, made, rfl⟩ := isMade
        obtain rfl := List.mem_singleton.mp isMember
        rw [name_of_prototype made]
        exact isNameIn_whole isReachable (by simp [Symbol.entities, kind])
  | struct fields methods =>
      simp only [prototypesOf, kind] at isMade
      obtain ⟨method, isMethod, made⟩ := exists_of_mem_mapM isMade isMember
      rw [name_of_prototype made]
      refine isNameIn_part isReachable ?_
      simpa [Symbol.entities, kind] using ⟨method, isMethod, rfl⟩
  | _ =>
      obtain rfl : made = [] := by simpa [prototypesOf, kind] using isMade.symm
      cases isMember

theorem isNameIn_of_mem_fileNames (checked : Check.checkUnit kind modules body = .ok table)
    {support : String} {target : UnitKind} {unit : C.Unit}
    (lowered : lowerUnit table support target body = .ok unit) {name : String}
    (member : name ∈ unit.fileNames) : IsNameIn table name := by
  have defined := (definedNames_perm lowered).mem_iff (a := name)
  simp only [lowerUnit, bind_eq_ok, pure_eq_ok] at lowered
  obtain ⟨_, _, _, _, externals, areExternals, _, _, prototypes, declared, _, _, rfl⟩ := lowered
  simp only [C.Unit.fileNames, List.mem_append, List.mem_flatMap, List.mem_map] at member
  rcases member with ((⟨definition, isEnum, ⟨part, value⟩, isMember, rfl⟩ |
    ⟨external, isExternal, rfl⟩) | ⟨declaration, isDeclared, rfl⟩) | isDefined
  · exact isNameIn_of_enumDef isEnum isMember
  · exact isNameIn_of_lowerExternals areExternals isExternal
  · exact isNameIn_of_lowerPrototypes declared isDeclared
  · obtain ⟨entity, isDefinition, named⟩ := List.mem_map.mp (defined.mp isDefined)
    obtain ⟨statement, isStatement, isEntity⟩ :=
      List.mem_flatMap.mp ((definitions_subperm target body).subset isDefinition)
    exact ⟨entity, mem_entities_of_statement checked isStatement isEntity, named⟩

end Lower

theorem origin_of_mem_entities {statement : Statement} {entity : Entity}
    (member : entity ∈ statement.entities) : entity.origin = .own := by
  rw [Statement.entities] at member
  split at member
  · rw [List.mem_singleton.mp member]
  · obtain ⟨_, _, rfl⟩ := List.mem_map.mp member
    rfl
  · rw [List.mem_singleton.mp member]
  · exact nomatch member

theorem Entity.eq_of_same {first second : Entity} (sameName : first.name = second.name)
    (samePart : first.part = second.part) (sameOrigin : first.origin = second.origin) :
    first = second := by
  obtain ⟨_, _, _⟩ := first
  obtain ⟨_, _, _⟩ := second
  simp_all

theorem nodup_map_cName_iff {entities : List Entity} (distinct : entities.Nodup)
    (own : ∀ entity ∈ entities, entity.origin = .own) :
    (entities.map Entity.cName).Nodup ↔
      ∀ first ∈ entities, ∀ second ∈ entities, ¬ Entity.Joined first second := by
  rw [List.nodup_map_iff_inj_on distinct]
  constructor
  · intro injective first isFirst second isSecond joined
    exact joined.ne (injective first isFirst second isSecond joined.cName_eq)
  · intro apart first isFirst second isSecond same
    rcases Entity.cName_eq_iff.mp same with ⟨sameName, samePart⟩ | joined | joined
    · exact Entity.eq_of_same sameName samePart ((own _ isFirst).trans (own _ isSecond).symm)
    · exact absurd joined (apart first isFirst second isSecond)
    · exact absurd joined (apart second isSecond first isFirst)

/-- The names that the C form of an accepted unit has outside functions, apart from tags, are those
of what is within reach; it declares none twice and defines its own once each. Two things share a
name exactly if they are named alike in different places or are joined. -/
theorem file_names_shared_iff {kind : UnitKind} {modules : List Fragment} {body : List Statement}
    {table : Table} (analyzed : analyze kind modules body = .ok table) {support : String}
    {unit : C.Unit} (generated : generate table support kind body = .ok unit) :
    (∀ name ∈ unit.fileNames, ∃ entity ∈ Lower.entities table, entity.cName = name) ∧
    (body.flatMap Statement.entities).Nodup ∧
    (∀ entity ∈ body.flatMap Statement.entities, entity ∈ Lower.entities table) ∧
    unit.definedNames.Perm ((definitions kind body).map Entity.cName) ∧
    (unit.definedNames.Nodup ↔ ∀ first ∈ definitions kind body,
      ∀ second ∈ definitions kind body, ¬ Entity.Joined first second) ∧
    ∀ first ∈ Lower.entities table, ∀ second ∈ Lower.entities table, first ≠ second →
      (first.cName = second.cName ↔
        (first.name = second.name ∧ first.part = second.part ∧ first.origin ≠ second.origin) ∨
          Entity.Joined first second ∨ Entity.Joined second first) := by
  have defined := Lower.definedNames_perm generated
  have distinct := Lower.nodup_entities analyzed
  have inside := Lower.definitions_subperm kind body
  refine ⟨fun name member => Lower.isNameIn_of_mem_fileNames analyzed generated member, distinct, ?_,
    defined, ?_, ?_⟩
  · intro entity member
    obtain ⟨statement, isStatement, isEntity⟩ := List.mem_flatMap.mp member
    exact Lower.mem_entities_of_statement analyzed isStatement isEntity
  · have own (entity : Entity) (member : entity ∈ definitions kind body) :
        entity.origin = .own := by
      obtain ⟨statement, _, isEntity⟩ := List.mem_flatMap.mp (inside.subset member)
      exact origin_of_mem_entities isEntity
    obtain ⟨listed, permuted, isSublist⟩ := inside
    have once : (definitions kind body).Nodup :=
      permuted.nodup_iff.mp (distinct.sublist isSublist)
    rw [defined.nodup_iff, nodup_map_cName_iff once own]
  · intro first _ second _ differ
    rw [Entity.cName_eq_iff, ← and_assoc]
    refine or_congr_left ⟨fun alike => ⟨alike, fun sameOrigin => ?_⟩, And.left⟩
    exact differ (Entity.eq_of_same alike.1 alike.2 sameOrigin)

/-- A function that is named like a method of a struct in C. -/
def functionLikeMethod : List Statement :=
  [⟨1, .classDef ⟨"P", [], .struct,
    [⟨2, .declare (.name "x") (.name "int") none⟩,
     ⟨4, .function ⟨"f", [⟨"self", none, 4⟩], none, [⟨5, .pass⟩]⟩⟩]⟩⟩,
   ⟨7, .function ⟨"P_f", [], none, [⟨8, .pass⟩]⟩⟩,
   ⟨10, .function ⟨"main", [], none, [⟨11, .pass⟩]⟩⟩]

theorem file_names_shared_iff_method :
    ∃ table unit, analyze .program [] functionLikeMethod = .ok table ∧
      generate table defaultSupport .program functionLikeMethod = .ok unit ∧
      unit.functions.map (·.name) = ["P_f", "P_f"] ∧ ¬ unit.definedNames.Nodup := by
  let struct : Symbol := .plain "P" (.struct [⟨"x", .int⟩] [⟨"f", ⟨[], .none⟩⟩])
  let self : Symbol := .value "self" (.ptr (.named "P")) false
  let table : Table :=
    ⟨[⟨none, [struct, .function "P_f" ⟨[], .none⟩, .function "main" ⟨[], .none⟩]⟩,
      ⟨some 0, [self]⟩, ⟨some 0, []⟩, ⟨some 0, []⟩], 0⟩
  let definition (name : String) (params : List C.Declarator) : C.FunctionDef :=
    ⟨.void, name, params, []⟩
  let unit : C.Unit :=
    ⟨[.system "stdio.h", .system "stdlib.h", .own defaultSupport], [], ["P"],
      [⟨"P", [⟨.int, "x", []⟩]⟩], [], [],
      [⟨.void, "P_f", [.pointer (.struct "P")]⟩, ⟨.void, "P_f", []⟩],
      [definition "P_f" [⟨.pointer (.struct "P"), "self", []⟩], definition "P_f" []],
      [⟨.int, "main", [], [Lower.exitSuccess]⟩]⟩
  have analyzed : analyze .program [] functionLikeMethod = .ok table := by with_unfolding_all rfl
  have generated : generate table defaultSupport .program functionLikeMethod = .ok unit := by
    with_unfolding_all rfl
  obtain ⟨_, _, _, _, differ, _⟩ := file_names_shared_iff analyzed generated
  refine ⟨table, unit, analyzed, generated, rfl, fun distinct => ?_⟩
  exact differ.mp distinct ⟨.own, "P_f", none⟩ (by decide) ⟨.own, "P", some "f"⟩ (by decide)
    (.whole "P" "f")

end Offside
