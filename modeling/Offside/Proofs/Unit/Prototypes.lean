import Offside.Proofs.C.Written
import Offside.Proofs.Unit.Entry
import Offside.Proofs.Unit.Tags

/-!
# Declarations of what is called

Whatever a function body calls by a C name is a function or a method that the unit can reach, since
only values are declared inside functions. A unit declares each of these before all definitions, or
includes the header that does, with one exception: nothing declares the entry function, which may be
called like any other.
-/

namespace Offside

open Outcome

namespace Lower

variable {prototypes : List C.Prototype} {declaration : C.Prototype}

/-- The C names of the functions and methods that a unit can reach. -/
inductive Callable (table : Table) : String → Prop
  | function {symbol : Symbol} {signature : Signature} : symbol ∈ reachable table →
      symbol.kind = .function signature → Callable table symbol.name
  | method {struct : Symbol} {fields : List Field} {methods : List Method} {method : Method} :
      struct ∈ reachable table → struct.kind = .struct fields methods → method ∈ methods →
      Callable table (functionName (some struct.name) method.name)

/-- Whether all but values are found in the outermost scope only. -/
def Rooted (table : Table) : Prop :=
  ∀ ⦃scope : Nat⦄ ⦃name : String⦄ ⦃symbol : Symbol⦄, table.lookupFrom scope name = some symbol →
    (∀ ty, symbol.kind ≠ .value ty) → symbol ∈ table.globals

/-- Whether the functions of the source that are called can be reached. -/
def Reaches (table : Table) (callees : List C.Callee) : Prop :=
  ∀ name, .named name ∈ callees → Callable table name

variable {view : View} {table : Table} {symbol : Symbol}

theorem reaches_append {first second : List C.Callee} :
    Reaches table (first ++ second) ↔ Reaches table first ∧ Reaches table second := by
  simp only [Reaches, List.mem_append, or_imp, forall_and]

theorem reaches_call {callee : C.Callee} {args : List C.Expr}
    (first : ∀ name, callee = .named name → Callable table name)
    (others : Reaches table (C.Expr.calleesIn args)) :
    Reaches table (C.Expr.call callee args).callees := by
  rw [C.Expr.callees, reaches_append]
  refine ⟨fun name member => ?_, others⟩
  split at member
  · simp at member
  · exact first name (List.mem_singleton.mp member).symm

theorem callable_of_lookup (rooted : Rooted view.table) {id callee : String} {params : List Ty}
    (looked : view.lookup id = some symbol)
    (isCalled : called callee symbol = .ok (.function params)) : Callable view.table id := by
  cases kind : symbol.kind with
  | function signature =>
      have isGlobal := rooted looked (by simp [kind])
      have named : symbol.name = id := Table.name_of_lookupFrom looked
      refine named ▸ .function (List.mem_flatMap.mpr ⟨symbol, isGlobal, ?_⟩) kind
      simp [Symbol.unpacked, kind]
  | _ => simp [called, kind] at isCalled

theorem callable_of_exported? (rooted : Rooted view.table) {owner : Expr}
    {base attr callee : String} {module : Symbol} {params : List Ty}
    (named : module? view owner = some (base, module))
    (exported : module.exported? attr = some symbol)
    (isCalled : called callee symbol = .ok (.function params)) : Callable view.table attr := by
  obtain ⟨_, looked, isModule⟩ := eq_name_of_module? named
  cases isKind : module.kind with
  | module exports =>
      have isGlobal := rooted looked (by simp [isKind])
      have isExport : exports.find? (·.name = attr) = some symbol := by
        simpa [Symbol.exported?, isKind] using exported
      cases kind : symbol.kind with
      | function signature =>
          have sameName : symbol.name = attr := Table.name_of_find? isExport
          refine sameName ▸ .function (List.mem_flatMap.mpr ⟨module, isGlobal, ?_⟩) kind
          simpa [Symbol.unpacked, isKind] using List.mem_of_find?_eq_some isExport
      | _ => simp [called, kind] at isCalled
  | _ => simp [isKind, SymbolKind.isModule] at isModule

theorem mem_reachable_of_structOf? {ty : Ty} {struct : Symbol}
    (behind : structOf? table ty = some struct) :
    struct ∈ reachable table ∧ struct.kind.isStruct = true := by
  rw [structOf?.eq_def] at behind
  split at behind
  · simp at behind
  · rename_i name isName
    have imported (isFound : (aggregate? table name).filter (·.kind.isStruct) = some struct) :
        struct ∈ reachable table ∧ struct.kind.isStruct = true := by
      obtain ⟨first, isStruct⟩ := Option.filter_eq_some_iff.mp isFound
      rw [aggregate?_eq] at first
      exact ⟨List.mem_of_find?_eq_some first, isStruct⟩
    cases found : table.global? name with
    | none => exact imported (by simpa [found] using behind)
    | some symbol =>
        by_cases isStruct : symbol.kind.isStruct = true
        · obtain rfl : symbol = struct := by simpa [found, isStruct] using behind
          have alone : symbol.unpacked = [symbol] :=
            unpacked_of_isAggregate (by simp [isAggregate, isStruct])
          exact ⟨List.mem_flatMap.mpr ⟨symbol, List.mem_of_find?_eq_some found, by simp [alone]⟩,
            isStruct⟩
        · exact imported (by simpa [found, isStruct] using behind)

theorem callable_of_calledMethod {owner : Expr} {attr : String} {method : Method} {struct : String}
    {isPointer : Bool} (isMethod : calledMethod view owner attr = .ok (method, struct, isPointer)) :
    Callable view.table (functionName (some struct) attr) := by
  simp only [calledMethod] at isMethod
  split at isMethod
  · simp at isMethod
  · split at isMethod
    · simp at isMethod
    · rename_i found behind
      obtain ⟨isReachable, isStruct⟩ := mem_reachable_of_structOf? behind
      cases kind : found.kind with
      | struct fields methods =>
          simp only [Symbol.method?, kind] at isMethod
          split at isMethod
          · simp at isMethod
          · rename_i own isOwn
            obtain ⟨rfl, rfl, _⟩ := by simpa using isMethod
            have sameName : own.name = attr := by simpa using List.find?_some isOwn
            exact sameName ▸ .method isReachable kind (List.mem_of_find?_eq_some isOwn)
      | _ => simp [kind, SymbolKind.isStruct] at isStruct

theorem reaches_of_wraps {builtin : Builtin} {arg : Expr} {wrap : C.Expr → C.Expr} {value : C.Expr}
    (wraps : Wraps view builtin arg wrap) (inner : Reaches table value.callees) :
    Reaches table (wrap value).callees := by
  cases wraps with
  | print _ =>
      refine reaches_call (by rintro _ ⟨⟩) ?_
      simpa [C.Expr.calleesIn, C.Expr.callees, callees_printed] using inner
  | malloc _ | free _ =>
      exact reaches_call (by rintro _ ⟨⟩) (by simpa [C.Expr.calleesIn] using inner)
  | _ => exact inner

theorem reaches_of_forall₂ {args : List Expr} {codes : List C.Expr}
    (each : List.Forall₂ (fun _ code => Reaches table code.callees) args codes) :
    Reaches table (C.Expr.calleesIn codes) := by
  induction each with
  | nil => exact nofun
  | cons first _ others =>
      rw [C.Expr.calleesIn, reaches_append]
      exact ⟨first, others⟩

/-- What a C form of an expression calls can be reached. -/
theorem reaches_of_lowers (rooted : Rooted view.table) {expr : Expr} {code : C.Expr}
    (lowers : Lowers view expr code) : Reaches view.table code.callees := by
  induction lowers with
  | name _ | constant _ | construct _ _ _ _ | constructExported _ _ _ _ | qualified _
  | size _ _ _ _ _ => rintro _ ⟨⟩
  | binary op isFloat _ _ first second =>
      rw [callees_arithmetic, reaches_append]
      exact ⟨first, second⟩
  | unary op _ inner => exact inner
  | compare op areTexts _ _ first second =>
      rw [C.Expr.callees, C.Expr.callees_compared, reaches_append]
      exact ⟨first, second⟩
  | logical op _ _ first second =>
      rw [between, C.Expr.callees, C.Expr.callees, reaches_append]
      exact ⟨first, second⟩
  | call _ looked isCalled same _ each =>
      refine reaches_call ?_ (reaches_of_forall₂ (List.forall₂_iff_zip.mpr ⟨same, each⟩))
      rintro _ ⟨⟩
      exact callable_of_lookup rooted looked isCalled
  | callExported named exported isCalled same _ each =>
      refine reaches_call ?_ (reaches_of_forall₂ (List.forall₂_iff_zip.mpr ⟨same, each⟩))
      rintro _ ⟨⟩
      exact callable_of_exported? rooted named exported isCalled
  | @callMethod owner attr struct method isPointer receiver args codes _ isMethod _ same _ owned
      each =>
      refine reaches_call ?_ ?_
      · rintro _ ⟨⟩
        exact callable_of_calledMethod isMethod
      · rw [C.Expr.calleesIn, reaches_append]
        refine ⟨?_, reaches_of_forall₂ (List.forall₂_iff_zip.mpr ⟨same, each⟩)⟩
        cases isPointer <;> exact owned
  | member isPointer _ _ owned => cases isPointer <;> exact owned
  | subscript _ _ first second | store _ _ _ _ _ first second =>
      exact reaches_append.mpr ⟨first, second⟩
  | wrapped others _ wraps _ inner => exact reaches_of_wraps wraps inner
  | support _ _ same _ each =>
      refine reaches_call ?_ (reaches_of_forall₂ (List.forall₂_iff_zip.mpr ⟨same, each⟩))
      rintro _ ⟨⟩

theorem Written.reaches (rooted : Rooted table) {code : C.Expr} (written : Written table code) :
    Reaches table code.callees := by
  induction written with
  | lowered isCode => exact reaches_of_lowers rooted (lowers_of_lower _ isCode)
  | name _ => exact nofun
  | number _ => exact nofun
  | item _ _ array position =>
      rw [C.Expr.callees, reaches_append]
      exact ⟨array, position⟩
  | compared areTexts _ _ left right =>
      rw [C.Expr.callees_compared, reaches_append]
      exact ⟨left, right⟩

/-- A definition that the lowering of a function or method of a unit gives. -/
def Emitted (table : Table) (body : List Statement) (definition : C.FunctionDef) : Prop :=
  ∃ owner decl walk after, Defines body owner decl ∧
    lowerFunction table owner decl walk = .ok (definition, after)

theorem emitted_of_mem {support : String} {kind : UnitKind} {body : List Statement} {unit : C.Unit}
    (lowered : lowerUnit table support kind body = .ok unit) {definition : C.FunctionDef}
    (member : definition ∈ unit.functions ++ unit.entry) : Emitted table body definition := by
  obtain ⟨definitions, last, inTurn, isFunctions, isEntry⟩ := definitions_of_lowerUnit lowered
  have isDefinition : definition ∈ definitions := by
    rcases List.mem_append.mp member with isOther | isEntry'
    · rw [isFunctions] at isOther
      exact List.mem_of_mem_filter isOther
    · rw [isEntry] at isEntry'
      split at isEntry'
      · cases isEntry'
      · exact List.mem_of_mem_filter isEntry'
  obtain ⟨owner, decl, before, after, isItem, isLowered⟩ := inTurn.exists_of_mem isDefinition
  exact ⟨owner, decl, before, after, defines_of_mem_defined isItem, isLowered⟩

theorem Emitted.reaches (rooted : Rooted table) {body : List Statement} {definition : C.FunctionDef}
    (emitted : Emitted table body definition) :
    ∀ code ∈ C.bodyExprs definition.body, Reaches table code.callees := by
  obtain ⟨owner, decl, walk, after, _, lowered⟩ := emitted
  simp only [lowerFunction_eq, bind_eq_ok, pure_eq_ok, Prod.mk.injEq] at lowered
  obtain ⟨entered, isEntered, ⟨inner, _⟩, isInner, rfl, _⟩ := lowered
  obtain ⟨_, _, _, _, sameTable⟩ := exists_of_enterFunction isEntered
  have inside (code : C.Expr) (member : code ∈ C.bodyExprs inner) : Reaches table code.callees := by
    have written := written_of_lowerBody decl.body isInner code member
    rw [sameTable] at written
    exact written.reaches rooted
  rw [Entered.close]
  split
  · rw [C.bodyExprs_append, List.forall_mem_append]
    refine ⟨inside, ?_⟩
    intro code member
    obtain rfl : code = number 0 := by simpa [exitSuccess, C.Stmt.exprs, number] using member
    exact (Written.number 0).reaches rooted
  · exact inside

/-! ## Declarations -/

theorem mem_or_known_of_foldl {α : Type} (known : List α → α → Bool) (items seen : List α) :
    let all := items.foldl (fun seen item => if known seen item then seen else seen ++ [item]) seen
    seen ⊆ all ∧ ∀ item ∈ items, item ∈ all ∨ ∃ earlier ⊆ all, known earlier item = true := by
  induction items generalizing seen with
  | nil => exact ⟨List.Subset.refl _, nofun⟩
  | cons first others induction =>
      rw [List.foldl_cons]
      by_cases isKnown : known seen first = true
      · obtain ⟨stays, rest⟩ := induction seen
        rw [if_pos isKnown]
        exact ⟨stays, List.forall_mem_cons.mpr ⟨.inr ⟨seen, stays, isKnown⟩, rest⟩⟩
      · obtain ⟨stays, rest⟩ := induction (seen ++ [first])
        obtain ⟨staysSeen, staysFirst⟩ := List.append_subset.mp stays
        rw [if_neg isKnown]
        exact ⟨staysSeen, List.forall_mem_cons.mpr ⟨.inl (staysFirst (by simp)), rest⟩⟩

theorem foldl_subset {α : Type} (known : List α → α → Bool) (items seen : List α) :
    items.foldl (fun seen item => if known seen item then seen else seen ++ [item]) seen ⊆
      seen ++ items := by
  induction items generalizing seen with
  | nil => simp
  | cons first others induction =>
      rw [List.foldl_cons]
      split
      · exact List.Subset.trans (induction seen) (List.append_subset.mpr
          ⟨List.subset_append_left _ _, fun _ later => by simp [later]⟩)
      · simpa using induction (seen ++ [first])

theorem exists_mem_withoutRepeats (member : declaration ∈ prototypes) :
    ∃ kept ∈ withoutRepeats prototypes, kept.text = declaration.text := by
  rcases (mem_or_known_of_foldl (fun seen declaration => seen.any (·.text = declaration.text))
    prototypes []).2 declaration member with isKept | ⟨earlier, stays, isKnown⟩
  · exact ⟨declaration, isKept, rfl⟩
  · obtain ⟨kept, isEarlier, sameText⟩ := by simpa using isKnown
    exact ⟨kept, stays isEarlier, sameText⟩

theorem exists_kept_of_lowerPrototypes (declared : lowerPrototypes table = .ok prototypes)
    (member : symbol ∈ reachable table) :
    ∃ made, prototypesOf table symbol = .ok made ∧
      ∀ declaration ∈ made, ∃ kept ∈ prototypes, kept.text = declaration.text := by
  simp only [lowerPrototypes, bind_eq_ok, pure_eq_ok] at declared
  obtain ⟨lists, areLists, rfl⟩ := declared
  obtain ⟨made, isList, isMade⟩ := exists_ok_of_mapM areLists member
  refine ⟨made, isMade, fun declaration isDeclaration => ?_⟩
  exact exists_mem_withoutRepeats (List.mem_flatten.mpr ⟨made, isList, isDeclaration⟩)

theorem mem_inclusions_of_foreign {header : String} {library : Option String}
    (member : symbol ∈ reachable table) (foreign : symbol.origin = .foreign header library)
    (support : String) (needed : List C.Header) :
    .system header ∈ inclusions table support needed := by
  have isHeader : header ∈ foreignHeaders table :=
    List.mem_filterMap.mpr ⟨symbol, member, by simp [foreign]⟩
  simp only [inclusions, List.mem_append, List.mem_map, C.Inclusion.system.injEq, exists_eq_right]
  rcases (mem_or_known_of_foldl (fun names header =>
      [C.Header.stdio.name, C.Header.stdlib.name].contains header || names.contains header)
      (foreignHeaders table) _).2 header isHeader with isNamed | ⟨earlier, stays, isKnown⟩
  · exact .inr isNamed
  · rw [Bool.or_eq_true, List.contains_iff_mem, List.contains_iff_mem] at isKnown
    rcases isKnown with isStandard | isEarlier
    · exact .inl (.inl isStandard)
    · exact .inr (stays isEarlier)

theorem name_of_prototype {owner : Option String} {name : String} {signature : Signature}
    (made : prototype table owner name signature = .ok declaration) :
    declaration.name = functionName owner name := by
  simp only [prototype, bind_eq_ok, pure_eq_ok] at made
  obtain ⟨_, _, _, _, rfl⟩ := made
  rfl

theorem name_ne_entryPoint_of_prototypesOf {made : List C.Prototype}
    (isMade : prototypesOf table symbol = .ok made) :
    ∀ declaration ∈ made, declaration.name ≠ entryPoint := by
  intro declaration member
  cases kind : symbol.kind with
  | function signature =>
      simp only [prototypesOf, kind, Bool.or_eq_true, decide_eq_true_eq] at isMade
      split at isMade
      · obtain rfl := Except.ok.inj isMade
        cases member
      · rename_i isDeclared
        simp only [bind_eq_ok, pure_eq_ok] at isMade
        obtain ⟨_, made, rfl⟩ := isMade
        obtain rfl := List.mem_singleton.mp member
        rw [name_of_prototype made]
        exact fun isEntry => isDeclared (.inr isEntry)
  | struct fields methods =>
      simp only [prototypesOf, kind] at isMade
      obtain ⟨method, _, made⟩ := exists_of_mem_mapM isMade member
      rw [name_of_prototype made]
      exact functionName_ne_entryPoint _ _
  | _ =>
      obtain rfl : made = [] := by simpa [prototypesOf, kind] using isMade.symm
      cases member

/-- Whatever can be called has a declaration, unless it is foreign or the entry function. -/
theorem exists_declaration_of_callable {name : String} (callable : Callable table name)
    (notEntry : name ≠ entryPoint) :
    ∃ symbol ∈ reachable table,
      (∃ signature, symbol.kind = .function signature ∧ symbol.name = name ∧
        symbol.isForeign = true) ∨
      ∀ made, prototypesOf table symbol = .ok made →
        ∃ declaration ∈ made, declaration.name = name := by
  cases callable with
  | @function symbol signature member kind =>
      refine ⟨symbol, member, ?_⟩
      by_cases foreign : symbol.isForeign = true
      · exact .inl ⟨signature, kind, rfl, foreign⟩
      · refine .inr fun made isMade => ?_
        simp only [prototypesOf, kind, foreign, notEntry, decide_false, Bool.or_self,
          Bool.false_eq_true, if_false, bind_eq_ok, pure_eq_ok] at isMade
        obtain ⟨declaration, isDeclaration, rfl⟩ := isMade
        exact ⟨declaration, List.mem_singleton_self _, name_of_prototype isDeclaration⟩
  | @method struct fields methods method member kind isMethod =>
      refine ⟨struct, member, .inr fun made isMade => ?_⟩
      simp only [prototypesOf, kind] at isMade
      obtain ⟨declaration, isMember, isDeclaration⟩ := exists_ok_of_mapM isMade isMethod
      exact ⟨declaration, isMember, name_of_prototype isDeclaration⟩

theorem exists_made_of_mem (declared : lowerPrototypes table = .ok prototypes)
    (member : declaration ∈ prototypes) :
    ∃ symbol ∈ reachable table, ∃ made, prototypesOf table symbol = .ok made ∧
      declaration ∈ made := by
  simp only [lowerPrototypes, bind_eq_ok, pure_eq_ok] at declared
  obtain ⟨lists, areLists, rfl⟩ := declared
  have isListed : declaration ∈ lists.flatten := foldl_subset _ _ [] member
  obtain ⟨made, isList, isMade⟩ := List.mem_flatten.mp isListed
  obtain ⟨symbol, isSymbol, made_eq⟩ := exists_of_mem_mapM areLists isList
  exact ⟨symbol, isSymbol, made, made_eq, isMade⟩

end Lower

namespace C

variable {first : String} {definition : FunctionDef}

def Within (part whole : String) : Prop := ∃ before after, whole = before ++ part ++ after

theorem Within.trans {part middle whole : String} (inner : Within part middle)
    (outer : Within middle whole) : Within part whole := by
  obtain ⟨before, after, rfl⟩ := inner
  obtain ⟨before', after', rfl⟩ := outer
  exact ⟨before' ++ before, after ++ after', by simp only [String.append_assoc]⟩

theorem within_join {part : String} {parts : List String} (member : part ∈ parts) :
    Within part (String.join parts) := by
  obtain ⟨before, after, rfl⟩ := List.append_of_mem member
  exact ⟨_, _, by rw [String.join_append, String.join_cons, String.append_assoc]⟩

theorem within_intercalate {part between : String} {parts : List String} (member : part ∈ parts) :
    Within part (between.intercalate parts) := by
  induction parts with
  | nil => exact nomatch member
  | cons first others induction =>
      cases others with
      | nil =>
          obtain rfl := List.mem_singleton.mp member
          exact ⟨"", "", by simp⟩
      | cons second others =>
          rw [String.intercalate_cons_cons]
          rcases List.mem_cons.mp member with rfl | later
          · exact ⟨"", between ++ between.intercalate (second :: others), by
              simp [String.append_assoc]⟩
          · exact (induction later).trans ⟨first ++ between, "", by simp⟩

def Precedes (first second whole : String) : Prop :=
  ∃ before between after, whole = before ++ first ++ between ++ second ++ after

theorem precedes_append {second early late : String} (isEarly : Within first early)
    (isLate : Within second late) (between : String) :
    Precedes first second (early ++ between ++ late) := by
  obtain ⟨before, after, rfl⟩ := isEarly
  obtain ⟨before', after', rfl⟩ := isLate
  exact ⟨before, after ++ between ++ before', after', by simp only [String.append_assoc]⟩

variable {unit : Unit}

theorem Unit.precedes_of_sections {early late : List String} {second : String}
    (divided : unit.sections = early ++ late) (isEarly : ∃ part ∈ early, Within first part)
    (isLate : ∃ part ∈ late, Within second part) (first_ne : first ≠ "") (second_ne : second ≠ "") :
    Precedes first second unit.text := by
  have kept {text part : String} {parts : List String} (member : part ∈ parts)
      (inside : Within text part) (text_ne : text ≠ "") :
      part ∈ parts.filter fun part => !part.isEmpty := by
    refine List.mem_filter.mpr ⟨member, ?_⟩
    obtain ⟨before, after, rfl⟩ := inside
    simp [text_ne]
  obtain ⟨part, member, inside⟩ := isEarly
  obtain ⟨part', member', inside'⟩ := isLate
  have isKept := kept member inside first_ne
  have isKept' := kept member' inside' second_ne
  rw [Unit.text, divided, List.filter_append,
    String.intercalate_append_of_ne_nil (List.ne_nil_of_mem isKept) (List.ne_nil_of_mem isKept')]
  exact precedes_append (inside.trans (within_intercalate isKept))
    (inside'.trans (within_intercalate isKept')) _

theorem Unit.precedes_definition (member : definition ∈ unit.functions ++ unit.entry)
    (isEarly : ∃ part ∈ unit.sections.take 3, Within first part) (first_ne : first ≠ "") :
    Precedes first definition.text unit.text := by
  refine Unit.precedes_of_sections (List.take_append_drop 3 _).symm isEarly ?_ first_ne ?_
  · rcases List.mem_append.mp member with isFunction | isEntry
    · refine ⟨_, List.mem_cons_self, ?_⟩
      exact .trans ⟨"", "\n", rfl⟩ (within_join (List.mem_map_of_mem isFunction))
    · refine ⟨_, List.mem_cons_of_mem _ List.mem_cons_self, ?_⟩
      exact within_join (List.mem_map_of_mem isEntry)
  · simp [FunctionDef.text]

theorem Unit.inclusion_precedes {inclusion : Inclusion} (isIncluded : inclusion ∈ unit.inclusions)
    (member : definition ∈ unit.functions ++ unit.entry) :
    Precedes inclusion.text definition.text unit.text := by
  refine Unit.precedes_definition member ⟨_, List.mem_cons_self, ?_⟩ ?_
  · exact within_join (List.mem_map_of_mem isIncluded)
  · cases inclusion <;> simp [Inclusion.text]

theorem Unit.declaration_precedes {declaration : Prototype}
    (isDeclared : declaration ∈ unit.prototypes)
    (member : definition ∈ unit.functions ++ unit.entry) :
    Precedes (declaration.text ++ ";\n") definition.text unit.text := by
  refine Unit.precedes_definition member
    ⟨_, List.mem_cons_of_mem _ (List.mem_cons_of_mem _ List.mem_cons_self), ?_⟩ (by simp)
  exact within_join (List.mem_map.mpr ⟨declaration, isDeclared, rfl⟩)

end C

/-! ## What is called -/

namespace Lower

/-- Whether a unit declares a function that it can reach before a definition. -/
def Declares (table : Table) (unit : C.Unit) (definition : C.FunctionDef) (name : String) : Prop :=
  ∃ symbol ∈ reachable table, ∃ made, prototypesOf table symbol = .ok made ∧
    ∃ declaration ∈ made, declaration.name = name ∧
      C.Precedes (declaration.text ++ ";\n") definition.text unit.text

/-- Whether a unit includes the header of a foreign function before a definition. -/
def Includes (table : Table) (unit : C.Unit) (definition : C.FunctionDef) (name : String) : Prop :=
  ∃ symbol ∈ reachable table, ∃ signature header library, symbol.kind = .function signature ∧
    symbol.name = name ∧ symbol.origin = .foreign header library ∧
    C.Precedes (C.Inclusion.system header).text definition.text unit.text

/-- What can be called is declared before each definition, unless it is the entry function. -/
theorem declares_or_includes {table : Table} {support : String} {kind : UnitKind}
    {body : List Statement} {unit : C.Unit}
    (lowered : lowerUnit table support kind body = .ok unit) {definition : C.FunctionDef}
    (member : definition ∈ unit.functions ++ unit.entry) {name : String}
    (callable : Callable table name) (notEntry : name ≠ entryPoint) :
    Declares table unit definition name ∨ Includes table unit definition name := by
  simp only [lowerUnit, bind_eq_ok, pure_eq_ok] at lowered
  obtain ⟨_, _, _, _, _, _, _, _, prototypes, declared, _, _, isUnit⟩ := lowered
  obtain ⟨symbol, isSymbol, ⟨signature, isFunction, named, foreign⟩ | makes⟩ :=
    exists_declaration_of_callable callable notEntry
  · cases origin : symbol.origin with
    | foreign header library =>
        refine .inr ⟨symbol, isSymbol, signature, header, library, isFunction, named, origin, ?_⟩
        refine C.Unit.inclusion_precedes ?_ member
        rw [← isUnit]
        exact mem_inclusions_of_foreign isSymbol origin _ _
    | _ => simp [Symbol.isForeign, origin] at foreign
  · obtain ⟨made, isMade, allKept⟩ := exists_kept_of_lowerPrototypes declared isSymbol
    obtain ⟨declaration, isDeclaration, named⟩ := makes made isMade
    obtain ⟨kept, isKept, sameText⟩ := allKept declaration isDeclaration
    refine .inl ⟨symbol, isSymbol, made, isMade, declaration, isDeclaration, named, ?_⟩
    rw [← sameText]
    exact C.Unit.declaration_precedes (isUnit ▸ isKept) member

end Lower

/-- A function that is called by its C name in the C form of an accepted unit is neither declared
before, nor included, nor the caller itself exactly if it is the entry function, called out of
another one, and no foreign function whose header is included. -/
theorem callee_undeclared_iff {kind : UnitKind} {modules : List Fragment} {body : List Statement}
    {table : Table} (analyzed : analyze kind modules body = .ok table) {support : String}
    {unit : C.Unit} (generated : generate table support kind body = .ok unit)
    {definition : C.FunctionDef} (member : definition ∈ unit.functions ++ unit.entry)
    {code : C.Expr} (isCode : code ∈ C.bodyExprs definition.body) {name : String}
    (calls : .named name ∈ code.callees) :
    ¬ (Lower.Declares table unit definition name ∨ Lower.Includes table unit definition name ∨
        definition.name = name) ↔
      name = entryPoint ∧ definition.name ≠ entryPoint ∧
        ¬ Lower.Includes table unit definition entryPoint := by
  have rooted : Lower.Rooted table :=
    fun _ _ _ looked notValue => Check.mem_globals_of_lookupFrom analyzed looked notValue
  have callable : Lower.Callable table name :=
    (Lower.emitted_of_mem generated member).reaches rooted code isCode name calls
  constructor
  · intro undeclared
    simp only [not_or] at undeclared
    obtain ⟨notDeclared, notIncluded, notSame⟩ := undeclared
    obtain rfl : name = entryPoint := by
      by_contra notEntry
      exact (Lower.declares_or_includes generated member callable notEntry).elim notDeclared
        notIncluded
    exact ⟨rfl, notSame, notIncluded⟩
  · rintro ⟨rfl, notSame, notIncluded⟩ (⟨_, _, made, isMade, declaration, isMember, named, _⟩ |
      isIncluded | isSame)
    · exact Lower.name_ne_entryPoint_of_prototypesOf isMade declaration isMember named
    · exact notIncluded isIncluded
    · exact notSame isSame

/-- A program in which another function calls the entry function. -/
def callsEntry : List Statement :=
  [⟨1, .function ⟨"f", [], none, [⟨2, .expr (.call (.name "main") [])⟩]⟩⟩,
   ⟨4, .function ⟨"main", [], none, [⟨5, .expr (.call (.name "f") [])⟩]⟩⟩]

theorem callee_undeclared_iff_entry :
    ∃ table unit definition code, analyze .program [] callsEntry = .ok table ∧
      generate table defaultSupport .program callsEntry = .ok unit ∧
      definition ∈ unit.functions ∧ code ∈ C.bodyExprs definition.body ∧
      .named "main" ∈ code.callees ∧ unit.prototypes.map C.Prototype.text = ["void f(void)"] ∧
      ¬ (Lower.Declares table unit definition "main" ∨
        Lower.Includes table unit definition "main" ∨ definition.name = "main") := by
  let table : Table :=
    ⟨[⟨none, [.function "f" ⟨[], .none⟩, .function "main" ⟨[], .none⟩]⟩, ⟨some 0, []⟩,
      ⟨some 0, []⟩], 0⟩
  let call (name : String) : C.Expr := .call (.named name) []
  let definition : C.FunctionDef := ⟨.void, "f", [], [.expr (call "main")]⟩
  let unit : C.Unit :=
    ⟨[.system "stdio.h", .system "stdlib.h", .own defaultSupport], [], [], [], [], [],
      [⟨.void, "f", []⟩], [definition],
      [⟨.int, "main", [], [.expr (call "f"), Lower.exitSuccess]⟩]⟩
  have analyzed : analyze .program [] callsEntry = .ok table := by with_unfolding_all rfl
  have generated : generate table defaultSupport .program callsEntry = .ok unit := by
    with_unfolding_all rfl
  have notIncluded : ¬ Lower.Includes table unit definition entryPoint := by
    rintro ⟨symbol, member, _, _, _, _, _, origin, _⟩
    have areOwn : ∀ symbol ∈ Lower.reachable table, symbol.origin = .own := by
      simp [Lower.reachable, table, Table.globals, Symbol.unpacked, Symbol.function, Symbol.plain]
    cases (areOwn symbol member).symm.trans origin
  have undeclared := (callee_undeclared_iff analyzed generated
    (List.mem_append_left _ (List.mem_singleton_self definition))
    (List.mem_singleton_self (call "main")) (List.mem_singleton_self _)).mpr
    ⟨rfl, by decide, notIncluded⟩
  exact ⟨table, unit, definition, call "main", analyzed, generated, List.mem_singleton_self _,
    List.mem_singleton_self _, List.mem_singleton_self _, by decide, undeclared⟩

end Offside
