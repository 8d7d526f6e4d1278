import Offside.Proofs.Unit.Prototypes

/-!
# Headings

A function is defined and declared under one signature, and the types of both are lowered alike. So
each definition but that of the entry function has a declaration with its heading, and since
declarations with one text are made one, it has only one.
-/

namespace Offside

open Outcome

namespace C

def FunctionDef.heading (definition : FunctionDef) : Prototype :=
  ⟨definition.returns, definition.name, definition.params.map (·.ty)⟩

def Unit.prototypeLines (unit : Unit) : List String :=
  unit.prototypes.map fun declaration => declaration.text ++ ";\n"

end C

namespace Lower

variable {table : Table} {owner : Option String} {decl : FunctionDef}

theorem nodup_prototypeLines {support : String} {kind : UnitKind} {body : List Statement}
    {unit : C.Unit} (lowered : lowerUnit table support kind body = .ok unit) :
    unit.prototypeLines.Nodup := by
  simp only [lowerUnit, bind_eq_ok, pure_eq_ok] at lowered
  obtain ⟨_, _, _, _, _, _, _, _, prototypes, declared, _, _, rfl⟩ := lowered
  simp only [lowerPrototypes, bind_eq_ok, pure_eq_ok] at declared
  obtain ⟨lists, _, rfl⟩ := declared
  have distinct : ((withoutRepeats lists.flatten).map C.Prototype.text).Nodup :=
    (foldl_firstOfKey C.Prototype.text lists.flatten [] List.nodup_nil).1
  have lines := distinct.map (f := (· ++ ";\n")) fun _ _ => by simp
  rwa [List.map_map] at lines

theorem types_of_parameters {written : List Parameter} {types : List Ty}
    {params : List C.Declarator} (sameLength : types.length = written.length)
    (lowered : ((written.zip types).mapM fun (param, ty) => parameter table ty param.name) =
      .ok params) :
    types.mapM (typeOf table) = .ok (params.map (·.ty)) ∧ ∀ param ∈ params, param.sizes = [] := by
  induction types generalizing written params with
  | nil =>
      obtain rfl := List.length_eq_zero_iff.mp sameLength.symm
      obtain rfl := pure_eq_ok.mp lowered
      exact ⟨rfl, nofun⟩
  | cons ty types induction =>
      cases written with
      | nil => simp at sameLength
      | cons first written =>
          rw [List.zip_cons_cons, List.mapM_cons] at lowered
          simp only [bind_eq_ok, pure_eq_ok, parameter] at lowered
          obtain ⟨_, ⟨code, isCode, rfl⟩, others, areOthers, rfl⟩ := lowered
          obtain ⟨areTypes, areFlat⟩ := induction (Nat.succ.inj sameLength) areOthers
          refine ⟨?_, List.forall_mem_cons.mpr ⟨rfl, areFlat⟩⟩
          rw [List.mapM_cons, isCode, areTypes]
          rfl

/-- The C parameters of a function have the declared types, the receiver first. -/
theorem types_of_lowerParameters {line : Nat} {signature : Signature} {params : List C.Declarator}
    (isSignature : Check.signatureOf decl owner.isSome line = .ok signature)
    (lowered : lowerParameters table owner decl signature = .ok params) :
    ∃ types, signature.params.mapM (typeOf table) = .ok types ∧
      params.map (·.ty) = owner.toList.map receiverType ++ types ∧
      ∀ param ∈ params, param.sizes = [] := by
  have length := length_of_signatureOf isSignature
  cases owner with
  | none =>
      obtain ⟨areTypes, areFlat⟩ := types_of_parameters length lowered
      exact ⟨_, areTypes, rfl, areFlat⟩
  | some owner =>
      rw [lowerParameters.eq_def] at lowered
      cases written : decl.params with
      | nil => simp [written] at lowered
      | cons receiver others =>
          simp only [written, bind_eq_ok, pure_eq_ok] at lowered
          obtain ⟨rest, isRest, rfl⟩ := lowered
          obtain ⟨areTypes, areFlat⟩ :=
            types_of_parameters (by simpa [written] using length) isRest
          exact ⟨_, areTypes, rfl, List.forall_mem_cons.mpr ⟨rfl, areFlat⟩⟩

theorem prototype_of_lowerFunction {line : Nat} {signature : Signature} {walk after : Walk}
    {definition : C.FunctionDef}
    (isSignature : Check.signatureOf decl owner.isSome line = .ok signature)
    (known : signatureOf table owner decl = .ok signature)
    (notEntry : functionName owner decl.name ≠ entryPoint)
    (lowered : lowerFunction table owner decl walk = .ok (definition, after)) :
    prototype table owner decl.name signature = .ok definition.heading ∧
      definition.heading.params.take owner.toList.length = owner.toList.map receiverType ∧
      ∀ param ∈ definition.params, param.sizes = [] := by
  have isOther : (owner.isNone && decl.name = entryPoint) = false := by
    cases owner with
    | none => simpa [functionName] using notEntry
    | some owner => rfl
  simp only [lowerFunction, known, isOther, ok_bind, bind_eq_ok, Bool.false_eq_true, if_false,
    pure_eq_ok, Prod.mk.injEq] at lowered
  obtain ⟨params, areParams, returns, isReturns, _, _, _, _, rfl, _⟩ := lowered
  obtain ⟨types, areTypes, params_eq, areFlat⟩ := types_of_lowerParameters isSignature areParams
  refine ⟨?_, ?_, areFlat⟩
  · cases owner <;>
      simp [prototype, areTypes, isReturns, C.FunctionDef.heading, params_eq]
  · rw [C.FunctionDef.heading, params_eq]
    cases owner <;> simp

theorem prototype_mem_of_defines {kind : UnitKind} {fragments : List Fragment}
    {body : List Statement} (accepted : Check.checkUnit kind fragments body = .ok table)
    (defines : Defines body owner decl) (notEntry : functionName owner decl.name ≠ entryPoint) :
    ∃ line signature, Check.signatureOf decl owner.isSome line = .ok signature ∧
      signatureOf table owner decl = .ok signature ∧
      ∃ symbol ∈ reachable table, ∀ made, prototypesOf table symbol = .ok made →
        ∃ declaration ∈ made, prototype table owner decl.name signature = .ok declaration := by
  obtain ⟨line, signature, isSignature, isKnown⟩ := signatureOf_of_defines accepted defines
  refine ⟨line, signature, isSignature, isKnown, ?_⟩
  cases defines with
  | @function _ decl member =>
      obtain ⟨found, isFound, known⟩ := Check.global?_of_checkUnit accepted member
      simp only [Check.topSymbol, bind_eq_ok, pure_eq_ok] at isFound
      obtain ⟨own, _, rfl⟩ := isFound
      have found : table.global? decl.name = some (.function decl.name own) := known _ rfl
      obtain rfl : own = signature := by
        simpa [signatureOf, found, functionSignature?, Symbol.function, Symbol.plain] using isKnown
      refine ⟨.function decl.name own, ?_, fun made isMade => ?_⟩
      · exact List.mem_flatMap.mpr
          ⟨_, List.mem_of_find?_eq_some found, List.mem_singleton_self _⟩
      · have isOther : decl.name ≠ entryPoint := notEntry
        simp only [prototypesOf, Symbol.function, Symbol.plain, Symbol.isForeign, isOther,
          decide_false, Bool.or_self, Bool.false_eq_true, if_false, bind_eq_ok,
          pure_eq_ok] at isMade
        obtain ⟨declaration, isDeclaration, rfl⟩ := isMade
        exact ⟨declaration, List.mem_singleton_self _, isDeclaration⟩
  | @method _ line' owner decl member isStruct inside =>
      obtain ⟨found, isFound, known⟩ := Check.global?_of_checkUnit accepted member
      simp only [Check.topSymbol, bind_eq_ok, pure_eq_ok] at isFound
      obtain ⟨symbol, isSymbol, rfl⟩ := isFound
      obtain ⟨own, _, named, isMethod⟩ := Check.method?_of_classSymbol isStruct isSymbol inside
      have found : table.global? owner.name = some symbol := named ▸ known symbol rfl
      obtain rfl : own = signature := by simpa [signatureOf, found, isMethod] using isKnown
      simp only [Check.classSymbol, isStruct, bind_eq_ok, pure_eq_ok] at isSymbol
      obtain ⟨members, _, rfl⟩ := isSymbol
      refine ⟨_, List.mem_flatMap.mpr
        ⟨_, List.mem_of_find?_eq_some found, List.mem_singleton_self _⟩, fun made isMade => ?_⟩
      obtain ⟨declaration, isMember, isDeclaration⟩ :=
        exists_ok_of_mapM isMade (List.mem_of_find?_eq_some isMethod)
      exact ⟨declaration, isMember, isDeclaration⟩

end Lower

/-- Each definition in the C form of an accepted unit, apart from the entry function, has exactly
one declaration that spells its heading: the type of the result, the name, and the types of the
parameters, with the receiver of a method first. -/
theorem count_heading_eq_one {kind target : UnitKind} {modules : List Fragment}
    {body : List Statement} {table : Table} (analyzed : analyze kind modules body = .ok table)
    {support : String} {unit : C.Unit} (generated : generate table support target body = .ok unit)
    {definition : C.FunctionDef} (member : definition ∈ unit.functions ++ unit.entry)
    (notEntry : definition.name ≠ entryPoint) :
    unit.sections[2]? = some (String.join unit.prototypeLines) ∧
      unit.prototypeLines.count (definition.heading.text ++ ";\n") = 1 ∧
      (∀ param ∈ definition.params, param.text = param.ty.text ++ " " ++ param.name) ∧
      ∃ owner decl, Defines body owner decl ∧
        definition.name = Lower.functionName owner decl.name ∧
        definition.heading.params.take owner.toList.length =
          owner.toList.map Lower.receiverType := by
  obtain ⟨owner, decl, walk, after, defines, isLowered⟩ := Lower.emitted_of_mem generated member
  have named := Lower.name_of_lowerFunction isLowered
  have isOther : Lower.functionName owner decl.name ≠ entryPoint := named ▸ notEntry
  obtain ⟨line, signature, isSignature, known, symbol, isReachable, makes⟩ :=
    Lower.prototype_mem_of_defines analyzed defines isOther
  obtain ⟨isHeading, receives, areFlat⟩ :=
    Lower.prototype_of_lowerFunction isSignature known isOther isLowered
  refine ⟨rfl, ?_, fun param isParam => ?_, owner, decl, defines, named, receives⟩
  · refine List.count_eq_one_of_mem (Lower.nodup_prototypeLines generated) ?_
    simp only [Lower.lowerUnit, bind_eq_ok, pure_eq_ok] at generated
    obtain ⟨_, _, _, _, _, _, _, _, prototypes, declared, _, _, rfl⟩ := generated
    obtain ⟨made, isMade, allKept⟩ := Lower.exists_kept_of_lowerPrototypes declared isReachable
    obtain ⟨declaration, isMember, isDeclaration⟩ := makes made isMade
    obtain rfl : declaration = definition.heading :=
      Except.ok.inj (isDeclaration.symm.trans isHeading)
    obtain ⟨kept, isKept, sameText⟩ := allKept _ isMember
    exact List.mem_map.mpr ⟨kept, isKept, by rw [sameText]⟩
  · rw [C.Declarator.text, areFlat param isParam]
    simp

/-- A function that has the heading of a method in C. -/
def functionHeadedLikeMethod : List Statement :=
  [⟨1, .classDef ⟨"P", [], .struct,
    [⟨2, .declare (.name "x") (.name "int") none⟩,
     ⟨4, .function ⟨"f", [⟨"self", none, 4⟩,
      ⟨"xs", some (.generic "array" [.name "int", .size 3]), 4⟩], none, [⟨5, .pass⟩]⟩⟩]⟩⟩,
   ⟨7, .function ⟨"P_f", [⟨"p", some (.generic "ptr" [.name "P"]), 7⟩,
    ⟨"first", some (.generic "ptr" [.name "int"]), 7⟩], none, [⟨8, .pass⟩]⟩⟩,
   ⟨10, .function ⟨"main", [], none, [⟨11, .pass⟩]⟩⟩]

theorem count_heading_eq_one_shared :
    ∃ table unit definition, analyze .program [] functionHeadedLikeMethod = .ok table ∧
      generate table defaultSupport .program functionHeadedLikeMethod = .ok unit ∧
      definition ∈ unit.functions ∧ definition.name ≠ entryPoint ∧
      definition.heading.text = "void P_f(struct P*, int*)" ∧
      unit.functions.map (·.heading) = [definition.heading, definition.heading] ∧
      unit.prototypeLines.count (definition.heading.text ++ ";\n") = 1 := by
  let struct : Symbol :=
    .plain "P" (.struct [⟨"x", .int⟩] [⟨"f", ⟨[.array .int 3], .none⟩⟩])
  let self : Symbol := .value "self" (.ptr (.named "P")) false
  let xs : Symbol := .value "xs" (.array .int 3) false
  let p : Symbol := .value "p" (.ptr (.named "P")) false
  let first : Symbol := .value "first" (.ptr .int) false
  let table : Table :=
    ⟨[⟨none, [struct, .function "P_f" ⟨[.ptr (.named "P"), .ptr .int], .none⟩,
        .function "main" ⟨[], .none⟩]⟩,
      ⟨some 0, [self, xs]⟩, ⟨some 0, [p, first]⟩, ⟨some 0, []⟩], 0⟩
  let receiver : C.Ty := .pointer (.struct "P")
  let definition : C.FunctionDef :=
    ⟨.void, "P_f", [⟨receiver, "self", []⟩, ⟨.pointer .int, "xs", []⟩], []⟩
  let unit : C.Unit :=
    ⟨[.system "stdio.h", .system "stdlib.h", .own defaultSupport], [], ["P"],
      [⟨"P", [⟨.int, "x", []⟩]⟩], [], [], [⟨.void, "P_f", [receiver, .pointer .int]⟩],
      [definition, ⟨.void, "P_f", [⟨receiver, "p", []⟩, ⟨.pointer .int, "first", []⟩], []⟩],
      [⟨.int, "main", [], [Lower.exitSuccess]⟩]⟩
  have analyzed : analyze .program [] functionHeadedLikeMethod = .ok table := by
    with_unfolding_all rfl
  have generated : generate table defaultSupport .program functionHeadedLikeMethod = .ok unit := by
    with_unfolding_all rfl
  have member : definition ∈ unit.functions := List.mem_cons_self
  obtain ⟨_, once, _⟩ := count_heading_eq_one analyzed generated
    (List.mem_append_left _ member) (by decide)
  exact ⟨table, unit, definition, analyzed, generated, member, by decide, by decide, rfl, once⟩

end Offside
