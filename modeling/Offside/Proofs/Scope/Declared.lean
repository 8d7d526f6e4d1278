import Offside.Proofs.Scope.CheckVisits
import Offside.Proofs.Scope.LowerVisits

/-!
# What a table knows of the top level

A table that came out of a check knows everything that stands at the top level of the unit under the
name it was declared with.
-/

namespace Offside

open Outcome
open Table (Grows)

namespace Check

variable {table : Table} {statement : Statement}
variable {symbol : Symbol} {fragments : List Fragment}

theorem held?_of_declare {after : Table} (formed : table.WellFormed)
    (declared : declare table symbol = .ok after) :
    after.held? symbol.name table.current = some symbol := by
  simp only [declare, error_ite_eq_ok, mapError_eq_ok] at declared
  exact Table.held?_of_insert formed declared.2

/-- What a statement at the top level declares, apart from imports. -/
def topSymbol (statement : Statement) : Except Fault (Option Symbol) :=
  match statement.form with
  | .function decl => do
      let signature ← signatureOf decl false statement.line
      return some (.function decl.name signature)
  | .classDef decl => do
      let symbol ← classSymbol decl
      return some symbol
  | .declare target written _ => onLine statement.line do
      let name ← declaredName target
      let annotated ← annotatedOf written
      return some (.value name annotated.ty annotated.immutable)
  | _ => return none

theorem held?_of_declareTop {after : Table} (formed : table.WellFormed)
    (declared : declareTop fragments table statement = .ok after) :
    ∃ found, topSymbol statement = .ok found ∧
      ∀ symbol, found = some symbol → after.held? symbol.name table.current = some symbol := by
  obtain ⟨line, form⟩ := statement
  cases form with
  | function decl =>
      simp only [declareTop, bind_eq_ok, onLine_eq_ok] at declared
      obtain ⟨signature, isSignature, declared⟩ := declared
      refine ⟨some (.function decl.name signature), by simp [topSymbol, isSignature], ?_⟩
      rintro _ ⟨⟩
      exact held?_of_declare formed declared
  | classDef decl =>
      simp only [declareTop, bind_eq_ok, onLine_eq_ok] at declared
      obtain ⟨symbol, isSymbol, declared⟩ := declared
      refine ⟨some symbol, by simp [topSymbol, isSymbol], ?_⟩
      rintro _ ⟨⟩
      exact held?_of_declare formed declared
  | declare target written value =>
      simp only [declareTop, onLine_eq_ok, bind_eq_ok] at declared
      obtain ⟨name, isName, annotated, isAnnotated, declared⟩ := declared
      refine ⟨some (.value name annotated.ty annotated.immutable), ?_, ?_⟩
      · simp [topSymbol, isName, isAnnotated]
      · rintro _ ⟨⟩
        exact held?_of_declare formed declared
  | _ => exact ⟨none, rfl, by rintro _ ⟨⟩⟩

/-- The first round declares what every statement at the top level does. -/
theorem global?_of_declareAll {kind : UnitKind} {body : List Statement} {start : Table}
    (declared : declareAll kind fragments body = .ok start) (member : statement ∈ body) :
    ∃ found, topSymbol statement = .ok found ∧
      ∀ symbol, found = some symbol → start.global? symbol.name = some symbol := by
  simp only [declareAll, bind_eq_ok] at declared
  obtain ⟨filled, isFilled, _, _, declared⟩ := declared
  obtain rfl : filled = start := by
    split at declared <;> simp_all
  have preserved {start state next : Table} {statement : Statement}
      (earlier : Table.Fills start state) (step : declareTop fragments state statement = .ok next) :
      Table.Fills start next := earlier.trans (fills_of_declareTop earlier.wellFormed step)
  obtain ⟨earlier, later, before, after, isBefore, isAfter, isLater⟩ :=
    exists_step_of_foldlM member isFilled
  have first := foldlM_preserves (Table.Fills .empty) preserved earlier
    (.refl Table.wellFormed_empty) isBefore
  have second := foldlM_preserves (Table.Fills after) preserved later
    (.refl (preserved first isAfter).wellFormed) isLater
  obtain ⟨⟨_, grownBefore⟩, _⟩ := first
  obtain ⟨⟨_, grownAfter⟩, _⟩ := second
  obtain ⟨found, isFound, holds⟩ := held?_of_declareTop grownBefore.wellFormed isAfter
  refine ⟨found, isFound, fun symbol isSymbol => ?_⟩
  have held := holds symbol isSymbol
  rw [show before.current = 0 from grownBefore.current_eq] at held
  rw [Table.global?_eq_held?]
  exact grownAfter.held?_eq held

theorem global?_of_checkTops {start : Table} {statements : List Statement} {name : String}
    (formed : start.WellFormed) (folded : statements.foldlM checkTop start = .ok table)
    (known : start.global? name = some symbol) : table.global? name = some symbol := by
  have grown : Grows [] start table :=
    foldlM_preserves (Grows [] start)
      (fun earlier isLater => earlier.trans (grows_of_checkTop earlier.wellFormed isLater))
      statements (.refl formed) folded
  rw [Table.global?_eq_held?] at known ⊢
  exact grown.held?_eq known

theorem global?_of_checkUnit {kind : UnitKind} {body : List Statement}
    (accepted : checkUnit kind fragments body = .ok table) (member : statement ∈ body) :
    ∃ found, topSymbol statement = .ok found ∧
      ∀ symbol, found = some symbol → table.global? symbol.name = some symbol := by
  simp only [checkUnit, bind_eq_ok] at accepted
  obtain ⟨start, isStart, folded⟩ := accepted
  obtain ⟨⟨_, grown⟩, _⟩ := fills_of_declareAll isStart
  obtain ⟨found, isFound, known⟩ := global?_of_declareAll isStart member
  refine ⟨found, isFound, fun symbol isSymbol => ?_⟩
  exact global?_of_checkTops grown.wellFormed folded (known symbol isSymbol)

theorem methods_of_structMember {owner : String} {members after : Members}
    (added : structMember owner members statement = .ok after) :
    members.methods <+: after.methods := by
  rw [structMember] at added
  split at added
  · simp only [Members.addField, onLine_eq_ok, bind_eq_ok, error_bind, error_ite_eq_ok,
      pure_eq_ok] at added
    obtain ⟨_, _, _, _, _, _, _, _, rfl⟩ := added
    exact List.prefix_rfl
  · simp only [Members.addMethod, bind_eq_ok, pure_eq_ok] at added
    obtain ⟨_, _, _, _, rfl⟩ := added
    exact List.prefix_append _ _
  · split at added
    · obtain rfl : members = after := by simpa using added
      exact List.prefix_rfl
    · simp at added

/-- A struct has each of its methods under the declared signature. -/
theorem method?_of_classSymbol {decl : ClassDef} (isStruct : decl.kind = .struct)
    (declared : classSymbol decl = .ok symbol) {line : Nat} {method : FunctionDef}
    (member : ⟨line, .function method⟩ ∈ decl.body) :
    ∃ signature, signatureOf method true line = .ok signature ∧
      symbol.name = decl.name ∧ symbol.method? method.name = some ⟨method.name, signature⟩ := by
  simp only [classSymbol, isStruct, bind_eq_ok, pure_eq_ok] at declared
  obtain ⟨members, folded, rfl⟩ := declared
  obtain ⟨_, later, before, after, _, isAfter, isLater⟩ := exists_step_of_foldlM member folded
  have kept : after.methods <+: members.methods :=
    foldlM_preserves (fun state : Members => after.methods <+: state.methods)
      (fun earlier step => earlier.trans (methods_of_structMember step)) later List.prefix_rfl
      isLater
  simp only [structMember, Members.addMethod, bind_eq_ok, onLine_eq_ok, pure_eq_ok] at isAfter
  obtain ⟨signature, isSignature, _, free, rfl⟩ := isAfter
  refine ⟨signature, isSignature, rfl, ?_⟩
  have absent : before.methods.find? (·.name = method.name) = none := by
    simp_all [Members.isFree]
  obtain ⟨more, isMore⟩ := kept
  simp [Symbol.method?, Symbol.plain, ← isMore, List.find?_append, absent]

end Check

/-- A function or a method of a struct that a unit defines. -/
inductive Defines (body : List Statement) : Option String → FunctionDef → Prop
  | function {line : Nat} {decl : FunctionDef} (member : ⟨line, .function decl⟩ ∈ body) :
      Defines body none decl
  | method {line line' : Nat} {owner : ClassDef} {decl : FunctionDef}
      (member : ⟨line, .classDef owner⟩ ∈ body) (isStruct : owner.kind = .struct)
      (inside : ⟨line', .function decl⟩ ∈ owner.body) : Defines body (some owner.name) decl

theorem Check.checkFunction_of_defines {kind : UnitKind} {fragments : List Fragment}
    {body : List Statement} {table : Table} {owner : Option String} {decl : FunctionDef}
    (accepted : checkUnit kind fragments body = .ok table) (defines : Defines body owner decl) :
    ∃ line before after, checkFunction owner line decl before = .ok after := by
  simp only [checkUnit, bind_eq_ok] at accepted
  obtain ⟨declared, _, folded⟩ := accepted
  cases defines with
  | @function line decl member =>
      obtain ⟨_, _, before, after, _, checked, _⟩ := exists_step_of_foldlM member folded
      exact ⟨line, before, after, checked⟩
  | @method _ line owner decl member isStruct inside =>
      obtain ⟨_, _, _, _, _, checked, _⟩ := exists_step_of_foldlM member folded
      simp only [checkTop, isStruct, if_true] at checked
      obtain ⟨_, _, before, after, _, checked, _⟩ := exists_step_of_foldlM inside checked
      exact ⟨line, before, after, checked⟩

namespace Lower

variable {table : Table}
variable {kind : UnitKind} {fragments : List Fragment} {body : List Statement} {decl : FunctionDef}

/-- A function is lowered under the signature that it was checked with. -/
theorem signatureOf_of_defines {owner : Option String}
    (accepted : Check.checkUnit kind fragments body = .ok table)
    (defines : Defines body owner decl) :
    ∃ line signature, Check.signatureOf decl owner.isSome line = .ok signature ∧
      signatureOf table owner decl = .ok signature := by
  cases defines with
  | @function line decl member =>
      obtain ⟨found, isFound, known⟩ := Check.global?_of_checkUnit accepted member
      simp only [Check.topSymbol, bind_eq_ok, pure_eq_ok] at isFound
      obtain ⟨signature, isSignature, rfl⟩ := isFound
      have isKnown : table.global? decl.name = some (.function decl.name signature) :=
        known _ rfl
      refine ⟨line, signature, isSignature, ?_⟩
      simp [signatureOf, isKnown, functionSignature?, Symbol.function, Symbol.plain]
  | @method line line' owner decl member isStruct inside =>
      obtain ⟨found, isFound, known⟩ := Check.global?_of_checkUnit accepted member
      simp only [Check.topSymbol, bind_eq_ok, pure_eq_ok] at isFound
      obtain ⟨symbol, isSymbol, rfl⟩ := isFound
      obtain ⟨signature, isSignature, named, isMethod⟩ :=
        Check.method?_of_classSymbol isStruct isSymbol inside
      have isKnown : table.global? owner.name = some symbol := named ▸ known symbol rfl
      exact ⟨line', signature, isSignature, by simp [signatureOf, isKnown, isMethod]⟩

theorem length_of_signatureOf {isMethod : Bool} {line : Nat} {signature : Signature}
    (isSignature : Check.signatureOf decl isMethod line = .ok signature) :
    signature.params.length + (if isMethod then 1 else 0) = decl.params.length := by
  simp only [Check.signatureOf, bind_eq_ok, pure_eq_ok] at isSignature
  obtain ⟨params, areParams, _, _, rfl⟩ := isSignature
  rw [Check.parametersOf] at areParams
  cases isMethod with
  | false =>
      have named := Check.names_of_parameters (by simpa using areParams)
      simpa using congrArg List.length named
  | true =>
      cases written : decl.params with
      | nil => simp [written] at areParams
      | cons receiver others =>
          have named := Check.names_of_parameters (by simpa [written] using areParams)
          simpa using congrArg List.length named

theorem names_of_lowerParameters {owner : Option String} {line : Nat} {signature : Signature}
    {params : List C.Declarator}
    (isSignature : Check.signatureOf decl owner.isSome line = .ok signature)
    (lowered : lowerParameters table owner decl signature = .ok params) :
    params.map (·.name) = decl.params.map (·.name) := by
  have named (written : List Parameter) {results : List C.Declarator}
      (sameLength : signature.params.length = written.length)
      (mapped : ((written.zip signature.params).mapM fun written =>
        parameter table written.2 written.1.name) = .ok results) :
      results.map (·.name) = written.map (·.name) := by
    have same : results.map (·.name) = (written.zip signature.params).map (·.1.name) := by
      refine map_eq_of_mapM _ ?_ mapped
      rintro ⟨param, ty⟩ _ result isResult
      obtain ⟨_, _, rfl⟩ := by simpa [parameter] using isResult
      rfl
    rw [same, ← Function.comp_def Parameter.name Prod.fst, ← List.map_map,
      List.map_fst_zip (Nat.le_of_eq sameLength.symm)]
  have length := length_of_signatureOf isSignature
  cases owner with
  | none => exact named decl.params length lowered
  | some owner =>
      rw [lowerParameters.eq_def] at lowered
      cases written : decl.params with
      | nil => simp [written] at lowered
      | cons receiver others =>
          simp only [written, bind_eq_ok, pure_eq_ok] at lowered
          obtain ⟨rest, isRest, rfl⟩ := lowered
          rw [List.map_cons, List.map_cons, named others (by simpa [written] using length) isRest]

theorem name_of_declarator {ty : Ty} {name : String} {declared : C.Declarator}
    (declares : declarator table ty name = .ok declared) : declared.name = name := by
  obtain ⟨_, _, rfl⟩ := by simpa [declarator] using declares
  rfl

theorem name_of_lowerGlobal? {statement : Statement} {result : Option C.Definition}
    (accepted : Check.checkUnit kind fragments body = .ok table) (member : statement ∈ body)
    (lowered : lowerGlobal? table statement = .ok result) :
    result.map (·.declarator.name) = (fileObject? table statement).map (·.name) := by
  obtain ⟨line, form⟩ := statement
  cases form with
  | declare target written value =>
      cases target with
      | name name =>
          obtain ⟨found, isFound, known⟩ := Check.global?_of_checkUnit accepted member
          simp only [Check.topSymbol, onLine_eq_ok, bind_eq_ok, pure_eq_ok] at isFound
          obtain ⟨_, isName, annotated, _, rfl⟩ := isFound
          obtain rfl := Except.ok.inj isName
          have isKnown : table.global? name = some (.value name annotated.ty annotated.immutable) :=
            known _ rfl
          simp only [lowerGlobal?, bind_eq_ok] at lowered
          obtain ⟨_, _, declared, declares, lowered⟩ := lowered
          have named := name_of_declarator declares
          cases value with
          | none =>
              obtain rfl := Except.ok.inj lowered
              simp [fileObject?, isKnown, named]
          | some value =>
              obtain ⟨_, _, rfl⟩ := by simpa using lowered
              simp [fileObject?, isKnown, named]
      | _ =>
          obtain rfl := Except.ok.inj lowered
          rfl
  | _ =>
      obtain rfl := Except.ok.inj lowered
      rfl

theorem names_fileObjects {target : UnitKind} {support : String} {unit : C.Unit}
    (accepted : Check.checkUnit kind fragments body = .ok table)
    (lowered : lowerUnit table support target body = .ok unit) :
    (fileObjects table body).map (·.name) =
      (unit.externals.map (·.declarator.name) ++ unit.globals.map (·.declarator.name)).reverse := by
  simp only [lowerUnit, bind_eq_ok, pure_eq_ok] at lowered
  obtain ⟨_, _, _, _, externals, areExternals, globals, areGlobals, _, _, _, _, rfl⟩ := lowered
  have imported : externals.map (·.declarator.name) = (externalSymbols table).map (·.name) := by
    refine map_eq_of_mapM _ ?_ areExternals
    intro symbol _ result isResult
    obtain ⟨declared, declares, rfl⟩ := by simpa using isResult
    exact name_of_declarator declares
  have own : globals.map (Option.map (·.declarator.name)) =
      body.map fun statement => (fileObject? table statement).map (·.name) := by
    refine map_eq_of_mapM body ?_ areGlobals
    intro statement member result isResult
    exact name_of_lowerGlobal? accepted member isResult
  have ownNames : (globals.filterMap id).map (·.declarator.name) =
      (body.filterMap (fileObject? table)).map (·.name) := by
    have := congrArg (List.filterMap id) own
    simpa [List.filterMap_map, List.map_filterMap, Function.comp_def] using this
  rw [fileObjects, List.map_reverse, List.map_append, imported, ownNames, List.map_map]
  rfl

end Lower

end Offside
