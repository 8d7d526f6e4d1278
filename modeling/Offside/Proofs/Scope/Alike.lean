import Offside.Proofs.Scope.CheckVisits
import Offside.Proofs.Scope.Visible

/-!
# Checks in tables that show the same

A check asks a table what a name stands for, in the scope at hand, among the scopes around it or in
the outermost one, and opens, fills and leaves scopes. In tables that show the same it therefore
ends alike: with the same cause, or with tables that show the same again.
-/

namespace Offside

/-- The symbol as if it could be changed. -/
def Symbol.thawed (symbol : Symbol) : Symbol := { symbol with immutable := false }

/-- Tables in which names stand for the same, apart from final marks. -/
structure Table.AlikeButFinal (table table' : Table) : Prop where
  lookup_eq : ∀ name, (table.lookup name).map (·.thawed) = (table'.lookup name).map (·.thawed)
  global?_eq : ∀ name, (table.global? name).map (·.thawed) = (table'.global? name).map (·.thawed)

namespace Table.AlikeButFinal

/-- Symbols that differ at most in whether they can be changed. -/
inductive Found : Option Symbol → Option Symbol → Prop
  | none : Found none none
  | some (name : String) (kind : SymbolKind) (immutable immutable' : Bool) (origin : Origin)
      (implements : List String) :
      Found (some ⟨name, kind, immutable, origin, implements⟩)
        (some ⟨name, kind, immutable', origin, implements⟩)

theorem Found.of_map_eq {found found' : Option Symbol}
    (same : found.map (·.thawed) = found'.map (·.thawed)) : Found found found' := by
  cases found with
  | none =>
      obtain rfl := Option.map_eq_none_iff.mp same.symm
      exact .none
  | some symbol =>
      obtain ⟨symbol', rfl, isSame⟩ := Option.map_eq_some_iff.mp same.symm
      obtain ⟨name, kind, immutable, origin, implements⟩ := symbol
      obtain ⟨name', kind', immutable', origin', implements'⟩ := symbol'
      obtain ⟨rfl, rfl, -, rfl, rfl⟩ := Symbol.mk.inj isSame
      exact .some name' kind' immutable immutable' origin' implements'

variable {table table' : Table}

theorem refl (table : Table) : table.AlikeButFinal table := ⟨fun _ => rfl, fun _ => rfl⟩

theorem lookup (alike : table.AlikeButFinal table') (name : String) :
    ∃ found found', table.lookup name = found ∧ table'.lookup name = found' ∧ Found found found' :=
  ⟨_, _, rfl, rfl, .of_map_eq (alike.lookup_eq name)⟩

theorem global? (alike : table.AlikeButFinal table') (name : String) :
    ∃ found found', table.global? name = found ∧ table'.global? name = found' ∧
      Found found found' :=
  ⟨_, _, rfl, rfl, .of_map_eq (alike.global?_eq name)⟩

end Table.AlikeButFinal

theorem Table.Alike.butFinal {table table' : Table} (alike : table.Alike table') :
    table.AlikeButFinal table' where
  lookup_eq name := by rw [alike.lookup_eq]
  global?_eq name := by rw [alike.global?_eq]

namespace Check

open Outcome

variable {table table' : Table}

section Expressions

variable (alike : table.AlikeButFinal table')

include alike

theorem isEnum_eq : isEnum table = isEnum table' := by
  funext ty
  cases isNamed : ty.name? with
  | none => simp only [isEnum, isNamed]
  | some name =>
      obtain ⟨found, found', isFound, isFound', same⟩ := alike.global? name
      simp only [isEnum, isNamed, isFound, isFound']
      cases same <;> rfl

theorem isEquatable_eq : isEquatable table = isEquatable table' := by
  funext ty
  cases ty <;> simp only [isEquatable, isEnum_eq alike]

theorem isPrintable_eq : isPrintable table = isPrintable table' := by
  funext ty
  cases ty <;> simp only [isPrintable, isEnum_eq alike]

theorem sizeofType_eq : sizeofType table = sizeofType table' := by
  funext operand
  have isKnown (name : String) : (table.global? name).isNone = (table'.global? name).isNone := by
    obtain ⟨found, found', isFound, isFound', same⟩ := alike.global? name
    rw [isFound, isFound']
    cases same <;> rfl
  cases operand with
  | name id =>
      obtain ⟨found, found', isFound, isFound', same⟩ := alike.lookup id
      simp only [sizeofType, isKnown, isFound, isFound']
      cases same <;> rfl
  | constant value =>
      simp only [sizeofType, isKnown]
      cases value <;> rfl
  | _ => simp only [sizeofType, isKnown]

theorem payload?_eq : payload? table = payload? table' := by
  funext ty
  simp only [payload?, isEnum_eq alike]

theorem carries_eq : carries table = carries table' := by
  funext builtin payload ty
  simp only [carries, payload?_eq alike]

omit alike in
theorem argumentsFit_congr {args : List Expr}
    (typed : ∀ arg ∈ args, ∀ asked, typeIn table asked arg = typeIn table' asked arg)
    (callee : String) (position : Nat) (params : List Ty) :
    argumentsFit table callee position params args =
      argumentsFit table' callee position params args := by
  induction args generalizing position params with
  | nil => rw [argumentsFit, argumentsFit]
  | cons arg args induction =>
      cases params with
      | nil => rw [argumentsFit, argumentsFit]
      | cons param params =>
          rw [argumentsFit, argumentsFit, typed arg List.mem_cons_self,
            induction fun other member => typed other (List.mem_cons_of_mem _ member)]

theorem builtinType_congr {args : List Expr}
    (typed : ∀ arg ∈ args, ∀ asked, typeIn table asked arg = typeIn table' asked arg)
    (asked : Option Ty) (builtin : Builtin) :
    builtinType table asked builtin args = builtinType table' asked builtin args := by
  rw [builtinType.eq_def, builtinType.eq_def, isPrintable_eq alike, sizeofType_eq alike,
    isEnum_eq alike, carries_eq alike]
  split
  · rcases args with _ | ⟨arg, _ | ⟨other, others⟩⟩ <;> simp_all
  · rcases args with _ | ⟨arg, _ | ⟨other, others⟩⟩ <;> simp_all
  · rfl
  · rfl
  · split
    · rfl
    · split <;> simp_all

theorem nameType_eq : nameType table = nameType table' := by
  funext name
  obtain ⟨found, found', isFound, isFound', same⟩ := alike.lookup name
  rw [nameType, nameType, isFound, isFound']
  cases same <;> rfl

theorem compareType_eq : compareType table = compareType table' := by
  funext left right
  simp only [compareType, isEquatable_eq alike]

theorem calledExport?_eq : calledExport? table = calledExport? table' := by
  funext owner attr
  cases owner with
  | name base =>
      obtain ⟨found, found', isFound, isFound', same⟩ := alike.lookup base
      rw [calledExport?, calledExport?, isFound, isFound']
      cases same with
      | none => rfl
      | some _ kind => cases kind <;> rfl
  | _ => rfl

theorem qualifiedType?_eq : qualifiedType? table = qualifiedType? table' := by
  funext owner attr
  cases owner with
  | name base =>
      obtain ⟨found, found', isFound, isFound', same⟩ := alike.lookup base
      rw [qualifiedType?, qualifiedType?, isFound, isFound']
      cases same with
      | none => rfl
      | some _ kind => cases kind <;> rfl
  | _ => rfl

theorem structOf?_eq (ty : Ty) :
    ∃ found found', structOf? table ty = found ∧ structOf? table' ty = found' ∧
      Table.AlikeButFinal.Found found found' := by
  refine ⟨_, _, rfl, rfl, ?_⟩
  cases isNamed : ty.pointee.name? with
  | none =>
      simp only [structOf?, isNamed]
      exact .none
  | some name =>
      obtain ⟨found, found', isFound, isFound', same⟩ := alike.global? name
      simp only [structOf?, isNamed, isFound, isFound', Option.bind_eq_bind, Option.bind_some]
      cases same with
      | none => exact .none
      | some _ kind =>
          simp only [Option.bind_some]
          split
          · exact .some ..
          · exact .none

theorem calledMethod_eq : calledMethod table = calledMethod table' := by
  funext owner receiver attr
  obtain ⟨found, found', isFound, isFound', same⟩ := structOf?_eq alike receiver
  rw [calledMethod, calledMethod, isFound, isFound']
  cases same <;> rfl

theorem fieldType_eq : fieldType table = fieldType table' := by
  funext owner attr
  obtain ⟨found, found', isFound, isFound', same⟩ := structOf?_eq alike owner
  rw [fieldType, fieldType, isFound, isFound']
  cases same <;> rfl

end Expressions

mutual

/-- An expression has the same type whatever can only be read. -/
theorem typeIn_eq (alike : table.AlikeButFinal table') :
    (expr : Expr) → (asked : Option Ty) → typeIn table asked expr = typeIn table' asked expr
  | .name id, asked => by rw [typeIn, typeIn, nameType_eq alike]
  | .constant value, asked => by rw [typeIn.eq_def, typeIn.eq_def]
  | .binary op left right, asked => by
      rw [typeIn, typeIn, typeIn_eq alike left]
      simp only [typeIn_eq alike right]
  | .unary op operand, asked => by
      -- A negative literal has a rule of its own, which does not look at the operand.
      by_cases literal : ∃ number, op = .neg ∧ operand = .constant (.int number)
      · obtain ⟨number, rfl, rfl⟩ := literal
        rw [typeIn, typeIn]
      · have other (number : Int) (isNeg : op = .neg) :
            operand = .constant (.int number) → False :=
          fun isLiteral => literal ⟨number, isNeg, isLiteral⟩
        rw [typeIn.eq_6 table asked op operand other, typeIn.eq_6 table' asked op operand other,
          typeIn_eq alike operand]
  | .compare op left right, asked => by
      rw [typeIn, typeIn, typeIn_eq alike left, compareType_eq alike]
      simp only [typeIn_eq alike right]
  | .logical op left right, asked => by
      rw [typeIn, typeIn, typeIn_eq alike left]
      simp only [typeIn_eq alike right]
  | .call callee args, asked => by
      have typed := typeIn_eq_of_mem alike args
      cases callee with
      | name id =>
          obtain ⟨found, found', isFound, isFound', same⟩ := alike.lookup id
          rw [typeIn, typeIn, isFound, isFound']
          simp only [builtinType_congr alike typed, argumentsFit_congr typed]
          cases same <;> rfl
      | member owner attr =>
          rw [typeIn, typeIn, calledExport?_eq alike, calledMethod_eq alike, typeIn_eq alike owner]
          simp only [argumentsFit_congr typed]
      | _ => rw [typeIn.eq_def, typeIn.eq_def]
  | .member owner attr, asked => by
      rw [typeIn, typeIn, qualifiedType?_eq alike, typeIn_eq alike owner, fieldType_eq alike]
  | .subscript value index, asked => by
      rw [typeIn, typeIn, typeIn_eq alike value]
      simp only [typeIn_eq alike index]

theorem typeIn_eq_of_mem (alike : table.AlikeButFinal table') :
    (args : List Expr) → ∀ arg ∈ args, ∀ asked, typeIn table asked arg = typeIn table' asked arg
  | [] => by simp
  | first :: others =>
      List.forall_mem_cons.mpr ⟨typeIn_eq alike first, typeIn_eq_of_mem alike others⟩

end

theorem typeOf_eq (alike : table.AlikeButFinal table') : typeOf table = typeOf table' :=
  funext fun expr => typeIn_eq alike expr none

theorem checkValue_eq (alike : table.AlikeButFinal table') :
    checkValue table = checkValue table' := by
  funext place expr
  rw [checkValue, checkValue, typeIn_eq alike expr]

/-! ## Bodies -/

theorem targetType_eq (alike : table.Alike table') : targetType table = targetType table' := by
  funext target
  cases target <;> simp only [targetType, alike.lookup_eq, typeOf_eq alike.butFinal]

theorem checkBounds_eq (alike : table.Alike table') (bounds : List Expr) :
    checkBounds table bounds = checkBounds table' bounds := by
  induction bounds with
  | nil => rw [checkBounds, checkBounds]
  | cons bound bounds induction =>
      rw [checkBounds, checkBounds, typeOf_eq alike.butFinal]
      simp only [induction]

theorem iterationType_eq (alike : table.Alike table') :
    iterationType table = iterationType table' := by
  funext iter
  simp only [iterationType, checkBounds_eq alike, typeOf_eq alike.butFinal]

theorem checkReturn_eq (alike : table.Alike table') : checkReturn table = checkReturn table' := by
  funext around value
  simp only [checkReturn, checkValue_eq alike.butFinal]

theorem checkPattern_eq (alike : table.Alike table') :
    checkPattern table = checkPattern table' := by
  funext subject pattern
  cases pattern <;> simp only [checkPattern, typeOf_eq alike.butFinal]

theorem agree_declare (alike : table.Alike table') (symbol : Symbol) :
    Agree Table.Alike (declare table symbol) (declare table' symbol) := by
  rw [declare, declare]
  split
  · exact .error _
  · rcases alike.insert symbol with ⟨after, after', isAfter, isAfter', alike⟩ | ⟨taken, taken'⟩
    · rw [isAfter, isAfter']
      exact .ok alike
    · rw [taken, taken']
      exact .error _

theorem agree_declareVariable (alike : table.Alike table') (target : Expr) (written : TypeExpr)
    (value : Option Expr) :
    Agree Table.Alike (declareVariable table target written value)
      (declareVariable table' target written value) := by
  rw [declareVariable, declareVariable, checkValue_eq alike.butFinal, alike.lookupLocal_eq]
  refine .after fun name => .after fun annotated => ?_
  cases value with
  | some value => exact .after fun _ => .ite (.error _) (agree_declare alike _)
  | none => exact .ite (.error _) (.ite (.error _) (agree_declare alike _))

mutual

/-- A statement is checked alike in tables that show the same. -/
theorem agree_checkForm (around : Surroundings) (line : Nat) :
    (form : Form) → {table table' : Table} → table.Alike table' →
      Agree Table.Alike (checkForm around line form table) (checkForm around line form table')
  | .declare target written value, table, table', alike => by
      rw [checkForm, checkForm]
      exact (agree_declareVariable alike target written value).mapError
  | .assign target value, table, table', alike => by
      rw [checkForm, checkForm, checkAssign, checkAssign, targetType_eq alike,
        checkValue_eq alike.butFinal]
      exact .after fun _ => .ok alike
  | .branch test body orelse, table, table', alike => by
      rw [checkForm, checkForm, checkCondition, checkCondition, typeOf_eq alike.butFinal]
      refine .after fun _ => (agree_checkBody around body alike.push).bind fun inside => ?_
      refine (agree_checkBody around orelse inside.pop.push).bind fun inside => ?_
      exact .ok inside.pop
  | .whileLoop test body label, table, table', alike => by
      rw [checkForm, checkForm, checkCondition, checkCondition, typeOf_eq alike.butFinal]
      refine .after fun _ => .after fun around => ?_
      exact (agree_checkBody around body alike.push).bind fun inside => .ok inside.pop
  | .forLoop target iter body label, table, table', alike => by
      rw [checkForm, checkForm, iterationType_eq alike]
      refine .after fun item => .after fun around => ?_
      refine (agree_declare alike.push _).mapError.bind fun declared => ?_
      exact (agree_checkBody around body declared).bind fun inside => .ok inside.pop
  | .jump jump label, table, table', alike => by
      rw [checkForm, checkForm]
      exact .after fun _ => .ok alike
  | .ret value, table, table', alike => by
      rw [checkForm, checkForm, checkReturn_eq alike]
      exact .after fun _ => .ok alike
  | .expr value, table, table', alike => by
      rw [checkForm, checkForm, typeOf_eq alike.butFinal]
      exact .after fun _ => .ok alike
  | .pass, table, table', alike => by
      rw [checkForm, checkForm]
      exact .ok alike
  | .select subject cases, table, table', alike => by
      rw [checkForm, checkForm, subjectType, subjectType, typeOf_eq alike.butFinal,
        isEquatable_eq alike.butFinal]
      exact .after fun ty => agree_checkCases around ty cases alike
  | .import_ _, table, table', alike => by
      rw [checkForm, checkForm]
      exact .error _
  | .function _, table, table', alike => by
      rw [checkForm, checkForm]
      exact .error _
  | .classDef _, table, table', alike => by
      rw [checkForm, checkForm]
      exact .error _

theorem agree_checkBody (around : Surroundings) :
    (body : List Statement) → {table table' : Table} → table.Alike table' →
      Agree Table.Alike (checkBody around body table) (checkBody around body table')
  | [], table, table', alike => by
      rw [checkBody, checkBody]
      exact .ok alike
  | ⟨line, form⟩ :: others, table, table', alike => by
      rw [checkBody, checkBody]
      exact (agree_checkForm around line form alike).bind (agree_checkBody around others)

theorem agree_checkCases (around : Surroundings) (subject : Ty) :
    (cases : List Case) → {table table' : Table} → table.Alike table' →
      Agree Table.Alike (checkCases around subject cases table)
        (checkCases around subject cases table')
  | [], table, table', alike => by
      rw [checkCases, checkCases]
      exact .ok alike
  | ⟨pattern, body, line⟩ :: others, table, table', alike => by
      rw [checkCases, checkCases, checkPattern_eq alike]
      refine .after fun _ => (agree_checkBody around body alike.push).bind fun inside => ?_
      exact agree_checkCases around subject others inside.pop

end

theorem agree_enterFunction (alike : table.Alike table') (owner : Option String) (line : Nat)
    (decl : FunctionDef) :
    Agree (fun entered entered' => entered.1 = entered'.1 ∧ entered.2.Alike entered'.2)
      (enterFunction owner line decl table) (enterFunction owner line decl table') := by
  rw [enterFunction.eq_def, enterFunction.eq_def]
  refine .after fun signature => .after fun params => ?_
  refine (show Agree Table.Alike _ _ from ?_).mapError.bind fun received => ?_
  · cases owner with
    | none => exact .ok alike.push
    | some owner =>
        simp only [declareReceiver]
        split
        · exact .ok alike.push
        · exact agree_declare alike.push _
  · refine (Agree.foldlM ?_ received).mapError.bind fun filled => .ok ⟨rfl, filled⟩
    intro param _ state state' alike
    exact agree_declare alike _

theorem agree_checkFunction (alike : table.Alike table') (owner : Option String) (line : Nat)
    (decl : FunctionDef) :
    Agree Table.Alike (checkFunction owner line decl table)
      (checkFunction owner line decl table') := by
  rw [checkFunction_eq, checkFunction_eq]
  refine (agree_enterFunction alike owner line decl).bind fun {entered entered'} same => ?_
  obtain ⟨around, inside⟩ := entered
  obtain ⟨around', inside'⟩ := entered'
  obtain ⟨rfl, alike⟩ := same
  exact (agree_checkBody around decl.body alike).bind fun checked => .ok checked.pop

theorem checkGlobal_eq (alike : table.Alike table') : checkGlobal table = checkGlobal table' := by
  funext target value
  simp only [checkGlobal, alike.global?_eq, checkValue_eq alike.butFinal]

theorem agree_checkTop (alike : table.Alike table') (statement : Statement) :
    Agree Table.Alike (checkTop table statement) (checkTop table' statement) := by
  rw [checkTop, checkTop]
  split
  · exact agree_checkFunction alike none _ _
  · split
    · refine Agree.foldlM (fun member _ table table' alike => ?_) alike
      rw [checkMethod, checkMethod]
      split
      · exact agree_checkFunction alike _ _ _
      · exact .ok alike
    · exact .ok alike
  · rw [checkGlobal_eq alike]
    exact .after fun _ => .ok alike
  · exact .ok alike

theorem checkImplements_eq (alike : table.Alike table') :
    checkImplements table = checkImplements table' := by
  have provides : providesInterface table = providesInterface table' := by
    funext struct base
    simp only [providesInterface, alike.global?_eq]
  funext statement
  simp only [checkImplements, alike.global?_eq, provides]

theorem checkEntry_eq (alike : table.Alike table') : checkEntry table = checkEntry table' := by
  simp only [checkEntry, alike.global?_eq]

end Check

end Offside
