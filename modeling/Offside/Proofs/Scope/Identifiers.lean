import Offside.Proofs.C.Lowers
import Offside.Proofs.Scope.LowerVisits

/-!
# Identifiers in generated code

The identifiers in the expressions of a C function, each with the names of the objects in scope
there. A name is in scope from right after its declarator to the end of its block, and the one that
a loop counts in covers the loop.
-/

namespace Offside

namespace C

mutual

/-- The identifiers of objects and enumerators in an expression, in order. -/
def Expr.names : Expr → List String
  | .name id => [id]
  | .literal _ => []
  | .paren inner => inner.names
  | .unary _ operand => operand.names
  | .binary _ left right => left.names ++ right.names
  | .assign target value => target.names ++ value.names
  | .call _ args => namesOf args
  | .field value _ => value.names
  | .arrow value _ => value.names
  | .index value position => value.names ++ position.names
  | .cast _ operand => operand.names
  | .sizeOf _ => []
  | .zeroStruct _ => []
  | .result _ _ value => value.names

def namesOf : List Expr → List String
  | [] => []
  | item :: items => item.names ++ namesOf items

end

/-- An identifier in the code of a function. -/
structure Occurrence where
  name : String
  /-- The names of the objects in scope, the last one first. -/
  visible : List String
deriving DecidableEq, Repr

def Expr.occurrences (visible : List String) (expr : Expr) : List Occurrence :=
  expr.names.map (⟨·, visible⟩)

def Stmt.declared : Stmt → List String
  | .define definition => [definition.declarator.name]
  | .select _ (some kept) _ => [kept.name]
  | _ => []

/-- The names that statements declare, the last one first. -/
def declaredAfter : List Stmt → List String
  | [] => []
  | stmt :: stmts => declaredAfter stmts ++ stmt.declared

mutual

def Stmt.occurrences (visible : List String) : Stmt → List Occurrence
  | .define ⟨_, declarator, .value value⟩ => value.occurrences (declarator.name :: visible)
  | .define ⟨_, _, _⟩ => []
  | .assign target value => target.occurrences visible ++ value.occurrences visible
  | .expr value => value.occurrences visible
  | .branch arms => armOccurrences visible arms
  | .select subject (some kept) arms =>
      subject.occurrences (kept.name :: visible) ++ armOccurrences (kept.name :: visible) arms
  | .select _ none arms => armOccurrences visible arms
  | .whileLoop test body _ => test.occurrences visible ++ bodyOccurrences visible body
  | .countLoop counter start stop body _ =>
      start.occurrences (counter :: visible) ++ stop.occurrences (counter :: visible)
        ++ bodyOccurrences (counter :: visible) body
  | .jump _ _ => []
  | .ret none => []
  | .ret (some value) => value.occurrences visible

def bodyOccurrences (visible : List String) : List Stmt → List Occurrence
  | [] => []
  | stmt :: stmts => stmt.occurrences visible ++ bodyOccurrences (stmt.declared ++ visible) stmts

def armOccurrences (visible : List String) : List Arm → List Occurrence
  | [] => []
  | ⟨some condition, body⟩ :: arms =>
      condition.occurrences visible ++ bodyOccurrences visible body ++ armOccurrences visible arms
  | ⟨none, body⟩ :: arms => bodyOccurrences visible body ++ armOccurrences visible arms

end

/-- The identifiers in the body of a function. -/
def FunctionDef.occurrences (visible : List String) (definition : FunctionDef) :
    List Occurrence :=
  bodyOccurrences ((definition.params.map (·.name)).reverse ++ visible) definition.body

/-- The names of the objects outside functions, the last one first. -/
def Unit.objects (unit : Unit) : List String :=
  (unit.externals.map (·.declarator.name) ++ unit.globals.map (·.declarator.name)).reverse

theorem bodyOccurrences_append (visible : List String) (first second : List Stmt) :
    bodyOccurrences visible (first ++ second) =
      bodyOccurrences visible first ++
        bodyOccurrences (declaredAfter first ++ visible) second := by
  induction first generalizing visible with
  | nil => rfl
  | cons stmt first induction =>
      rw [List.cons_append, bodyOccurrences, induction, bodyOccurrences, declaredAfter,
        List.append_assoc, List.append_assoc]

end C

namespace Lower

open Outcome

theorem names_libraryCall (function : C.LibraryFunction) (args : List C.Expr) :
    (libraryCall function args).names = C.namesOf args := rfl

theorem names_arithmetic (op : BinaryOp) (isFloat : Bool) (left right : C.Expr) :
    (arithmetic op isFloat left right).names = left.names ++ right.names := by
  cases op <;> cases isFloat <;> simp [arithmetic, between, libraryCall, C.Expr.names, C.namesOf]

theorem names_compared (areTexts : Bool) (op : C.BinaryOp) (left right : C.Expr) :
    (compared areTexts op left right).names = left.names ++ right.names := by
  cases areTexts <;> simp [compared, libraryCall, C.Expr.names, C.namesOf]

theorem names_printed (ty : Option Ty) (value : C.Expr) :
    (printed ty value).2.names = value.names := by
  rw [printed.eq_def]
  split <;> rfl

theorem emitted_of_qualifiedMention? (view : View) (owner : Expr) (attr : String) :
    (qualifiedMention? view owner attr).map Mention.emitted = qualifiedName? view owner attr := by
  cases owner with
  | name base =>
      simp only [qualifiedMention?, qualifiedName?]
      cases view.lookup base with
      | none => rfl
      | some symbol => cases kind : symbol.kind <;> simp [kind, Mention.emitted]
  | _ => rfl

theorem length_mentionsEach (view : View) (exprs : List Expr) :
    (mentionsEach view exprs).length = exprs.length := by
  induction exprs with
  | nil => rfl
  | cons expr exprs induction => rw [mentionsEach, List.length_cons, induction, List.length_cons]

theorem names_of_wraps {view : View} {builtin : Builtin} {arg : Expr} {wrap : C.Expr → C.Expr}
    (wraps : Wraps view builtin arg wrap) (value : C.Expr) : (wrap value).names = value.names := by
  cases wraps <;> simp [names_libraryCall, C.Expr.names, C.namesOf, names_printed]

theorem namesOf_of_forall₂ {view : View} {args : List Expr} {codes : List C.Expr}
    (each : List.Forall₂ (fun arg code => code.names = (mentions view arg).map Mention.emitted)
      args codes) :
    C.namesOf codes = (mentionsEach view args).flatten.map Mention.emitted := by
  induction each with
  | nil => rfl
  | cons first _ induction =>
      rw [C.namesOf, first, induction, mentionsEach, List.flatten_cons, List.map_append]

/-- The identifiers in a C form are those that the expression mentions. -/
theorem names_of_lowers {view : View} {expr : Expr} {code : C.Expr}
    (lowers : Lowers view expr code) :
    code.names = (mentions view expr).map Mention.emitted := by
  induction lowers with
  | name _ | constant _ => rfl
  | binary op isFloat _ _ first second =>
      rw [names_arithmetic, first, second, mentions, List.map_append]
  | unary op _ inner => rw [C.Expr.names, C.Expr.names, inner, mentions]
  | compare op areTexts _ _ first second =>
      rw [C.Expr.names, names_compared, first, second, mentions, List.map_append]
  | logical op _ _ first second =>
      rw [between, C.Expr.names, C.Expr.names, first, second, mentions, List.map_append]
  | construct args known looked isStruct => simp [mentions, known, looked, isStruct, C.Expr.names]
  | call known looked isCalled same _ each =>
      rcases isStruct_of_called isCalled with ⟨isStruct, _⟩ | ⟨_, _, isOther⟩
      · cases isStruct
      · simp [mentions, known, looked, isOther, C.Expr.names,
          namesOf_of_forall₂ (List.forall₂_iff_zip.mpr ⟨same, each⟩)]
  | constructExported args named exported isStruct =>
      simp [mentions, named, exported, isStruct, C.Expr.names]
  | callExported named exported isCalled same _ each =>
      rcases isStruct_of_called isCalled with ⟨isStruct, _⟩ | ⟨_, _, isOther⟩
      · cases isStruct
      · simp [mentions, named, exported, isOther, C.Expr.names,
          namesOf_of_forall₂ (List.forall₂_iff_zip.mpr ⟨same, each⟩)]
  | @callMethod _ _ _ _ isPointer receiver _ _ named _ _ same _ owned each =>
      have addressed : (if isPointer then receiver else .unary .address receiver).names =
          receiver.names := by
        split <;> rfl
      simp [mentions, named, C.Expr.names, C.namesOf, addressed, owned,
        namesOf_of_forall₂ (List.forall₂_iff_zip.mpr ⟨same, each⟩)]
  | qualified isQualified =>
      obtain ⟨mention, isMention, rfl⟩ := Option.map_eq_some_iff.mp
        ((emitted_of_qualifiedMention? view _ _).trans isQualified)
      simp [mentions, isMention, C.Expr.names]
  | member isPointer noName _ owned =>
      have noMention := Option.map_eq_none_iff.mp
        ((emitted_of_qualifiedMention? view _ _).trans noName)
      rw [mentions, noMention, ← owned]
      split <;> rfl
  | subscript _ _ first second => rw [C.Expr.names, first, second, mentions, List.map_append]
  | @wrapped id builtin arg value wrap others known wraps _ inner =>
      have isOne : evaluatedArguments builtin.kind (others.length + 1) = 1 := by
        cases wraps <;> simp_all [evaluatedArguments]
      simp [mentions, known, isOne, mentionsEach, names_of_wraps wraps, inner]
  | store others known kind _ _ first second =>
      simp [mentions, known, kind, evaluatedArguments, mentionsEach, C.Expr.names, first, second]
  | size others known kind _ _ => simp [mentions, known, kind, evaluatedArguments, C.Expr.names]
  | @support id builtin args codes known isHelper same _ each =>
      have isAll : evaluatedArguments builtin.kind args.length =
          (mentionsEach view args).length := by
        rw [length_mentionsEach]
        cases kind : builtin.kind <;> simp_all [evaluatedArguments, Builtin.isHelper]
      simp [mentions, known, isAll, C.Expr.names,
        namesOf_of_forall₂ (List.forall₂_iff_zip.mpr ⟨same, each⟩)]

theorem names_of_lower {view : View} {place : Place} {code : C.Expr} (expr : Expr)
    (lowered : lower view place expr = .ok code) :
    code.names = (mentions view expr).map Mention.emitted :=
  names_of_lowers (lowers_of_lower expr lowered)

end Lower

end Offside
