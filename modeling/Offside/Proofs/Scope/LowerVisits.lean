import Offside.Lower.Unit
import Offside.Proofs.Outcome
import Offside.Proofs.Scope.CheckVisits

/-!
# What a lowering comes across

The scopes that a lowering enters and the statements it reaches, in order, each with where it stands
in the tree. A statement comes with the variables that its own code mentions and with the C objects
that are in scope there.
-/

namespace Offside

namespace Lower

open Outcome

/-- What a C object stands for. -/
inductive Origin
  | scoped (scope : Nat)
  | file (symbol : Symbol)
  | made

structure Object where
  name : String
  origin : Origin

/-- What an identifier in generated code was written as. -/
inductive Mention
  | plain (name : String)
  | exported (base name : String)
  | member (base name : String)
  | made (name : String)

/-- The identifier that a mention becomes. -/
def Mention.emitted : Mention → String
  | plain name => name
  | exported _ name => name
  | member base name => C.enumerator base name
  | made name => name

/-- How a member of an enumeration or a module is mentioned by name. -/
def qualifiedMention? (view : View) (owner : Expr) (attr : String) : Option Mention :=
  match owner with
  | .name base =>
      match view.lookup base with
      | some symbol =>
          match symbol.kind with
          | .enum _ => some (.member base attr)
          | .module _ => some (.exported base attr)
          | _ => none
      | none => none
  | _ => none

/-- How many arguments of a call of a builtin are evaluated. -/
def evaluatedArguments (kind : Builtin.Kind) (count : Nat) : Nat :=
  match kind with
  | .range | .sizeOf => 0
  | .store => 2
  | .isOk | .isErr | .unwrap _ | .unwrapOr _ | .expect _ => count
  | _ => 1

mutual

/-- The variables and enumerators that the C form of an expression names. -/
def mentions (view : View) : Expr → List Mention
  | .name id => [.plain id]
  | .constant _ => []
  | .binary _ left right => mentions view left ++ mentions view right
  | .unary _ operand => mentions view operand
  | .compare _ left right => mentions view left ++ mentions view right
  | .logical _ left right => mentions view left ++ mentions view right
  | .call (.name id) args =>
      match Builtin.find? id with
      | some builtin =>
          ((mentionsEach view args).take (evaluatedArguments builtin.kind args.length)).flatten
      | none =>
          if (view.lookup id).any (·.kind.isStruct) then []
          else (mentionsEach view args).flatten
  | .call (.member owner attr) args =>
      match module? view owner with
      | some (_, symbol) =>
          if (symbol.exported? attr).any (·.kind.isStruct) then []
          else (mentionsEach view args).flatten
      | none => mentions view owner ++ (mentionsEach view args).flatten
  | .call _ _ => []
  | .member owner attr =>
      match qualifiedMention? view owner attr with
      | some mention => [mention]
      | none => mentions view owner
  | .subscript value index => mentions view value ++ mentions view index

def mentionsEach (view : View) : List Expr → List (List Mention)
  | [] => []
  | expr :: exprs => mentions view expr :: mentionsEach view exprs

end

/-- An expression in generated code, with the objects in scope there. -/
structure Use where
  /-- The objects that the statement itself declares before the expression. -/
  own : List Object
  around : List Object
  mentions : List Mention

inductive Visit
  | enters (site : Site) (scope : Nat)
  | reaches (site : Site) (scope : Nat) (uses : List Use)

/-- The object in which a loop over a range counts. -/
def counterObject (target : String) (iter : Expr) (walk : Walk) : Object :=
  if (rangeCall? iter).isSome then ⟨target, .scoped (walk.cursor + 1)⟩
  else ⟨(walk.fresh "_i").1, .made⟩

def loopObjects (target : String) (iter : Expr) (walk : Walk) : List Object :=
  if (rangeCall? iter).isSome then [counterObject target iter walk]
  else [⟨target, .scoped (walk.cursor + 1)⟩, counterObject target iter walk]

/-- The object in which the subject of a match statement is kept. -/
def keptObject (view : View) (subject : Expr) (walk : Walk) : List Object :=
  if (staticType view subject).isSome && !isRepeatable subject then
    [⟨(walk.fresh "_match").1, .made⟩]
  else []

/-- What the conditions of cases mention of the subject. -/
def shownMentions (view : View) (subject : Expr) (walk : Walk) : List Mention :=
  match keptObject view subject walk with
  | [] => mentions view subject
  | kept :: _ => [.made kept.name]

/-- The objects that a statement declares for those after it. -/
def declaredObjects (view : View) (form : Form) (walk : Walk) : List Object :=
  match form with
  | .declare (.name name) _ _ => [⟨name, .scoped walk.scope⟩]
  | .select subject _ => keptObject view subject walk
  | _ => []

/-- The expressions of a statement outside its blocks. -/
def usesOf (around : Surroundings) (objects : List Object) (form : Form) (walk : Walk) :
    List Use :=
  let view := around.view walk
  match form with
  | .declare _ _ (some value) =>
      if isConstructor view value then []
      else [⟨declaredObjects view form walk, objects, mentions view value⟩]
  | .assign target value =>
      [⟨[], objects, mentions view target⟩, ⟨[], objects, mentions view value⟩]
  | .branch test _ _ => [⟨[], objects, mentions view test⟩]
  | .whileLoop test _ _ => [⟨[], objects, mentions view test⟩]
  | .forLoop target iter _ _ =>
      match rangeCall? iter with
      | some bounds =>
          (mentionsEach view bounds).map (⟨loopObjects target iter walk, objects, ·⟩)
      | none =>
          [⟨loopObjects target iter walk, objects,
            mentions view iter ++ [.made (counterObject target iter walk).name]⟩]
  | .ret (some value) =>
      if around.isEntry then [] else [⟨[], objects, mentions view value⟩]
  | .expr value => [⟨[], objects, mentions view value⟩]
  | .select subject _ =>
      if (keptObject view subject walk).isEmpty then []
      else [⟨keptObject view subject walk, objects, mentions view subject⟩]
  | _ => []

def patternUses (view : View) (objects : List Object) (shown : List Mention) :
    Pattern → List Use
  | .wildcard => []
  | .value expr => [⟨[], objects, shown ++ mentions view expr⟩]

mutual

/-- What the lowering of a statement comes across inside the statement. -/
def visitsForm (around : Surroundings) (objects : List Object) (site : Site) (form : Form)
    (walk : Walk) : List Visit :=
  let view := around.view walk
  match form with
  | .branch test body orelse =>
      given (lower view .operand test) fun _ =>
        given (walk.enter around.table) fun walk =>
          .enters (0 :: site) walk.scope ::
            (visitsBody around objects (0 :: site) 0 body walk ++
              given (lowerBody around body walk) fun (_, walk) =>
                visitsElse around objects (1 :: site) orelse (walk.leave around.table))
  | .whileLoop test body label =>
      given (lower view .operand test) fun _ =>
        let (_, inside, walk) := around.inLoop label walk
        given (walk.enter around.table) fun walk =>
          .enters (0 :: site) walk.scope :: visitsBody inside objects (0 :: site) 0 body walk
  | .forLoop target iter body label =>
      let loop := loopObjects target iter walk
      given (counting view target iter walk) fun (_, walk) =>
        let (_, inside, walk) := around.inLoop label walk
        given (walk.enter around.table) fun walk =>
          .enters (0 :: site) walk.scope ::
            visitsBody inside (loop ++ objects) (0 :: site) 0 body walk
  | .select subject cases =>
      let shown := shownMentions view subject walk
      let kept := keptObject view subject walk
      given (lowerSubject view subject walk) fun (subject, walk) =>
        visitsCases around (kept ++ objects) shown site 0 subject cases walk
  | _ => []

def visitsBody (around : Surroundings) (objects : List Object) (site : Site) (position : Nat)
    (body : List Statement) (walk : Walk) : List Visit :=
  match body with
  | [] => []
  | ⟨line, form⟩ :: others =>
      .reaches (position :: site) walk.scope (usesOf around objects form walk) ::
        (visitsForm around objects (position :: site) form walk ++
          given (lowerForm around line form walk) fun (_, next) =>
            visitsBody around (declaredObjects (around.view walk) form walk ++ objects) site
              (position + 1) others next)

def visitsElse (around : Surroundings) (objects : List Object) (site : Site)
    (orelse : List Statement) (walk : Walk) : List Visit :=
  match orelse with
  | [] =>
      given (walk.enter around.table) fun walk => [.enters site walk.scope]
  | [⟨_, .branch test body orelse⟩] =>
      given (walk.enter around.table) fun walk =>
        .enters site walk.scope ::
          .reaches (0 :: site) walk.scope
            (usesOf around objects (.branch test body orelse) walk) ::
            given (lower (around.view walk) .operand test) fun _ =>
              given (walk.enter around.table) fun walk =>
                .enters (0 :: 0 :: site) walk.scope ::
                  (visitsBody around objects (0 :: 0 :: site) 0 body walk ++
                    given (lowerBody around body walk) fun (_, walk) =>
                      visitsElse around objects (1 :: 0 :: site) orelse
                        (walk.leave around.table))
  | ⟨line, form⟩ :: others =>
      given (walk.enter around.table) fun walk =>
        .enters site walk.scope ::
          .reaches (0 :: site) walk.scope (usesOf around objects form walk) ::
            (visitsForm around objects (0 :: site) form walk ++
              given (lowerForm around line form walk) fun (_, next) =>
                visitsBody around (declaredObjects (around.view walk) form walk ++ objects) site 1
                  others next)

def visitsCases (around : Surroundings) (objects : List Object) (shown : List Mention)
    (site : Site) (position : Nat) (subject : Subject) (cases : List Case) (walk : Walk) :
    List Visit :=
  match cases with
  | [] => []
  | ⟨pattern, body, _⟩ :: others =>
      .reaches (position :: site) walk.scope
        (patternUses (around.view walk) objects shown pattern) ::
        given (lowerPattern (around.view walk) subject pattern) fun _ =>
          given (walk.enter around.table) fun walk =>
            .enters (position :: site) walk.scope ::
              (visitsBody around objects (position :: site) 0 body walk ++
                given (lowerBody around body walk) fun (_, walk) =>
                  visitsCases around objects shown site (position + 1) subject others
                    (walk.leave around.table))

end

/-- The variables of other units that a unit can name, the first of each name. -/
def externalSymbols (table : Table) : List Symbol :=
  let isImported (symbol : Symbol) : Bool :=
    match symbol.origin with
    | .module _ => true
    | _ => false
  firstOfName <| ((table.globals.filter isImported).flatMap Symbol.unpacked).filter
    fun symbol => (variableType? symbol).isSome

def fileObject? (table : Table) (statement : Statement) : Option Object :=
  match statement.form with
  | .declare (.name name) _ _ => (table.global? name).map fun symbol => ⟨name, .file symbol⟩
  | _ => none

def fileObjects (table : Table) (body : List Statement) : List Object :=
  let external (symbol : Symbol) : Object := ⟨symbol.name, .file symbol⟩
  ((externalSymbols table).map external ++ body.filterMap (fileObject? table)).reverse

def parameterObjects (decl : FunctionDef) (scope : Nat) : List Object :=
  (decl.params.map fun param => ⟨param.name, .scoped scope⟩).reverse

/-- What is known of a function when its scope is entered. -/
structure Entered where
  returns : C.Ty
  params : List C.Declarator
  around : Surroundings
  walk : Walk

def enterFunction (table : Table) (owner : Option String) (decl : FunctionDef) (walk : Walk) :
    Except Fault Entered := do
  let signature ← signatureOf table owner decl
  let isEntry := owner.isNone && decl.name = entryPoint
  let params ← lowerParameters table owner decl signature
  let returns ← if isEntry then .ok .int else typeOf table signature.returns
  let walk ← walk.enter table
  return ⟨returns, params, ⟨table, signature.returns, isEntry, []⟩, walk⟩

theorem exists_of_enterFunction {table : Table} {owner : Option String} {decl : FunctionDef}
    {walk : Walk} {entered : Entered}
    (isEntered : enterFunction table owner decl walk = .ok entered) :
    ∃ signature, signatureOf table owner decl = .ok signature ∧
      lowerParameters table owner decl signature = .ok entered.params ∧
      walk.enter table = .ok entered.walk ∧ entered.around.table = table := by
  simp only [enterFunction, bind_eq_ok] at isEntered
  obtain ⟨signature, isSignature, params, areParams, isEntered⟩ := isEntered
  refine ⟨signature, isSignature, ?_⟩
  split at isEntered
  · obtain ⟨inner, isInner, rfl⟩ := by simpa using isEntered
    exact ⟨areParams, isInner, rfl⟩
  · obtain ⟨_, _, inner, isInner, rfl⟩ := by simpa using isEntered
    exact ⟨areParams, isInner, rfl⟩

def Entered.close (entered : Entered) (owner : Option String) (decl : FunctionDef)
    (body : List C.Stmt) : C.FunctionDef :=
  ⟨entered.returns, functionName owner decl.name, entered.params,
    if entered.around.isEntry then body ++ [exitSuccess] else body⟩

theorem lowerFunction_eq (table : Table) (owner : Option String) (decl : FunctionDef)
    (walk : Walk) :
    lowerFunction table owner decl walk = (do
      let entered ← enterFunction table owner decl walk
      let (body, walk) ← lowerBody entered.around decl.body entered.walk
      return (entered.close owner decl body, walk.leave table)) := by
  by_cases isEntry : (owner.isNone && decide (decl.name = entryPoint)) = true
  · simp only [lowerFunction, enterFunction, Entered.close, isEntry, if_true, bind_assoc, pure_bind]
  · simp only [lowerFunction, enterFunction, Entered.close, isEntry, Bool.false_eq_true, if_false,
      bind_assoc, pure_bind]

/-- What the lowering of a function comes across, and what it becomes. -/
structure Account where
  visits : List Visit
  outcome : Except Fault (C.FunctionDef × Walk)

def accountOf (table : Table) (owner : Option String) (site : Site) (outside : List Object)
    (decl : FunctionDef) (walk : Walk) : Account where
  visits := given (enterFunction table owner decl walk) fun entered =>
    .enters (0 :: site) entered.walk.scope ::
      visitsBody entered.around (parameterObjects decl entered.walk.scope ++ outside) (0 :: site) 0
        decl.body entered.walk
  outcome := lowerFunction table owner decl walk

def addMember (table : Table) (owner : String) (state : Functions × Walk)
    (statement : Statement) : Except Fault (Functions × Walk) :=
  match statement.form with
  | .function decl => addMethod table owner state decl
  | _ => .ok state

def accountsOfMember (table : Table) (owner : String) (site : Site) (outside : List Object)
    (position : Nat) (state : Functions × Walk) (statement : Statement) : List Account :=
  match statement.form with
  | .function decl => [accountOf table (some owner) (position :: site) outside decl state.2]
  | _ => []

def accountsOfTop (table : Table) (outside : List Object) (position : Nat)
    (state : Functions × Walk) (statement : Statement) : List Account :=
  match statement.form with
  | .function decl => [accountOf table none [position] outside decl state.2]
  | .classDef decl =>
      if decl.kind = .struct then
        along (addMember table decl.name) (accountsOfMember table decl.name [position] outside) 0
          state decl.body
      else []
  | _ => []

def accounts (table : Table) (body : List Statement) : List Account :=
  along (addFunctions table) (accountsOfTop table (fileObjects table body)) 0
    (⟨[], []⟩, .start) body

/-- What the lowering of a tree comes across in its functions and methods. -/
def visits (table : Table) (body : List Statement) : List Visit :=
  (accounts table body).flatMap (·.visits)

def entered (visits : List Visit) : List (Site × Nat) :=
  visits.filterMap fun
    | .enters site scope => some (site, scope)
    | .reaches _ _ _ => none

theorem foldlM_methods (table : Table) (decl : ClassDef) (state : Functions × Walk) :
    decl.methods.foldlM (addMethod table decl.name) state =
      decl.body.foldlM (addMember table decl.name) state := by
  rw [ClassDef.methods]
  generalize decl.body = members
  induction members generalizing state with
  | nil => rfl
  | cons statement members induction =>
      obtain ⟨line, form⟩ := statement
      cases form with
      | function method =>
          simp only [List.filterMap_cons, List.foldlM_cons, addMember]
          exact bind_congr fun next => induction next
      | _ => exact induction state

theorem lowerForm_expr (around : Surroundings) (line : Nat) (value : Expr) (walk : Walk) :
    ((∃ text, value = .constant (.str text)) ∧
      lowerForm around line (.expr value) walk = .ok ([], walk)) ∨
    lowerForm around line (.expr value) walk = (do
      let code ← lower (around.view walk) .operand value
      return ([.expr code], walk)) := by
  cases value with
  | constant constant =>
      cases constant with
      | str text => exact .inl ⟨⟨text, rfl⟩, rfl⟩
      | _ => exact .inr rfl
  | _ => exact .inr rfl

/-- The alternatives of a branch: one that stands alone goes on with its own. -/
def elseArms (orelse : List Statement) (code : List C.Stmt) : List C.Arm :=
  match orelse, code with
  | [], _ => []
  | [⟨_, .branch _ _ _⟩], [.branch arms] => arms
  | _, code => [⟨none, code⟩]

/-- An alternative is lowered as the block that it is. -/
theorem lowerElse_eq (around : Surroundings) (orelse : List Statement) (walk : Walk) :
    lowerElse around orelse walk = (do
      let walk ← walk.enter around.table
      let (code, walk) ← lowerBody around orelse walk
      return (elseArms orelse code, walk.leave around.table)) := by
  rw [lowerElse.eq_def]
  split
  · simp [lowerBody, elseArms]
  · simp only [lowerBody, lowerForm, bind_assoc, pure_bind, List.append_nil, elseArms]
  · rename_i line form others notBranch
    have single (code : List C.Stmt) :
        elseArms (⟨line, form⟩ :: others) code = [⟨none, code⟩] := by
      rw [elseArms.eq_def]
      split
      · simp_all
      · simp_all
      · rfl
    simp only [lowerBody, bind_assoc, pure_bind, single]

theorem visitsElse_eq (around : Surroundings) (objects : List Object) (site : Site)
    (orelse : List Statement) (walk : Walk) :
    visitsElse around objects site orelse walk =
      given (walk.enter around.table) fun walk =>
        .enters site walk.scope :: visitsBody around objects site 0 orelse walk := by
  rw [visitsElse.eq_def]
  split
  · rfl
  · simp only [visitsBody, given_nil, List.append_nil]
    rfl
  · rfl

/-- What a loop counts, and how far the walk is then. -/
inductive CountsBy (view : View) (target : String) (iter : Expr) (walk : Walk) :
    Counting → Walk → Prop
  | upTo {stop : Expr} {code : C.Expr} (isRange : rangeCall? iter = some [stop])
      (lowered : lower view .operand stop = .ok code) :
      CountsBy view target iter walk ⟨target, number 0, code, []⟩ walk
  | between {start stop : Expr} {first last : C.Expr}
      (isRange : rangeCall? iter = some [start, stop])
      (loweredStart : lower view .operand start = .ok first)
      (loweredStop : lower view .operand stop = .ok last) :
      CountsBy view target iter walk ⟨target, first, last, []⟩ walk
  | positions {item : Ty} {size : Nat} {code : C.Expr} {declared : C.Declarator}
      (noRange : rangeCall? iter = none) (lowered : lower view .operand iter = .ok code)
      (declares : declarator view.table item target = .ok declared) :
      CountsBy view target iter walk
        ⟨(walk.fresh "_i").1, number 0, number size,
          [.define ⟨false, declared, .value (.index code (.name (walk.fresh "_i").1))⟩]⟩
        (walk.fresh "_i").2

theorem countsBy_of_counting {view : View} {target : String} {iter : Expr} {walk next : Walk}
    {counted : Counting} (counts : counting view target iter walk = .ok (counted, next)) :
    CountsBy view target iter walk counted next := by
  rw [counting] at counts
  split at counts
  · rename_i stop isRange
    obtain ⟨code, lowered, rfl, rfl⟩ := by simpa using counts
    exact .upTo isRange lowered
  · rename_i start stop isRange
    obtain ⟨first, loweredStart, last, loweredStop, rfl, rfl⟩ := by simpa using counts
    exact .between isRange loweredStart loweredStop
  · simp at counts
  · rename_i noRange
    split at counts
    · simp at counts
    · obtain ⟨code, lowered, declared, declares, rfl, rfl⟩ := by simpa using counts
      exact .positions noRange lowered declares
    · simp at counts

/-- What a subject becomes, and how far the walk is then. -/
inductive LowersTo (view : View) (subject : Expr) (walk : Walk) : Subject → Walk → Prop
  | shown {code : C.Expr} (notKept : keptObject view subject walk = [])
      (lowered : lower view .operand subject = .ok code) :
      LowersTo view subject walk ⟨code, none, staticType view subject = some .str⟩ walk
  | kept {code : C.Expr} {ty : Ty} {declared : C.Declarator}
      (isKept : keptObject view subject walk = [⟨(walk.fresh "_match").1, .made⟩])
      (lowered : lower view .operand subject = .ok code)
      (declares : declarator view.table ty (walk.fresh "_match").1 = .ok declared) :
      LowersTo view subject walk ⟨code, some declared, staticType view subject = some .str⟩
        (walk.fresh "_match").2

theorem lowersTo_of_lowerSubject {view : View} {subject : Expr} {walk next : Walk}
    {lowered : Subject} (lowers : lowerSubject view subject walk = .ok (lowered, next)) :
    LowersTo view subject walk lowered next := by
  rw [lowerSubject] at lowers
  split at lowers
  · rename_i untyped
    obtain ⟨code, isCode, rfl, rfl⟩ := by simpa using lowers
    have isText : false = decide (staticType view subject = some .str) := by simp [untyped]
    rw [isText]
    exact .shown (by simp [keptObject, untyped]) isCode
  · rename_i ty typed
    have isText : decide (ty = .str) = decide (staticType view subject = some .str) := by
      simp [typed]
    rw [isText] at lowers
    by_cases repeatable : isRepeatable subject = true
    · obtain ⟨_, code, isCode, rfl, rfl⟩ := by simpa [repeatable] using lowers
      exact .shown (by simp [keptObject, repeatable]) isCode
    · obtain ⟨_, code, isCode, declared, declares, rfl, rfl⟩ := by simpa [repeatable] using lowers
      exact .kept (by simp [keptObject, typed, repeatable]) isCode declares

end Lower

end Offside
