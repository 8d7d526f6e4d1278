import Offside.Proofs.C.ReadBack

/-!
# Calls in C forms

The functions that the C form of an expression calls, in the order in which the calls are written.
They are those that the expression itself calls: functions, methods, and the builtins that C has no
operator for.
-/

namespace Offside

namespace C

/-- Whether what is called stands for an operator of the source. -/
def Callee.isOperator : Callee → Bool
  | library .strcmp => true
  | library .floor => true
  | library .fmod => true
  | _ => false

namespace Expr

mutual

def callees : Expr → List Callee
  | name _ => []
  | literal _ => []
  | paren inner => inner.callees
  | unary _ operand => operand.callees
  | binary _ left right => left.callees ++ right.callees
  | assign target value => target.callees ++ value.callees
  | call callee args => (if callee.isOperator then [] else [callee]) ++ calleesIn args
  | field value _ => value.callees
  | arrow value _ => value.callees
  | index value position => value.callees ++ position.callees
  | cast _ operand => operand.callees
  | sizeOf _ => []
  | zeroStruct _ => []
  | result _ _ value => value.callees

def calleesIn : List Expr → List Callee
  | [] => []
  | expr :: exprs => expr.callees ++ calleesIn exprs

end

@[simp]
theorem callees_compared (areTexts : Bool) (op : BinaryOp) (left right : Expr) :
    (Lower.compared areTexts op left right).callees = left.callees ++ right.callees := by
  cases areTexts <;> simp [Lower.compared, Lower.libraryCall, callees, calleesIn, Callee.isOperator]

end Expr

end C

namespace Lower

open Outcome

/-- The function that a builtin becomes a call of. -/
def builtinCallee? (builtin : Builtin) : Option C.Callee :=
  match builtin.kind with
  | .print => some (.library .printf)
  | .malloc => some (.library .malloc)
  | .free => some (.library .free)
  | _ => if builtin.isHelper then some (.support builtin.name) else none

/-- The function that a call of a symbol becomes a call of. -/
def symbolCallee? (name : String) (symbol : Symbol) : Option C.Callee :=
  if symbol.kind.isStruct then none else some (.named name)

/-- The function that a call becomes a call of. -/
def callee? (view : View) (call : Call) : Option C.Callee :=
  match call.callee with
  | .name id =>
      match Builtin.find? id with
      | some builtin => builtinCallee? builtin
      | none => (view.lookup id).bind (symbolCallee? id)
  | .member owner attr =>
      match module? view owner with
      | some (_, symbol) => (symbol.exported? attr).bind (symbolCallee? attr)
      | none => (calledMethod view owner attr).toOption.map fun (_, struct, _) =>
          .named (functionName (some struct) attr)
  | _ => none

/-- The C functions that are called for an expression. -/
def calleesOf (view : View) (expr : Expr) : List C.Callee := expr.calls.filterMap (callee? view)

/-- Whether the C forms of an accepted expression call what it calls. -/
def LowersCalls (table : Table) (view : View) (expr : Expr) : Prop :=
  ∀ ⦃asked : Option Ty⦄ ⦃ty : Ty⦄ ⦃place : Place⦄ ⦃code : C.Expr⦄,
    Check.typeIn table asked expr = .ok ty → lower view place expr = .ok code →
      code.callees = calleesOf view expr

variable {table : Table} {view : View}

theorem calleesIn_of_forall₂ {args : List Expr} {codes : List C.Expr}
    (each : List.Forall₂ (fun arg code => ∀ asked ty, Check.typeIn table asked arg = .ok ty →
      code.callees = calleesOf view arg) args codes)
    (typed : ∀ arg ∈ args, Check.Typed table arg) :
    C.Expr.calleesIn codes = (callsIn args).filterMap (callee? view) := by
  induction each with
  | nil => rfl
  | cons first _ induction =>
      rw [List.forall_mem_cons] at typed
      obtain ⟨⟨asked, ty, isTyped⟩, others⟩ := typed
      rw [C.Expr.calleesIn, callsIn, List.filterMap_append, first asked ty isTyped,
        induction others, calleesOf]

theorem calleesOf_call (id : String) (args : List Expr) :
    calleesOf view (.call (.name id) args) =
      (callee? view ⟨.name id, args⟩).toList ++ (callsIn args).filterMap (callee? view) := by
  rw [calleesOf, Expr.calls, Expr.calls, List.nil_append, List.filterMap_cons]
  cases callee? view ⟨.name id, args⟩ <;> rfl

theorem calleesOf_memberCall (owner : Expr) (attr : String) (args : List Expr) :
    calleesOf view (.call (.member owner attr) args) =
      (callee? view ⟨.member owner attr, args⟩).toList ++
        (calleesOf view owner ++ (callsIn args).filterMap (callee? view)) := by
  rw [calleesOf, Expr.calls, Expr.calls, List.filterMap_cons, List.filterMap_append, calleesOf]
  cases callee? view ⟨.member owner attr, args⟩ <;> rfl

theorem callees_printed (shown : Option Ty) (value : C.Expr) :
    (printed shown value).2.callees = value.callees := by
  rw [printed.eq_def]
  split <;> rfl

/-- What builtins put values into calls what the values call, and the builtin. -/
theorem callees_of_wraps {builtin : Builtin} {arg : Expr} {wrap : C.Expr → C.Expr}
    (wraps : Wraps view builtin arg wrap) (value : C.Expr) :
    (wrap value).callees = (builtinCallee? builtin).toList ++ value.callees := by
  cases wraps <;> rename_i kind <;>
    simp [builtinCallee?, Builtin.isHelper, kind, libraryCall, C.Expr.callees, C.Expr.calleesIn,
      C.Callee.isOperator, callees_printed]

theorem callees_arithmetic (op : BinaryOp) (isFloat : Bool) (left right : C.Expr) :
    (arithmetic op isFloat left right).callees = left.callees ++ right.callees := by
  cases op <;> cases isFloat <;>
    simp [arithmetic, between, libraryCall, C.Expr.callees, C.Expr.calleesIn, C.Callee.isOperator]

/-- The C forms of a typed expression call what it calls, in order. -/
theorem callees_of_lowers (accords : view.Accords table) {expr : Expr} {code : C.Expr}
    (lowers : Lowers view expr code) (asked : Option Ty) (ty : Ty)
    (typed : Check.typeIn table asked expr = .ok ty) : code.callees = calleesOf view expr := by
  induction lowers generalizing asked ty with
  | name id => rfl
  | constant value => rfl
  | binary op isFloat _ _ left right =>
      simp only [Check.typeIn, bind_eq_ok] at typed
      obtain ⟨_, leftTyped, _, rightTyped, _⟩ := typed
      simp only [callees_arithmetic, left _ _ leftTyped, right _ _ rightTyped, calleesOf,
        Expr.calls, List.filterMap_append]
  | @unary op operand _ lowersInner inner =>
      cases Check.typedUnder_of_unary typed with
      | literal number =>
          cases lowersInner
          rfl
      | operand _ operandTyped =>
          simp only [C.Expr.callees, inner _ _ operandTyped, calleesOf, Expr.calls]
  | compare op areTexts _ _ left right =>
      simp only [Check.typeIn, bind_eq_ok] at typed
      obtain ⟨_, leftTyped, _, rightTyped, _⟩ := typed
      simp only [C.Expr.callees, C.Expr.callees_compared, left _ _ leftTyped,
        right _ _ rightTyped, calleesOf, Expr.calls, List.filterMap_append]
  | logical op _ _ left right =>
      simp only [Check.typeIn, bind_eq_ok] at typed
      obtain ⟨_, leftTyped, _, _, _, rightTyped, _⟩ := typed
      simp only [between, C.Expr.callees, left _ _ leftTyped, right _ _ rightTyped, calleesOf,
        Expr.calls, List.filterMap_append]
  | construct args known looked isStruct =>
      obtain rfl := args_eq_nil_of_construct accords known looked isStruct typed
      simp [calleesOf_call, C.Expr.callees, callee?, known, looked, symbolCallee?, isStruct,
        callsIn]
  | call known looked isCalled same _ each =>
      obtain ⟨isEmpty, _⟩ | ⟨_, _, notStruct⟩ := isStruct_of_called isCalled
      · cases isEmpty
      · rw [calleesOf_call, C.Expr.callees, calleesIn_of_forall₂
          (List.forall₂_iff_zip.mpr ⟨same, each⟩) (Check.typed_of_call known typed)]
        simp [C.Callee.isOperator, callee?, known, looked, symbolCallee?, notStruct]
  | constructExported args named exported isStruct =>
      obtain rfl := args_eq_nil_of_constructExported accords named exported isStruct typed
      simp [C.Expr.callees, callee?, named, exported, symbolCallee?, isStruct, callsIn, calleesOf,
        Expr.calls]
  | callExported named exported isCalled same _ each =>
      obtain ⟨isEmpty, _⟩ | ⟨_, _, notStruct⟩ := isStruct_of_called isCalled
      · cases isEmpty
      · rw [calleesOf_memberCall, C.Expr.callees, calleesIn_of_forall₂
          (List.forall₂_iff_zip.mpr ⟨same, each⟩) (Check.typed_of_memberCall typed).1]
        simp [C.Callee.isOperator, callee?, named, exported, symbolCallee?, notStruct, calleesOf,
          Expr.calls]
  | @callMethod owner _ _ _ isPointer receiver _ _ named isMethod lowersOwner same _ owned each =>
      obtain ⟨areTyped, receiverTyped⟩ := Check.typed_of_memberCall typed
      -- A name that the check took for a module is a name for the lowering as well.
      have ownCallees : receiver.callees = calleesOf view owner := by
        rcases receiverTyped with ⟨base, rfl⟩ | ⟨receiverType, _, isTyped, _⟩
        · cases lowersOwner
          rfl
        · exact owned _ _ isTyped
      have addressed : (if isPointer then receiver else .unary .address receiver).callees =
          receiver.callees := by
        cases isPointer <;> rfl
      rw [calleesOf_memberCall, C.Expr.callees, C.Expr.calleesIn, addressed, ownCallees,
        calleesIn_of_forall₂ (List.forall₂_iff_zip.mpr ⟨same, each⟩) areTyped]
      simp [C.Callee.isOperator, callee?, named, isMethod, Except.toOption]
  | qualified _ => rfl
  | @member owner attr value isPointer _ lowersOwner owned =>
      have ownCallees : value.callees = calleesOf view owner := by
        rcases typed_of_member typed with ⟨base, rfl⟩ | ⟨ownerType, isTyped, _⟩
        · cases lowersOwner
          rfl
        · exact owned _ _ isTyped
      split <;> exact ownCallees
  | subscript _ _ value index =>
      simp only [Check.typeIn, bind_eq_ok] at typed
      obtain ⟨_, valueTyped, _, indexTyped, _⟩ := typed
      simp only [C.Expr.callees, value _ _ valueTyped, index _ _ indexTyped, calleesOf, Expr.calls,
        List.filterMap_append]
  | wrapped others known wraps _ inner =>
      simp only [Check.typeIn, known] at typed
      obtain ⟨rfl, _, _, isTyped⟩ := typed_of_wraps wraps (Check.accepts_of_builtinType typed)
      rw [callees_of_wraps wraps, inner _ _ isTyped, calleesOf_call]
      simp [callee?, known, callsIn, calleesOf]
  | store others known kind _ _ pointer value =>
      simp only [Check.typeIn, known] at typed
      have accepts := kind ▸ Check.accepts_of_builtinType typed
      cases accepts with
      | store pointerTyped isTarget accepted =>
          obtain ⟨_, _, valueTyped⟩ := Check.typed_of_checkValue accepted
          rw [calleesOf_call]
          simp [callee?, known, builtinCallee?, Builtin.isHelper, kind, C.Expr.callees, callsIn,
            pointer _ _ pointerTyped, value _ _ valueTyped, calleesOf]
  | size others known kind isWritten isType =>
      simp only [Check.typeIn, known] at typed
      have accepts := kind ▸ Check.accepts_of_builtinType typed
      cases accepts with
      | size sized =>
          simp [calleesOf_call, callee?, known, builtinCallee?, Builtin.isHelper, kind,
            C.Expr.callees, callsIn, Check.calls_of_sizeofType sized]
      | single others _ _ => exact absurd rfl others.1
  | @support _ builtin _ _ known isHelper same _ each =>
      simp only [Check.typeIn, known] at typed
      have isCallee : builtinCallee? builtin = some (.support builtin.name) := by
        cases kind : builtin.kind <;> simp_all [builtinCallee?, Builtin.isHelper]
      rw [calleesOf_call, C.Expr.callees, calleesIn_of_forall₂
        (List.forall₂_iff_zip.mpr ⟨same, each⟩)
        ((Check.accepts_of_builtinType typed).typed_of_isHelper isHelper)]
      simp [C.Callee.isOperator, callee?, known, isCallee]

theorem lowersCalls (accords : view.Accords table) (expr : Expr) : LowersCalls table view expr :=
  fun _ _ _ _ typed lowered => callees_of_lowers accords (lowers_of_lower expr lowered) _ _ typed

end Lower

end Offside
