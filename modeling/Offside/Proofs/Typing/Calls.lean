import Offside.Proofs.Scope.Causes
import Offside.Proofs.Scope.Declared
import Offside.Proofs.Scope.Statements
import Offside.Compile

/-!
# Calls have as many arguments as they need

The calls in a tree are listed from the tree alone, at any depth and in every kind of statement. A
check that succeeds has come across each of them: what is called is known where the call stands, and
takes as many arguments as it is given.
-/

namespace Offside

mutual

/-- The expressions in an expression, where a signed whole number is one part. -/
def Expr.parts : Expr → List Expr
  | .name id => [.name id]
  | .constant value => [.constant value]
  | .binary op left right => .binary op left right :: (left.parts ++ right.parts)
  | .unary .neg (.constant (.int number)) => [.unary .neg (.constant (.int number))]
  | .unary op operand => .unary op operand :: operand.parts
  | .compare op left right => .compare op left right :: (left.parts ++ right.parts)
  | .logical op left right => .logical op left right :: (left.parts ++ right.parts)
  | .call callee args => .call callee args :: (callee.parts ++ partsIn args)
  | .member owner attr => .member owner attr :: owner.parts
  | .subscript value index => .subscript value index :: (value.parts ++ index.parts)

def partsIn : List Expr → List Expr
  | [] => []
  | expr :: exprs => expr.parts ++ partsIn exprs

end

theorem Expr.parts_unary {op : UnaryOp} {operand : Expr}
    (noLiteral : ∀ number, op = .neg → operand = .constant (.int number) → False) :
    (Expr.unary op operand).parts = .unary op operand :: operand.parts := by
  rw [Expr.parts]
  exact noLiteral

mutual

theorem call_mem_parts :
    (expr : Expr) → ∀ call ∈ expr.calls, .call call.callee call.args ∈ expr.parts
  | .name _ => nofun
  | .constant _ => nofun
  | .binary _ left right | .compare _ left right | .logical _ left right | .subscript left right =>
      by
      intro call member
      rw [Expr.calls, List.mem_append] at member
      rw [Expr.parts, List.mem_cons, List.mem_append]
      exact .inr (member.imp (call_mem_parts left call) (call_mem_parts right call))
  | .unary op operand => by
      intro call member
      rw [Expr.calls] at member
      rw [Expr.parts]
      · exact List.mem_cons_of_mem _ (call_mem_parts operand call member)
      · rintro number rfl rfl
        cases member
  | .call callee args => by
      intro call member
      rw [Expr.calls, List.mem_cons, List.mem_append] at member
      rw [Expr.parts, List.mem_cons, List.mem_append]
      rcases member with rfl | inner
      · exact .inl rfl
      · exact .inr (inner.imp (call_mem_parts callee call) (call_mem_partsIn args call))
  | .member owner _ => by
      intro call member
      rw [Expr.parts]
      exact List.mem_cons_of_mem _ (call_mem_parts owner call member)

theorem call_mem_partsIn :
    (exprs : List Expr) → ∀ call ∈ callsIn exprs, .call call.callee call.args ∈ partsIn exprs
  | [] => nofun
  | expr :: exprs => by
      intro call member
      rw [callsIn, List.mem_append] at member
      rw [partsIn, List.mem_append]
      exact member.imp (call_mem_parts expr call) (call_mem_partsIn exprs call)

end

def callsAt (site : Site) (calls : List Call) : List (Site × Call) := calls.map (site, ·)

mutual

/-- The calls in a statement, each with the site that holds it. -/
def Form.calls (site : Site) : Form → List (Site × Call)
  | .function ⟨_, _, _, body⟩ => bodyCalls (0 :: site) 0 body
  | .classDef ⟨_, _, _, body⟩ => bodyCalls (0 :: site) 0 body
  | .assign target value => callsAt site (target.calls ++ value.calls)
  | .declare target _ value => callsAt site (target.calls ++ callsIn? value)
  | .branch test body orelse =>
      callsAt site test.calls ++ bodyCalls (0 :: site) 0 body ++ bodyCalls (1 :: site) 0 orelse
  | .whileLoop test body _ => callsAt site test.calls ++ bodyCalls (0 :: site) 0 body
  | .forLoop _ iter body _ => callsAt site iter.calls ++ bodyCalls (0 :: site) 0 body
  | .jump _ _ => []
  | .ret value => callsAt site (callsIn? value)
  | .expr value => callsAt site value.calls
  | .pass => []
  | .select subject cases => callsAt site subject.calls ++ caseCalls site 0 cases
  | .import_ _ => []

def bodyCalls (site : Site) (position : Nat) : List Statement → List (Site × Call)
  | [] => []
  | ⟨_, form⟩ :: others =>
      form.calls (position :: site) ++ bodyCalls site (position + 1) others

def caseCalls (site : Site) (position : Nat) : List Case → List (Site × Call)
  | [] => []
  | ⟨pattern, body, _⟩ :: others =>
      callsAt (position :: site) pattern.calls ++ bodyCalls (position :: site) 0 body ++
        caseCalls site (position + 1) others

end

def memberCalls (site : Site) (position : Nat) (statement : Statement) : List (Site × Call) :=
  match statement.form with
  | .function decl => bodyCalls (0 :: position :: site) 0 decl.body
  | _ => []

def topCalls (position : Nat) (statement : Statement) : List (Site × Call) :=
  match statement.form with
  | .function decl => bodyCalls [0, position] 0 decl.body
  | .classDef decl =>
      if decl.kind = .struct then numbered (memberCalls [position]) 0 decl.body else []
  | _ => []

def unitCalls (body : List Statement) : List (Site × Call) := numbered topCalls 0 body

theorem unitCalls_eq (body : List Statement) :
    unitCalls body = ofFunctions (fun site decl => bodyCalls (0 :: site) 0 decl.body) body := rfl

/-- Whether calls of a kind of builtin give nothing back. -/
def Builtin.Kind.isSilent : Builtin.Kind → Bool
  | .print | .store | .free => true
  | _ => false

theorem Payload.ty_ne_none (payload : Payload) : payload.ty ≠ .none := by cases payload <;> nofun

namespace Check

open Outcome

variable {symbol : Symbol} {operand iter : Expr} {after : Table}

/-! ## What is called -/

inductive Callee
  | builtin (builtin : Builtin)
  | function (signature : Signature)
  | constructor
  | method (signature : Signature)

def Callee.Takes (count : Nat) : Callee → Prop
  | .builtin found => found.least ≤ count ∧ count ≤ found.most
  | .function signature => count = signature.params.length
  | .constructor => count = 0
  | .method signature => count = signature.params.length

/-- What a symbol is when it is called. -/
def calledAs? (symbol : Symbol) : Option Callee :=
  match symbol.kind with
  | .function signature => some (.function signature)
  | .struct _ _ => some .constructor
  | _ => none

def namedModule? (table : Table) : Expr → Option Symbol
  | .name base => (table.lookup base).filter (·.kind.isModule)
  | _ => none

/-- What an expression stands for when it is called in the scope at hand. -/
def callee? (table : Table) : Expr → Option Callee
  | .name id =>
      match Builtin.find? id with
      | some builtin => some (.builtin builtin)
      | none => (table.lookup id).bind calledAs?
  | .member owner attr =>
      match namedModule? table owner with
      | some module => (module.exported? attr).bind calledAs?
      | none => do
          let receiver ← (typeOf table owner).toOption
          let struct ← structOf? table receiver
          let method ← struct.method? attr
          return .method method.signature
  | _ => none

/-- A call of something known, with as many arguments as it takes. -/
def Sound (table : Table) (call : Call) : Prop :=
  ∃ callee, callee? table call.callee = some callee ∧ callee.Takes call.args.length

def Typed (table : Table) (expr : Expr) : Prop := ∃ asked ty, typeIn table asked expr = .ok ty

def TypedCall (table : Table) (call : Call) : Prop := Typed table (.call call.callee call.args)

/-- A call that has a type, or is the range that a loop runs over. -/
inductive Admitted (table : Table) (call : Call) : Prop
  | typed : TypedCall table call → Admitted table call
  | range {builtin : Builtin} :
      rangeCall? (.call call.callee call.args) = some (builtin, call.args) →
      builtin.acceptsArity call.args.length = true → Admitted table call

/-- Expressions that have a type, and bare names. -/
def Checked (table : Table) (expr : Expr) : Prop := Typed table expr ∨ ∃ id, expr = .name id

/-- A part that has a type, or only tells what another part means. -/
inductive Known (table : Table) : Expr → Prop
  | typed {expr : Expr} : Typed table expr → Known table expr
  | name (id : String) : Known table (.name id)
  | member (owner : Expr) (attr : String) : Known table (.member owner attr)

theorem length_of_calledSignature {name : String} {count : Nat} {signature : Signature}
    (called : calledSignature symbol name count = .ok signature) :
    signature.params.length = count := by
  cases kind : symbol.kind with
  | function found =>
      simp only [calledSignature, kind, bind_eq_ok, pure_eq_ok, hasArity, ite_error_eq_ok] at called
      obtain ⟨_, ⟨fits, _⟩, rfl⟩ := called
      exact fits
  | struct fields methods =>
      simp only [calledSignature, kind, ite_error_eq_ok, Except.ok.injEq] at called
      obtain ⟨isZero, rfl⟩ := called
      exact isZero.symm
  | _ => simp [calledSignature, kind] at called

variable {table : Table} {ty : Ty} {asked : Option Ty} {args : List Expr} {owner target expr : Expr}
  {attr : String} {builtin : Builtin} {value : Option Expr}

theorem exported_of_calledExport? {callee : String}
    (found : calledExport? table owner attr = some (.ok (symbol, callee))) :
    ∃ module, namedModule? table owner = some module ∧ module.exported? attr = some symbol := by
  cases owner with
  | name base =>
      simp only [calledExport?] at found
      cases held : table.lookup base with
      | none => simp [held] at found
      | some module =>
          cases kind : module.kind with
          | module exports =>
              cases exported : module.exported? attr with
              | none => simp [held, kind, exported] at found
              | some other =>
                  simp only [held, kind, exported, Option.some.injEq, Except.ok.injEq,
                    Prod.mk.injEq] at found
                  refine ⟨module, ?_, found.1 ▸ exported⟩
                  simp [namedModule?, held, kind, SymbolKind.isModule]
          | _ => simp [held, kind] at found
  | _ => simp [calledExport?] at found

theorem namedModule?_eq_none (missing : calledExport? table owner attr = none) :
    namedModule? table owner = none := by
  cases owner with
  | name base =>
      simp only [calledExport?] at missing
      cases held : table.lookup base with
      | none => simp [namedModule?, held]
      | some symbol => cases kind : symbol.kind <;> simp_all [namedModule?, SymbolKind.isModule]
  | _ => rfl

theorem eq_name_of_qualifiedType? {outcome : Except Fault Ty}
    (found : qualifiedType? table owner attr = some outcome) : ∃ base, owner = .name base := by
  cases owner with
  | name base => exact ⟨base, rfl⟩
  | _ => simp [qualifiedType?] at found

theorem callee?_of_calledMethod {receiver : Ty} {method : Method × String}
    (noModule : namedModule? table owner = none) (typed : typeIn table none owner = .ok receiver)
    (called : calledMethod table owner receiver attr = .ok method) :
    callee? table (.member owner attr) = some (.method method.1.signature) := by
  have isReceiver : typeOf table owner = .ok receiver := typed
  rw [calledMethod] at called
  cases behind : structOf? table receiver with
  | none => simp [behind] at called
  | some struct =>
      cases held : struct.method? attr with
      | none => simp [behind, held] at called
      | some found =>
          simp only [behind, held, error_ite_eq_ok, Except.ok.injEq] at called
          obtain ⟨_, rfl⟩ := called
          simp [callee?, noModule, isReceiver, Except.toOption, behind, held]

/-- Arguments that fit as many parameters have types. -/
theorem typed_of_argumentsFit {table : Table} {callee : String} :
    {params : List Ty} → {args : List Expr} → {position : Nat} → params.length = args.length →
      argumentsFit table callee position params args = .ok () → ∀ arg ∈ args, Typed table arg
  | _, [], _, _, _ => nofun
  | [], _ :: _, _, same, _ => by simp at same
  | param :: params, arg :: args, position, same, fit => by
      simp only [argumentsFit, bind_eq_ok, inArgument, mapError_eq_ok] at fit
      obtain ⟨_, first, others⟩ := fit
      obtain ⟨ty, typed, _⟩ := bind_eq_ok.mp first
      intro other member
      rcases List.mem_cons.mp member with rfl | later
      · exact ⟨_, ty, typed⟩
      · exact typed_of_argumentsFit (Nat.succ.inj same) others other later

theorem typed_of_call {id : String} (other : Builtin.find? id = none)
    (typed : typeIn table asked (.call (.name id) args) = .ok ty) :
    ∀ arg ∈ args, Typed table arg := by
  cases found : table.lookup id with
  | none => simp [typeIn, other, found] at typed
  | some symbol =>
      simp only [typeIn, other, found, bind_eq_ok] at typed
      obtain ⟨signature, called, _, fit, _⟩ := typed
      exact typed_of_argumentsFit (length_of_calledSignature called) fit

theorem typed_of_memberCall
    (typed : typeIn table asked (.call (.member owner attr) args) = .ok ty) :
    (∀ arg ∈ args, Typed table arg) ∧ ((∃ base, owner = .name base) ∨ ∃ receiver struct,
      typeIn table none owner = .ok receiver ∧ structOf? table receiver = some struct) := by
  cases found : calledExport? table owner attr with
  | some outcome =>
      cases outcome with
      | error cause => simp [typeIn, found] at typed
      | ok export_ =>
          obtain ⟨symbol, name⟩ := export_
          simp only [typeIn, found, bind_eq_ok] at typed
          obtain ⟨signature, called, _, fit, _⟩ := typed
          refine ⟨typed_of_argumentsFit (length_of_calledSignature called) fit, .inl ?_⟩
          cases owner with
          | name base => exact ⟨base, rfl⟩
          | _ => simp [calledExport?] at found
  | none =>
      simp only [typeIn, found, bind_eq_ok] at typed
      obtain ⟨receiver, owned, ⟨method, name⟩, called, _, arity, _, fit, _⟩ := typed
      refine ⟨typed_of_argumentsFit (by simpa [hasArity] using arity) fit, .inr ?_⟩
      rw [calledMethod] at called
      cases behind : structOf? table receiver with
      | none => simp [behind] at called
      | some struct => exact ⟨receiver, struct, owned, behind⟩

theorem arity_of_result (known : builtin ∈ Builtin.all)
    (isResult : builtin.kind = .ok ∨ builtin.kind = .err) : builtin.acceptsArity 1 = true := by
  have each : ∀ builtin ∈ Builtin.all, builtin.kind = .ok ∨ builtin.kind = .err →
      builtin.acceptsArity 1 = true := by decide
  exact each builtin known isResult

/-- Only types are asked for their sizes. -/
theorem calls_of_sizeofType (sized : sizeofType table operand = .ok ty) : operand.calls = [] := by
  cases operand with
  | name id => rfl
  | constant value => rfl
  | _ => simp [sizeofType] at sized

theorem checked_of_sizeofType (sized : sizeofType table operand = .ok ty) :
    Checked table operand := by
  cases operand with
  | name id => exact .inr ⟨id, rfl⟩
  | constant value =>
      cases value with
      | str text => exact .inl ⟨none, .str, by simp [typeIn, constantType, pure_eq_ok]⟩
      | _ => simp [sizeofType] at sized
  | _ => simp [sizeofType] at sized

theorem typed_of_checkValue {place : Ty} (checked : checkValue table place expr = .ok ()) :
    Typed table expr := by
  simp only [checkValue, bind_eq_ok] at checked
  obtain ⟨ty, typed, _⟩ := checked
  exact ⟨some place, ty, typed⟩

/-- The arguments a builtin takes and the type it gives. -/
inductive Accepts (table : Table) : Builtin.Kind → List Expr → Ty → Prop
  | size {operand : Expr} {found : Ty} : sizeofType table operand = .ok found →
      Accepts table .sizeOf [operand] .int
  | store {pointer value : Expr} {ty target : Ty} : typeIn table none pointer = .ok ty →
      target? ty = some target → checkValue table target value = .ok () →
      Accepts table .store [pointer, value] .none
  | malloc {arg : Expr} : checkValue table .int arg = .ok () →
      Accepts table .malloc [arg] (.ptr .none)
  | single {kind : Builtin.Kind} {arg : Expr} {ty : Ty} :
      kind ≠ .sizeOf ∧ kind ≠ .store ∧ kind ≠ .malloc ∧ kind ≠ .range → Typed table arg →
      (ty = .none ↔ kind.isSilent = true) → Accepts table kind [arg] ty
  | fallback {payload : Payload} {first second : Expr} : Typed table first →
      checkValue table payload.ty second = .ok () →
      Accepts table (.unwrapOr payload) [first, second] payload.ty
  | message {payload : Payload} {first second : Expr} : Typed table first →
      checkValue table .str second = .ok () →
      Accepts table (.expect payload) [first, second] payload.ty

theorem target?_ne_none {target : Ty} (isTarget : target? ty = some target) : target ≠ .none := by
  cases ty with
  | ptr behind =>
      simp only [target?, Option.ite_none_left_eq_some, Option.some.injEq] at isTarget
      exact isTarget.2 ▸ isTarget.1
  | _ => simp [target?] at isTarget

/-- What a builtin that has a type is called with. -/
theorem accepts_of_builtinType (typed : builtinType table asked builtin args = .ok ty) :
    Accepts table builtin.kind args ty := by
  rw [builtinType.eq_def] at typed
  split at typed
  · rename_i kind
    split at typed
    · simp only [bind_eq_ok, pure_eq_ok] at typed
      obtain ⟨found, isTyped, _, _, rfl⟩ := typed
      exact .single (by simp [kind]) ⟨_, found, isTyped⟩ (by simp [Builtin.Kind.isSilent, kind])
    · simp at typed
  · rename_i kind
    split at typed
    · simp only [bind_eq_ok, pure_eq_ok] at typed
      obtain ⟨found, isTyped, _, _, rfl⟩ := typed
      exact .single (by simp [kind]) ⟨_, found, isTyped⟩ (by simp [Builtin.Kind.isSilent, kind])
    · simp at typed
  · simp at typed
  · simp at typed
  · obtain ⟨_, typed⟩ := error_ite_eq_ok.mp typed
    split at typed <;> simp only [bind_eq_ok, pure_eq_ok, ite_error_eq_ok, reduceCtorEq] at typed
    all_goals rename_i kind _ _
    case h_3 =>
      obtain ⟨_, found, isTyped, rfl⟩ := typed
      exact .single (by simp [kind]) ⟨_, found, isTyped⟩ (by simp [Builtin.Kind.isSilent, kind])
    case h_4 =>
      obtain ⟨found, isTyped, behind⟩ := typed
      refine .single (by simp [kind]) ⟨_, found, isTyped⟩ ?_
      split at behind
      · rename_i target isTarget
        obtain rfl := pure_eq_ok.mp behind
        simp [Builtin.Kind.isSilent, kind, target?_ne_none isTarget]
      · simp at behind
    case h_5 =>
      obtain ⟨pointer, isTyped, stored⟩ := typed
      split at stored
      · rename_i target isTarget
        simp only [bind_eq_ok, pure_eq_ok] at stored
        obtain ⟨found, isStored, _, fitting, rfl⟩ := stored
        rw [kind]
        exact .store isTyped isTarget (bind_eq_ok.mpr ⟨found, isStored, fitting⟩)
      · simp at stored
    case h_6 =>
      obtain ⟨found, isTyped, _, fitting, rfl⟩ := typed
      rw [kind]
      exact .malloc (bind_eq_ok.mpr ⟨found, isTyped, fitting⟩)
    case h_8 =>
      obtain ⟨_, sized, rfl⟩ := typed
      rw [kind]
      exact .size sized
    case h_16 =>
      obtain ⟨_, isTyped, _, _, found, isTyped', _, fitting, rfl⟩ := typed
      rw [kind]
      exact .fallback ⟨_, _, isTyped⟩ (bind_eq_ok.mpr ⟨found, isTyped', fitting⟩)
    case h_17 =>
      obtain ⟨_, isTyped, _, _, found, isTyped', _, fitting, rfl⟩ := typed
      rw [kind]
      exact .message ⟨_, _, isTyped⟩ (bind_eq_ok.mpr ⟨found, isTyped', fitting⟩)
    case h_13 | h_14 | h_15 =>
      obtain ⟨found, isTyped, _, _, rfl⟩ := typed
      exact .single (by simp [kind]) ⟨_, found, isTyped⟩
        (by simp [Builtin.Kind.isSilent, kind, Payload.ty_ne_none])
    all_goals
      obtain ⟨found, isTyped, _, rfl⟩ := typed
      exact .single (by simp [kind]) ⟨_, found, isTyped⟩ (by simp [Builtin.Kind.isSilent, kind])

theorem Accepts.checked {kind : Builtin.Kind} (accepts : Accepts table kind args ty) :
    ∀ arg ∈ args, Checked table arg := by
  cases accepts with
  | size sized => simpa using checked_of_sizeofType sized
  | store isTyped _ stored => simpa using ⟨.inl ⟨_, _, isTyped⟩, .inl (typed_of_checkValue stored)⟩
  | malloc sized => simpa using .inl (typed_of_checkValue sized)
  | single _ isTyped _ => simpa using .inl isTyped
  | fallback first second => simpa using ⟨.inl first, .inl (typed_of_checkValue second)⟩
  | message first second => simpa using ⟨.inl first, .inl (typed_of_checkValue second)⟩

/-- Builtins that become calls take values. -/
theorem Accepts.typed_of_isHelper (accepts : Accepts table builtin.kind args ty)
    (isHelper : builtin.isHelper = true) : ∀ arg ∈ args, Typed table arg := by
  generalize isKind : builtin.kind = kind at accepts
  cases accepts with
  | single _ isTyped _ => simpa using isTyped
  | fallback first second => simpa using ⟨first, typed_of_checkValue second⟩
  | message first second => simpa using ⟨first, typed_of_checkValue second⟩
  | _ => simp [Builtin.isHelper, isKind] at isHelper

theorem acceptsArity_of_builtinType (known : builtin ∈ Builtin.all)
    (typed : builtinType table asked builtin args = .ok ty) :
    builtin.acceptsArity args.length = true := by
  rw [builtinType.eq_def] at typed
  split at typed
  · rename_i kind
    split at typed
    · exact arity_of_result known (.inl kind)
    · simp at typed
  · rename_i kind
    split at typed
    · exact arity_of_result known (.inr kind)
    · simp at typed
  · simp at typed
  · simp at typed
  · simpa using (error_ite_eq_ok.mp typed).1

/-- What is called with arguments, and the type of the call. -/
inductive Called (table : Table) (asked : Option Ty) (args : List Expr) : Callee → Ty → Prop
  | builtin {builtin : Builtin} {ty : Ty} : builtin ∈ Builtin.all →
      builtinType table asked builtin args = .ok ty → Called table asked args (.builtin builtin) ty
  | function {signature : Signature} (name : String) : signature.params.length = args.length →
      argumentsFit table name 1 signature.params args = .ok () →
      Called table asked args (.function signature) signature.returns
  | constructor (name : String) : args = [] → Called table asked args .constructor (.named name)
  | method {signature : Signature} (name : String) : signature.params.length = args.length →
      argumentsFit table name 1 signature.params args = .ok () →
      Called table asked args (.method signature) signature.returns

theorem called_of_calledSignature {name : String} {signature : Signature}
    (called : calledSignature symbol name args.length = .ok signature)
    (fit : argumentsFit table name 1 signature.params args = .ok ()) :
    ∃ callee, calledAs? symbol = some callee ∧
      Called table asked args callee signature.returns := by
  cases kind : symbol.kind with
  | function found =>
      simp only [calledSignature, kind, bind_eq_ok, pure_eq_ok, hasArity, ite_error_eq_ok] at called
      obtain ⟨_, ⟨same, _⟩, rfl⟩ := called
      exact ⟨.function found, by simp [calledAs?, kind], .function name same fit⟩
  | struct fields methods =>
      simp only [calledSignature, kind, ite_error_eq_ok, Except.ok.injEq] at called
      obtain ⟨isZero, rfl⟩ := called
      exact ⟨.constructor, by simp [calledAs?, kind],
        .constructor symbol.name (List.eq_nil_of_length_eq_zero isZero)⟩
  | _ => simp [calledSignature, kind] at called

/-- What a call that has a type calls. -/
theorem called_of_typeIn :
    {callee : Expr} → typeIn table asked (.call callee args) = .ok ty →
      ∃ found, callee? table callee = some found ∧ Called table asked args found ty
  | .name id, typed => by
      cases known : Builtin.find? id with
      | some builtin =>
          simp only [typeIn, known] at typed
          exact ⟨.builtin builtin, by simp [callee?, known],
            .builtin (List.mem_of_find?_eq_some known) typed⟩
      | none =>
          cases found : table.lookup id with
          | none => simp [typeIn, known, found] at typed
          | some symbol =>
              simp only [typeIn, known, found, bind_eq_ok, pure_eq_ok] at typed
              obtain ⟨signature, called, _, fit, rfl⟩ := typed
              obtain ⟨callee, isCallee, gives⟩ := called_of_calledSignature called fit
              exact ⟨callee, by simp [callee?, known, found, isCallee], gives⟩
  | .member owner attr, typed => by
      cases found : calledExport? table owner attr with
      | some outcome =>
          cases outcome with
          | error cause => simp [typeIn, found] at typed
          | ok export_ =>
              obtain ⟨symbol, name⟩ := export_
              obtain ⟨module, isModule, exported⟩ := exported_of_calledExport? found
              simp only [typeIn, found, bind_eq_ok, pure_eq_ok] at typed
              obtain ⟨signature, called, _, fit, rfl⟩ := typed
              obtain ⟨callee, isCallee, gives⟩ := called_of_calledSignature called fit
              exact ⟨callee, by simp [callee?, isModule, exported, isCallee], gives⟩
      | none =>
          simp only [typeIn, found, bind_eq_ok, pure_eq_ok] at typed
          obtain ⟨receiver, owned, ⟨method, name⟩, called, _, arity, _, fit, rfl⟩ := typed
          have same : method.signature.params.length = args.length := by
            simpa [hasArity] using arity
          exact ⟨_, callee?_of_calledMethod (namedModule?_eq_none found) owned called,
            .method name same fit⟩
  | .constant _, typed | .binary _ _ _, typed | .unary _ _, typed | .compare _ _ _, typed
  | .logical _ _ _, typed | .call _ _, typed | .subscript _ _, typed => by simp [typeIn] at typed

theorem Called.takes {callee : Callee} (called : Called table asked args callee ty) :
    callee.Takes args.length := by
  cases called with
  | builtin known typed =>
      simpa [Callee.Takes, Builtin.acceptsArity] using acceptsArity_of_builtinType known typed
  | function name same _ => exact same.symm
  | constructor name isEmpty => exact List.length_eq_zero_iff.mpr isEmpty
  | method name same _ => exact same.symm

theorem eq_call_of_rangeCall? {bounds : List Expr}
    (isRange : rangeCall? iter = some (builtin, bounds)) :
    ∃ id, iter = .call (.name id) bounds ∧ Builtin.find? id = some builtin ∧
      builtin.kind = .range := by
  rw [rangeCall?.eq_def] at isRange
  split at isRange
  · rename_i id args
    cases known : Builtin.find? id with
    | none => simp [known] at isRange
    | some found =>
        simp only [known, Option.ite_none_right_eq_some, Option.some.injEq, Prod.mk.injEq]
          at isRange
        obtain ⟨isKind, rfl, rfl⟩ := isRange
        exact ⟨id, rfl, known, isKind⟩
  · simp at isRange

theorem admitted_of_typed {calls : List Call} (typed : ∀ call ∈ calls, TypedCall table call) :
    ∀ call ∈ calls, Admitted table call :=
  fun call member => .typed (typed call member)

theorem Admitted.sound {call : Call} (admitted : Admitted table call) : Sound table call := by
  cases admitted with
  | typed isTyped =>
      obtain ⟨_, _, isTyped⟩ := isTyped
      obtain ⟨callee, isCallee, called⟩ := called_of_typeIn isTyped
      exact ⟨callee, isCallee, called.takes⟩
  | range isRange arity =>
      obtain ⟨id, same, known, _⟩ := eq_call_of_rangeCall? isRange
      refine ⟨.builtin _, ?_, by simpa [Callee.Takes, Builtin.acceptsArity] using arity⟩
      rw [(Expr.call.inj same).1]
      simp [callee?, known]

/-- A signed whole number is one literal, and any other operand has a type. -/
inductive TypedUnder (table : Table) : UnaryOp → Expr → Ty → Prop
  | literal (number : Int) : TypedUnder table .neg (.constant (.int number)) .int
  | operand {op : UnaryOp} {operand : Expr} {ty : Ty} :
      (∀ number, op = .neg → operand = .constant (.int number) → False) →
      typeIn table none operand = .ok ty → TypedUnder table op operand (unaryType op ty)

theorem typedUnder_of_unary {op : UnaryOp}
    (typed : typeIn table asked (.unary op operand) = .ok ty) : TypedUnder table op operand ty := by
  by_cases literal : ∃ number, op = .neg ∧ operand = .constant (.int number)
  · obtain ⟨number, rfl, rfl⟩ := literal
    simp only [typeIn, bind_eq_ok, pure_eq_ok] at typed
    obtain ⟨_, _, rfl⟩ := typed
    exact .literal number
  · have noLiteral : ∀ number, op = .neg → operand = .constant (.int number) → False :=
      fun number isNeg isLiteral => literal ⟨number, isNeg, isLiteral⟩
    rw [typeIn.eq_6 _ _ _ _ noLiteral] at typed
    simp only [bind_eq_ok, pure_eq_ok] at typed
    obtain ⟨inner, isInner, rfl⟩ := typed
    exact .operand noLiteral isInner

mutual

/-- The parts of an expression that has a type are known. -/
theorem known_parts {table : Table} :
    (expr : Expr) → {asked : Option Ty} → {ty : Ty} → typeIn table asked expr = .ok ty →
      ∀ part ∈ expr.parts, Known table part
  | .name id, _, _, _ => by simpa [Expr.parts] using .name id
  | .constant _, _, _, typed => by simpa [Expr.parts] using .typed ⟨_, _, typed⟩
  | .binary _ left right, _, _, typed | .compare _ left right, _, _, typed => by
      simp only [Expr.parts, List.forall_mem_cons, List.forall_mem_append]
      refine ⟨.typed ⟨_, _, typed⟩, ?_⟩
      simp only [typeIn, bind_eq_ok] at typed
      obtain ⟨_, leftTyped, _, rightTyped, _⟩ := typed
      exact ⟨known_parts left leftTyped, known_parts right rightTyped⟩
  | .unary op operand, _, _, typed => by
      cases typedUnder_of_unary typed with
      | literal number => simpa [Expr.parts] using .typed ⟨_, _, typed⟩
      | operand noLiteral operandTyped =>
          rw [Expr.parts_unary noLiteral, List.forall_mem_cons]
          exact ⟨.typed ⟨_, _, typed⟩, known_parts operand operandTyped⟩
  | .logical _ left right, _, _, typed => by
      simp only [Expr.parts, List.forall_mem_cons, List.forall_mem_append]
      refine ⟨.typed ⟨_, _, typed⟩, ?_⟩
      simp only [typeIn, bind_eq_ok] at typed
      obtain ⟨_, leftTyped, _, _, _, rightTyped, _⟩ := typed
      exact ⟨known_parts left leftTyped, known_parts right rightTyped⟩
  | .call (.name id) args, _, _, typed => by
      simp only [Expr.parts, List.forall_mem_cons, List.forall_mem_append]
      refine ⟨.typed ⟨_, _, typed⟩, ⟨.name id, nofun⟩, known_partsIn args ?_⟩
      cases known : Builtin.find? id with
      | some builtin =>
          simp only [typeIn, known] at typed
          exact (accepts_of_builtinType typed).checked
      | none => exact fun arg member => .inl (typed_of_call known typed arg member)
  | .call (.member owner attr) args, _, _, typed => by
      simp only [Expr.parts, List.forall_mem_cons, List.forall_mem_append]
      obtain ⟨areTyped, owned⟩ := typed_of_memberCall typed
      refine ⟨.typed ⟨_, _, typed⟩, ⟨.member owner attr, ?_⟩,
        known_partsIn args fun arg member => .inl (areTyped arg member)⟩
      rcases owned with ⟨base, rfl⟩ | ⟨receiver, _, isReceiver, _⟩
      · simpa [Expr.parts] using .name base
      · exact known_parts owner isReceiver
  | .call (.constant _) _, _, _, typed | .call (.binary _ _ _) _, _, _, typed
  | .call (.unary _ _) _, _, _, typed | .call (.compare _ _ _) _, _, _, typed
  | .call (.logical _ _ _) _, _, _, typed | .call (.call _ _) _, _, _, typed
  | .call (.subscript _ _) _, _, _, typed => by simp [typeIn] at typed
  | .member owner attr, _, _, typed => by
      simp only [Expr.parts, List.forall_mem_cons]
      refine ⟨.member owner attr, ?_⟩
      cases found : qualifiedType? table owner attr with
      | some outcome =>
          obtain ⟨base, rfl⟩ := eq_name_of_qualifiedType? found
          simpa [Expr.parts] using .name base
      | none =>
          simp only [typeIn, found, bind_eq_ok] at typed
          obtain ⟨_, owned, _⟩ := typed
          exact known_parts owner owned
  | .subscript value index, _, _, typed => by
      simp only [Expr.parts, List.forall_mem_cons, List.forall_mem_append]
      refine ⟨.typed ⟨_, _, typed⟩, ?_⟩
      simp only [typeIn, bind_eq_ok] at typed
      obtain ⟨_, valueTyped, _, indexTyped, _⟩ := typed
      exact ⟨known_parts value valueTyped, known_parts index indexTyped⟩

theorem known_partsIn {table : Table} :
    (exprs : List Expr) → (∀ expr ∈ exprs, Checked table expr) →
      ∀ part ∈ partsIn exprs, Known table part
  | [], _ => nofun
  | expr :: exprs, checked => by
      have others := known_partsIn exprs fun other member =>
        checked other (List.mem_cons_of_mem _ member)
      simp only [partsIn, List.forall_mem_append]
      refine ⟨?_, others⟩
      rcases checked expr List.mem_cons_self with ⟨_, _, typed⟩ | ⟨id, rfl⟩
      · exact known_parts expr typed
      · simpa [Expr.parts] using .name id

end

theorem Checked.known (checked : Checked table expr) : ∀ part ∈ expr.parts, Known table part := by
  rcases checked with ⟨_, _, typed⟩ | ⟨id, rfl⟩
  · exact known_parts expr typed
  · simpa [Expr.parts] using .name id

theorem Checked.calls (checked : Checked table expr) :
    ∀ call ∈ expr.calls, TypedCall table call := by
  intro call member
  cases checked.known _ (call_mem_parts expr call member) with
  | typed isTyped => exact isTyped

theorem typed_callsIn {exprs : List Expr} (checked : ∀ expr ∈ exprs, Checked table expr) :
    ∀ call ∈ callsIn exprs, TypedCall table call := by
  intro call member
  cases known_partsIn exprs checked _ (call_mem_partsIn exprs call member) with
  | typed isTyped => exact isTyped

theorem typed_calls (expr : Expr) (typed : typeIn table asked expr = .ok ty) :
    ∀ call ∈ expr.calls, TypedCall table call :=
  Checked.calls (.inl ⟨asked, ty, typed⟩)

theorem sound_calls (expr : Expr) (typed : typeIn table asked expr = .ok ty) :
    ∀ call ∈ expr.calls, Sound table call :=
  fun call member => (Admitted.typed (typed_calls expr typed call member)).sound

/-! ## Statements -/

theorem checked_of_declareVariable {written : TypeExpr}
    (declared : declareVariable table target written value = .ok after) :
    Checked table target ∧ ∀ expr ∈ value, Checked table expr := by
  obtain ⟨name, _, rfl, _⟩ := declare_of_declareVariable declared
  refine ⟨.inr ⟨name, rfl⟩, ?_⟩
  cases value with
  | none => exact nofun
  | some value =>
      simp only [declareVariable, bind_eq_ok] at declared
      obtain ⟨_, _, annotated, _, _, checked, _⟩ := declared
      simpa using .inl (typed_of_checkValue checked)

theorem checked_of_targetType (typed : targetType table target = .ok ty) :
    Checked table target := by
  cases target with
  | name id => exact .inr ⟨id, rfl⟩
  | member owner attr =>
      refine .inl ⟨none, ty, ?_⟩
      rw [← typeOf]
      cases owner with
      | name base =>
          cases held : table.lookup base with
          | none => simpa [targetType, held] using typed
          | some symbol =>
              cases kind : symbol.kind with
              | value _ => simpa [targetType, held, kind] using typed
              | _ => simp [targetType, held, kind] at typed
      | _ => exact typed
  | subscript value index => exact .inl ⟨none, ty, typed⟩
  | _ => simp [targetType] at typed

theorem checked_of_checkAssign {value : Expr} (checked : checkAssign table target value = .ok ()) :
    Checked table target ∧ Checked table value := by
  simp only [checkAssign, bind_eq_ok] at checked
  obtain ⟨place, isPlace, checked⟩ := checked
  refine ⟨checked_of_targetType isPlace, ?_⟩
  split at checked
  · simp at checked
  · exact .inl (typed_of_checkValue checked)

theorem checked_of_checkCondition {test : Expr} (checked : checkCondition table test = .ok ()) :
    Checked table test := by
  simp only [checkCondition, bind_eq_ok] at checked
  obtain ⟨ty, typed, _⟩ := checked
  exact .inl ⟨none, ty, typed⟩

theorem checked_of_checkBounds {bounds : List Expr} (checked : checkBounds table bounds = .ok ()) :
    ∀ bound ∈ bounds, Checked table bound := by
  induction bounds with
  | nil => exact nofun
  | cons bound bounds induction =>
      simp only [checkBounds, bind_eq_ok, ite_error_eq_ok] at checked
      obtain ⟨ty, typed, _, others⟩ := checked
      exact List.forall_mem_cons.mpr ⟨.inl ⟨none, ty, typed⟩, induction others⟩

theorem checked_of_iterationType {item : Ty} (typed : iterationType table iter = .ok item) :
    Checked table iter ∨ ∃ id builtin bounds, iter = .call (.name id) bounds ∧
      rangeCall? iter = some (builtin, bounds) ∧ builtin.acceptsArity bounds.length = true ∧
      ∀ bound ∈ bounds, Checked table bound := by
  rw [iterationType] at typed
  split at typed
  · rename_i builtin bounds isRange
    obtain ⟨id, isCall, _⟩ := eq_call_of_rangeCall? isRange
    simp only [ite_error_eq_ok, bind_eq_ok] at typed
    obtain ⟨arity, _, checked, _⟩ := typed
    exact .inr ⟨id, builtin, bounds, isCall, isRange, arity, checked_of_checkBounds checked⟩
  · simp only [bind_eq_ok] at typed
    obtain ⟨ty, isTyped, _⟩ := typed
    exact .inl (.inl ⟨none, ty, isTyped⟩)

theorem checked_of_checkReturn {around : Surroundings}
    (checked : checkReturn table around value = .ok ()) : ∀ expr ∈ value, Checked table expr := by
  cases value with
  | none => exact nofun
  | some value =>
      refine fun expr isValue => Option.some.inj isValue ▸ .inl ?_
      rw [checkReturn] at checked
      split at checked
      · have isNone : value.isNone = true := by simpa using checked
        obtain rfl : value = .constant .none := by
          cases value with
          | constant value => cases value <;> simp_all [Expr.isNone]
          | _ => simp [Expr.isNone] at isNone
        exact ⟨none, .none, by simp [typeIn, constantType, pure_eq_ok]⟩
      · exact typed_of_checkValue checked

theorem checked_of_subjectType {subject : Expr} (typed : subjectType table subject = .ok ty) :
    Checked table subject := by
  simp only [subjectType, bind_eq_ok] at typed
  obtain ⟨found, isTyped, _⟩ := typed
  exact .inl ⟨none, found, isTyped⟩

theorem checked_of_checkPattern {subject : Ty}
    (checked : checkPattern table subject (.value expr) = .ok ()) : Checked table expr := by
  simp only [checkPattern, bind_eq_ok] at checked
  obtain ⟨ty, typed, _⟩ := checked
  exact .inl ⟨none, ty, typed⟩

theorem typedCalls_of_declareVariable {written : TypeExpr}
    (declared : declareVariable table target written value = .ok after) :
    ∀ call ∈ target.calls ++ callsIn? value, TypedCall table call := by
  obtain ⟨isTarget, areValues⟩ := checked_of_declareVariable declared
  exact List.forall_mem_append.mpr ⟨isTarget.calls, typed_callsIn (by simpa using areValues)⟩

theorem typedCalls_of_checkAssign {value : Expr}
    (checked : checkAssign table target value = .ok ()) :
    ∀ call ∈ target.calls ++ value.calls, TypedCall table call := by
  obtain ⟨isTarget, isValue⟩ := checked_of_checkAssign checked
  exact List.forall_mem_append.mpr ⟨isTarget.calls, isValue.calls⟩

theorem admitted_of_iterationType {item : Ty} (typed : iterationType table iter = .ok item) :
    ∀ call ∈ iter.calls, Admitted table call := by
  rcases checked_of_iterationType typed with
    checked | ⟨id, builtin, bounds, rfl, isRange, arity, checked⟩
  · exact admitted_of_typed checked.calls
  · simp only [Expr.calls, List.forall_mem_cons, List.nil_append]
    exact ⟨.range isRange arity, admitted_of_typed (typed_callsIn checked)⟩

theorem typedCalls_of_checkReturn {around : Surroundings}
    (checked : checkReturn table around value = .ok ()) :
    ∀ call ∈ callsIn? value, TypedCall table call :=
  typed_callsIn (by simpa using checked_of_checkReturn checked)

theorem typedCalls_of_checkPattern {subject : Ty} {pattern : Pattern}
    (checked : checkPattern table subject pattern = .ok ()) :
    ∀ call ∈ pattern.calls, TypedCall table call := by
  cases pattern with
  | wildcard => exact nofun
  | value expr => exact (checked_of_checkPattern checked).calls

mutual

theorem covers_form {around : Surroundings} {line : Nat} {table after : Table}
    (pending : List (List String)) (site : Site) (moment : Moment) (here : moment.table = table) :
    (form : Form) → checkForm around line form table = .ok after →
      Covers Admitted (.reaches site moment :: visitsForm around pending site form table)
        (form.calls site)
  | .declare target written value, checked => by
      rw [checkForm, onLine_eq_ok] at checked
      have admitted := admitted_of_typed (typedCalls_of_declareVariable checked)
      exact .own (here ▸ admitted) List.mem_cons_self
  | .assign target value, checked => by
      simp only [checkForm, bind_eq_ok, onLine_eq_ok] at checked
      obtain ⟨_, assigned, _⟩ := checked
      exact .own (here ▸ admitted_of_typed (typedCalls_of_checkAssign assigned)) List.mem_cons_self
  | .branch test body orelse, checked => by
      simp only [checkForm, bind_eq_ok, onLine_eq_ok] at checked
      obtain ⟨_, tested, first, isFirst, second, isSecond, _⟩ := checked
      have own : ∀ call ∈ test.calls, Admitted moment.table call :=
        here ▸ admitted_of_typed ((checked_of_checkCondition tested).calls)
      have left := covers_body pending (0 :: site) 0 body isFirst
      have right := covers_body pending (1 :: site) 0 orelse isSecond
      simp only [Form.calls, visitsForm, isFirst, given_ok]
      refine ((Covers.own own List.mem_cons_self).both (left.mono ?_)).both (right.mono ?_)
      · exact fun visit member => by simp [member]
      · exact fun visit member => by simp [member]
  | .whileLoop test body label, checked => by
      simp only [checkForm, bind_eq_ok, onLine_eq_ok] at checked
      obtain ⟨_, tested, inside, isInside, first, isFirst, _⟩ := checked
      have own : ∀ call ∈ test.calls, Admitted moment.table call :=
        here ▸ admitted_of_typed ((checked_of_checkCondition tested).calls)
      have inner := covers_body pending (0 :: site) 0 body isFirst
      simp only [Form.calls, visitsForm, isInside, given_ok]
      refine (Covers.own own List.mem_cons_self).both (inner.mono ?_)
      exact fun visit member => by simp [member]
  | .forLoop target iter body label, checked => by
      simp only [checkForm, bind_eq_ok, onLine_eq_ok] at checked
      obtain ⟨item, isItem, inside, isInside, first, isFirst, second, isSecond, _⟩ := checked
      have own : ∀ call ∈ iter.calls, Admitted moment.table call :=
        here ▸ admitted_of_iterationType isItem
      have inner := covers_body pending (0 :: site) 0 body isSecond
      simp only [Form.calls, visitsForm, isItem, isInside, isFirst, given_ok]
      refine (Covers.own own List.mem_cons_self).both (inner.mono ?_)
      exact fun visit member => by simp [member]
  | .jump _ _, _ => .nil _
  | .ret value, checked => by
      simp only [checkForm, bind_eq_ok, onLine_eq_ok] at checked
      obtain ⟨_, returned, _⟩ := checked
      exact .own (here ▸ admitted_of_typed (typedCalls_of_checkReturn returned)) List.mem_cons_self
  | .expr value, checked => by
      simp only [checkForm, bind_eq_ok, onLine_eq_ok] at checked
      obtain ⟨_, typed, _⟩ := checked
      exact .own (here ▸ admitted_of_typed (typed_calls value typed)) List.mem_cons_self
  | .pass, _ => .nil _
  | .select subject cases, checked => by
      simp only [checkForm, bind_eq_ok, onLine_eq_ok] at checked
      obtain ⟨ty, isSubject, checked⟩ := checked
      have own : ∀ call ∈ subject.calls, Admitted moment.table call :=
        here ▸ admitted_of_typed ((checked_of_subjectType isSubject).calls)
      have inner := covers_cases pending site 0 cases checked
      simp only [Form.calls, visitsForm, isSubject, given_ok]
      exact (Covers.own own List.mem_cons_self).both (inner.mono (List.subset_cons_self _ _))
  | .import_ _, checked => by simp [checkForm] at checked
  | .function _, checked => by simp [checkForm] at checked
  | .classDef _, checked => by simp [checkForm] at checked

theorem covers_body {around : Surroundings} {table after : Table} (pending : List (List String))
    (site : Site) (position : Nat) :
    (body : List Statement) → checkBody around body table = .ok after →
      Covers Admitted (visitsBody around pending site position body table)
        (bodyCalls site position body)
  | [], _ => .nil _
  | ⟨line, form⟩ :: others, checked => by
      simp only [checkBody, bind_eq_ok] at checked
      obtain ⟨middle, isMiddle, rest⟩ := checked
      have first := covers_form ((form.declares ++ declaredIn others) :: pending) (position :: site)
        ⟨table, (form.declares ++ declaredIn others) :: pending⟩ rfl form isMiddle
      have later := covers_body pending site (position + 1) others rest
      simp only [visitsBody, isMiddle, given_ok, bodyCalls]
      exact first.append later

theorem covers_cases {around : Surroundings} {subject : Ty} {table after : Table}
    (pending : List (List String)) (site : Site) (position : Nat) :
    (cases : List Case) → checkCases around subject cases table = .ok after →
      Covers Admitted (visitsCases around pending site position subject cases table)
        (caseCalls site position cases)
  | [], _ => .nil _
  | ⟨pattern, body, line⟩ :: others, checked => by
      simp only [checkCases, bind_eq_ok, onLine_eq_ok] at checked
      obtain ⟨_, matched, first, isFirst, rest⟩ := checked
      have inner := covers_body pending (position :: site) 0 body isFirst
      have later := covers_cases pending site (position + 1) others rest
      have admitted := admitted_of_typed (typedCalls_of_checkPattern matched)
      simp only [visitsCases, isFirst, given_ok, caseCalls]
      refine ((Covers.own admitted List.mem_cons_self).both (inner.mono ?_)).both (later.mono ?_)
      · exact fun visit member => by simp [member]
      · exact fun visit member => by simp [member]

end

theorem covers_function {owner : Option String} {line : Nat} {decl : FunctionDef} (site : Site)
    (checked : checkFunction owner line decl table = .ok after) :
    Covers Admitted (visitsFunction owner site line decl table)
      (bodyCalls (0 :: site) 0 decl.body) := by
  simp only [checkFunction_eq, bind_eq_ok, pure_eq_ok] at checked
  obtain ⟨⟨around, inside⟩, isEntered, last, isLast, _⟩ := checked
  have inner := covers_body [[]] (0 :: site) 0 decl.body isLast
  simp only [visitsFunction, isEntered, given_ok]
  exact inner.mono (List.subset_cons_self _ _)

/-- The calls in a checked unit are admitted. -/
theorem admitted_unit {kind : UnitKind} {fragments : List Fragment} {body : List Statement}
    (checked : checkUnit kind fragments body = .ok table) :
    Covers Admitted (visits kind fragments body) (unitCalls body) := by
  rw [unitCalls_eq]
  exact covers_functions covers_function checked

theorem covers_unit {kind : UnitKind} {fragments : List Fragment} {body : List Statement}
    (checked : checkUnit kind fragments body = .ok table) :
    Covers Sound (visits kind fragments body) (unitCalls body) :=
  (admitted_unit checked).imp Admitted.sound

end Check

/-- In an accepted unit, whatever is called is known where the call stands and takes as many
arguments as it is given: those a function or method was declared with, none for a struct, and a
number in the range of a builtin. -/
theorem calls_take_their_arguments {kind : UnitKind} {modules : List Fragment}
    {body : List Statement} {table : Table} (analyzed : analyze kind modules body = .ok table) :
    (∀ site call, (site, call) ∈ unitCalls body →
      ∃ moment callee, .reaches site moment ∈ Check.visits kind modules body ∧
        Check.callee? moment.table call.callee = some callee ∧ callee.Takes call.args.length) ∧
      ∀ owner decl, Defines body owner decl →
        ∃ signature, Lower.signatureOf table owner decl = .ok signature ∧
          signature.params.length + (if owner.isSome then 1 else 0) = decl.params.length := by
  constructor
  · intro site call member
    obtain ⟨moment, reached, callee, isCallee, takes⟩ :=
      Check.covers_unit analyzed site call member
    exact ⟨moment, callee, reached, isCallee, takes⟩
  · intro owner decl defines
    obtain ⟨line, signature, isSignature, known⟩ := Lower.signatureOf_of_defines analyzed defines
    exact ⟨signature, known, Lower.length_of_signatureOf isSignature⟩

/-- A loop over a range whose bound calls a method on its own result. -/
def nestedCalls : List Statement :=
  let twice (arg : Expr) : Expr := .call (.member (.name "p") "twice") [arg]
  [⟨1, .classDef ⟨"P", [], .struct,
    [⟨2, .declare (.name "x") (.name "int") none⟩,
     ⟨3, .function ⟨"twice", [⟨"self", none, 3⟩, ⟨"n", some (.name "int"), 3⟩], some (.name "int"),
       [⟨4, .ret (some (.binary .mul (.constant (.int 2)) (.name "n")))⟩]⟩⟩]⟩⟩,
   ⟨6, .function ⟨"main", [], none,
    [⟨7, .declare (.name "p") (.name "P") none⟩,
     ⟨8, .forLoop "i" (.call (.name "range") [twice (twice (.constant (.int 1)))])
       [⟨9, .pass⟩] none⟩]⟩⟩]

theorem calls_take_their_arguments_nestedCalls :
    ∃ table moment callee, analyze .program [] nestedCalls = .ok table ∧
      .reaches [1, 0, 1] moment ∈ Check.visits .program [] nestedCalls ∧
      Check.callee? moment.table (.member (.name "p") "twice") = some callee ∧
      callee.Takes 1 := by
  obtain ⟨table, analyzed⟩ : ∃ table, analyze .program [] nestedCalls = .ok table :=
    ⟨_, by with_unfolding_all rfl⟩
  have inner : ([1, 0, 1], ⟨.member (.name "p") "twice", [.constant (.int 1)]⟩) ∈
      unitCalls nestedCalls :=
    List.mem_of_getElem? (rfl : (unitCalls nestedCalls)[2]? = some _)
  obtain ⟨moment, callee, reached, isCallee, takes⟩ :=
    (calls_take_their_arguments analyzed).1 _ _ inner
  exact ⟨table, moment, callee, analyzed, reached, isCallee, takes⟩

end Offside
