import Offside.Lower.Unit
import Offside.Proofs.Outcome

/-!
# Causes of failed lowering

Most causes for which a lowering fails concern the types of a source. The others are internal: they
concern its form, or the table under which it is lowered, and tell that it should not have come to a
lowering. An expression has none for an internal reason only if one of its calls is to blame,
whatever the scope.
-/

namespace Offside

structure Call where
  callee : Expr
  args : List Expr

mutual

def Expr.calls : Expr → List Call
  | .name _ => []
  | .constant _ => []
  | .binary _ left right => left.calls ++ right.calls
  | .unary _ operand => operand.calls
  | .compare _ left right => left.calls ++ right.calls
  | .logical _ left right => left.calls ++ right.calls
  | .call callee args => ⟨callee, args⟩ :: (callee.calls ++ callsIn args)
  | .member owner _ => owner.calls
  | .subscript value index => value.calls ++ index.calls

def callsIn : List Expr → List Call
  | [] => []
  | expr :: exprs => expr.calls ++ callsIn exprs

end

def Pattern.calls : Pattern → List Call
  | .wildcard => []
  | .value expr => expr.calls

def callsIn? (expr : Option Expr) : List Call := callsIn expr.toList

/-- Whether an expression has the form of something that can be called. -/
def Expr.isCallee : Expr → Bool
  | .name _ | .member _ _ => true
  | _ => false

/-- A builtin is told by the name of its kind and by its slot. -/
theorem Builtin.eq_of_kind {id : String} {builtin other : Builtin}
    (known : Builtin.find? id = some builtin) (listed : other ∈ Builtin.all)
    (sameName : builtin.kind.name = other.kind.name)
    (sameSlot : builtin.kind.payload? = other.kind.payload?) : builtin = other := by
  have each : ∀ builtin ∈ Builtin.all, ∀ other ∈ Builtin.all,
      builtin.kind.name = other.kind.name → builtin.kind.payload? = other.kind.payload? →
        builtin = other := by decide +kernel
  exact each builtin (List.mem_of_find?_eq_some known) other listed sameName sameSlot

/-- Whether a cause does not concern the types of a source. -/
def Lower.Cause.isInternal : Lower.Cause → Bool
  | .malformedType _ | .missingReceiver _ _ | .notDeclared _ | .scopeMismatch
  | .nestedDeclaration _ | .notPlainName | .rangeBounds | .unknownLabel _ | .resultArity
  | .calleeForm | .missingArgument _ | .rangeOutsideLoop | .quotedType _ | .sizeofForm => true
  | _ => false

/-- Whether a fault is none of a lowering, or does not concern types. -/
def Fault.isInternal : Fault → Bool
  | .lowering cause => cause.isInternal
  | _ => true

theorem Fault.stage_of_isInternal {fault : Fault} (external : fault.isInternal = false) :
    fault.stage = .lowering := by
  cases fault with
  | lowering cause => rfl
  | _ => cases external

namespace Lower

open Outcome

/-- A computation of a lowering that fails for no internal cause. -/
abbrev External {α : Type} (outcome : Except Fault α) : Prop :=
  FailsFor (fun cause => cause.isInternal = false) outcome

theorem external_namedType (table : Table) (name : String) : External (namedType table name) := by
  simp only [namedType]
  repeat' split
  all_goals first | exact .ok _ | exact .error rfl

theorem external_typeOf (table : Table) : (ty : Ty) → External (typeOf table ty)
  | .int | .bool | .float | .str | .none | .result _ _ => .ok _
  | .ptr target => .bind (external_typeOf table target) fun _ _ => .pure _
  | .array item _ => .bind (external_typeOf table item) fun _ _ => .pure _
  | .named name => external_namedType table name
  | .range => .error rfl

theorem external_declarator (table : Table) (ty : Ty) (name : String) :
    External (declarator table ty name) :=
  .bind (external_typeOf table _) fun _ _ => .pure _

theorem external_parameter (table : Table) (ty : Ty) (name : String) :
    External (parameter table ty name) :=
  .bind (external_typeOf table ty) fun _ _ => .pure _

theorem external_addStruct (structs : List Symbol) (free : List String) (finished : List Symbol)
    (symbol : Symbol) : External (addStruct structs free finished symbol) := by
  fun_induction addStruct structs free finished symbol with
  | case1 => exact .ok _
  | case2 free finished symbol _ isFree _ induction =>
      exact .bind (.foldlM _ _ fun part _ finished => induction finished part) fun _ _ => .pure _
  | case3 => exact .error rfl

theorem external_orderStructs (structs : List Symbol) : External (orderStructs structs) :=
  .foldlM structs [] fun _ _ _ => external_addStruct structs _ _ _

theorem external_structDef (table : Table) (symbol : Symbol) :
    External (structDef table symbol) :=
  .bind (.mapM _ fun _ _ => external_declarator table _ _) fun _ _ => .pure _

theorem external_lowerExternals (table : Table) : External (lowerExternals table) :=
  .mapM _ fun _ _ => .bind (external_declarator table _ _) fun _ _ => .pure _

theorem external_prototype (table : Table) (owner : Option String) (name : String)
    (signature : Signature) : External (prototype table owner name signature) :=
  .bind (.mapM _ fun _ _ => external_typeOf table _) fun _ _ =>
    .bind (external_typeOf table _) fun _ _ => .pure _

theorem external_lowerPrototypes (table : Table) : External (lowerPrototypes table) := by
  refine .bind (.mapM _ fun symbol _ => ?_) fun _ _ => .pure _
  rw [prototypesOf]
  split
  · exact .ite (.ok _) (.bind (external_prototype table _ _ _) fun _ _ => .pure _)
  · exact .mapM _ fun _ _ => external_prototype table _ _ _
  · exact .ok _

theorem external_payload (table : Table) (ty : Ty) : External (payload table ty) := by
  rw [payload]
  split
  · exact .ok _
  · exact .error rfl

theorem external_called (callee : String) (symbol : Symbol) : External (called callee symbol) := by
  rw [called]
  split
  · exact .ok _
  · exact .ok _
  · exact .error rfl

theorem external_calledMethod (view : View) (owner : Expr) (attr : String) :
    External (calledMethod view owner attr) := by
  rw [calledMethod]
  split
  · exact .error rfl
  · split
    · exact .error rfl
    · split
      · exact .error rfl
      · exact .ok _

theorem external_requireEquatable (table : Table) (ty : Option Ty) :
    External (requireEquatable table ty) := by
  rw [requireEquatable.eq_def]
  split
  · exact .ite (.ok _) (.error rfl)
  · exact .ok _

/-- A call that has no C form in any scope, with the fault. -/
inductive Breaks : Call → Fault → Prop
  | form {callee : Expr} {args : List Expr} : callee.isCallee = false →
      Breaks ⟨callee, args⟩ (.lowering .calleeForm)
  | range {id : String} {builtin : Builtin} {args : List Expr} :
      Builtin.find? id = some builtin → builtin.kind = .range →
      Breaks ⟨.name id, args⟩ (.lowering .rangeOutsideLoop)
  | arity {id : String} {builtin : Builtin} {args : List Expr} {cause : Cause} :
      Builtin.find? id = some builtin → builtin.acceptsArity args.length = false →
      cause = .resultArity ∨ cause = .missingArgument builtin →
      Breaks ⟨.name id, args⟩ (.lowering cause)
  | size {id : String} {builtin : Builtin} {operand : Expr} {others : List Expr} {fault : Fault} :
      Builtin.find? id = some builtin → builtin.kind = .sizeOf →
      sizeofType operand = .error fault → Breaks ⟨.name id, operand :: others⟩ fault

/-- A fault that is not internal, or that some call is to blame for. -/
def BlamedOn (calls : List Call) (fault : Fault) : Prop :=
  fault.isInternal = true → ∃ call ∈ calls, Breaks call fault

/-- A computation that fails for an internal cause only where a call is to blame. -/
abbrev Blames {α : Type} (calls : List Call) (outcome : Except Fault α) : Prop :=
  FailsFor (BlamedOn calls) outcome

theorem Blames.within {α : Type} {calls calls' : List Call} {outcome : Except Fault α}
    (blames : Blames calls outcome) (subset : calls ⊆ calls') : Blames calls' outcome := by
  refine blames.mono fun cause blamed isInternal => ?_
  obtain ⟨call, member, breaks⟩ := blamed isInternal
  exact ⟨call, subset member, breaks⟩

theorem External.blames {α : Type} {outcome : Except Fault α} (external : External outcome)
    (calls : List Call) : Blames calls outcome := by
  refine external.mono fun cause isExternal isInternal => ?_
  simp [isExternal] at isInternal

theorem blames_error {α : Type} {call : Call} {calls : List Call} {fault : Fault}
    (breaks : Breaks call fault) : Blames (call :: calls) (.error fault : Except Fault α) :=
  .error fun _ => ⟨call, List.mem_cons_self, breaks⟩

/-- Two parts in order, each of which blames calls of its own. -/
theorem Blames.both {α β γ : Type} {calls calls' : List Call} {first : Except Fault α}
    {second : Except Fault β} {build : α → β → γ} (blames : Blames calls first)
    (blames' : Blames calls' second) :
    Blames (calls ++ calls') (first >>= fun left => second >>= fun right => pure (build left right))
    := by
  refine .bind (blames.within (List.subset_append_left _ _)) fun left _ => ?_
  refine .bind (blames'.within (List.subset_append_right _ _)) fun right _ => ?_
  exact .pure (build left right)

theorem acceptsArity_zero {id : String} {builtin : Builtin}
    (known : Builtin.find? id = some builtin) : builtin.acceptsArity 0 = false := by
  have each : ∀ builtin ∈ Builtin.all, builtin.acceptsArity 0 = false := by decide
  exact each builtin (List.mem_of_find?_eq_some known)

theorem acceptsArity_store {id : String} {builtin : Builtin}
    (known : Builtin.find? id = some builtin) (isStore : builtin.kind = .store) :
    builtin.acceptsArity 1 = false := by
  obtain rfl : builtin = .fixed "assign" 2 .store :=
    Builtin.eq_of_kind known (by decide) (isStore ▸ rfl) (isStore ▸ rfl)
  decide

mutual

/-- An expression has no C form for an internal cause only by a call. -/
theorem blames_lower (view : View) (place : Place) :
    (expr : Expr) → Blames expr.calls (lower view place expr)
  | .name id => .ok _
  | .constant value => .ok _
  | .binary _ left right | .logical _ left right =>
      (blames_lower view .operand left).both (blames_lower view .operand right)
  | .unary op operand => .bind (blames_lower view .operand operand) fun _ _ => .pure _
  | .compare op left right => by
      rw [lower, Expr.calls]
      refine .bind ((external_requireEquatable _ _).blames _) fun _ leftCompares => ?_
      refine .bind ((external_requireEquatable _ _).blames _) fun _ rightCompares => ?_
      exact (blames_lower view .operand left).both (blames_lower view .operand right)
  | .call (.name id) args => by
      have inside (params : List Ty) : Blames (⟨.name id, args⟩ :: callsIn args)
          (lowerArguments view params args) :=
        (blames_lowerArguments view params args).within (List.subset_cons_self _ _)
      rw [lower, Expr.calls, Expr.calls, List.nil_append]
      split
      · rename_i builtin known
        exact blames_lowerBuiltin view place known args
      · split
        · exact .error nofun
        · refine .bind ((external_called _ _).blames _) fun found _ => ?_
          cases found with
          | struct => exact .pure _
          | function params => exact .bind (inside params) fun _ _ => .pure _
  | .call (.member owner attr) args => by
      have inside (params : List Ty) : Blames (Expr.call (.member owner attr) args).calls
          (lowerArguments view params args) :=
        (blames_lowerArguments view params args).within
          (List.subset_cons_of_subset _ (List.subset_append_right _ _))
      have receiver : Blames (Expr.call (.member owner attr) args).calls
          (lower view .operand owner) :=
        (blames_lower view .operand owner).within
          (List.subset_cons_of_subset _ (List.subset_append_left _ _))
      rw [lower]
      split
      · split
        · exact .error nofun
        · refine .bind ((external_called _ _).blames _) fun found _ => ?_
          cases found with
          | struct => exact .pure _
          | function params => exact .bind (inside params) fun _ _ => .pure _
      · refine .bind ((external_calledMethod view owner attr).blames _) fun found isFound => ?_
        refine .bind receiver fun code isCode => ?_
        exact .bind (inside found.1.signature.params) fun _ _ => .pure _
  | .call (.constant _) _ | .call (.binary _ _ _) _ | .call (.unary _ _) _
  | .call (.compare _ _ _) _ | .call (.logical _ _ _) _ | .call (.call _ _) _
  | .call (.subscript _ _) _ => blames_error (.form rfl)
  | .member owner attr => by
      rw [lower]
      split
      · exact .ok _
      · exact .bind (blames_lower view .operand owner) fun _ _ => .pure _
  | .subscript value index =>
      (blames_lower view .operand value).both (blames_lower view .operand index)

theorem blames_lowerArguments (view : View) (params : List Ty) :
    (args : List Expr) → Blames (callsIn args) (lowerArguments view params args)
  | [] => .ok _
  | arg :: args => (blames_lower view _ arg).both (blames_lowerArguments view params.tail args)

theorem blames_lowerOperands (view : View) :
    (args : List Expr) → Blames (callsIn args) (lowerOperands view args)
  | [] => .ok _
  | arg :: args => (blames_lower view _ arg).both (blames_lowerOperands view args)

theorem blames_lowerBuiltin (view : View) (place : Place) {id : String} {builtin : Builtin}
    (known : Builtin.find? id = some builtin) :
    (args : List Expr) →
      Blames (⟨.name id, args⟩ :: callsIn args) (lowerBuiltin view place builtin args)
  | [] => by
      have missing {cause : Cause} (isCause : cause = .resultArity ∨
          cause = .missingArgument builtin) : Breaks ⟨.name id, []⟩ (.lowering cause) :=
        .arity known (acceptsArity_zero known) isCause
      rw [lowerBuiltin.eq_def]
      split
      · rename_i kind
        exact blames_error (.range known kind)
      · split
        · exact .error nofun
        · refine .bind ((external_payload _ _).blames _) fun slot isSlot => ?_
          exact blames_error (missing (.inl rfl))
        · exact .error nofun
      · split
        · exact .error nofun
        · refine .bind ((external_payload _ _).blames _) fun slot isSlot => ?_
          exact blames_error (missing (.inl rfl))
        · exact .error nofun
      · exact .ite (.ok _) (blames_error (missing (.inr rfl)))
  | first :: others => by
      have operand (place : Place) :
          Blames (⟨.name id, first :: others⟩ :: callsIn (first :: others))
            (lower view place first) :=
        (blames_lower view place first).within
          (List.subset_cons_of_subset _ (List.subset_append_left _ _))
      rw [lowerBuiltin.eq_def]
      split
      · rename_i kind
        exact blames_error (.range known kind)
      · split
        · exact .error nofun
        · refine .bind ((external_payload _ _).blames _) fun slot isSlot => ?_
          exact .bind (operand _) fun _ _ => .pure _
        · exact .error nofun
      · split
        · exact .error nofun
        · refine .bind ((external_payload _ _).blames _) fun slot isSlot => ?_
          exact .bind (operand _) fun _ _ => .pure _
        · exact .error nofun
      · dsimp only
        split
        all_goals try exact .bind (operand _) fun _ _ => .pure _
        · rename_i kind
          cases others with
          | nil =>
              refine .bind (operand _) fun pointer isPointer => ?_
              exact blames_error (.arity known (acceptsArity_store known kind) (.inr rfl))
          | cons second others =>
              have stored (place : Place) :
                  Blames (⟨.name id, first :: second :: others⟩ ::
                    callsIn (first :: second :: others)) (lower view place second) :=
                (blames_lower view place second).within fun call member => by
                  simp [callsIn, member]
              refine .bind (operand _) fun pointer isPointer => ?_
              exact .bind (stored _) fun _ _ => .pure _
        · rename_i kind
          refine .bind (fun fault failed _ => ?_) fun ty isTy => ?_
          · exact ⟨_, List.mem_cons_self, .size known kind failed⟩
          · exact .bind ((external_typeOf _ _).blames _) fun _ _ => .pure _
        · refine .bind (operand _) fun code isCode => ?_
          refine .bind ((blames_lowerOperands view others).within ?_) fun _ _ => .pure _
          exact List.subset_cons_of_subset _ (List.subset_append_right _ _)

end

theorem blames_lowerAssign (view : View) (line : Nat) (target value : Expr) :
    Blames (target.calls ++ value.calls) (lowerAssign view line target value) := by
  rw [lowerAssign]
  split
  · exact .error nofun
  · exact (blames_lower view _ target).both (blames_lower view _ value)

theorem blames_lowerReturn (around : Surroundings) (view : View) (value : Option Expr) :
    Blames (callsIn? value) (lowerReturn around view value) := by
  rw [lowerReturn.eq_def]
  refine .ite (.ok _) ?_
  split
  · exact .ok _
  · rename_i value
    refine .ite (.ok _) (.bind ?_ fun _ _ => .pure _)
    exact (blames_lower view _ value).within (List.subset_append_left _ _)

theorem blames_lowerSubject (view : View) (subject : Expr) (walk : Walk) :
    Blames subject.calls (lowerSubject view subject walk) := by
  rw [lowerSubject]
  split
  · exact .bind (blames_lower view _ _) fun _ _ => .pure _
  · refine .ite (.bind (blames_lower view _ _) fun value isValue => ?_) (.error nofun)
    refine .ite (.pure _) ?_
    exact .bind ((external_declarator _ _ _).blames _) fun _ _ => .pure _

theorem blames_lowerPattern (view : View) (subject : Subject) (pattern : Pattern) :
    Blames pattern.calls (lowerPattern view subject pattern) := by
  cases pattern with
  | wildcard => exact .ok _
  | value expr => exact .bind (blames_lower view _ _) fun _ _ => .pure _

end Lower

end Offside
