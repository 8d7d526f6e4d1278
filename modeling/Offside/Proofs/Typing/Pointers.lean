import Offside.Proofs.Typing.Calls
import Offside.Proofs.Typing.Final

/-!
# Where pointers get their values

A pointer accepts pointers, arrays of what it points to, and whatever has the type of `None`. Calls
that give nothing back have that type as well, and so do the variables, fields and exports that are
declared with it.
-/

namespace Offside

inductive Destination
  | declared (written : TypeExpr)
  | target (place : Expr)
  | result (written : Option TypeExpr)
  | parameter (call : Call) (position : Nat)

structure Storing where
  into : Destination
  value : Expr

/-- What a statement puts a value into. -/
def Form.storings (result : Option TypeExpr) : Form → List Storing
  | .declare _ written (some value) => [⟨.declared written, value⟩]
  | .assign target value => [⟨.target target, value⟩]
  | .ret (some value) => [⟨.result result, value⟩]
  | _ => []

def Call.storings (call : Call) : List Storing :=
  call.args.zipIdx.map fun (arg, position) => ⟨.parameter call position, arg⟩

def functionStorings (site : Site) (decl : FunctionDef) : List (Site × Storing) :=
  (bodyStatements (0 :: site) 0 decl.body).flatMap fun (site, statement) =>
    (statement.form.storings decl.returns).map (site, ·)

/-- The values that a unit puts into something, each with the site where it does. -/
def unitStorings (body : List Statement) : List (Site × Storing) :=
  ofFunctions functionStorings body ++
    (unitCalls body).flatMap fun (site, call) => call.storings.map (site, ·)

/-- The places that a value gets to, itself or inside the result that it makes. -/
def landings : Ty → Expr → List (Ty × Expr)
  | .result ok err, .call (.name id) [arg] =>
      (.result ok err, .call (.name id) [arg]) ::
        match (Builtin.find? id).map Builtin.kind with
        | some .ok => landings ok arg
        | some .err => landings err arg
        | _ => []
  | place, value => [(place, value)]

namespace Check

open Outcome

variable {owner value : Expr} {attr : String} {position : Nat} {param : Ty}

/-- Whether calls of something give nothing back. -/
def Callee.isSilent : Callee → Bool
  | .builtin found => found.kind.isSilent
  | .function signature => signature.returns = .none
  | .constructor => false
  | .method signature => signature.returns = .none

/-- An expression that gives nothing in the scope at hand. -/
inductive GivesNothing (table : Table) : Expr → Prop
  | literal : GivesNothing table (.constant .none)
  | name {id : String} {symbol : Symbol} : table.lookup id = some symbol →
      symbol.kind = .value .none → GivesNothing table (.name id)
  | exported {owner : Expr} {attr : String} {module symbol : Symbol} :
      namedModule? table owner = some module → module.exported? attr = some symbol →
      symbol.kind = .value .none → GivesNothing table (.member owner attr)
  | field {owner : Expr} {attr : String} {ty : Ty} {struct : Symbol} {field : Field} :
      qualifiedType? table owner attr = none → typeOf table owner = .ok ty →
      structOf? table ty = some struct → struct.field? attr = some field → field.ty = .none →
      GivesNothing table (.member owner attr)
  | call {callee : Expr} {found : Callee} (args : List Expr) : callee? table callee = some found →
      found.isSilent = true → GivesNothing table (.call callee args)

variable {table : Table} {asked : Option Ty} {ty target : Ty} {arg : Expr} {args : List Expr}

theorem Called.eq_none_iff {callee : Callee} (called : Called table asked args callee ty) :
    ty = .none ↔ callee.isSilent = true := by
  cases called with
  | builtin _ typed =>
      have accepts := accepts_of_builtinType typed
      generalize isKind : Builtin.kind _ = kind at accepts
      cases accepts with
      | single _ _ gives => simpa [Callee.isSilent, isKind] using gives
      | _ => simp [Callee.isSilent, isKind, Builtin.Kind.isSilent, Payload.ty_ne_none]
  | function _ _ _ => simp [Callee.isSilent]
  | constructor _ _ => simp [Callee.isSilent]
  | method _ _ _ => simp [Callee.isSilent]

theorem givesNothing_call_iff {callee : Expr}
    (typed : typeIn table asked (.call callee args) = .ok ty) :
    ty = .none ↔ GivesNothing table (.call callee args) := by
  obtain ⟨found, isCallee, called⟩ := called_of_typeIn typed
  rw [called.eq_none_iff]
  constructor
  · exact .call args isCallee
  · intro gives
    cases gives with
    | call _ isCallee' isSilent =>
        obtain rfl := Option.some.inj (isCallee.symm.trans isCallee')
        exact isSilent

theorem givesNothing_name_iff {id : String} (typed : typeOf table (.name id) = .ok ty) :
    ty = .none ↔ GivesNothing table (.name id) := by
  obtain ⟨symbol, found, isValue⟩ := typeOf_name typed
  constructor
  · rintro rfl
    exact .name found isValue
  · intro gives
    cases gives with
    | name found' isNone =>
        obtain rfl := Option.some.inj (found.symm.trans found')
        exact SymbolKind.value.inj (isValue.symm.trans isNone)

theorem qualified_cases (qualified : qualifiedType? table owner attr = some (.ok ty)) :
    (namedModule? table owner = none ∧ ∃ name, ty = .named name) ∨
      ∃ module symbol, namedModule? table owner = some module ∧
        module.exported? attr = some symbol ∧ symbol.kind = .value ty := by
  cases owner with
  | name base =>
      cases found : table.lookup base with
      | none => simp [qualifiedType?, found] at qualified
      | some symbol =>
          cases kind : symbol.kind with
          | enum members =>
              cases member : symbol.member? attr with
              | none => simp [qualifiedType?, found, kind, member] at qualified
              | some number =>
                  refine .inl ⟨by simp [namedModule?, found, kind, SymbolKind.isModule], base, ?_⟩
                  simpa [qualifiedType?, found, kind, member, eq_comm] using qualified
          | module exports =>
              cases exported : symbol.exported? attr with
              | none => simp [qualifiedType?, found, kind, exported] at qualified
              | some other =>
                  refine .inr ⟨symbol, other, ?_, exported, ?_⟩
                  · simp [namedModule?, found, kind, SymbolKind.isModule]
                  · cases isKind : other.kind <;>
                      simp_all [qualifiedType?]
          | _ => simp [qualifiedType?, found, kind] at qualified
  | _ => simp [qualifiedType?] at qualified

theorem namedModule?_of_qualifiedType? (unqualified : qualifiedType? table owner attr = none) :
    namedModule? table owner = none := by
  cases owner with
  | name base =>
      cases found : table.lookup base with
      | none => simp [namedModule?, found]
      | some symbol =>
          cases kind : symbol.kind <;>
            simp_all [qualifiedType?, namedModule?, SymbolKind.isModule]
  | _ => rfl

theorem givesNothing_member_iff (typed : typeIn table asked (.member owner attr) = .ok ty) :
    ty = .none ↔ GivesNothing table (.member owner attr) := by
  cases qualified : qualifiedType? table owner attr with
  | some outcome =>
      simp only [typeIn, qualified] at typed
      subst typed
      rcases qualified_cases qualified with ⟨noModule, name, rfl⟩ | ⟨module, symbol, isModule,
        exported, isValue⟩
      · refine ⟨nofun, fun gives => ?_⟩
        cases gives with
        | exported isModule _ _ => simp [noModule] at isModule
        | field unqualified _ _ _ _ => simp [qualified] at unqualified
      · constructor
        · rintro rfl
          exact .exported isModule exported isValue
        · intro gives
          cases gives with
          | exported isModule' exported' isNone =>
              obtain rfl := Option.some.inj (isModule.symm.trans isModule')
              obtain rfl := Option.some.inj (exported.symm.trans exported')
              exact SymbolKind.value.inj (isValue.symm.trans isNone)
          | field unqualified _ _ _ _ => simp [qualified] at unqualified
  | none =>
      simp only [typeIn, qualified, bind_eq_ok] at typed
      obtain ⟨owned, isOwned, isField⟩ := typed
      cases behind : structOf? table owned with
      | none => simp [fieldType, behind] at isField
      | some struct =>
          cases found : struct.field? attr with
          | none =>
              simp only [fieldType, behind, found] at isField
              split at isField <;> simp at isField
          | some field =>
              obtain rfl : field.ty = ty := by simpa [fieldType, behind, found] using isField
              constructor
              · exact .field qualified isOwned behind found
              · intro gives
                cases gives with
                | exported isModule _ _ =>
                    simp [namedModule?_of_qualifiedType? qualified] at isModule
                | field _ isOwned' behind' found' isNone =>
                    obtain rfl := Except.ok.inj (isOwned.symm.trans isOwned')
                    obtain rfl := Option.some.inj (behind.symm.trans behind')
                    obtain rfl := Option.some.inj (found.symm.trans found')
                    exact isNone

theorem scalar_of_unary {op : UnaryOp} {operand : Expr}
    (typed : typeIn table asked (.unary op operand) = .ok ty) :
    ty = .int ∨ ty = .float ∨ ty = .bool := by
  cases typedUnder_of_unary typed with
  | literal number => exact .inl rfl
  | @operand _ _ inner _ _ => cases op <;> cases inner <;> simp [unaryType, Ty.isNumeric]

theorem givesNothing_iff {expr : Expr} (typed : typeIn table asked expr = .ok ty) :
    ty = .none ↔ GivesNothing table expr := by
  have never (notNone : ty ≠ .none) (something : ¬ GivesNothing table expr) :
      ty = .none ↔ GivesNothing table expr := iff_of_false notNone something
  cases expr with
  | name id => exact givesNothing_name_iff typed
  | constant value =>
      obtain rfl : constantType value = ty := by cases value <;> simp_all [typeIn]
      cases value with
      | none => exact iff_of_true rfl .literal
      | _ => exact never (by rintro ⟨⟩) (by rintro ⟨⟩)
  | binary op left right =>
      simp only [typeIn, bind_eq_ok, pure_eq_ok] at typed
      obtain ⟨_, _, _, _, rfl⟩ := typed
      refine never ?_ (by rintro ⟨⟩)
      unfold Ty.arithmetic
      split <;> rintro ⟨⟩
  | unary op operand =>
      rcases scalar_of_unary typed with rfl | rfl | rfl <;>
        exact never (by rintro ⟨⟩) (by rintro ⟨⟩)
  | compare op left right =>
      simp only [typeIn, bind_eq_ok, compareType, ite_error_eq_ok] at typed
      obtain ⟨_, _, _, _, _, same⟩ := typed
      obtain rfl := Except.ok.inj same
      exact never (by rintro ⟨⟩) (by rintro ⟨⟩)
  | logical op left right =>
      simp only [typeIn, bind_eq_ok, pure_eq_ok] at typed
      obtain ⟨_, _, _, _, _, _, _, _, rfl⟩ := typed
      exact never (by rintro ⟨⟩) (by rintro ⟨⟩)
  | call callee args => exact givesNothing_call_iff typed
  | member owner attr => exact givesNothing_member_iff typed
  | subscript value index =>
      simp only [typeIn, bind_eq_ok] at typed
      obtain ⟨base, _, _, _, isItem⟩ := typed
      refine never ?_ (by rintro ⟨⟩)
      simp only [subscriptType, ite_error_eq_ok] at isItem
      obtain ⟨_, isItem⟩ := isItem
      split at isItem
      · obtain ⟨notNone, isItem⟩ := error_ite_eq_ok.mp isItem
        exact Except.ok.inj isItem ▸ notNone
      · simp at isItem

/-! ## What a pointer accepts -/

/-- A value for a pointer: one that fits, an array, or what gives nothing. -/
def PointerTakes (table : Table) (target : Ty) (value : Expr) : Prop :=
  ∃ ty, typeOf table value = .ok ty ∧
    ((∃ pointed, ty = .ptr pointed ∧ (pointed = target ∨ pointed = .none ∨ target = .none)) ∨
      (∃ size, ty = .array target size) ∨ GivesNothing table value)

theorem accepts_pointer_iff {value : Ty} :
    (Ty.ptr target).accepts value = true ↔
      (∃ pointed, value = .ptr pointed ∧
        (pointed = target ∨ pointed = .none ∨ target = .none)) ∨
      (∃ size, value = .array target size) ∨ value = .none := by
  cases value with
  | ptr pointed =>
      simp only [Ty.accepts, Ty.isGenericPointer, Bool.or_eq_true, decide_eq_true_eq,
        Ty.ptr.injEq]
      grind
  | array item size => simp [Ty.accepts, eq_comm]
  | _ => simp [Ty.accepts]

/-- The type that is asked for matters to the constructors of results only. -/
theorem typeIn_pointer {expr : Expr} :
    typeIn table (some (.ptr target)) expr = .ok ty ↔ typeOf table expr = .ok ty := by
  rw [typeOf]
  cases expr with
  | call callee args =>
      cases callee with
      | name id =>
          cases known : Builtin.find? id with
          | none => simp [typeIn, known]
          | some builtin =>
              simp only [typeIn, known]
              rw [builtinType.eq_def, builtinType.eq_def table none]
              cases kind : builtin.kind <;> simp
      | _ => simp [typeIn]
  | unary op operand =>
      by_cases literal : ∃ number, op = .neg ∧ operand = .constant (.int number)
      · obtain ⟨number, rfl, rfl⟩ := literal
        simp [typeIn]
      · have other (number : Int) (isNeg : op = .neg) : operand ≠ .constant (.int number) :=
          fun isLiteral => literal ⟨number, isNeg, isLiteral⟩
        rw [typeIn.eq_6 _ _ _ _ other, typeIn.eq_6 _ _ _ _ other]
  | _ => simp [typeIn]

/-- What a check lets into a pointer. -/
theorem checkValue_pointer_iff :
    checkValue table (.ptr target) value = .ok () ↔ PointerTakes table target value := by
  simp only [checkValue, fits, bind_eq_ok, ite_error_eq_ok, and_true, PointerTakes, typeIn_pointer]
  constructor
  · rintro ⟨ty, typed, accepts⟩
    exact ⟨ty, typed, by simpa [← givesNothing_iff typed, accepts_pointer_iff] using accepts⟩
  · rintro ⟨ty, typed, takes⟩
    exact ⟨ty, typed, by simpa [← givesNothing_iff typed, accepts_pointer_iff] using takes⟩

theorem checkValue_part {ok err : Ty} {id : String} {builtin : Builtin}
    (known : Builtin.find? id = some builtin) (fills : builtin.kind = .ok ∨ builtin.kind = .err)
    (accepted : checkValue table (.result ok err) (.call (.name id) [arg]) = .ok ()) :
    checkValue table (if builtin.kind = .ok then ok else err) arg = .ok () := by
  simp only [checkValue, bind_eq_ok, typeIn, known] at accepted
  obtain ⟨ty, typed, _⟩ := accepted
  rw [builtinType.eq_def] at typed
  rcases fills with kind | kind <;>
    simp only [kind, bind_eq_ok, pure_eq_ok, reduceCtorEq, if_true, if_false] at typed <;>
    obtain ⟨found, isTyped, _, fitting, _⟩ := typed <;>
    simpa [kind, checkValue] using bind_eq_ok.mpr ⟨found, isTyped, fitting⟩

theorem checkValue_of_landings {place inner : Ty} {part : Expr}
    (accepted : checkValue table place value = .ok ())
    (lands : (inner, part) ∈ landings place value) : checkValue table inner part = .ok () := by
  fun_induction landings place value with
  | case1 ok err id arg inOk inErr =>
      rcases List.mem_cons.mp lands with same | later
      · obtain ⟨rfl, rfl⟩ := Prod.mk.inj same
        exact accepted
      · cases known : Builtin.find? id with
        | none => simp [known] at later
        | some builtin =>
            cases kind : builtin.kind with
            | ok =>
                have filled := checkValue_part known (.inl kind) accepted
                exact inOk (by simpa [kind] using filled) (by simpa [known, kind] using later)
            | err =>
                have filled := checkValue_part known (.inr kind) accepted
                exact inErr (by simpa [kind] using filled) (by simpa [known, kind] using later)
            | _ => simp [known, kind] at later
  | case2 place value _ =>
      obtain ⟨rfl, rfl⟩ := Prod.mk.inj (List.mem_singleton.mp lands)
      exact accepted

/-- The type of the parameter of a builtin that an argument is put into. -/
def builtinParameter? (table : Table) : Builtin.Kind → List Expr → Nat → Option Ty
  | .store, [pointer, _], 1 => (typeOf table pointer).toOption.bind target?
  | .malloc, [_], 0 => some .int
  | .unwrapOr payload, [_, _], 1 => some payload.ty
  | .expect _, [_, _], 1 => some .str
  | _, _, _ => none

/-- The type of the parameter that an argument is put into. -/
def Callee.parameter? (table : Table) (args : List Expr) (position : Nat) : Callee → Option Ty
  | .builtin found => builtinParameter? table found.kind args position
  | .function signature => signature.params[position]?
  | .constructor => none
  | .method signature => signature.params[position]?

theorem checkValue_of_argumentsFit {callee : String} {params : List Ty} {count : Nat}
    (fit : argumentsFit table callee count params args = .ok ())
    (isParam : params[position]? = some param) (isArg : args[position]? = some arg) :
    checkValue table param arg = .ok () := by
  induction args generalizing params position count with
  | nil => simp at isArg
  | cons first args induction =>
      cases params with
      | nil => simp at isParam
      | cons own params =>
          simp only [argumentsFit, bind_eq_ok, inArgument, mapError_eq_ok] at fit
          obtain ⟨_, accepted, others⟩ := fit
          cases position with
          | zero =>
              obtain rfl : own = param := by simpa using isParam
              obtain rfl : first = arg := by simpa using isArg
              exact accepted
          | succ position => exact induction others (by simpa using isParam) (by simpa using isArg)

theorem checkValue_of_accepts {kind : Builtin.Kind} (accepts : Accepts table kind args ty)
    (isParam : builtinParameter? table kind args position = some param)
    (isArg : args[position]? = some arg) : checkValue table param arg = .ok () := by
  rw [builtinParameter?.eq_def] at isParam
  split at isParam
  · cases accepts with
    | store isTyped isTarget stored =>
        have isReceived : typeOf table _ = .ok _ := isTyped
        obtain rfl : _ = param := by
          simpa [isReceived, Except.toOption, isTarget] using isParam
        exact Option.some.inj isArg ▸ stored
  · cases accepts with
    | malloc accepted => exact Option.some.inj isArg ▸ Option.some.inj isParam ▸ accepted
    | single others _ _ => simp at others
  · cases accepts with
    | fallback _ accepted => exact Option.some.inj isArg ▸ Option.some.inj isParam ▸ accepted
  · cases accepts with
    | message _ accepted => exact Option.some.inj isArg ▸ Option.some.inj isParam ▸ accepted
  · simp at isParam

theorem checkValue_of_called {callee : Callee} (called : Called table asked args callee ty)
    (isParam : callee.parameter? table args position = some param)
    (isArg : args[position]? = some arg) : checkValue table param arg = .ok () := by
  cases called with
  | builtin _ typed => exact checkValue_of_accepts (accepts_of_builtinType typed) isParam isArg
  | function _ _ fit => exact checkValue_of_argumentsFit fit isParam isArg
  | constructor _ _ => simp [Callee.parameter?] at isParam
  | method _ _ fit => exact checkValue_of_argumentsFit fit isParam isArg

/-- The type of what a value is put into. -/
def placeType? (table : Table) : Destination → Option Ty
  | .declared written => (Annotated.ofExpr written).toOption.map (·.ty)
  | .target place => (targetType table place).toOption
  | .result none => some .none
  | .result (some written) => (Ty.ofExpr written).toOption
  | .parameter call position =>
      (callee? table call.callee).bind (Callee.parameter? table call.args position)

/-- A value that what it is put into accepts. -/
def Stored (table : Table) (storing : Storing) : Prop :=
  ∀ place, placeType? table storing.into = some place →
    checkValue table place storing.value = .ok ()

theorem stored_of_call {call : Call} (admitted : Admitted table call) :
    ∀ storing ∈ call.storings, Stored table storing := by
  intro storing member place isPlace
  obtain ⟨⟨arg, position⟩, isArg, rfl⟩ := List.mem_map.mp member
  have isArg := List.mem_zipIdx_iff_getElem?.mp isArg
  obtain ⟨callee, isCallee, isParam⟩ := Option.bind_eq_some_iff.mp isPlace
  cases admitted with
  | typed isTyped =>
      obtain ⟨_, _, isTyped⟩ := isTyped
      obtain ⟨found, isFound, called⟩ := called_of_typeIn isTyped
      obtain rfl := Option.some.inj (isFound.symm.trans isCallee)
      exact checkValue_of_called called isParam isArg
  | range isRange _ =>
      -- The bounds of a range are not put into anything.
      obtain ⟨id, same, known, kind⟩ := eq_call_of_rangeCall? isRange
      obtain rfl : Callee.builtin _ = callee := by
        simpa [(Expr.call.inj same).1, callee?, known] using isCallee
      simp [Callee.parameter?, builtinParameter?, kind] at isParam

theorem stored_of_form {returns : Ty} {result : Option TypeExpr} {statement : Statement}
    (isResult : placeType? table (.result result) = some returns)
    (accepted : AcceptedIn returns table statement) :
    ∀ storing ∈ statement.form.storings result, Stored table storing := by
  obtain ⟨around, after, rfl, accepted⟩ := accepted
  obtain ⟨line, form⟩ := statement
  cases form with
  | declare target written value =>
      cases value with
      | none => exact List.forall_mem_nil _
      | some value =>
          rw [checkForm, onLine_eq_ok] at accepted
          simp only [declareVariable, bind_eq_ok, annotatedOf, mapError_eq_ok] at accepted
          obtain ⟨_, _, annotated, isAnnotated, _, checked, _⟩ := accepted
          intro storing member place isPlace
          obtain rfl := List.mem_singleton.mp member
          obtain rfl : annotated.ty = place := by
            simpa [placeType?, isAnnotated, Except.toOption] using isPlace
          exact checked
  | assign target value =>
      simp only [checkForm, bind_eq_ok, onLine_eq_ok, checkAssign] at accepted
      obtain ⟨_, ⟨found, isTarget, checked⟩, _⟩ := accepted
      intro storing member place isPlace
      obtain rfl := List.mem_singleton.mp member
      obtain rfl : found = place := by
        simpa [placeType?, isTarget, Except.toOption] using isPlace
      split at checked
      · simp at checked
      · exact checked
  | ret value =>
      cases value with
      | none => exact List.forall_mem_nil _
      | some value =>
          simp only [checkForm, bind_eq_ok, onLine_eq_ok] at accepted
          obtain ⟨_, checked, _⟩ := accepted
          intro storing member place isPlace
          obtain rfl := List.mem_singleton.mp member
          obtain rfl := Option.some.inj (isResult.symm.trans isPlace)
          rw [checkReturn] at checked
          split at checked
          · rename_i isNone
            rw [isNone]
            cases value with
            | constant literal =>
                cases literal <;>
                  simp_all [Expr.isNone, checkValue, typeIn, constantType, fits, Ty.accepts]
            | _ => simp [Expr.isNone] at checked
          · exact checked
  | _ => exact List.forall_mem_nil _

/-- Every value that a checked unit puts into something is accepted by it. -/
theorem stored_unit {kind : UnitKind} {fragments : List Fragment} {body : List Statement}
    {table : Table} (checked : checkUnit kind fragments body = .ok table) :
    Covers Stored (visits kind fragments body) (unitStorings body) := by
  refine Covers.both ?_ ((admitted_unit checked).flatMap stored_of_call)
  refine covers_functions (fun {owner line decl _ _} site isChecked => ?_) checked
  obtain ⟨signature, isSignature, covers⟩ := accepted_function site isChecked
  refine covers.flatMap (stored_of_form ?_)
  simp only [signatureOf, bind_eq_ok, pure_eq_ok] at isSignature
  obtain ⟨_, _, returns, isReturns, rfl⟩ := isSignature
  cases written : decl.returns with
  | none => simpa [placeType?, written] using isReturns
  | some written' =>
      simp only [written, onLine_eq_ok, mapError_eq_ok] at isReturns
      simp [placeType?, isReturns, Except.toOption]

theorem eq_none_of_isInitializer (initial : isInitializer value = true)
    (accepted : checkValue table (.ptr target) value = .ok ()) : value = .constant .none := by
  obtain ⟨ty, typed, takes⟩ := checkValue_pointer_iff.mp accepted
  rw [← givesNothing_iff typed] at takes
  cases value with
  | constant literal =>
      obtain rfl : constantType literal = ty := by cases literal <;> simp_all [typeOf, typeIn]
      cases literal <;> simp [constantType] at takes ⊢
  | unary op operand => rcases scalar_of_unary typed with rfl | rfl | rfl <;> simp at takes
  | _ => simp [isInitializer] at initial

end Check

/-- A check lets a value into a pointer exactly if it is a pointer that fits, an array of what is
pointed to, or gives nothing. So is every value that an accepted unit declares, assigns, passes or
gives back as a pointer; at the top level a pointer starts with `None`. -/
theorem pointer_values {kind : UnitKind} {modules : List Fragment} {body : List Statement}
    {table : Table} (analyzed : analyze kind modules body = .ok table) :
    (∀ (here : Table) (target : Ty) (value : Expr),
      Check.checkValue here (.ptr target) value = .ok () ↔ Check.PointerTakes here target value) ∧
    (∀ site storing, (site, storing) ∈ unitStorings body →
      ∃ moment, .reaches site moment ∈ Check.visits kind modules body ∧
        ∀ place, Check.placeType? moment.table storing.into = some place →
          ∀ target value, (.ptr target, value) ∈ landings place storing.value →
            Check.PointerTakes moment.table target value) ∧
    ∀ line target written value pointed isFinal,
      (⟨line, .declare target written (some value)⟩ : Statement) ∈ body →
      Annotated.ofExpr written = .ok ⟨.ptr pointed, isFinal⟩ → value = .constant .none := by
  refine ⟨fun _ _ _ => Check.checkValue_pointer_iff, ?_, ?_⟩
  · intro site storing member
    obtain ⟨moment, reached, stored⟩ := Check.stored_unit analyzed site storing member
    refine ⟨moment, reached, fun place isPlace target value lands => ?_⟩
    have accepted := Check.checkValue_of_landings (stored place isPlace) lands
    exact Check.checkValue_pointer_iff.mp accepted
  · intro line target written value pointed isFinal member isAnnotated
    obtain ⟨annotated, before, isAnnotated', _, starts⟩ := Check.starts_of_declare analyzed member
    obtain rfl : ⟨.ptr pointed, isFinal⟩ = annotated :=
      Except.ok.inj (isAnnotated.symm.trans (Outcome.mapError_eq_ok.mp isAnnotated'))
    obtain ⟨initial, accepted⟩ := starts value rfl
    exact Check.eq_none_of_isInitializer initial accepted

/-- What is printed gives nothing. -/
def printed : Expr := .call (.name "print") [.constant (.int 1)]

/-- A program with a pointer that starts with it. -/
def pointerFromPrint : List Statement :=
  [⟨1, .function ⟨"main", [], none,
    [⟨2, .declare (.name "p") (.generic "ptr" [.name "int"]) (some printed)⟩]⟩⟩]

theorem pointer_values_print :
    ∃ table moment, analyze .program [] pointerFromPrint = .ok table ∧
      .reaches [0, 0, 0] moment ∈ Check.visits .program [] pointerFromPrint ∧
      Check.PointerTakes moment.table .int printed ∧
      Check.checkValue moment.table (.ptr .int) printed = .ok () ∧
      Check.typeOf moment.table printed = .ok .none ∧ printed ≠ .constant .none := by
  obtain ⟨table, analyzed⟩ : ∃ table, analyze .program [] pointerFromPrint = .ok table :=
    ⟨_, by with_unfolding_all rfl⟩
  have stored : ([0, 0, 0], ⟨.declared (.generic "ptr" [.name "int"]), printed⟩) ∈
      unitStorings pointerFromPrint :=
    List.mem_of_getElem? (rfl : (unitStorings pointerFromPrint)[0]? = some _)
  obtain ⟨accepts, stores, _⟩ := pointer_values analyzed
  obtain ⟨moment, reached, takes⟩ := stores _ _ stored
  have taken : Check.PointerTakes moment.table .int printed :=
    takes (.ptr .int) rfl .int printed List.mem_cons_self
  refine ⟨table, moment, analyzed, reached, taken, (accepts _ _ _).mpr taken, rfl, nofun⟩

end Offside
