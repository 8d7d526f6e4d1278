import Offside.Check.Expression
import Offside.Lower.Expression
import Offside.Proofs.Outcome

/-!
# Slots of results

A result is made in the slot that suits the type of its value, and it is read by a builtin that is
bound to a slot. The checker and the generated code choose the slot each for themselves, and they
choose the same.
-/

namespace Offside

open Outcome

namespace Lower

/-- Where the checker knows a slot, the generated code uses it. -/
theorem payload_of_payload? {table other : Table} {ty : Ty} {slot : Payload}
    (sameGlobals : ∀ name, other.global? name = table.global? name)
    (known : Check.payload? table ty = some slot) : payload other ty = .ok slot := by
  cases ty with
  | named name =>
      have isKnown : Check.isEnum table (.named name) = true ∧ Payload.int = slot := by
        simpa [Check.payload?, Payload.ofTy?] using known
      obtain ⟨isEnumeration, rfl⟩ := isKnown
      have isEnumeration : isEnum other (.named name) = true := by
        simp only [Check.isEnum, Ty.name?] at isEnumeration
        simp only [isEnum, Ty.name?, hasAggregate, sameGlobals]
        split at isEnumeration
        · rename_i isGlobal
          simp [isGlobal, isEnumeration]
        · cases isEnumeration
      rw [payload, if_pos isEnumeration]
  | _ =>
      simp only [Check.payload?, Check.isEnum, Ty.name?, Bool.false_eq_true, if_false] at known
      simp only [payload, isEnum, Ty.name?, Bool.false_eq_true, if_false, known]

/-- A builtin that is bound to a slot reads only results that use it. -/
theorem payload?_of_unwrap {table : Table} {asked : Option Ty} {builtin : Builtin} {slot : Payload}
    {operand : Expr} {others : List Expr} {ty ok err : Ty}
    (reads : builtin.kind.payload? = some slot)
    (unwraps : Check.builtinType table asked builtin (operand :: others) = .ok ty)
    (isOperand : Check.typeOf table operand = .ok (.result ok err)) :
    Check.payload? table ok = some slot := by
  have carries : Check.carries table builtin.name slot (.result ok err) = .ok () := by
    have isOperand : Check.typeIn table none operand = .ok (.result ok err) := isOperand
    obtain ⟨name, least, most, kind⟩ := builtin
    cases kind with
    | unwrap _ | unwrapOr _ | expect _ =>
        obtain rfl := Option.some.inj reads
        rw [Check.builtinType.eq_def] at unwraps
        rcases others with _ | ⟨second, _ | ⟨third, rest⟩⟩ <;>
          simp only [error_ite_eq_ok, isOperand, ok_bind, bind_eq_ok, reduceCtorEq, and_false]
            at unwraps
        obtain ⟨_, _, carries, _⟩ := unwraps
        exact carries
    | _ => simp [Builtin.Kind.payload?] at reads
  simpa [Check.carries, Check.okType] using carries

theorem lower_ok {view : View} {ok err : Ty} {slot : Payload} (value : Expr)
    (isSlot : payload view.table ok = .ok slot) :
    lower view (.stored (some (.result ok err))) (.call (.name "Ok") [value]) =
      (lower view (.stored (some ok)) value).map (.result .ok slot) := by
  have isBuiltin : Builtin.find? "Ok" = some (.fixed "Ok" 1 .ok) := by decide
  rw [lower, isBuiltin]
  dsimp only
  rw [lowerBuiltin]
  simp only [Builtin.fixed, isSlot, ok_bind, if_true]
  cases lower view (.stored (some ok)) value <;> rfl

theorem eq_singleton_of_checkValue {table : Table} {ok err : Ty} {args : List Expr}
    (checked : Check.checkValue table (.result ok err) (.call (.name "Ok") args) = .ok ()) :
    ∃ value, args = [value] := by
  have isBuiltin : Builtin.find? "Ok" = some (.fixed "Ok" 1 .ok) := by decide
  simp only [Check.checkValue, Check.typeIn, isBuiltin, bind_eq_ok] at checked
  obtain ⟨_, typed, _⟩ := checked
  rw [Check.builtinType.eq_def] at typed
  rcases args with _ | ⟨value, _ | ⟨second, rest⟩⟩
  · simp [Builtin.fixed] at typed
  · exact ⟨value, rfl⟩
  · simp [Builtin.fixed] at typed

/-- A result of a type that a builtin may read is made in the slot that it reads, and its making
fails only as that of the value does. -/
theorem lower_ok_of_unwrap {table other : Table} {view : View} {asked : Option Ty} {id : String}
    {builtin : Builtin} {slot : Payload} {operand : Expr} {others args : List Expr}
    {ty ok err ok' err' : Ty} (sameGlobals : ∀ name, view.table.global? name = table.global? name)
    (accepts : (Ty.result ok' err').accepts (.result ok err) = true)
    (isBuiltin : Builtin.find? id = some builtin) (reads : builtin.kind.payload? = some slot)
    (unwraps : Check.typeIn table asked (.call (.name id) (operand :: others)) = .ok ty)
    (isOperand : Check.typeOf table operand = .ok (.result ok' err'))
    (checked : Check.checkValue other (.result ok err) (.call (.name "Ok") args) = .ok ()) :
    ∃ value, args = [value] ∧
      lower view (.stored (some (.result ok err))) (.call (.name "Ok") args) =
        (lower view (.stored (some ok)) value).map (.result .ok slot) := by
  obtain ⟨rfl, rfl⟩ : ok' = ok ∧ err' = err := by simpa [Ty.accepts] using accepts
  obtain ⟨value, rfl⟩ := eq_singleton_of_checkValue checked
  simp only [Check.typeIn, isBuiltin] at unwraps
  have isSlot := payload_of_payload? sameGlobals (payload?_of_unwrap reads unwraps isOperand)
  exact ⟨value, rfl, lower_ok value isSlot⟩

def resultTable : Table :=
  ⟨[⟨none, [⟨"E", .enum [("A", 0)], false, .own, []⟩, ⟨"P", .struct [] [], false, .own, []⟩,
    ⟨"f", .function ⟨[.result (.named "P") .str], .int⟩, false, .own, []⟩,
    ⟨"p", .value (.named "P"), false, .own, []⟩,
    ⟨"e", .value (.result (.named "E") .str), false, .own, []⟩,
    ⟨"r", .value (.result .int .str), false, .own, []⟩]⟩], 0⟩

theorem lower_ok_of_unwrap_enumeration :
    Check.typeOf resultTable (.call (.name "unwrap_int") [.name "e"]) = .ok .int ∧
      Check.typeOf resultTable (.name "e") = .ok (.result (.named "E") .str) ∧
      Check.checkValue resultTable (.result (.named "E") .str)
        (.call (.name "Ok") [.member (.name "E") "A"]) = .ok () ∧
      lower ⟨resultTable, 0⟩ (.stored (some (.result (.named "E") .str)))
        (.call (.name "Ok") [.member (.name "E") "A"]) = .ok (.result .ok .int (.name "E_A")) := by
  have isBuiltin : Builtin.find? "unwrap_int" = some (.fixed "unwrap_int" 1 (.unwrap .int)) := by
    decide
  have unwraps : Check.typeOf resultTable (.call (.name "unwrap_int") [.name "e"]) = .ok .int := by
    with_unfolding_all rfl
  have isOperand : Check.typeOf resultTable (.name "e") = .ok (.result (.named "E") .str) := by
    with_unfolding_all rfl
  have checked : Check.checkValue resultTable (.result (.named "E") .str)
      (.call (.name "Ok") [.member (.name "E") "A"]) = .ok () := by with_unfolding_all rfl
  have isMember : lower ⟨resultTable, 0⟩ (.stored (some (.named "E"))) (.member (.name "E") "A") =
      .ok (.name "E_A") := by with_unfolding_all rfl
  have sameGlobals (name : String) :
      (View.mk resultTable 0).table.global? name = resultTable.global? name := rfl
  obtain ⟨value, isValue, lowered⟩ :=
    lower_ok_of_unwrap sameGlobals (by decide) isBuiltin rfl unwraps isOperand checked
  obtain rfl := (List.cons.inj isValue).1
  rw [isMember] at lowered
  exact ⟨unwraps, isOperand, checked, lowered⟩

/-- The value of a result may hold one that no slot carries. -/
theorem exists_noPayload_of_unwrap :
    Check.typeOf resultTable (.call (.name "unwrap_int") [.name "r"]) = .ok .int ∧
      Check.typeOf resultTable (.name "r") = .ok (.result .int .str) ∧
      Check.checkValue resultTable (.result .int .str)
        (.call (.name "Ok") [.call (.name "f") [.call (.name "Ok") [.name "p"]]]) = .ok () ∧
      lower ⟨resultTable, 0⟩ (.stored (some (.result .int .str)))
        (.call (.name "Ok") [.call (.name "f") [.call (.name "Ok") [.name "p"]]]) =
        .error (.lowering (.noPayload (.named "P"))) := by
  refine ⟨?_, ?_, ?_, ?_⟩ <;> with_unfolding_all rfl

end Lower

end Offside
