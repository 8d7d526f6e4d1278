import Mathlib
import Offside.Check.Expression
import Offside.Lower.Expression
import Offside.Proofs.C.Decay

/-!
# Sizes of types and of variables

What `sizeof` counts beside what a variable of the same type takes up. The type in `sizeof` is
written as in a signature, where an array is a pointer to its items, while a variable is declared
with all of its sizes.
-/

namespace Offside

namespace C

/-- How many characters objects that are no arrays take in a C implementation. -/
structure DataModel where
  size : ObjectTy → Nat
  positive : ∀ ty, 0 < size ty
  char : size .char = 1
  generic : size (.pointer .void) = size (.pointer .char)
  struct : ∀ tag other, size (.pointer (.struct tag)) = size (.pointer (.struct other))

namespace ObjectTy

/-- The size of an object. An array has that of its items together. -/
def size? (model : DataModel) : ObjectTy → Option Nat
  | void => none
  | array item count => (size? model item).map (count * ·)
  | ty => some (model.size ty)

/-- How many pointers lead to what a type is about. -/
def depth : ObjectTy → Nat
  | pointer target => target.depth + 1
  | _ => 0

end ObjectTy

namespace DataModel

/-- Objects take one character each, but for those behind some number of pointers. -/
def layered (layer size : Nat) (behind : 0 < layer) (some : 0 < size) : DataModel where
  size ty := if ty.depth = layer then size else 1
  positive ty := by
    split
    · exact some
    · exact Nat.one_pos
  char := if_neg (Nat.ne_of_lt behind)
  generic := rfl
  struct _ _ := rfl

/-- Structs and enumerations take two characters each, and all else one. -/
def tagged : DataModel where
  size
    | .struct _ => 2
    | .enum _ => 2
    | _ => 1
  positive ty := by
    split
    · exact Nat.two_pos
    · exact Nat.two_pos
    · exact Nat.one_pos
  char := rfl
  generic := rfl
  struct _ _ := rfl

end DataModel

theorem Ty.size?_object (model : DataModel) {ty : Ty} (known : ty ≠ .void) :
    ty.object.size? model = some (model.size ty.object) := by
  cases ty with
  | void => exact absurd rfl known
  | _ => rfl

/-- A variable takes up the sizes of its dimensions times that of an item. -/
theorem Declarator.size?_object (model : DataModel) (declared : Declarator) :
    declared.object.size? model =
      (declared.ty.object.size? model).map (declared.sizes.prod * ·) := by
  obtain ⟨ty, name, sizes⟩ := declared
  induction sizes with
  | nil => simp [object]
  | cons size sizes induction =>
      simp only [object, List.foldr_cons, ObjectTy.size?] at induction ⊢
      rw [induction, Option.map_map]
      congr 1
      funext one
      simp [Nat.mul_assoc]

end C

namespace Lower

open Outcome

variable {table : Table} {name : String}

/-- The type of an array in a signature has a pointer for each dimension. -/
theorem depth_of_typeOf {table : Table} {ty : Ty} {written item : C.Ty}
    (lowers : typeOf table ty = .ok written)
    (lowersItem : typeOf table (dimensions ty).1 = .ok item) :
    written.object.depth = item.object.depth + (dimensions ty).2.length := by
  by_cases isArray : ∃ inner count, ty = .array inner count
  · obtain ⟨inner, count, rfl⟩ := isArray
    obtain ⟨target, lowersInner, rfl⟩ := typeOf_array.mp lowers
    have deeper := depth_of_typeOf lowersInner lowersItem
    simp only [C.Ty.object, C.ObjectTy.depth, deeper, dimensions, List.length_cons]
    omega
  · have plain : ∀ inner count, ty ≠ .array inner count :=
      fun inner count same => isArray ⟨inner, count, same⟩
    rw [dimensions_of_plain plain] at lowersItem ⊢
    obtain rfl : written = item := Except.ok.inj (lowers.symm.trans lowersItem)
    simp
termination_by sizeOf ty

/-- On some implementation an array and its pointer differ in size. -/
theorem size_ne_of_array {item : Ty} {count : Nat} {written : C.Ty} {declared : C.Declarator}
    (lowers : typeOf table (.array item count) = .ok written)
    (declares : declarator table (.array item count) name = .ok declared) :
    ∃ model, written.object.size? model ≠ declared.object.size? model := by
  simp only [declarator, bind_eq_ok, pure_eq_ok] at declares
  obtain ⟨inner, lowersItem, rfl⟩ := declares
  have deeper := depth_of_typeOf lowers lowersItem
  obtain ⟨target, -, rfl⟩ := typeOf_array.mp lowers
  let sizes := (dimensions (.array item count)).2
  have below : inner.object.depth ≠ (C.Ty.pointer target).object.depth := by
    rw [deeper, dimensions, List.length_cons]
    omega
  refine ⟨.layered (C.Ty.pointer target).object.depth (sizes.prod + 1) (Nat.succ_pos _)
    (Nat.succ_pos _), ?_⟩
  rw [C.Declarator.size?_object, C.Ty.size?_object _ (by simp)]
  by_cases none : inner = .void
  · simp [none, C.Ty.object, C.ObjectTy.size?]
  · rw [C.Ty.size?_object _ none]
    simp [C.DataModel.layered, below, sizes]

theorem exists_tagged_of_namedType {ty : C.Ty} (lowers : namedType table name = .ok ty) :
    ∃ symbol, tagged? symbol = some ty := by
  have imported (found : (aggregate? table name).bind tagged? = some ty) :
      ∃ symbol, tagged? symbol = some ty := by
    obtain ⟨symbol, -, isTagged⟩ := Option.bind_eq_some_iff.mp found
    exact ⟨symbol, isTagged⟩
  simp only [namedType] at lowers
  repeat' split at lowers
  all_goals cases lowers
  · exact imported ‹_›
  · exact ⟨_, ‹_›⟩
  · exact imported ‹_›

theorem size_of_namedType {ty : C.Ty} (lowers : namedType table name = .ok ty) :
    ty.object.size? C.DataModel.tagged = some 2 := by
  obtain ⟨symbol, isTagged⟩ := exists_tagged_of_namedType lowers
  simp only [tagged?] at isTagged
  split at isTagged
  · obtain rfl := Option.some.inj isTagged
    rfl
  · obtain rfl := Option.some.inj isTagged
    rfl
  · exact nomatch isTagged

/-- A plain type name is built in, or stands for a declaration. -/
theorem ofName_cases {id : String} {ty : Ty} (means : Ty.ofName id = .ok ty) :
    ty = .named id ∨ ty ∈ [Ty.int, .float, .bool, .str, .none] := by
  simp only [Ty.ofName] at means
  repeat' split at means
  all_goals cases means <;> simp

/-- Both ends ask for the same size, unless a declaration has a built-in name. -/
theorem sizeofType_cases {now : Table} {operand : Expr} {ty asked : Ty}
    (accepted : Check.sizeofType now operand = .ok ty) (lowers : sizeofType operand = .ok asked) :
    asked = ty ∨ (∃ id, ty = .named id) ∧ asked ∈ [Ty.int, .float, .bool, .str, .none] := by
  simp only [Check.sizeofType, bind_eq_ok] at accepted
  obtain ⟨found, means, accepted⟩ := accepted
  obtain rfl : found = ty := by
    split at accepted
    · exact pure_eq_ok.mp (error_ite_eq_ok.mp accepted).2
    · exact pure_eq_ok.mp accepted
  cases operand with
  | constant value =>
      cases value with
      | str text =>
          simp only [sizeofType] at lowers
          simp only at means
          cases read : parseType text 0 with
          | error detail => simp [read] at lowers
          | ok written =>
              simp only [read, mapError_eq_ok] at lowers means
              exact .inl (Except.ok.inj (lowers.symm.trans means))
      | _ => simp [sizeofType] at lowers
  | name id =>
      simp only [sizeofType, mapError_eq_ok] at lowers
      simp only [lowers] at means
      rcases ite_eq_iff.mp means with ⟨-, isNamed⟩ | ⟨-, isWord⟩
      · obtain rfl := Except.ok.inj isNamed
        rcases ofName_cases lowers with rfl | word
        · exact .inl rfl
        · exact .inr ⟨⟨id, rfl⟩, word⟩
      · cases asked with
        | named other => cases isWord
        | _ => exact .inl (Except.ok.inj isWord)
  | _ => simp [sizeofType] at lowers

theorem size_of_word {word : Ty} {written : C.Ty}
    (isWord : word ∈ [Ty.int, .float, .bool, .str, .none])
    (lowers : typeOf table word = .ok written) :
    written.object.size? C.DataModel.tagged ≠ some 2 := by
  simp only [List.mem_cons, List.not_mem_nil, or_false] at isWord
  rcases isWord with rfl | rfl | rfl | rfl | rfl <;> obtain rfl := Except.ok.inj lowers
  all_goals simp [C.Ty.object, C.ObjectTy.size?, C.DataModel.tagged]

/-- What `sizeof` is lowered to asks for the C type of its operand. -/
theorem lower_sizeof {view : View} {place : Place} {operand : Expr} {code : C.Expr} :
    lower view place (.call (.name "sizeof") [operand]) = .ok code ↔
      ∃ asked, sizeofType operand = .ok asked ∧
        ∃ written, typeOf view.table asked = .ok written ∧ .sizeOf written = code := by
  have isBuiltin : ∃ builtin, Builtin.find? "sizeof" = some builtin ∧ builtin.kind = .sizeOf := by
    decide
  obtain ⟨builtin, found, isSizeof⟩ := isBuiltin
  simp only [lower, found, lowerBuiltin, isSizeof, bind_eq_ok, pure_eq_ok]

/-- `sizeof` counts a variable of its operand on every implementation exactly when the operand is no
array, whose pointer it counts, and no declaration with a built-in name. -/
theorem sizeof_counts_variables_iff {now : Table} {view : View} {place : Place} {operand : Expr}
    {ty : Ty} {name : String} {code : C.Expr} {declared : C.Declarator}
    (accepted : Check.sizeofType now operand = .ok ty)
    (lowers : lower view place (.call (.name "sizeof") [operand]) = .ok code)
    (declares : declarator view.table ty name = .ok declared) :
    ∃ written, code = .sizeOf written ∧
      ((∀ model, written.object.size? model = declared.object.size? model) ↔
        (∀ item count, ty ≠ .array item count) ∧ sizeofType operand = .ok ty) ∧
      ∀ item count, ty = .array item count →
        ∃ target one, written = .pointer target ∧ declarator view.table item name = .ok one ∧
          ∀ model, written.object.size? model = some (model.size (.pointer target.object)) ∧
            declared.object.size? model = (one.object.size? model).map (count * ·) := by
  obtain ⟨asked, isAsked, written, isWritten, rfl⟩ := lower_sizeof.mp lowers
  refine ⟨written, rfl, ⟨fun same => ?_, ?_⟩, ?_⟩
  · rcases sizeofType_cases accepted isAsked with rfl | ⟨⟨id, rfl⟩, word⟩
    · refine ⟨?_, isAsked⟩
      rintro item count rfl
      obtain ⟨model, differs⟩ := size_ne_of_array isWritten declares
      exact differs (same model)
    · obtain ⟨known, isKnown, isObject⟩ := object_of_plain (by simp) declares
      have two := size_of_namedType isKnown
      rw [← isObject, ← same] at two
      exact absurd two (size_of_word word isWritten)
  · rintro ⟨plain, sameType⟩ model
    obtain rfl : asked = ty := Except.ok.inj (isAsked.symm.trans sameType)
    obtain ⟨known, isKnown, isObject⟩ := object_of_plain plain declares
    obtain rfl : known = written := Except.ok.inj (isKnown.symm.trans isWritten)
    rw [isObject]
  · rintro item count rfl
    rcases sizeofType_cases accepted isAsked with rfl | ⟨⟨id, isNamed⟩, -⟩
    · obtain ⟨target, -, rfl⟩ := typeOf_array.mp isWritten
      obtain ⟨one, declaresOne, whole⟩ := object_of_array declares
      refine ⟨target, one, rfl, declaresOne, fun model => ⟨rfl, ?_⟩⟩
      rw [whole, C.ObjectTy.size?]
    · exact nomatch isNamed

/-- Five numbers are declared with their size, and counted as a pointer. -/
theorem sizeof_counts_variables_iff_numbers :
    let operand : Expr := .constant (.str "array[int, 5]")
    let code : C.Expr := .sizeOf (.pointer .int)
    let declared : C.Declarator := ⟨.int, "a", [5]⟩
    Check.sizeofType .empty operand = .ok (.array .int 5) ∧
      lower ⟨.empty, 0⟩ .operand (.call (.name "sizeof") [operand]) = .ok code ∧
      code.text = "sizeof(int*)" ∧ declared.text = "int a[5]" ∧
      declarator .empty (.array .int 5) "a" = .ok declared ∧
      ¬ ∀ model, (C.Ty.pointer .int).object.size? model = declared.object.size? model := by
  intro operand code declared
  have read : parseType "array[int, 5]" 0 =
      .ok (.generic "array" [.name "int", .size 5]) := by with_unfolding_all rfl
  have means : Ty.ofExpr (.generic "array" [.name "int", .size 5]) = .ok (.array .int 5) := by
    with_unfolding_all rfl
  have accepted : Check.sizeofType .empty operand = .ok (.array .int 5) := by
    simp only [Check.sizeofType, operand, read, means]
    rfl
  have asked : sizeofType operand = .ok (.array .int 5) := by
    simp only [sizeofType, operand, read, means]
    rfl
  have lowers : lower ⟨.empty, 0⟩ .operand (.call (.name "sizeof") [operand]) = .ok code :=
    lower_sizeof.mpr ⟨_, asked, _, rfl, rfl⟩
  have declares : declarator .empty (.array .int 5) "a" = .ok declared := rfl
  refine ⟨accepted, lowers, by decide, by decide, declares, fun same => ?_⟩
  obtain ⟨written, isWritten, agrees, -⟩ := sizeof_counts_variables_iff accepted lowers declares
  obtain rfl := C.Expr.sizeOf.inj isWritten
  exact (agrees.mp same).1 .int 5 rfl

end Lower

end Offside
