import Offside.Lower.Aggregate
import Offside.Proofs.Outcome

/-!
# Passing objects to parameters

An object is declared with the sizes of all its dimensions, a parameter with a pointer for each of
them. C turns an array into a pointer to its items where it is passed, but only the outermost
dimension: what is passed of an array of arrays is a pointer to an array, and the parameter for it
is declared as a pointer to a pointer.
-/

namespace Offside

namespace C

/-- The type of an object, which can be an array. -/
inductive ObjectTy
  | int
  | float
  | char
  | void
  | result
  | struct (tag : String)
  | enum (tag : String)
  | pointer (target : ObjectTy)
  | array (item : ObjectTy) (size : Nat)
deriving DecidableEq, Repr

/-- The type of an object that is no array. -/
def Ty.object : Ty → ObjectTy
  | int => .int
  | float => .float
  | char => .char
  | void => .void
  | result => .result
  | struct tag => .struct tag
  | enum tag => .enum tag
  | pointer target => .pointer target.object

/-- The type of a declared object: an array for each size, the first outermost. -/
def Declarator.object (declarator : Declarator) : ObjectTy :=
  declarator.sizes.foldr (fun size item => .array item size) declarator.ty.object

namespace ObjectTy

/-- The type of an object's value: an array stands for a pointer. -/
def decayed : ObjectTy → ObjectTy
  | array item _ => .pointer item
  | ty => ty

def isPointer : ObjectTy → Bool
  | pointer _ => true
  | _ => false

/-- Whether the types are equal, or pointers of which one is to no particular type. -/
def Compatible (left right : ObjectTy) : Prop :=
  left = right ∨ (left = pointer void ∧ right.isPointer) ∨ (right = pointer void ∧ left.isPointer)

instance (left right : ObjectTy) : Decidable (left.Compatible right) :=
  inferInstanceAs (Decidable (_ ∨ _ ∨ _))

@[simp]
theorem compatible_refl (ty : ObjectTy) : ty.Compatible ty := .inl rfl

theorem compatible_generic {target other : ObjectTy} (generic : target = void ∨ other = void) :
    (pointer target).Compatible (pointer other) := by
  rcases generic with rfl | rfl
  · exact .inr (.inl ⟨rfl, rfl⟩)
  · exact .inr (.inr ⟨rfl, rfl⟩)

theorem compatible_pointer_iff {target other : ObjectTy} (known : target ≠ void)
    (known' : other ≠ void) : (pointer target).Compatible (pointer other) ↔ target = other := by
  simp [Compatible, known, known']

end ObjectTy

@[simp]
theorem Ty.decayed_object (ty : Ty) : ty.object.decayed = ty.object := by
  cases ty <;> rfl

end C

namespace Lower

open Outcome

variable {table : Table} {item : Ty} {size : Nat} {name : String} {declared : C.Declarator}

/-- Whether a type is an array whose items are arrays. -/
def isNested : Ty → Bool
  | .array (.array _ _) _ => true
  | _ => false

theorem typeOf_ptr {target : Ty} {ty : C.Ty} :
    typeOf table (.ptr target) = .ok ty ↔
      ∃ inner, typeOf table target = .ok inner ∧ .pointer inner = ty := by
  simp [typeOf]

theorem typeOf_array {ty : C.Ty} :
    typeOf table (.array item size) = .ok ty ↔
      ∃ inner, typeOf table item = .ok inner ∧ .pointer inner = ty := by
  simp [typeOf]

theorem dimensions_of_plain {ty : Ty} (plain : ∀ item size, ty ≠ .array item size) :
    dimensions ty = (ty, []) := by
  cases ty with
  | array item size => exact absurd rfl (plain item size)
  | _ => rfl

theorem object_of_plain {ty : Ty} (plain : ∀ item size, ty ≠ .array item size)
    (declares : declarator table ty name = .ok declared) :
    ∃ known, typeOf table ty = .ok known ∧ declared.object = known.object := by
  simp only [declarator, dimensions_of_plain plain, bind_eq_ok, pure_eq_ok] at declares
  obtain ⟨known, lowers, rfl⟩ := declares
  exact ⟨known, lowers, rfl⟩

/-- An array is declared as an array of its items. -/
theorem object_of_array (declares : declarator table (.array item size) name = .ok declared) :
    ∃ inner, declarator table item name = .ok inner ∧
      declared.object = .array inner.object size := by
  simp only [declarator, dimensions, bind_eq_ok, pure_eq_ok] at declares
  obtain ⟨ty, lowers, rfl⟩ := declares
  refine ⟨⟨ty, name, (dimensions item).2⟩, ?_, rfl⟩
  simp only [declarator, bind_eq_ok, pure_eq_ok]
  exact ⟨ty, lowers, rfl⟩

/-- An array fits the pointer to its items exactly when they are no arrays. -/
theorem compatible_array_iff {inner : C.Ty} (lowers : typeOf table item = .ok inner)
    (declares : declarator table (.array item size) name = .ok declared) :
    declared.object.decayed.Compatible (C.Ty.pointer inner).object ↔
      isNested (.array item size) = false := by
  obtain ⟨first, declaresItem, whole⟩ := object_of_array declares
  rw [whole, C.ObjectTy.decayed, C.Ty.object]
  by_cases nested : ∃ deeper count, item = .array deeper count
  · obtain ⟨deeper, count, rfl⟩ := nested
    obtain ⟨second, _, isArray⟩ := object_of_array declaresItem
    obtain ⟨_, _, rfl⟩ := typeOf_array.mp lowers
    -- A pointer to an array meets a pointer to a pointer.
    rw [isArray, C.ObjectTy.compatible_pointer_iff (by simp) (by simp [C.Ty.object])]
    simp [C.Ty.object, isNested]
  · have plain : ∀ deeper count, item ≠ .array deeper count :=
      fun deeper count isArray => nested ⟨deeper, count, isArray⟩
    obtain ⟨known, lowers', isKnown⟩ := object_of_plain plain declaresItem
    obtain rfl : known = inner := Except.ok.inj (lowers'.symm.trans lowers)
    have flat : isNested (.array item size) = false := by
      cases item with
      | array deeper count => exact absurd rfl (plain deeper count)
      | _ => rfl
    simp [isKnown, flat]

/-- An object that is no array fits every parameter that accepts it. -/
theorem compatible_of_plain {place value : Ty} {param known : C.Ty} (accepts : place.accepts value)
    (plain : ∀ item size, value ≠ .array item size) (isValue : value ≠ .none)
    (lowersPlace : typeOf table place = .ok param) (lowersValue : typeOf table value = .ok known) :
    known.object.Compatible param.object := by
  by_cases same : place = value
  · subst same
    obtain rfl : known = param := Except.ok.inj (lowersValue.symm.trans lowersPlace)
    exact C.ObjectTy.compatible_refl _
  · simp only [Ty.accepts, same, decide_false, Bool.false_or] at accepts
    split at accepts
    · -- Truth values are whole numbers in C.
      obtain rfl := Except.ok.inj lowersPlace
      obtain rfl := Except.ok.inj lowersValue
      exact C.ObjectTy.compatible_refl _
    · rename_i target source
      obtain ⟨_, lowersTarget, rfl⟩ := typeOf_ptr.mp lowersPlace
      obtain ⟨_, lowersSource, rfl⟩ := typeOf_ptr.mp lowersValue
      apply C.ObjectTy.compatible_generic
      simp only [Ty.isGenericPointer, Ty.ptr.injEq, Bool.or_eq_true, decide_eq_true_eq] at accepts
      rcases accepts with rfl | rfl
      · obtain rfl := Except.ok.inj lowersTarget
        exact .inr rfl
      · obtain rfl := Except.ok.inj lowersSource
        exact .inl rfl
    · exact absurd rfl isValue
    · rename_i item size
      exact absurd rfl (plain item size)
    · simp at accepts

/-- An object can be passed where its value is accepted, unless it is an array of arrays. -/
theorem passed_compatibly_iff {table : Table} {place value : Ty} {name : String}
    {param : C.Ty} {declared : C.Declarator} (accepts : place.accepts value)
    (isValue : value ≠ .none) (lowersPlace : typeOf table place = .ok param)
    (lowersValue : declarator table value name = .ok declared) :
    declared.object.decayed.Compatible param.object ↔ isNested value = false := by
  by_cases isArray : ∃ item size, value = .array item size
  · obtain ⟨item, size, rfl⟩ := isArray
    -- An array reaches a parameter of its own type or one of the pointer to its items, and these
    -- are declared alike.
    obtain ⟨inner, lowers, rfl⟩ :
        ∃ inner, typeOf table item = .ok inner ∧ .pointer inner = param := by
      cases place with
      | array item' size' =>
          obtain ⟨rfl, rfl⟩ : item' = item ∧ size' = size := by simpa [Ty.accepts] using accepts
          exact typeOf_array.mp lowersPlace
      | ptr target =>
          obtain rfl : target = item := by simpa [Ty.accepts] using accepts
          exact typeOf_ptr.mp lowersPlace
      | _ => simp [Ty.accepts] at accepts
    exact compatible_array_iff lowers lowersValue
  · have plain : ∀ item size, value ≠ .array item size :=
      fun item size same => isArray ⟨item, size, same⟩
    obtain ⟨known, lowers, isKnown⟩ := object_of_plain plain lowersValue
    have fits := compatible_of_plain accepts plain isValue lowersPlace lowers
    have flat : isNested value = false := by
      cases value with
      | array item size => exact absurd rfl (plain item size)
      | _ => rfl
    simp [isKnown, flat, fits]

/-- Two rows are declared with both sizes, and passed to a pointer to pointers. -/
theorem passed_compatibly_iff_rows :
    let rows : Ty := .array (.array .int 3) 2
    ∃ param declared, rows.accepts rows ∧ typeOf .empty rows = .ok param ∧
      declarator .empty rows "m" = .ok declared ∧ param.text = "int**" ∧
      declared.text = "int m[2][3]" ∧ ¬ declared.object.decayed.Compatible param.object := by
  intro rows
  have accepts : rows.accepts rows := by decide
  have lowersPlace : typeOf .empty rows = .ok (.pointer (.pointer .int)) := rfl
  have lowersValue : declarator .empty rows "m" = .ok ⟨.int, "m", [2, 3]⟩ := rfl
  refine ⟨_, _, accepts, lowersPlace, lowersValue, by decide, by decide, ?_⟩
  rw [passed_compatibly_iff accepts (by decide) lowersPlace lowersValue]
  decide

end Lower

end Offside
