/-!
# Types

The types of the source language, which of them a place of another type accepts, and what arithmetic
and comparison make of them.
-/

namespace Offside

/-- A type. -/
inductive Ty
  | int
  | float
  | bool
  | str
  /-- The type of `None`, and of functions without a result. -/
  | none
  /-- A pointer. A pointer to `none` is generic. -/
  | ptr (target : Ty)
  | array (item : Ty) (size : Nat)
  | result (ok err : Ty)
  | named (name : String)
  | range
deriving DecidableEq, Repr

namespace Ty

def text : Ty → String
  | int => "int"
  | float => "float"
  | bool => "bool"
  | str => "str"
  | none => "None"
  | ptr target => "ptr[" ++ target.text ++ "]"
  | array item size => "array[" ++ item.text ++ ", " ++ toString size ++ "]"
  | result ok err => "Result[" ++ ok.text ++ ", " ++ err.text ++ "]"
  | named name => name
  | range => "range"

/-- Whether arithmetic keeps the type. -/
def isNumeric : Ty → Bool
  | int => true
  | float => true
  | _ => false

def isPointer : Ty → Bool
  | ptr _ => true
  | _ => false

/-- Whether the type is the pointer to no particular type. -/
def isGenericPointer (ty : Ty) : Bool := ty = ptr none

/-- Whether a place of the first type accepts a value of the second; conversion goes one way. -/
def accepts (place value : Ty) : Bool :=
  place = value ||
    match place, value with
    | bool, int => true
    | ptr _, ptr _ => place.isGenericPointer || value.isGenericPointer
    | ptr _, none => true
    | ptr target, array item _ => target = item
    | _, _ => false

/-- The type of an arithmetic expression; whole numbers where nothing better is known. -/
def arithmetic (left right : Ty) : Ty := if left = float || right = float then float else int

/-- Whether values of two types can be compared. -/
def comparable (left right : Ty) : Bool :=
  left.accepts right || right.accepts left || (left.isNumeric && right.isNumeric)

/-- The type of the elements of what can be indexed. -/
def element? : Ty → Option Ty
  | array item _ => some item
  | ptr target => some target
  | _ => Option.none

/-- The type behind a pointer, and every other type itself. -/
def pointee : Ty → Ty
  | ptr target => target
  | ty => ty

/-- The name of a declared type. -/
def name? : Ty → Option String
  | named name => some name
  | _ => Option.none

end Ty

end Offside
