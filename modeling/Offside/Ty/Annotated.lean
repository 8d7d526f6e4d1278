import Offside.Tree
import Offside.Ty

/-!
# Annotations

What a written annotation means: a type, and whether the declared name is final. Names that are not
built in stand for declared types; whether such a declaration exists is not decided here.
-/

namespace Offside

/-- Why a written annotation means no type. -/
inductive AnnotationFault
  | needsArguments (name : String)
  | emptyArray
  | innerFinal
  | finalArity
  /-- A constructor with unsuitable arguments, or arguments on a plain name. -/
  | malformed (text : String)
  | notPair (text : String)
  | notType (size : Nat)
deriving DecidableEq, Repr

namespace AnnotationFault

def message : AnnotationFault → String
  | needsArguments name => "type '" ++ name ++ "' needs type arguments"
  | emptyArray => "array size must be positive"
  | innerFinal => "Final[...] is only allowed as the outermost annotation"
  | finalArity => "Final[...] takes exactly one type"
  | malformed text => "malformed type '" ++ text ++ "'"
  | notPair text => "tuple type '" ++ text ++ "' must have exactly two elements"
  | notType size => "'" ++ toString size ++ "' is not a type"

end AnnotationFault

namespace Ty

/-- The type that a plain name means. -/
def ofName (id : String) : Except AnnotationFault Ty :=
  if id = "int" then .ok int
  else if id = "float" then .ok float
  else if id = "bool" then .ok bool
  else if id = "str" then .ok str
  else if id = "None" || id = "void" then .ok none
  else if id = "ptr" || id = "array" || id = "Result" || id = "Final" then
    .error (.needsArguments id)
  else .ok (named id)

/-- The type that a written annotation means. -/
def ofExpr : TypeExpr → Except AnnotationFault Ty
  | .name id => ofName id
  | .size count => .error (.notType count)
  | .generic id args =>
      if id = "Final" then .error .innerFinal
      else match args with
        | [inner] =>
            if id = "ptr" then return ptr (← ofExpr inner)
            else .error (.malformed (TypeExpr.text (.generic id [inner])))
        | [first, second] =>
            if id = "Result" then do
              let ok ← ofExpr first
              let err ← ofExpr second
              return result ok err
            else match id, second with
              | "array", .size count =>
                  if count = 0 then .error .emptyArray
                  else return array (← ofExpr first) count
              | _, _ => .error (.malformed (TypeExpr.text (.generic id [first, second])))
        | args => .error (.malformed (TypeExpr.text (.generic id args)))
  | .tuple items =>
      match items with
      | [first, second] => do
          let ok ← ofExpr first
          let err ← ofExpr second
          return result ok err
      | items => .error (.notPair (TypeExpr.text (.tuple items)))

end Ty

/-- The meaning of an annotation on a declaration. -/
structure Annotated where
  ty : Ty
  immutable : Bool
deriving DecidableEq, Repr

namespace Annotated

/-- The meaning of an annotation, whose outermost layer may be a final mark. -/
def ofExpr : TypeExpr → Except AnnotationFault Annotated
  | .generic "Final" [inner] => return ⟨← Ty.ofExpr inner, true⟩
  | .generic "Final" _ => .error .finalArity
  | written => return ⟨← Ty.ofExpr written, false⟩

end Annotated

end Offside
