/-!
# C types

The types that occur in generated C, and declarations of objects of these types.
-/

namespace Offside

namespace C

inductive Ty
  | int
  | float
  | char
  | void
  | result
  | struct (tag : String)
  | enum (tag : String)
  | pointer (target : Ty)
deriving DecidableEq, Repr

def Ty.text : Ty → String
  | int => "int"
  | float => "float"
  | char => "char"
  | void => "void"
  | result => "Result"
  | struct tag => "struct " ++ tag
  | enum tag => "enum " ++ tag
  | pointer target => target.text ++ "*"

/-- A type, a name, and the sizes of an array, outermost first. -/
structure Declarator where
  ty : Ty
  name : String
  sizes : List Nat
deriving DecidableEq, Repr

def Declarator.text (declarator : Declarator) : String :=
  declarator.ty.text ++ " " ++ declarator.name
    ++ String.join (declarator.sizes.map fun size => "[" ++ toString size ++ "]")

end C

end Offside
