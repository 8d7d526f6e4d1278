import Offside.Check.Cause

/-!
# Causes of failed lowering

Why a tree has no C form under a symbol table. A tree may be lowered under a table that was not made
for it, so many of these concern trees that no check would let pass.
-/

namespace Offside

namespace Lower

/-- Why a tree has no C form. -/
inductive Cause
  | containsItself (struct : String)
  | malformedType (fault : AnnotationFault)
  | missingReceiver (struct method : String)
  | notDeclared (function : String)
  | scopeMismatch
  | interfaceType (name : String)
  | unknownType (name : String)
  | rangeType
  | assignsArray (line : Nat) (ty : Ty)
  | nestedDeclaration (line : Nat)
  | notPlainName
  | arrayInitializer (name : String)
  | rangeBounds
  | notIterable
  | nestedArrays
  | unknownLabel (label : String)
  | cannotMatch (ty : Ty)
  | incomparable (ty : Ty)
  | resultContext
  | bareConstructor (name : String)
  | noPayload (ty : Ty)
  | resultArity
  | unknownFunction (name : String)
  | notCallable (callee : String)
  | missingExport (module name : String)
  | unresolvedReceiver (method : String)
  | methodOfNonStruct (ty : Ty) (method : String)
  | noMethod (struct method : String)
  | calleeForm
  | missingArgument (builtin : Builtin)
  | rangeOutsideLoop
  /-- A text that is no annotation, with the message of the grammar. -/
  | quotedType (detail : String)
  | sizeofForm

def Cause.message : Cause → String
  | containsItself struct => "struct " ++ singleQuoted struct ++ " contains itself by value"
  | malformedType fault => fault.message
  | missingReceiver struct method =>
      "method " ++ singleQuoted (qualified struct method) ++ " has no receiver"
  | notDeclared function => "function " ++ singleQuoted function ++ " was not analyzed"
  | scopeMismatch => "scope layout does not match the analyzed program"
  | interfaceType name => "interface " ++ singleQuoted name ++ " has no C representation"
  | unknownType name => "unknown type " ++ singleQuoted name
  | rangeType => "range values have no C representation"
  | assignsArray line ty =>
      "line " ++ toString line ++ ": an array of type " ++ singleQuoted ty.text
        ++ " cannot be assigned as a whole"
  | nestedDeclaration line =>
      "line " ++ toString line ++ ": nested declarations cannot be lowered"
  | notPlainName => "only names can be declared"
  | arrayInitializer name =>
      "array " ++ singleQuoted name ++ " cannot be initialized from another array"
  | rangeBounds => "range() takes one or two arguments"
  | notIterable => "for loops iterate over ranges or arrays"
  | nestedArrays => "iterating over nested arrays is not supported"
  | unknownLabel label => "no enclosing loop is labeled " ++ singleQuoted label
  | cannotMatch ty => "cannot match on a value of type " ++ singleQuoted ty.text
  | incomparable ty => "values of type " ++ singleQuoted ty.text ++ " cannot be compared in C"
  | resultContext => "Ok/Err need a Result context"
  | bareConstructor name => name ++ "() needs a Result context"
  | noPayload ty => "a Result cannot carry a " ++ singleQuoted ty.text ++ " payload"
  | resultArity => "Ok/Err take exactly one argument"
  | unknownFunction name => "unknown function " ++ singleQuoted name
  | notCallable callee => singleQuoted callee ++ " is not callable"
  | missingExport module name =>
      "module " ++ singleQuoted module ++ " has no export " ++ singleQuoted name
  | unresolvedReceiver method => "cannot resolve receiver of " ++ singleQuoted method
  | methodOfNonStruct ty method =>
      singleQuoted ty.text ++ " has no method " ++ singleQuoted method
  | noMethod struct method =>
      "struct " ++ singleQuoted struct ++ " has no method " ++ singleQuoted method
  | calleeForm => "only named functions and methods can be called"
  | missingArgument builtin => builtin.name ++ "() expects " ++ builtin.arityText
  | rangeOutsideLoop => "range() is only valid in a for loop"
  | quotedType detail => detail
  | sizeofForm => "sizeof() expects a type"

end Lower

end Offside
