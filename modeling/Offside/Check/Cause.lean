import Offside.Builtin
import Offside.Ty.Annotated

/-!
# Causes of rejection

Why a tree that the grammar accepts is rejected for its meaning.
-/

namespace Offside

/-- The name of the function that a program starts with. -/
def entryPoint : String := "main"

/-- A text between single quotes. -/
def singleQuoted (text : String) : String := "'" ++ text ++ "'"

def qualified (owner name : String) : String := owner ++ "." ++ name

namespace Check

/-- Where a truth value is asked for. -/
inductive TruthPlace
  | condition
  | operand
deriving DecidableEq, Repr

/-- Where a truth value is asked for, in words. -/
def TruthPlace.text : TruthPlace → String
  | condition => "condition"
  | operand => "operand of 'and'/'or'"

/-- Why a tree is rejected. -/
inductive Cause
  | notTopLevel
  | entryTakesParameters
  | missingEntry
  | redefinesBuiltin (name : String)
  | alreadyDefined (kind name : String)
  | unresolvedModule (path : String)
  | missingExport (module name : String)
  | malformedType (fault : AnnotationFault)
  | missingReceiver (method : String)
  | untypedParameter (param function : String)
  | fieldInitializer (struct field : String)
  | containsItself (struct : String)
  | structContents (struct : String)
  | interfaceContents (interface : String)
  | memberRepeated (owner name : String)
  | enumValue (enum member : String)
  | enumMemberRepeated (enum member : String)
  | enumContents (enum : String)
  | intRange (value : Int)
  | baseNotInterface (base struct : String)
  | unknownInterface (base : String)
  | notImplemented (struct base method : String)
  | signatureMismatch (struct method base : String)
  | globalNotLiteral (name : String)
  | finalUninitialized (name : String)
  | redeclared (name : String)
  | notPlainName
  | assignsArray (ty : Ty)
  | cannotMatch (ty : Ty)
  | patternMismatch (pattern subject : Ty)
  | innerImport
  | innerDefinition
  | labelTaken (label : String)
  | outsideLoop (jump : Jump)
  | unknownLabel (jump : Jump) (label : String)
  | mustReturn (function : String) (ty : Ty)
  | returnsNothing (function : String)
  | notTruth (place : TruthPlace) (ty : Ty)
  | rangeBound (ty : Ty)
  | notIterable (ty : Ty)
  | assignsFinal (name : String)
  | assignsSymbol (kind name : String)
  | assignsMember (base attr : String)
  | notTarget
  | undeclared (name : String)
  | resultExpected (constructor : String) (found : Ty)
  | resultContext (constructor : String)
  | mismatch (expected found : Ty)
  | incomparable (left right : Ty)
  | indexNotInt (ty : Ty)
  | notSubscriptable (ty : Ty)
  | functionAsValue (name : String)
  | moduleAsValue (name : String)
  | typeAsValue (name : String)
  | builtinAsValue (name : String)
  | methodAsValue (struct method : String)
  | noMember (enum member : String)
  | notValue (module name : String)
  | memberOfNonStruct (ty : Ty)
  | noField (struct field : String)
  | undefinedFunction (name : String)
  | methodOfNonStruct (method : String) (ty : Ty)
  | noMethod (struct method : String)
  | receiverNotPlace (struct method : String)
  | calleeForm
  | constructorArguments (callee : String)
  | notCallable (kind callee : String)
  | arity (callee : String) (expected found : Nat)
  /-- A fault in an argument, with its message. -/
  | argument (position : Nat) (callee : String) (detail : String)
  | builtinArity (builtin : Builtin) (found : Nat)
  | unprintable (ty : Ty)
  | rangeOutsideLoop
  | addressOfNonPlace
  | derefOf (ty : Ty)
  | storeThrough (ty : Ty)
  | freeOf (ty : Ty)
  | notConvertible (found target : Ty)
  | notResult (builtin : String) (ty : Ty)
  | wrongSlot (builtin : String) (ty : Ty)
  /-- A text that is no annotation, with the message of the grammar. -/
  | quotedType (detail : String)
  | sizeofNotType (name : String)
  | sizeofForm
  | unknownType (name : String)

def Cause.message : Cause → String
  | notTopLevel =>
      "only imports, definitions and global declarations are allowed at module level"
  | entryTakesParameters => singleQuoted entryPoint ++ " must not take parameters"
  | missingEntry =>
      "missing entry point: no " ++ singleQuoted entryPoint ++ " function is defined"
  | redefinesBuiltin name => singleQuoted name ++ " is a builtin and cannot be redefined"
  | alreadyDefined kind name => kind ++ " " ++ singleQuoted name ++ " is already defined"
  | unresolvedModule path => "module " ++ singleQuoted path ++ " could not be resolved"
  | missingExport module name =>
      "module " ++ singleQuoted module ++ " has no export " ++ singleQuoted name
  | malformedType fault => fault.message
  | missingReceiver method =>
      "method " ++ singleQuoted method ++ " must take a receiver parameter"
  | untypedParameter param function =>
      "parameter " ++ singleQuoted param ++ " of " ++ singleQuoted function
        ++ " must have a type annotation"
  | fieldInitializer struct field =>
      "field " ++ singleQuoted (qualified struct field) ++ " cannot have an initializer"
  | containsItself struct =>
      "struct " ++ singleQuoted struct ++ " cannot contain itself by value"
  | structContents struct =>
      "struct " ++ singleQuoted struct ++ " may only contain fields and methods"
  | interfaceContents interface =>
      "interface " ++ singleQuoted interface ++ " may only declare methods"
  | memberRepeated owner name =>
      "member " ++ singleQuoted (qualified owner name) ++ " is already defined"
  | enumValue enum member =>
      "enum member " ++ singleQuoted (qualified enum member)
        ++ " must be assigned an integer literal"
  | enumMemberRepeated enum member =>
      "enum member " ++ singleQuoted (qualified enum member) ++ " is already defined"
  | enumContents enum =>
      "enum " ++ singleQuoted enum ++ " may only contain member assignments"
  | intRange value => "integer literal " ++ toString value ++ " does not fit in int"
  | baseNotInterface base struct =>
      "base " ++ singleQuoted base ++ " of " ++ singleQuoted struct ++ " is not an interface"
  | unknownInterface base => "unknown interface " ++ singleQuoted base
  | notImplemented struct base method =>
      "struct " ++ singleQuoted struct ++ " does not implement "
        ++ singleQuoted (qualified base method)
  | signatureMismatch struct method base =>
      "method " ++ singleQuoted (qualified struct method)
        ++ " does not match the signature required by " ++ singleQuoted base
  | globalNotLiteral name =>
      "global " ++ singleQuoted name ++ " must be initialized with a literal"
  | finalUninitialized name =>
      "immutable variable " ++ singleQuoted name ++ " must be initialized"
  | redeclared name =>
      "variable " ++ singleQuoted name ++ " is already declared in this scope"
  | notPlainName => "only plain names can be declared with a type"
  | assignsArray ty => "cannot assign to an array of type " ++ singleQuoted ty.text ++ " as a whole"
  | cannotMatch ty => "cannot match on a value of type " ++ singleQuoted ty.text
  | patternMismatch pattern subject =>
      "case pattern of type " ++ singleQuoted pattern.text ++ " cannot match a subject of type "
        ++ singleQuoted subject.text
  | innerImport => "imports are only allowed at module level"
  | innerDefinition => "nested definitions are not supported"
  | labelTaken label =>
      "loop label " ++ singleQuoted label ++ " is already used by an enclosing loop"
  | outsideLoop jump => singleQuoted jump.word ++ " outside loop"
  | unknownLabel jump label =>
      singleQuoted jump.word ++ " targets unknown loop label " ++ singleQuoted label
  | mustReturn function ty =>
      singleQuoted function ++ " must return a value of type " ++ singleQuoted ty.text
  | returnsNothing function => singleQuoted function ++ " does not return a value"
  | notTruth place ty => place.text ++ " must be bool or int, found " ++ singleQuoted ty.text
  | rangeBound ty => "range() bounds must be int, found " ++ singleQuoted ty.text
  | notIterable ty => "cannot iterate over a value of type " ++ singleQuoted ty.text
  | assignsFinal name => "cannot assign to immutable variable " ++ singleQuoted name
  | assignsSymbol kind name => "cannot assign to " ++ kind ++ " " ++ singleQuoted name
  | assignsMember base attr => "cannot assign to " ++ singleQuoted (qualified base attr)
  | notTarget => "invalid assignment target"
  | undeclared name => "name " ++ singleQuoted name ++ " is not declared"
  | resultExpected constructor found =>
      constructor ++ "(...) is only allowed where a Result is expected, found "
        ++ singleQuoted found.text
  | resultContext constructor =>
      constructor ++ "(...) is only allowed where a Result is expected"
  | mismatch expected found =>
      "type mismatch: expected " ++ singleQuoted expected.text ++ ", found "
        ++ singleQuoted found.text
  | incomparable left right =>
      "cannot compare " ++ singleQuoted left.text ++ " with " ++ singleQuoted right.text
  | indexNotInt ty => "index must be int, found " ++ singleQuoted ty.text
  | notSubscriptable ty => "type " ++ singleQuoted ty.text ++ " is not subscriptable"
  | functionAsValue name => "function " ++ singleQuoted name ++ " cannot be used as a value"
  | moduleAsValue name => "module " ++ singleQuoted name ++ " cannot be used as a value"
  | typeAsValue name => singleQuoted name ++ " is a type, not a value"
  | builtinAsValue name => "builtin " ++ singleQuoted name ++ " must be called"
  | methodAsValue struct method =>
      "method " ++ singleQuoted (qualified struct method) ++ " must be called"
  | noMember enum member =>
      "enum " ++ singleQuoted enum ++ " has no member " ++ singleQuoted member
  | notValue module name => singleQuoted (qualified module name) ++ " is not a value"
  | memberOfNonStruct ty =>
      "cannot access attribute on non-struct type " ++ singleQuoted ty.text
  | noField struct field =>
      "struct " ++ singleQuoted struct ++ " has no field " ++ singleQuoted field
  | undefinedFunction name => "function " ++ singleQuoted name ++ " is not defined"
  | methodOfNonStruct method ty =>
      "cannot call method " ++ singleQuoted method ++ " on non-struct type "
        ++ singleQuoted ty.text
  | noMethod struct method =>
      "struct " ++ singleQuoted struct ++ " has no method " ++ singleQuoted method
  | receiverNotPlace struct method =>
      "receiver of " ++ singleQuoted (qualified struct method)
        ++ " must be a variable, field or element"
  | calleeForm => "expression is not callable"
  | constructorArguments callee =>
      "constructor " ++ singleQuoted callee ++ " takes no arguments"
  | notCallable kind callee => kind ++ " " ++ singleQuoted callee ++ " is not callable"
  | arity callee expected found =>
      singleQuoted callee ++ " expects " ++ toString expected ++ " argument(s), got "
        ++ toString found
  | argument position callee detail =>
      "argument " ++ toString position ++ " of " ++ singleQuoted callee ++ ": " ++ detail
  | builtinArity builtin found =>
      builtin.name ++ "() expects " ++ builtin.arityText ++ ", got " ++ toString found
  | unprintable ty => "cannot print a value of type " ++ singleQuoted ty.text
  | rangeOutsideLoop => "range() may only be used as a for-loop iterable"
  | addressOfNonPlace => "addr() expects a variable, field or element"
  | derefOf ty => "deref() expects a typed pointer, found " ++ singleQuoted ty.text
  | storeThrough ty => "assign() expects a typed pointer, found " ++ singleQuoted ty.text
  | freeOf ty => "free() expects a pointer, found " ++ singleQuoted ty.text
  | notConvertible found target =>
      "cannot convert " ++ singleQuoted found.text ++ " to " ++ target.text
  | notResult builtin ty => builtin ++ "() expects a Result, found " ++ singleQuoted ty.text
  | wrongSlot builtin ty =>
      builtin ++ "() cannot unwrap a Result carrying " ++ singleQuoted ty.text
  | quotedType detail => detail
  | sizeofNotType name => "sizeof() expects a type, found " ++ singleQuoted name
  | sizeofForm => "sizeof() expects a type name"
  | unknownType name => "unknown type " ++ singleQuoted name

end Check

end Offside
