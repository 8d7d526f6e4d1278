import Offside.C.Stmt

/-!
# C units

A generated C file, from its inclusions down to the entry function, and its text. Empty
parts leave no trace in the text; the others are set apart by blank lines.
-/

namespace Offside

namespace C

inductive Inclusion
  | system (name : String)
  | own (name : String)
deriving DecidableEq, Repr

def Inclusion.text : Inclusion → String
  | system name => "#include <" ++ name ++ ">\n"
  | own name => "#include \"" ++ name ++ "\"\n"

structure EnumDef where
  tag : String
  members : List (String × Int)

/-- The C name of a member of an enumeration. -/
def enumerator (tag member : String) : String := tag ++ "_" ++ member

/-- The definition of an enumeration, and a blank line. -/
def EnumDef.text (definition : EnumDef) : String :=
  (Ty.enum definition.tag).text ++ " \x7b\n"
    ++ String.join (definition.members.map fun (member, value) =>
      codeLine 1 (enumerator definition.tag member ++ " = " ++ toString value ++ ","))
    ++ "\x7d;\n\n"

structure StructDef where
  tag : String
  fields : List Declarator

/-- The definition of a struct, and a blank line. C has no empty structs. -/
def StructDef.text (definition : StructDef) : String :=
  (Ty.struct definition.tag).text ++ " \x7b\n"
    ++ (if definition.fields.isEmpty then codeLine 1 "char _empty;" else "")
    ++ String.join (definition.fields.map fun field => codeLine 1 (field.text ++ ";"))
    ++ "\x7d;\n\n"

structure External where
  isConst : Bool
  declarator : Declarator

def External.text (declaration : External) : String :=
  "extern " ++ qualifier declaration.isConst ++ declaration.declarator.text ++ ";\n"

/-- Parameters as text; C writes a word where there are none. -/
def parameterText (params : List String) : String :=
  if params.isEmpty then Ty.void.text else ", ".intercalate params

structure Prototype where
  returns : Ty
  name : String
  params : List Ty
deriving DecidableEq, Repr

def Prototype.text (declaration : Prototype) : String :=
  declaration.returns.text ++ " " ++ declaration.name ++ "("
    ++ parameterText (declaration.params.map Ty.text) ++ ")"

structure FunctionDef where
  returns : Ty
  name : String
  params : List Declarator
  body : List Stmt

def FunctionDef.text (definition : FunctionDef) : String :=
  definition.returns.text ++ " " ++ definition.name ++ "("
    ++ parameterText (definition.params.map Declarator.text) ++ ") \x7b\n"
    ++ bodyText 1 definition.body ++ "\x7d\n"

structure Unit where
  inclusions : List Inclusion
  enums : List EnumDef
  /-- The tags of structs, announced before any is defined. -/
  announced : List String
  /-- The structs, each after those it contains. -/
  structs : List StructDef
  externals : List External
  globals : List Definition
  prototypes : List Prototype
  functions : List FunctionDef
  entry : List FunctionDef

/-- Lines with a blank one after them, unless there are none. -/
def closedByBlank (lines : List String) : String :=
  if lines.isEmpty then "" else String.join lines ++ "\n"

/-- The parts of a unit as texts, in order. -/
def Unit.sections (unit : Unit) : List String :=
  [String.join (unit.inclusions.map Inclusion.text),
   String.join (unit.enums.map EnumDef.text)
     ++ closedByBlank (unit.announced.map fun tag => (Ty.struct tag).text ++ ";\n")
     ++ String.join (unit.structs.map StructDef.text)
     ++ closedByBlank (unit.externals.map External.text
       ++ unit.globals.map fun definition => definition.text ++ "\n"),
   String.join (unit.prototypes.map fun declaration => declaration.text ++ ";\n"),
   String.join (unit.functions.map fun definition => definition.text ++ "\n"),
   String.join (unit.entry.map FunctionDef.text)]

def Unit.text (unit : Unit) : String :=
  "\n".intercalate (unit.sections.filter fun part => !part.isEmpty)

end C

end Offside
