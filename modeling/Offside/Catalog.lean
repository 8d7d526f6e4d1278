import Offside.Symbol

/-!
# The catalog of C headers

The functions of the C library that a source can import, as modules named after their headers.
-/

namespace Offside

namespace Catalog

structure Function where
  name : String
  params : List Ty
  returns : Ty

/-- A header of the C library. -/
structure Entry where
  name : String
  header : String
  /-- The library that a program must be linked with. -/
  library : Option String
  functions : List Function

/-- The headers that can be imported. -/
def entries : List Entry :=
  [⟨"math", "math.h", some "m",
    [⟨"sqrt", [.float], .float⟩,
     ⟨"pow", [.float, .float], .float⟩,
     ⟨"sin", [.float], .float⟩,
     ⟨"cos", [.float], .float⟩,
     ⟨"tan", [.float], .float⟩,
     ⟨"atan2", [.float, .float], .float⟩,
     ⟨"exp", [.float], .float⟩,
     ⟨"log", [.float], .float⟩,
     ⟨"fabs", [.float], .float⟩,
     ⟨"floor", [.float], .float⟩,
     ⟨"ceil", [.float], .float⟩,
     ⟨"fmod", [.float, .float], .float⟩]⟩,
   ⟨"string", "string.h", none,
    [⟨"strlen", [.str], .int⟩,
     ⟨"strcmp", [.str, .str], .int⟩,
     ⟨"strncmp", [.str, .str, .int], .int⟩,
     ⟨"strcpy", [.str, .str], .str⟩,
     ⟨"strcat", [.str, .str], .str⟩]⟩,
   ⟨"stdlib", "stdlib.h", none,
    [⟨"abs", [.int], .int⟩,
     ⟨"atoi", [.str], .int⟩,
     ⟨"atof", [.str], .float⟩,
     ⟨"rand", [], .int⟩,
     ⟨"srand", [.int], .none⟩,
     ⟨"exit", [.int], .none⟩]⟩]

/-- The first part of every path in the catalog. -/
def root : String := "c"

/-- Whether an import asks for the catalog. -/
def covers (path : List String) : Bool := path.head? = some root

/-- Why the catalog has no module for a path. -/
inductive Fault
  | form (path : String)
  | unknownHeader (path : String)
deriving DecidableEq, Repr

def Fault.message : Fault → String
  | form path => "foreign module '" ++ path ++ "' must have the form c.<header>"
  | unknownHeader path => "unknown C header module '" ++ path ++ "'"

def symbolOf (entry : Entry) (function : Function) : Symbol :=
  { Symbol.function function.name ⟨function.params, function.returns⟩ with
    origin := .foreign entry.header entry.library }

/-- What the catalog offers under a path. -/
def fragment (path : List String) : Except Fault Fragment :=
  let dotted := ".".intercalate path
  match path with
  | [_, name] =>
      match entries.find? (·.name = name) with
      | some entry => .ok ⟨dotted, entry.functions.map (symbolOf entry)⟩
      | none => .error (.unknownHeader dotted)
  | _ => .error (.form dotted)

end Catalog

end Offside
