import Offside.Catalog
import Offside.Compile
import Offside.FileTree

/-!
# Failures of a library

Why the modules that a source imports cannot be had.
-/

namespace Offside

namespace Library

/-- Why an imported module cannot be had. -/
inductive Failure
  | catalog (fault : Catalog.Fault)
  /-- The imports of a source, which may have no file, cannot be told. -/
  | imports (file : Option Path) (fault : Fault)
  | read (file : Path) (fault : FileFault)
  | compile (path : String) (file : Path) (fault : Fault)
  /-- A file imports itself through the files after it. -/
  | cycle (files : List Path)
  | notFound (path : String) (searched : List Path)
  | emptyPath
  | unresolved (file : Path) (fault : FileFault)

namespace Failure

def headline : Failure → String
  | catalog fault => fault.message
  | imports (some file) _ => "failed to read imports of " ++ file.text
  | imports none _ => "failed to read imports"
  | read file _ => "failed to read module file " ++ file.text
  | compile path file _ => "failed to compile module " ++ path ++ " (" ++ file.text ++ ")"
  | cycle files => "import cycle: " ++ " -> ".intercalate (files.map (·.text))
  | notFound path searched =>
      "module '" ++ path ++ "' not found in search paths: "
        ++ ", ".intercalate (searched.map (·.text))
  | emptyPath => "empty module path"
  | unresolved file _ => "failed to resolve path " ++ file.text

/-- What made it fail, where that is a failure in itself. -/
def cause? : Failure → Option String
  | imports _ fault => some fault.message
  | read _ fault => some fault.message
  | compile _ _ fault => some fault.message
  | unresolved _ fault => some fault.message
  | catalog _ | cycle _ | notFound _ _ | emptyPath => none

/-- The whole message on one line. -/
def message (failure : Failure) : String :=
  match failure.cause? with
  | some cause => failure.headline ++ ": " ++ cause
  | none => failure.headline

end Failure

end Library

end Offside
