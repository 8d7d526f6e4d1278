import Offside.Library.Locate

/-!
# Loading modules

Modules are compiled when they are first imported, after those that they import themselves. Each
file is compiled at most once, and no file may import itself through others.
-/

namespace Offside

namespace Library

/-- A compiled module. -/
structure Module where
  path : String
  file : Path
  text : String

/-- The name of the C file of a module. -/
def Module.cFile (module : Module) : String :=
  module.path.map (fun char => if char = '.' then '_' else char) ++ ".c"

/-- What has been loaded, also when loading fails later. -/
structure State where
  active : List Path
  loaded : List (Path × Fragment)
  /-- The compiled modules in the order in which they were finished. -/
  compiled : List Module
  libraries : List String
  /-- The modules whose compilation was begun, with their files. -/
  begun : List (String × Path)

namespace State

def empty : State := ⟨[], [], [], [], []⟩

def fragment? (state : State) (file : Path) : Option Fragment :=
  (state.loaded.find? (·.1 = file)).map (·.2)

/-- Notes the libraries that imported symbols need. -/
def needLibraries (state : State) (symbols : List Symbol) : State :=
  let libraries := symbols.foldl (fun libraries symbol =>
    match symbol.origin with
    | .foreign _ (some library) =>
        if libraries.contains library then libraries else libraries ++ [library]
    | _ => libraries) state.libraries
  { state with libraries }

def enter (state : State) (file : Path) : State := { state with active := state.active ++ [file] }

def leave (state : State) : State := { state with active := state.active.dropLast }

def begin (state : State) (path : String) (file : Path) : State :=
  { state with begun := state.begun ++ [(path, file)] }

def finish (state : State) (module : Module) (fragment : Fragment) : State :=
  { state with
    loaded := state.loaded ++ [(module.file, fragment)]
    compiled := state.compiled ++ [module] }

end State

/-- Where modules are looked for, and what they are compiled with. -/
structure Settings where
  tree : FileTree
  roots : List Path
  support : String

/-- Loading works on what has been loaded so far. -/
abbrev Loading := ExceptT Failure (StateM State)

/-- Does something while a file counts as being compiled. -/
def within {α : Type} (file : Path) (action : Loading α) : Loading α :=
  ExceptT.mk fun state =>
    let (outcome, after) := action.run (state.enter file)
    (outcome, after.leave)

/-- What is offered, as if imported by a path. -/
def retag (fragment : Fragment) (path : String) : Fragment :=
  ⟨path, fragment.symbols.map fun symbol => { symbol with origin := .module path }⟩

/-- What the catalog offers. -/
def fromCatalog (request : Import) : Loading Fragment := do
  let fragment ← (Catalog.fragment request.path).mapError Failure.catalog
  modify (·.needLibraries fragment.symbols)
  return fragment

def importsFor (source : String) (current : Option Path) : Except Failure (List Import) :=
  (imports source).mapError (.imports current)

/-- Adds what an import needs, unless it is there or only offers marks. -/
def gatherOne (load : Import → Loading Fragment) (found : List Fragment) (request : Import) :
    Loading (List Fragment) := do
  if Check.isMarkerModule request.dotted || found.any (·.path = request.dotted) then
    return found
  else
    let fragment ← load request
    return found ++ [fragment]

/-- What given imports need, each path once. -/
def gather (load : Import → Loading Fragment) (requests : List Import) :
    Loading (List Fragment) :=
  requests.foldlM (gatherOne load) []

/-- The part of a chain of imports from a file back to it. -/
def cycleOf (active : List Path) (file : Path) : List Path :=
  active.dropWhile (· ≠ file) ++ [file]

/-- Compiles a file, whose imports are loaded in a given way. -/
def compileFile (settings : Settings) (load : Import → Loading Fragment) (path : String)
    (file : Path) : Loading Fragment := do
  modify (·.begin path file)
  let source ← (settings.tree.readText file).mapError (Failure.read file)
  let compiled ← within file do
    let requests ← importsFor source (some file)
    let dependencies ← gather load requests
    (compile { kind := .library, support := settings.support } dependencies source).mapError
      (Failure.compile path file)
  let fragment := retag ⟨path, compiled.exports⟩ path
  modify (·.finish ⟨path, file, compiled.text⟩ fragment)
  return fragment

def without (files : List Path) (file : Path) : List Path := files.filter (· ≠ file)

theorem length_without_lt {files : List Path} {file : Path} (member : file ∈ files) :
    (without files file).length < files.length :=
  List.length_filter_lt_length_iff_exists.mpr ⟨file, member, by simp⟩

/-- Loads a module that a file imports. Free files are not being compiled. -/
def load (settings : Settings) (free : List Path) (current : Option Path) (request : Import) :
    Loading Fragment := do
  if Catalog.covers request.path then fromCatalog request
  else
    let file ← locate settings.tree settings.roots request.path current
    if isFree : file ∈ free then
      have _ := length_without_lt isFree
      match (← get).fragment? file with
      | some fragment => return retag fragment request.dotted
      | none =>
          compileFile settings (load settings (without free file) (some file)) request.dotted file
    else throw (.cycle (cycleOf (← get).active file))
termination_by free.length

/-- The files of a tree as paths from its root. -/
def filesOf (tree : FileTree) : List Path := tree.root.files.map fun (position, _) => position.path

/-- What a source imports. The directory of its file is searched first. -/
def fragmentsFor (settings : Settings) (source : String) (current : Option Path) :
    Loading (List Fragment) := do
  let requests ← importsFor source current
  let active := (← get).active
  gather (load settings ((filesOf settings.tree).filter (· ∉ active)) current) requests

end Library

end Offside
