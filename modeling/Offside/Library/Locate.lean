import Offside.Library.Failure

/-!
# Finding modules

Where the file of an imported module is. Directories are tried in turn for the places in which a
module may be kept; only then is the whole content of each searched.
-/

namespace Offside

namespace Library

/-- The extension of source files. -/
def extension : String := "pyr"

/-- Whether the place of a source file makes it part of a library. -/
def isLibraryPath (path : Path) : Bool :=
  path.components.contains "modules" ||
    match path.fileName? with
    | some name => name.endsWith "_utils.pyr"
    | none => false

/-- The directories to search: a base, folders of it, and further ones. -/
def roots (base : Path) (further : List Path) : List Path :=
  [base, base.join ⟨"modules"⟩, base.join ⟨"lib"⟩, base.join ⟨"src"⟩] ++ further

/-- The places in a directory where a module may be, best first. -/
def candidates (module : List String) (last : String) : List Path :=
  let relative := module.foldl (fun path part => path.join ⟨part⟩) (⟨""⟩ : Path)
  [relative.withExtension extension,
   relative.join ⟨"main." ++ extension⟩,
   relative.join ⟨"index." ++ extension⟩,
   relative.join ⟨last ++ "." ++ extension⟩]

/-- The directories to search for an import of a file, its own first. -/
def searched (roots : List Path) (current : Option Path) : List Path :=
  match current.bind Path.parent? with
  | some parent => parent :: roots
  | none => roots

/-- The file of a module. -/
def locate (tree : FileTree) (roots : List Path) (module : List String) (current : Option Path) :
    Except Failure Path :=
  match module.getLast? with
  | none => .error .emptyPath
  | some last =>
      let directories := searched roots current
      let places := directories.flatMap fun directory =>
        (candidates module last).map directory.join
      match places.find? tree.isFile with
      | some file => (tree.canonical file).mapError (.unresolved file)
      | none =>
          match directories.findSome? (tree.search? · (last ++ "." ++ extension)) with
          | some position => .ok position.path
          | none => .error (.notFound (".".intercalate module) directories)

end Library

end Offside
