import Offside.Path

/-!
# File trees

A tree of directories and files without links, and a working directory in it from which paths are
followed. Following a path needs every directory that it passes through, also where it goes up
again.
-/

namespace Offside

/-- Why a path leads to nothing useful. -/
inductive FileFault
  | notFound
  | alreadyExists
  | notDirectory
  | isDirectory
  | tooLong
  /-- What is there cannot be started. -/
  | notPermitted
  | notText
deriving DecidableEq, Repr

def FileFault.message : FileFault → String
  | notFound => "No such file or directory (os error 2)"
  | alreadyExists => "File exists (os error 17)"
  | notDirectory => "Not a directory (os error 20)"
  | isDirectory => "Is a directory (os error 21)"
  | tooLong => "File name too long (os error 36)"
  | notPermitted => "Permission denied (os error 13)"
  | notText => "stream did not contain valid UTF-8"

/-- A file, or a directory with its entries by name. -/
inductive Node
  | file (content : ByteArray)
  | directory (entries : List (String × Node))

/-- The names on the way to a node from the root. -/
abbrev Position := List String

/-- A position as a path from the root. -/
def Position.path (position : Position) : Path := ⟨"/" ++ "/".intercalate position⟩

namespace Node

def isFile : Node → Bool
  | file _ => true
  | directory _ => false

def isDirectory : Node → Bool
  | file _ => false
  | directory _ => true

def child? (name : String) : Node → Option Node
  | file _ => none
  | directory entries => (entries.find? (·.1 = name)).map (·.2)

def get? (node : Node) : Position → Option Node
  | [] => some node
  | name :: names =>
      match node.child? name with
      | some inner => inner.get? names
      | none => none

/-- Entries with one put in its place by name. -/
def putEntry (name : String) (node : Node) : List (String × Node) → List (String × Node)
  | [] => [(name, node)]
  | (other, old) :: entries =>
      if name = other then (name, node) :: entries
      else if name < other then (name, node) :: (other, old) :: entries
      else (other, old) :: putEntry name node entries

/-- Puts a node at a position, with the directories it needs; nothing is put below a file. -/
def put (node : Node) (position : Position) (new : Node) : Node :=
  match position, node with
  | [], _ => new
  | _ :: _, file content => file content
  | name :: names, directory entries =>
      let inner := (child? name (directory entries)).getD (directory [])
      directory (putEntry name (inner.put names new) entries)

mutual

/-- The first file with a name in the order in which walkdir documents its walk when it sorts by
file name: depth first, each entry before what is inside it, entries of a directory by name. -/
def find? (wanted : String) : Node → Option Position
  | file _ => none
  | directory entries => findIn? wanted entries

/-- The position of the first file with a name among entries. -/
def findIn? (wanted : String) : List (String × Node) → Option Position
  | [] => none
  | (name, node) :: entries =>
      if node.isFile && name = wanted then some [name]
      else match find? wanted node with
        | some position => some (name :: position)
        | none => findIn? wanted entries

end

mutual

/-- All files with their positions, depth first. -/
def files : Node → List (Position × ByteArray)
  | file content => [([], content)]
  | directory entries => filesIn entries

def filesIn : List (String × Node) → List (Position × ByteArray)
  | [] => []
  | (name, node) :: entries =>
      (files node).map (fun (position, content) => (name :: position, content))
        ++ filesIn entries

end

end Node

/-- A tree of files and a working directory in it. -/
structure FileTree where
  root : Node
  home : Position

namespace FileTree

/-- Follows one piece of a path from a position. -/
def step (root : Node) (position : Position) (piece : String) : Except FileFault Position :=
  match root.get? position with
  | none => .error .notFound
  | some (.file _) => .error .notDirectory
  | some (.directory _) =>
      if Path.isIdle piece then .ok position
      else if piece = ".." then .ok position.dropLast
      else if Path.isLongName piece then .error .tooLong
      else if (root.get? (position ++ [piece])).isSome then .ok (position ++ [piece])
      else .error .notFound

/-- Where a path starts. -/
def start (tree : FileTree) (path : Path) : Except FileFault Position :=
  if path.text = "" then .error .notFound
  else if path.isLong then .error .tooLong
  else .ok (if path.isAbsolute then [] else tree.home)

/-- The position that a path leads to. -/
def resolve (tree : FileTree) (path : Path) : Except FileFault Position := do
  path.pieces.foldlM (step tree.root) (← tree.start path)

def node (tree : FileTree) (path : Path) : Except FileFault Node := do
  let position ← tree.resolve path
  match tree.root.get? position with
  | some node => return node
  | none => .error .notFound

def isFile (tree : FileTree) (path : Path) : Bool :=
  match tree.node path with
  | .ok node => node.isFile
  | .error _ => false

def isDirectory (tree : FileTree) (path : Path) : Bool :=
  match tree.node path with
  | .ok node => node.isDirectory
  | .error _ => false

def canonical (tree : FileTree) (path : Path) : Except FileFault Path := do
  let position ← tree.resolve path
  return position.path

/-- The text that bytes hold. -/
def textOf (content : ByteArray) : Except FileFault String :=
  match String.fromUTF8? content with
  | some text => .ok text
  | none => .error .notText

/-- The text of the file that a path leads to. -/
def readText (tree : FileTree) (path : Path) : Except FileFault String := do
  match ← tree.node path with
  | .file content => textOf content
  | .directory _ => .error .isDirectory

/-- The first file with a name that a walk of walkdir below a directory comes to. -/
def search? (tree : FileTree) (path : Path) (wanted : String) : Option Position :=
  match tree.resolve path with
  | .error _ => none
  | .ok position =>
      match tree.root.get? position with
      | some node => (node.find? wanted).map (position ++ ·)
      | none => none

/-- Puts a node at a position. -/
def put (tree : FileTree) (position : Position) (new : Node) : FileTree :=
  { tree with root := tree.root.put position new }

/-- Where the last name of a path leads, and the directory that holds it. -/
inductive Target
  | name (directory : Position) (name : String)
  /-- To a directory that exists in any case. -/
  | existing

/-- Where a path leads whose last name may be missing. -/
def target (tree : FileTree) (path : Path) : Except FileFault Target := do
  let start ← tree.start path
  let pieces := (path.pieces.reverse.dropWhile (· = "")).reverse
  match pieces.getLast? with
  | none => return .existing
  | some name =>
      let directory ← pieces.dropLast.foldlM (step tree.root) start
      match tree.root.get? directory with
      | some (.directory _) =>
          if name = "." || name = ".." then return .existing else return .name directory name
      | some (.file _) => .error .notDirectory
      | none => .error .notFound

def makeDirectory (tree : FileTree) (path : Path) : Except FileFault FileTree := do
  match ← tree.target path with
  | .existing => .error .alreadyExists
  | .name directory name =>
      if Path.isLongName name then .error .tooLong
      else if (tree.root.get? (directory ++ [name])).isSome then .error .alreadyExists
      else return tree.put (directory ++ [name]) (.directory [])

/-- Makes the first of some directories and those after it that are missing. The tree is given back
also where that fails. -/
def makeChain (tree : FileTree) : List Path → Except FileFault Unit × FileTree
  | [] => (.ok (), tree)
  | path :: above =>
      if path.text = "" then (.ok (), tree)
      else
        let settle (tree : FileTree) : Except FileFault FileTree → Except FileFault Unit × FileTree
          | .ok made => (.ok (), made)
          | .error fault => (if tree.isDirectory path then .ok () else .error fault, tree)
        match tree.makeDirectory path with
        | .error .notFound =>
            match tree.makeChain above with
            | (.ok (), tree) => settle tree (tree.makeDirectory path)
            | failed => failed
        | outcome => settle tree outcome

/-- Makes a directory and all that it needs. -/
def makeDirectories (tree : FileTree) (path : Path) : Except FileFault Unit × FileTree :=
  tree.makeChain path.ancestors

def write (tree : FileTree) (path : Path) (content : ByteArray) : Except FileFault FileTree := do
  match ← tree.target path with
  | .existing => .error .isDirectory
  | .name directory name =>
      let position := directory ++ [name]
      if path.text.endsWith "/" then .error .isDirectory
      else if Path.isLongName name then .error .tooLong
      else match tree.root.get? position with
        | some (.directory _) => .error .isDirectory
        | _ => return tree.put position (.file content)

/-- Why a program that is not installed cannot be started. A name with a slash is a path. -/
def startFault (tree : FileTree) (name : String) : FileFault :=
  if name.contains '/' then
    match tree.resolve ⟨name⟩ with
    | .ok _ => .notPermitted
    | .error fault => fault
  else if name = "." || name = ".." then .notPermitted
  else if Path.isLongName name then .tooLong
  else .notFound

end FileTree

end Offside
