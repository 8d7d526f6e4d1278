/-!
# Paths

Paths as they are written. A path is cut at its slashes into pieces; pieces that change nothing are
no components. No operation here looks at files.
-/

namespace Offside

/-- A path as it is written. -/
structure Path where
  text : String
deriving DecidableEq, Repr

namespace Path

/-- Cuts characters at slashes. -/
def split : List Char → List (List Char)
  | [] => [[]]
  | char :: rest =>
      if char = '/' then [] :: split rest
      else match split rest with
        | [] => [[char]]
        | piece :: pieces => (char :: piece) :: pieces

/-- The pieces of a path between its slashes. -/
def pieces (path : Path) : List String := (split path.text.toList).map String.ofList

/-- The path with given pieces. -/
def ofPieces (pieces : List String) : Path := ⟨"/".intercalate pieces⟩

/-- Whether a name is longer than names of files can be. -/
def isLongName (name : String) : Bool := 255 < name.utf8ByteSize

/-- Whether a path has more bytes than can be followed. -/
def isLong (path : Path) : Bool := 4095 < path.text.utf8ByteSize

def isAbsolute (path : Path) : Bool := path.text.startsWith "/"

/-- Whether a piece changes nothing: an empty one, or a dot. -/
def isIdle (piece : String) : Bool := piece = "" || piece = "."

/-- Pieces up to the last component. A dot at the start counts. -/
def trimmed (pieces : List String) : List String :=
  match pieces with
  | [] => []
  | first :: others =>
      match (others.reverse.dropWhile isIdle).reverse with
      | [] => if first = "" then [] else [first]
      | kept => first :: kept

/-- The components of a path, without the root. -/
def components (path : Path) : List String :=
  match trimmed path.pieces with
  | [] => []
  | first :: others =>
      (if first = "" then [] else [first]) ++ others.filter fun piece => !isIdle piece

/-- The path with given pieces; the first is empty for the root. -/
def ofTrimmed (isAbsolute : Bool) (pieces : List String) : Path :=
  if pieces.isEmpty && isAbsolute then ⟨"/"⟩ else ofPieces pieces

/-- A path without its last component, unless it has none. -/
def parent? (path : Path) : Option Path :=
  match trimmed path.pieces with
  | [] => none
  | pieces => some (ofTrimmed path.isAbsolute (trimmed pieces.dropLast))

/-- The last component, unless it is a dot or leads upwards. -/
def fileName? (path : Path) : Option String :=
  match (trimmed path.pieces).getLast? with
  | none => none
  | some name => if name = "." || name = ".." then none else some name

/-- A path inside another, unless it starts at the root. -/
def join (base path : Path) : Path :=
  if path.isAbsolute then path
  else if base.text = "" || base.text.endsWith "/" then ⟨base.text ++ path.text⟩
  else ⟨base.text ++ "/" ++ path.text⟩

/-- A name without its extension, which no dot at its start begins. -/
def stem (name : String) : String :=
  match (name.toList.reverse.dropWhile (· ≠ '.')).drop 1 with
  | [] => name
  | kept => String.ofList kept.reverse

/-- A path whose last component has another extension. -/
def withExtension (path : Path) (extension : String) : Path :=
  match path.fileName? with
  | none => path
  | some name =>
      ofPieces ((trimmed path.pieces).dropLast ++ [stem name ++ "." ++ extension])

/-- A path and all paths above it, nearest first. -/
def ancestors (path : Path) : List Path :=
  let kept := trimmed path.pieces
  path :: (List.range kept.length).reverse.filterMap fun count =>
    if trimmed (kept.take count) = kept.take count then
      some (ofTrimmed path.isAbsolute (kept.take count))
    else none

end Path

end Offside
