import Offside.CommandLine.Run

/-!
# The program

Takes a picture of the files that a command line may reach, runs the command line on it, and writes
the files that have changed. The program starts no other programs, so a C compiler always counts as
missing.
-/

namespace Offside

namespace CommandLine

/-- The node at a path; what cannot be read is an empty directory. -/
partial def readNode (path : String) : IO Node := do
  try
    let place ← IO.FS.realPath path
    if ← place.isDir then
      let found ← place.readDir
      let entries ← found.toList.mapM fun item => do
        return (item.fileName, ← readNode item.path.toString)
      return entries.foldl (fun node (name, inner) => node.put [name] inner) (.directory [])
    else return .file (← IO.FS.readBinFile place)
  catch _ => return .directory []

/-- Adds what is at a path to a picture of the files. -/
def addPicture (root : Node) (path : String) : IO Node := do
  try
    let place ← IO.FS.realPath path
    let position := (Path.mk place.toString).components
    return root.put position (← readNode place.toString)
  catch _ => return root

/-- The directories that a command line may reach. -/
def reached (options : Options) (bundled : String) : List String :=
  let files := options.input.toList ++ [options.output]
  let parents := files.filterMap fun file => (Path.parent? ⟨file⟩).map (·.text)
  "." :: bundled :: parents.filter (· ≠ "") ++ options.modulePaths ++ options.support.toList

/-- Writes the files that differ between two trees. -/
def writeChanges (before after : Node) : IO Unit := do
  for (position, content) in after.files do
    match before.get? position with
    | some (.file old) => if old != content then IO.FS.writeBinFile position.path.text content
    | _ =>
        IO.FS.createDirAll (Position.path position.dropLast).text
        IO.FS.writeBinFile position.path.text content

/-- The picture on which a command line runs. -/
def takePicture (words : List String) : IO World := do
  let home := (Path.mk (← IO.currentDir).toString).components
  let bundled := ((Path.mk (← IO.appPath).toString).parent?.getD ⟨"/"⟩).join ⟨"runtime"⟩
  let missing := fun _ _ => none
  match Options.ofWords words with
  | .error _ => return ⟨⟨.directory [], home⟩, ⟨#[]⟩, missing, bundled⟩
  | .ok options =>
      let root ← (reached options bundled.text).foldlM addPicture (.directory [])
      let input ← if options.input.isSome then pure ⟨#[]⟩ else (← IO.getStdin).readBinToEnd
      return ⟨⟨root, home⟩, input, missing, bundled⟩

end CommandLine

end Offside

def main (words : List String) : IO UInt32 := do
  let world ← Offside.CommandLine.takePicture words
  let outcome := Offside.CommandLine.run world words
  Offside.CommandLine.writeChanges world.tree.root outcome.tree.root
  (← IO.getStdout).putStr outcome.output
  (← IO.getStderr).putStr outcome.errors
  return outcome.code.toUInt32
