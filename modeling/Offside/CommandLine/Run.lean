import Offside.CommandLine.Options
import Offside.Library.Load

/-!
# Running a command line

What a command line does, as a function of the files, the standard input and what a C compiler would
do. Nothing is written before everything is compiled.
-/

namespace Offside

namespace CommandLine

inductive Failure
  | library (failure : Library.Failure)
  | readInput (path : String) (fault : FileFault)
  | readStandardInput (fault : FileFault)
  | resolveInput (fault : FileFault)
  | compile (label : String) (fault : Fault)
  | emit (format : String)
  | makeDirectory (path : Path) (fault : FileFault)
  | write (path : Path) (fault : FileFault)
  | noSupport (path : Path)
  | startCompiler (name : String) (fault : FileFault)
  | compiler (output errors : String)

namespace Failure

def headline : Failure → String
  | library failure => failure.headline
  | readInput path _ => "failed to read input file " ++ path
  | readStandardInput _ => "failed to read source from stdin"
  | resolveInput fault => fault.message
  | compile label _ => "failed to compile " ++ label
  | emit format => "unsupported emit format: " ++ format
  | makeDirectory path _ => "failed to create directory " ++ Text.quoted path.text
  | write path _ => "failed to write output file " ++ path.text
  | noSupport path => "runtime source not found at " ++ path.text
  | startCompiler name _ => "failed to run C compiler " ++ name
  | compiler output errors =>
      "C compiler failed\nstdout:\n" ++ output ++ "\nstderr:\n" ++ errors

/-- What made it fail, where that is a failure in itself. -/
def cause? : Failure → Option String
  | library failure => failure.cause?
  | readInput _ fault => some fault.message
  | readStandardInput fault => some fault.message
  | compile _ fault => some fault.message
  | makeDirectory _ fault => some fault.message
  | write _ fault => some fault.message
  | startCompiler _ fault => some fault.message
  | resolveInput _ | emit _ | noSupport _ | compiler _ _ => none

def indented (text : String) : String :=
  "    " ++ String.join (text.toList.map fun char =>
    if char = '\n' then "\n    " else String.singleton char)

def report (failure : Failure) : String :=
  "Error: " ++ failure.headline ++ "\n" ++
    match failure.cause? with
    | some cause => "\nCaused by:\n" ++ indented cause ++ "\n"
    | none => ""

end Failure

/-- What a C compiler does when it is started. -/
inductive CompilerRun
  | succeeds
  | fails (output errors : String)

/-- What a command line works with. -/
structure World where
  tree : FileTree
  input : ByteArray
  /-- What a C compiler does with given words, if it is installed. -/
  runCompiler : String → List String → Option CompilerRun
  bundled : Path

/-- What a command line has done. -/
structure Session where
  tree : FileTree
  told : String

/-- Running may fail; what was done before stays done. -/
abbrev Running := ExceptT Failure (StateM Session)

def tell (line : String) : Running Unit :=
  modify fun session => { session with told := session.told ++ line ++ "\n" }

/-- Tells a line if the work is to be told. -/
def tellStep (options : Options) (line : String) : Running Unit :=
  if options.verbose then tell line else pure ()

/-- The source, and the path of its file. -/
def readSource (world : World) (options : Options) : Except Failure (String × Option Path) :=
  match options.input with
  | some path => do
      let source ← (world.tree.readText ⟨path⟩).mapError (.readInput path)
      return (source, some ⟨path⟩)
  | none => do
      let source ← (FileTree.textOf world.input).mapError .readStandardInput
      return (source, none)

/-- Whether the unit is a library, as an option or its place says. -/
def unitKind (options : Options) : UnitKind :=
  if options.isLibrary || options.input.any (Library.isLibraryPath ⟨·⟩) then .library
  else .program

/-- The directory of the source file if it is written, and else the working directory. -/
def baseDirectory (tree : FileTree) (input : Option Path) : Path :=
  match input.bind Path.parent? with
  | some parent => if parent.text = "" then tree.home.path else parent
  | none => tree.home.path

def kindName : UnitKind → String
  | .program => "Program"
  | .library => "Library"

/-- Tells what was asked to be shown. -/
def tellDumps (dumps : Dumps) : Running Unit := do
  let dumped (title : String) (dump : Option String) : Running Unit :=
    match dump with
    | some text => tell ("--- " ++ title ++ " ---\n" ++ text)
    | none => pure ()
  dumped "tokens" dumps.tokens
  dumped "ast" dumps.outline
  dumped "c" dumps.output

/-- Writes a file, after the directories it needs. -/
def writeOutput (path : Path) (text : String) : Running Unit := do
  match path.parent? with
  | some parent =>
      if parent.text ≠ "" then
        let session ← get
        let (outcome, tree) := session.tree.makeDirectories parent
        set { session with tree := tree }
        outcome.mapError (Failure.makeDirectory parent)
  | none => pure ()
  let session ← get
  let tree ← (session.tree.write path text.toUTF8).mapError (Failure.write path)
  set { session with tree := tree }

/-- The path of a module's C file, beside the result. -/
def modulePath (output : Path) (module : Library.Module) : Path :=
  (output.parent?.getD ⟨""⟩).join ⟨module.cFile⟩

/-- Writes the C text of a unit and of its modules. -/
def writeUnits (output main : Path) (text : String) (modules : List Library.Module) :
    Running Unit := do
  writeOutput main text
  modules.forM fun module => writeOutput (modulePath output module) module.text

/-- The source of the support library in its directory. -/
def supportSource (support : Path) : Path := support.join ⟨"pyrinas.c"⟩

/-- The words with which the C compiler is started. -/
def compilerWords (output : String) (sources : List Path) (support : Path)
    (libraries : List String) : List String :=
  ["-I", support.text, "-o", output] ++ sources.map (·.text) ++ [(supportSource support).text]
    ++ (libraries.filter (· ≠ "m")).map ("-l" ++ ·) ++ ["-lm"]

/-- Makes an executable out of written C files. -/
def buildExecutable (world : World) (options : Options) (sources : List Path)
    (libraries : List String) : Running Unit := do
  let support := match options.support with
    | some path => ⟨path⟩
    | none => world.bundled
  let source := supportSource support
  if !(← get).tree.isFile source then throw (.noSupport source)
  let words := compilerWords options.output sources support libraries
  tellStep options ("running " ++ " ".intercalate ((options.compiler :: words).map Text.quoted))
  match world.runCompiler options.compiler words with
  | some .succeeds => pure ()
  | some (.fails output errors) => throw (.compiler output errors)
  | none =>
      throw (.startCompiler options.compiler ((← get).tree.startFault options.compiler))

/-- Compiles what a source imports, and tells which modules are compiled. -/
def loadImports (options : Options) (settings : Library.Settings) (source : String)
    (current : Option Path) : Running (List Fragment × Library.State) := do
  let (outcome, state) := ((Library.fragmentsFor settings source current).run).run .empty
  state.begun.forM fun (path, file) =>
    tellStep options ("compiling module " ++ path ++ " (" ++ file.text ++ ")")
  let fragments ← outcome.mapError Failure.library
  return (fragments, state)

/-- Does what options ask for. -/
def execute (world : World) (options : Options) : Running Unit := do
  let (source, input) ← readSource world options
  let kind := unitKind options
  let request : Request := {
    kind := kind
    wantsTokens := options.dumpTokens
    wantsOutline := options.dumpOutline
    wantsOutput := options.dumpOutput }
  let roots := Library.roots (baseDirectory world.tree input) (options.modulePaths.map (⟨·⟩))
  let current ← (input.mapM world.tree.canonical).mapError Failure.resolveInput
  let (fragments, state) ←
    loadImports options ⟨world.tree, roots, request.support⟩ source current
  let label := options.input.getD "<stdin>"
  tellStep options ("compiling " ++ label ++ " as " ++ kindName kind)
  let compiled ← (compile request fragments source).mapError (Failure.compile label)
  tellDumps compiled.dumps
  let output : Path := ⟨options.output⟩
  match options.emit with
  | "c" =>
      writeUnits output output compiled.text state.compiled
      tellStep options ("wrote " ++ options.output)
  | "exe" =>
      let main : Path := ⟨options.output ++ ".c"⟩
      writeUnits output main compiled.text state.compiled
      buildExecutable world options (main :: state.compiled.map (modulePath output))
        state.libraries
      tellStep options ("built " ++ options.output)
  | format => throw (.emit format)

/-- What a command line leaves behind. -/
structure Outcome where
  code : Nat
  output : String
  errors : String
  tree : FileTree

/-- The name and version of the program. -/
def version : String := "pyrinas-cli 0.1.0\n"

def usage : String := "Usage: pyrinas-cli [OPTIONS] --output <OUTPUT>\n"

/-- What follows the list of options in the help. -/
def afterHelp : String :=
  "`import a.b` binds the module as `b`; refer to its exports as `b.name`.\n"

/-- The texts of the program and its options in clap's layout, without its line breaks. -/
def help : String :=
  let width := (declared.map (·.head.length)).foldl max 0
  let line (option : Declared) : String :=
    "  " ++ option.head ++ String.ofList (List.replicate (width - option.head.length + 2) ' ')
      ++ option.text ++ "\n"
  "Compile Pyrinas source files to C\n\n" ++ usage ++ "\nOptions:\n"
    ++ String.join (declared.map line) ++ "\n" ++ afterHelp

/-- What is told about refused words, apart from which word it is. -/
def hint : String := usage ++ "\nFor more information, try '--help'.\n"

/-- Runs the words of a command line. -/
def run (world : World) (words : List String) : Outcome :=
  match Options.ofWords words with
  | .error .usage => ⟨2, "", hint, world.tree⟩
  | .error (.notice .version) => ⟨0, version, "", world.tree⟩
  | .error (.notice .help) => ⟨0, help, "", world.tree⟩
  | .ok options =>
      match ((execute world options).run).run ⟨world.tree, ""⟩ with
      | (.ok (), session) => ⟨0, "", session.told, session.tree⟩
      | (.error failure, session) => ⟨1, "", session.told ++ failure.report, session.tree⟩

end CommandLine

end Offside
