/-!
# Options

The words of a command line and what they ask for. They are read as clap documents it for arguments
with the actions `Set`, `Append` and `SetTrue` and no positional ones: a value is the rest of its
word, what follows an equals sign, or else the next word, which must not start with a hyphen; only
what is appended may be given more than once; letters without values may share a word.
-/

namespace Offside

namespace CommandLine

/-- What an option with a value sets. -/
inductive Setting
  | input
  | output
  | emit
  | support
  | modulePath
  | compiler
deriving DecidableEq, Repr

/-- What an option without a value turns on. -/
inductive Switch
  | library
  | dumpTokens
  | dumpOutline
  | dumpOutput
  | verbose
deriving DecidableEq, Repr

/-- What is told instead of compiling anything. -/
inductive Notice
  | version
  | help
deriving DecidableEq, Repr

/-- What an option means. -/
inductive Meaning
  | setting (setting : Setting)
  | switch (switch : Switch)
  | notice (notice : Notice)
deriving DecidableEq, Repr

/-- An option as it is declared, with the texts that the help shows. -/
structure Declared where
  letter : Option Char
  name : String
  meaning : Meaning
  /-- What stands for the value; empty without one. -/
  valueName : String
  text : String

def declared : List Declared :=
  [⟨some 'i', "input", .setting .input, "INPUT", "Source file; reads stdin when omitted"⟩,
   ⟨some 'o', "output", .setting .output, "OUTPUT", ""⟩,
   ⟨none, "emit", .setting .emit, "FORMAT", "Output format: c, exe [default: c]"⟩,
   ⟨none, "lib", .switch .library, "", "Compile as a library (no main required)"⟩,
   ⟨none, "runtime", .setting .support, "DIR",
    "Directory holding pyrinas.h and pyrinas.c (defaults to the bundled runtime)"⟩,
   ⟨some 'M', "module-path", .setting .modulePath, "DIR",
    "Extra directory to search for imported modules"⟩,
   ⟨none, "cc", .setting .compiler, "COMPILER", "[default: cc]"⟩,
   ⟨none, "dump-tokens", .switch .dumpTokens, "", "Print the token stream to stderr"⟩,
   ⟨none, "dump-ast", .switch .dumpOutline, "", "Print the syntax tree to stderr"⟩,
   ⟨none, "dump-c", .switch .dumpOutput, "", "Print the generated C to stderr"⟩,
   ⟨some 'v', "verbose", .switch .verbose, "", ""⟩,
   ⟨some 'h', "help", .notice .help, "", "Print help"⟩,
   ⟨some 'V', "version", .notice .version, "", "Print version"⟩]

def ofLong? (name : String) : Option Meaning := (declared.find? (·.name = name)).map (·.meaning)

def ofShort? (letter : Char) : Option Meaning :=
  (declared.find? (·.letter = some letter)).map (·.meaning)

/-- An option in the first column of the help. -/
def Declared.head (option : Declared) : String :=
  (match option.letter with
    | some letter => "-" ++ letter.toString ++ ", --"
    | none => "    --")
  ++ option.name ++ (if option.valueName = "" then "" else " <" ++ option.valueName ++ ">")

/-- Why a command line asks for no compilation. -/
inductive Stop
  | usage
  | notice (notice : Notice)
deriving DecidableEq, Repr

/-- The options that were given so far. -/
structure Draft where
  settings : List (Setting × String)
  switches : List Switch

namespace Draft

/-- Gives an option a value. -/
def set (draft : Draft) (setting : Setting) (value : String) : Except Stop Draft :=
  if setting ≠ .modulePath && draft.settings.any (·.1 = setting) then .error .usage
  else .ok { draft with settings := draft.settings ++ [(setting, value)] }

def turnOn (draft : Draft) (switch : Switch) : Except Stop Draft :=
  if draft.switches.contains switch then .error .usage
  else .ok { draft with switches := draft.switches ++ [switch] }

def value? (draft : Draft) (setting : Setting) : Option String :=
  (draft.settings.find? (·.1 = setting)).map (·.2)

def values (draft : Draft) (setting : Setting) : List String :=
  (draft.settings.filter (·.1 = setting)).map (·.2)

end Draft

/-- How far a word was read. -/
inductive Reading
  | complete (draft : Draft)
  | waiting (draft : Draft) (setting : Setting)

/-- Reads short options that share a word. -/
def readShort (draft : Draft) : List Char → Except Stop Reading
  | [] => .ok (.complete draft)
  | letter :: letters =>
      match ofShort? letter with
      | none => .error .usage
      | some (.notice notice) => .error (.notice notice)
      | some (.switch switch) => do
          let draft ← draft.turnOn switch
          readShort draft letters
      | some (.setting setting) =>
          match letters with
          | [] => .ok (.waiting draft setting)
          | '=' :: value => return .complete (← draft.set setting (String.ofList value))
          | value => return .complete (← draft.set setting (String.ofList value))

/-- Reads a long option, with the value in its word. -/
def readLong (draft : Draft) (name : String) (value : Option String) : Except Stop Reading :=
  match ofLong? name, value with
  | none, _ => .error .usage
  | some (.notice notice), none => .error (.notice notice)
  | some (.notice _), some _ => .error .usage
  | some (.switch switch), none => return .complete (← draft.turnOn switch)
  | some (.switch _), some _ => .error .usage
  | some (.setting setting), none => .ok (.waiting draft setting)
  | some (.setting setting), some value => return .complete (← draft.set setting value)

/-- Reads a word that is no value, and so an option. -/
def readWord (draft : Draft) (word : String) : Except Stop Reading :=
  match word.toList with
  | '-' :: '-' :: chars =>
      let name := String.ofList (chars.takeWhile (· ≠ '='))
      match chars.dropWhile (· ≠ '=') with
      | [] => readLong draft name none
      | _ :: value => readLong draft name (some (String.ofList value))
  | '-' :: letter :: letters => readShort draft (letter :: letters)
  | _ => .error .usage

/-- Whether a word looks like an option, and so is no value. -/
def looksLikeOption (word : String) : Bool :=
  match word.toList with
  | '-' :: _ :: _ => true
  | _ => false

/-- Reads the words of a command line. Nothing may follow two dashes. -/
def readWords (draft : Draft) : List String → Except Stop Draft
  | [] => .ok draft
  | word :: words =>
      if word = "--" then if words.isEmpty then .ok draft else .error .usage
      else do
        match ← readWord draft word with
        | .complete draft => readWords draft words
        | .waiting draft setting =>
            match words with
            | [] => .error .usage
            | value :: words =>
                if looksLikeOption value then .error .usage
                else do
                  let draft ← draft.set setting value
                  readWords draft words

/-- What a command line asks for. -/
structure Options where
  /-- The source file; the standard input, if there is none. -/
  input : Option String
  output : String
  emit : String
  isLibrary : Bool
  /-- The directory of the support library, if not the bundled one. -/
  support : Option String
  modulePaths : List String
  compiler : String
  dumpTokens : Bool
  dumpOutline : Bool
  dumpOutput : Bool
  verbose : Bool

/-- What the words of a command line ask for, as clap's parser with these options reads them. -/
def Options.ofWords (words : List String) : Except Stop Options := do
  let draft ← readWords ⟨[], []⟩ words
  match draft.value? .output with
  | none => .error .usage
  | some output =>
      return {
        input := draft.value? .input
        output := output
        emit := (draft.value? .emit).getD "c"
        isLibrary := draft.switches.contains .library
        support := draft.value? .support
        modulePaths := draft.values .modulePath
        compiler := (draft.value? .compiler).getD "cc"
        dumpTokens := draft.switches.contains .dumpTokens
        dumpOutline := draft.switches.contains .dumpOutline
        dumpOutput := draft.switches.contains .dumpOutput
        verbose := draft.switches.contains .verbose }

end CommandLine

end Offside
