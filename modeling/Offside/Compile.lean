import Offside.Grammar.Statement
import Offside.Lower.Unit
import Offside.Tree.Outline

/-!
# Compilation

The stages from a source to C, and what a unit offers to others. Imported modules are handed in;
none is looked for here.
-/

namespace Offside

def tokenize (source : String) : Except Fault (List Token) :=
  let tokens := Token.ofSource source
  match tokens.getLast? with
  | some last => if last.kind = .error then .error (.scanning last) else .ok tokens
  | none => .ok tokens

def parseTokens (tokens : List Token) : Except Fault (List Statement) :=
  match Grammar.scanFault? tokens with
  | some token => .error (.scanning token)
  | none =>
      let (body, last) := Grammar.splitEnd tokens
      (Grammar.sourceBody body).mapError (.endingAt last)

def parse (source : String) : Except Fault (List Statement) := do
  let tokens ← tokenize source
  parseTokens tokens

abbrev analyze (kind : UnitKind) (modules : List Fragment) (body : List Statement) :
    Except Fault Table :=
  Check.checkUnit kind modules body

abbrev generate (table : Table) (support : String) (kind : UnitKind) (body : List Statement) :
    Except Fault C.Unit :=
  Lower.lowerUnit table support kind body

def imports (source : String) : Except Fault (List Import) := do
  let body ← parse source
  return importsOf body

/-- The header of the support library, unless another is given. -/
def defaultSupport : String := "pyrinas.h"

/-- What is asked of a compilation. -/
structure Request where
  kind : UnitKind := .program
  support : String := defaultSupport
  wantsTokens : Bool := false
  wantsOutline : Bool := false
  /-- Whether the C text is asked for once more. -/
  wantsOutput : Bool := false

/-- The dumps that were asked for. -/
structure Dumps where
  tokens : Option String
  outline : Option String
  output : Option String

/-- What a compilation gives. -/
structure Compiled where
  text : String
  /-- What other units may use, without a path. -/
  exports : List Symbol
  dumps : Dumps

/-- Compiles a source against the modules that it imports. -/
def compile (request : Request) (modules : List Fragment) (source : String) :
    Except Fault Compiled := do
  let tokens ← tokenize source
  let body ← parseTokens tokens
  let table ← analyze request.kind modules body
  let unit ← generate table request.support request.kind body
  let text := unit.text
  return {
    text := text
    exports := table.exports ""
    dumps := {
      tokens := if request.wantsTokens then some (Token.listing tokens) else none
      outline := if request.wantsOutline then some (outline body) else none
      output := if request.wantsOutput then some text else none } }

end Offside
