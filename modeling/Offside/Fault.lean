import Offside.Grammar.Refusal
import Offside.Lower.Cause

/-!
# Faults

Where a unit stops on its way to C, and why. All stages share one type of faults, each with faults
of its own sort; what a stage meets while it reads something with another one is translated there.
-/

namespace Offside

inductive Stage
  | scanning
  | parsing
  | checking
  | lowering
deriving DecidableEq, Repr

def Stage.name : Stage → String
  | scanning => "lex"
  | parsing => "parse"
  | checking => "semantic"
  | lowering => "codegen"

/-- Where a unit stops, and why. A missing place is filled in further out. -/
inductive Fault
  | scanning (token : Token)
  | parsing (reason : Grammar.Reason) (place : Option Token := none)
  | checking (cause : Check.Cause) (line : Option Nat := none)
  | lowering (cause : Lower.Cause)

namespace Fault

@[simp]
def stage : Fault → Stage
  | scanning _ => .scanning
  | parsing _ _ => .parsing
  | checking _ _ => .checking
  | lowering _ => .lowering

/-- The message of a fault without its place. -/
def bare : Fault → String
  | scanning token => token.text
  | parsing reason place => reason.message (place.getD ⟨.endOfFile, none, 1, 1⟩)
  | checking cause _ => cause.message
  | lowering cause => cause.message

/-- The place of a fault as messages show it. -/
def place : Fault → String
  | scanning token => " at " ++ toString token.line ++ ":" ++ toString token.column
  | parsing _ (some token) => " at " ++ toString token.line ++ ":" ++ toString token.column
  | checking _ (some line) => " at line " ++ toString line
  | _ => ""

def message (fault : Fault) : String :=
  fault.stage.name ++ " error" ++ fault.place ++ ": " ++ fault.bare

/-- The fault of a list of tokens with a last one. -/
def endingAt (last : Token) : Fault → Fault
  | parsing reason none => .parsing reason (some last)
  | fault => fault

/-- The fault of a quoted annotation, told by that of its inside. -/
def inQuoted (token : Token) (fault : Fault) : Fault :=
  .parsing (.invalidQuoted fault.bare) (some token)

/-- The fault of a statement on a line. -/
def onLine (line : Nat) : Fault → Fault
  | checking cause none => .checking cause (some line)
  | fault => fault

end Fault

namespace Check

def onLine {α : Type} (line : Nat) (outcome : Except Fault α) : Except Fault α :=
  outcome.mapError (.onLine line)

def reject {α : Type} (line : Nat) (cause : Cause) : Except Fault α :=
  .error (.checking cause (some line))

end Check

end Offside
