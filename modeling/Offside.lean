import Offside.Main
import Offside.Proofs.Outcome
import Offside.Proofs.Typing.StaticType
import Offside.Proofs.Scope.Table
import Offside.Proofs.Scope.Growth
import Offside.Proofs.Scope.CheckVisits
import Offside.Proofs.Scope.Mismatch
import Offside.Proofs.Scope.LowerVisits
import Offside.Proofs.Scope.Walk
import Offside.Proofs.Scope.Resolution
import Offside.Proofs.C.Lowers
import Offside.Proofs.Scope.Identifiers
import Offside.Proofs.Scope.Declared
import Offside.Proofs.Scope.Occurrences
import Offside.Proofs.Scope.Binding
import Offside.Proofs.Token.Scan
import Offside.Proofs.Token.Balance
import Offside.Proofs.Token.Words
import Offside.Proofs.Scope.Visible
import Offside.Proofs.Scope.Alike
import Offside.Proofs.Scope.Order
import Offside.Proofs.Grammar.Suffix
import Offside.Proofs.Grammar.Sources
import Offside.Proofs.Grammar.Imports
import Offside.Proofs.Library.Loading
import Offside.Proofs.Library.Locating
import Offside.Proofs.Library.Cycles
import Offside.Proofs.Unit.Brought
import Offside.Proofs.Unit.Functions
import Offside.Proofs.Unit.Entry
import Offside.Proofs.Unit.Containment
import Offside.Proofs.Unit.Tags
import Offside.Proofs.Unit.Layout
import Offside.Proofs.Scope.History
import Offside.Proofs.Typing.Calls
import Offside.Proofs.Jump.Targets
import Offside.Proofs.File.Pieces
import Offside.Proofs.File.Growth
import Offside.Proofs.File.Written
import Offside.Proofs.Library.Naming
import Offside.Proofs.CommandLine.Session
import Offside.Proofs.CommandLine.Units
import Offside.Proofs.C.Decay
import Offside.Proofs.Grammar.Spacing
import Offside.Proofs.Grammar.BareLines
import Offside.Proofs.C.Value
import Offside.Proofs.Grammar.LineEnds
import Offside.Proofs.Unit.Stages
import Offside.Proofs.Unit.StructOrder
import Offside.Proofs.Grammar.Printing
import Offside.Proofs.Grammar.Precedence
import Offside.Proofs.C.Size
import Offside.Proofs.Scope.Statements
import Offside.Proofs.Typing.Final
import Offside.Proofs.C.Callees
import Offside.Proofs.Match.Cases
import Offside.Proofs.Match.Subject
import Offside.Proofs.Match.Chain
import Offside.Proofs.Match.Choice
import Offside.Proofs.Scope.Causes
import Offside.Proofs.Typing.Pointers
import Offside.Proofs.C.Written
import Offside.Proofs.Unit.Prototypes
import Offside.Proofs.Unit.FileNames
import Offside.Proofs.Unit.Internal
import Offside.Proofs.Token.Composed
import Offside.Proofs.Grammar.Annotations
import Offside.Proofs.Unit.Headings
import Offside.Proofs.Typing.Integers
import Offside.Proofs.C.StringLiteral
import Offside.Proofs.Library.Serving
import Offside.Proofs.Token.Measured
import Offside.Proofs.Typing.Slots
import Offside.Proofs.CommandLine.Failing
import Offside.Proofs.Token.Bytes
import Offside.Proofs.Grammar.Progress
