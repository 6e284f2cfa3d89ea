import Equate.Main
import Equate.Proofs.Expr.Folding
import Equate.Repl.Completion
import Equate.Session
import Equate.Tree.Label
import Equate.Proofs.Formula.Alternation
import Equate.Proofs.Solving.Course
import Equate.Proofs.Solving.Outcome
import Equate.Proofs.Repl.EquationLine
import Equate.Proofs.Solving.Exact
import Equate.Proofs.Solving.Solutions
import Equate.Proofs.Solving.Substitution
import Equate.Proofs.Workspace.Simplify
import Equate.Proofs.Formula.RoundTrip
import Equate.Proofs.Workspace.FoldOrder
import Equate.Proofs.Solving.Occurrences
import Equate.Proofs.Solving.Resumption
import Equate.Proofs.Solving.Inverses
import Equate.Proofs.Number.Pieces
import Equate.Proofs.Formula.Supply
import Equate.Proofs.Formula.Misreading
import Equate.Proofs.Workspace.Solving
import Equate.Proofs.Workspace.Calls
import Equate.Proofs.Repl.Answers
import Equate.Proofs.Repl.Runs
import Equate.Proofs.Repl.Frame
import Equate.Proofs.Repl.Unanswered
import Equate.Proofs.Repl.ExitCodes
import Equate.Proofs.Workspace.Parts
import Equate.Proofs.Workspace.Confinement
import Equate.Proofs.Workspace.Changes
import Equate.Proofs.Workspace.WellFormed
import Equate.Proofs.Workspace.Isolation
import Equate.Proofs.Workspace.Sharing
import Equate.Proofs.Workspace.RootFolds
import Equate.Proofs.Workspace.Watching
import Equate.Proofs.Number.Numerals
import Equate.Proofs.Workspace.ClosedParts
import Equate.Proofs.Workspace.Operations
import Equate.Proofs.Token.Separation
import Equate.Proofs.Number.Forms
import Equate.Proofs.Repl.Values
import Equate.Proofs.Token.Faults
import Equate.Proofs.Formula.Parentheses
import Equate.Proofs.Workspace.Evaluation
import Equate.Proofs.Expr.Building
