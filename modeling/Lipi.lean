import Lipi.Main
import Lipi.Playground.Screen
import Lipi.Proofs.Compilation.Session
import Lipi.Proofs.Expr.Precedence
import Lipi.Proofs.Program.Rendering
import Lipi.Proofs.Sandbox.Frame
import Lipi.Proofs.Sandbox.Noninterference
import Lipi.Proofs.Sandbox.Loosening
import Lipi.Proofs.Sandbox.Machine
import Lipi.Proofs.Sandbox.Bound
import Lipi.Proofs.Sandbox.Discipline
import Lipi.Proofs.Sandbox.Origin
import Lipi.Proofs.Compilation.Insertion
import Lipi.Proofs.Compilation.WellFormed
import Lipi.Proofs.Compilation.Skeleton
import Lipi.Proofs.Compilation.Diagnostics
import Lipi.Proofs.Compilation.Depth
import Lipi.Proofs.Playground.Highlighting
import Lipi.Proofs.Expr.Compound
import Lipi.Proofs.Expr.Listing
import Lipi.Proofs.Playground.Sessions
import Lipi.Proofs.Expr.Runs
import Lipi.Proofs.Compilation.Blame
import Lipi.Proofs.Program.Slices
import Lipi.Proofs.Sandbox.Guard
import Lipi.Proofs.Token.Lexemes
import Lipi.Proofs.Expr.Arguments
import Lipi.Proofs.Compilation.Unclosed
import Lipi.Proofs.Token.Numbers
import Lipi.Proofs.Decimal.Literal
import Lipi.Proofs.Value.Numeric
import Lipi.Proofs.Value.Written
import Lipi.Proofs.Environment.Lexical
import Lipi.Proofs.Playground.Failure
import Lipi.Proofs.Playground.Panes
import Lipi.Proofs.CommandLine
import Lipi.Proofs.Script.Guards
import Lipi.Proofs.Token.Operators
