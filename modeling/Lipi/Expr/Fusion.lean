/-
From tokens to pieces.

Tokens are taken one at a time with the run of operators that is being glued. A
token that joins the run adds its spelling; any other first ends the run, which is
cut into signs, and then becomes a piece of its own. A run can be cut only when
all of it is signs; what is left over otherwise is reported at the place where
the run starts.
-/
import Lipi.SyntaxError

set_option autoImplicit false

namespace Lipi

/-- A run of operators being glued: where it starts and its characters so far, in
reverse. -/
structure Run where
  start : Location
  spelled : List Char
deriving DecidableEq, Repr

namespace Run

/-- No run. -/
def empty : Run := ⟨.nowhere, []⟩

/-- The run with one more spelling, which starts it if nothing has. -/
def join (run : Run) (spelling : String) (place : Location) : Run :=
  ⟨if run.spelled.isEmpty then place else run.start, spelling.toList.reverse ++ run.spelled⟩

/-- Ends the run: its signs as pieces, in front of the pieces read before, which are in
reverse (`flush_run`). -/
def flush (run : Run) (read : List Piece) : Except SyntaxError (List Piece) :=
  match Sign.cut run.spelled.reverse [] with
  | .ok signs => .ok ((signs.map fun s => ⟨.sign s, run.start⟩).reverse ++ read)
  | .error rest => .error ⟨.unknownSigns (String.ofList rest), run.start⟩

end Run

namespace Piece

/-- Turns tokens into pieces, with the run that is open and the pieces read so far
in reverse. -/
def fuseFrom : List Token → Run → List Piece → Except SyntaxError (List Piece)
  | [], run, read =>
    match run.flush read with
    | .ok read => .ok read.reverse
    | .error e => .error e
  | t :: rest, run, read =>
    match joins? t.kind with
    | some spelling => fuseFrom rest (run.join spelling t.location) read
    | none =>
      match run.flush read with
      | .ok read => fuseFrom rest .empty (⟨ofKind t.kind, t.location⟩ :: read)
      | .error e => .error e

/-- The pieces of a slice of tokens (`fuse`). -/
def fuse (tokens : List Token) : Except SyntaxError (List Piece) :=
  fuseFrom tokens .empty []

end Piece

end Lipi
