/-
The playground: a source text, what became of it, and the keys that drive both.

The playground shows a source text, either one of the samples or one of the user's
own, and beside it the log of its last run or its listing. The whole state is this
record; a key turns one state into the next, and drawing, which lives in
`Playground.Drawing`, changes nothing but how far the two panes are scrolled. Scroll
offsets grow with every press of a key and are brought back within the text only
when it is drawn.
-/
import Lipi.Compilation
import Lipi.Playground.OutputLine
import Lipi.Sample
import Lipi.Script.Listing

set_option autoImplicit false

namespace Lipi

namespace Playground

/-- Which pane the arrow keys scroll (`FocusedPane`). -/
inductive Focus where
  | source
  | output
deriving DecidableEq, Repr

/-- What the output pane shows (`OutputView`). -/
inductive View where
  | log
  | listing
deriving DecidableEq, Repr

/-- What the status bar reports. -/
inductive Status where
  | ready
  /-- A sample has been loaded that is about this. -/
  | loaded (description : String)
  | finished (failed : Bool) (lines : Nat)
  | listed
  /-- The source did not compile, for a reason of this class. -/
  | refused (tag : String)
deriving DecidableEq, Repr

/-- A key of the keyboard. -/
inductive Key where
  | char (c : Char)
  | escape
  | tab
  | backTab
  | up
  | down
  | other
deriving DecidableEq, Repr

/-- The other pane. -/
def Focus.next : Focus → Focus
  | source => output
  | output => source

/-- A report in words. -/
def Status.text : Status → String
  | ready => "Ready! Press r to run."
  | loaded description => description
  | finished true lines => "Finished with errors (" ++ toString lines ++ " line(s))"
  | finished false lines => "Finished (" ++ toString lines ++ " line(s))"
  | listed => "Showing translated listing"
  | refused tag => "Compile failed: " ++ tag

end Playground

/-- The state of the playground (`App`). -/
structure Playground where
  label : String
  source : String
  /-- The place of the sample that is loaded, if one is. -/
  sample : Option Nat
  output : String
  view : Playground.View
  focus : Playground.Focus
  sourceScroll : Nat
  outputScroll : Nat
  /-- Whether what was asked for last went wrong. -/
  failed : Bool
  quitting : Bool
  status : Playground.Status
deriving DecidableEq, Repr

namespace Playground

/-- The playground with a source text of the user's own. -/
def ofSource (label source : String) : Playground where
  label
  source
  sample := none
  output := ""
  view := .log
  focus := .source
  sourceScroll := 0
  outputScroll := 0
  failed := false
  quitting := false
  status := .ready

/-- Loads the sample at a place, if there is one, and forgets the output
(`load_sample`). -/
def load (index : Nat) (p : Playground) : Playground :=
  match Sample.at? index with
  | none => p
  | some sample =>
    { p with
      label := sample.title
      source := sample.source
      sample := some index
      output := ""
      view := .log
      sourceScroll := 0
      outputScroll := 0
      failed := false
      status := .loaded sample.description }

/-- The playground with a sample (`with_sample`). -/
def ofSample (index : Nat) : Playground := (ofSource "" "").load index

/-- Runs the source and shows its log (`run_source`). -/
def run (p : Playground) : Playground :=
  let output := runSource p.source
  let lines := Text.lines output
  let failed := lines.any isFailure
  { p with
    output
    view := .log
    outputScroll := 0
    failed
    status := .finished failed lines.length }

/-- Shows the listing of the source (`toggle_listing`). -/
def list (p : Playground) : Playground :=
  match compile p.source with
  | .ok script =>
    { p with
      output := script.listing
      view := .listing
      outputScroll := 0
      failed := false
      status := .listed }
  | .error e =>
    { p with
      output := e.diagnostics
      view := .listing
      outputScroll := 0
      failed := true
      status := .refused e.tag }

/-- Goes from the log to the listing, or back by running the source again
(`toggle_listing`). -/
def toggle (p : Playground) : Playground :=
  match p.view with
  | .listing => p.run
  | .log => p.list

/-- Loads the sample after the one that is loaded, round and round (`cycle_sample`). -/
def nextSample (p : Playground) : Playground :=
  match p.sample with
  | none => p.load 0
  | some index => p.load ((index + 1) % Sample.all.length)

/-- Loads the sample before the one that is loaded, round and round (`cycle_sample`). -/
def previousSample (p : Playground) : Playground :=
  let count := Sample.all.length
  match p.sample with
  | none => p.load (count - 1)
  | some index => p.load ((index + count - 1) % count)

/-- Changes how far the pane in focus is scrolled (`handle_key_event`). -/
def scroll (f : Nat → Nat) (p : Playground) : Playground :=
  match p.focus with
  | .source => { p with sourceScroll := f p.sourceScroll }
  | .output => { p with outputScroll := f p.outputScroll }

/-- What a key does (`handle_key_event`). -/
def press (key : Key) (p : Playground) : Playground :=
  match key with
  | .char 'q' => { p with quitting := true }
  | .char 'Q' => { p with quitting := true }
  | .escape => { p with quitting := true }
  | .char 'r' => p.run
  | .char 'e' => p.toggle
  | .char 'n' => p.nextSample
  | .char 'p' => p.previousSample
  | .tab => { p with focus := p.focus.next }
  | .backTab => { p with focus := p.focus.next }
  | .up => p.scroll (· - 1)
  | .down => p.scroll (· + 1)
  | .char _ => p
  | .other => p

end Playground

end Lipi
