/-
Reading an expression step by step, with a counter of what is open.

The readers of expressions carry no counter: they are built by recursion on the room that is
left, and the stack of what is open is the one on which Lean runs them. Here the same grammar
is read by a machine that has both in its state (`ExprMachine`). It goes down to a phrase or up
with a node, and puts off on a stack of frames what is to be done with the node. What it opens
(a group, an operator before an operand, an assignment) it counts, refusing to open anything
when the counter stands at the ceiling; when what was opened is read, it takes one from the
counter. A counter at zero cannot be taken from: then the machine would stop in
`Task.underflow`. One machine reads a whole slice, which may be a list of expressions, and its
counter goes on from one to the next.

The machine comes to the answers of the readers, with the counter where it was before
(`performs_descent`), and so to what a slice is read as (`ExprMachine.comesTo_parse`). The room
of a reader and the counter make up the ceiling all the time, which is how the reader that
refuses meets the counter that refuses. What holds of the machine on the way is the subject of
`Lipi.Proofs.Expr.Counters`.
-/
import Lipi.Proofs.Expr.Parsing
import Lipi.Proofs.Transition

set_option autoImplicit false

namespace Lipi

/-! ## The machine -/

/-- What a machine is about to do. -/
inductive ExprMachine.Task where
  | read (phrase : Phrase)
  /-- Go on with a node that has been read. -/
  | got (node : Node)
  | done (answer : List Expr)
  | failed (e : SyntaxError)
  /-- One was to be taken from a counter at zero. -/
  | underflow

/-- What a machine has put off until a node is read. -/
inductive ExprMachine.Frame where
  /-- A level whose first operand is read. -/
  | first (level : Level) (tighter : List Level)
  /-- A level that has come to an operator, with the node on its left. -/
  | operator (level : Level) (tighter : List Level) (op : BinaryOp) (left : Node)
  | unary (op : UnaryOp)
  /-- A primary that a step may follow. -/
  | step
  | group
  | assign (name : String) (op : Option BinaryOp)
  /-- A slice that is one expression. -/
  | whole
  /-- A slice that is a list, with the expressions before, the last one first. -/
  | item (read : List Expr)

/-- A machine that reads the pieces of a slice, with what it has put off, the latest first,
and the number of groups, operators before an operand and assignments it has opened. -/
structure ExprMachine where
  task : ExprMachine.Task
  frames : List ExprMachine.Frame
  cursor : Cursor
  nesting : Nat

namespace ExprMachine

/-- Opens something and reads a phrase inside it. -/
def enter (phrase : Phrase) (frame : Frame) (frames : List Frame) (c : Cursor) (nesting : Nat) :
    ExprMachine :=
  if nestingLimit ≤ nesting then ⟨.failed ⟨.nestedTooDeep, c.behind⟩, frames, c, nesting⟩
  else ⟨.read phrase, frame :: frames, c, nesting + 1⟩

/-- Takes one from the counter and goes on with it. -/
def leave (frames : List Frame) (c : Cursor) (nesting : Nat) (next : Nat → ExprMachine) :
    ExprMachine :=
  match nesting with
  | 0 => ⟨.underflow, frames, c, 0⟩
  | n + 1 => next n

/-- Goes on with a node of a given height, unless it is too high. -/
def build (e : Expr) (depth : Nat) (frames : List Frame) (c : Cursor) (nesting : Nat) :
    ExprMachine :=
  match Node.checked heightLimit e depth c with
  | .error failure => ⟨.failed failure, frames, c, nesting⟩
  | .ok node => ⟨.got node, frames, c, nesting⟩

/-- Looks for an operator of a level behind what stands on its left. -/
def seekOperator (level : Level) (tighter : List Level) (left : Node) (frames : List Frame)
    (c : Cursor) (nesting : Nat) : ExprMachine :=
  match Reader.levelOperator? level c with
  | none => ⟨.got left, frames, c, nesting⟩
  | some (op, c₁) =>
    ⟨.read (.joined tighter), .operator level tighter op left :: frames, c₁, nesting⟩

/-- Joins an operand to what stands on the left of its operator, and looks for the next. -/
def joinOperand (level : Level) (tighter : List Level) (op : BinaryOp) (left right : Node)
    (frames : List Frame) (c : Cursor) (nesting : Nat) : ExprMachine :=
  match Node.checked heightLimit (.binary op left.expr right.expr)
      (max left.depth right.depth + 1) c with
  | .error e => ⟨.failed e, frames, c, nesting⟩
  | .ok joined => seekOperator level tighter joined frames c nesting

/-- Reads a value or a name, or opens a group. -/
def readPrimary (frames : List Frame) (c : Cursor) (nesting : Nat) : ExprMachine :=
  match c.ahead with
  | [] => ⟨.failed ⟨.missingOperand, c.finish⟩, frames, c, nesting⟩
  | p :: rest =>
    match p.kind with
    | .value v => ⟨.got (.leaf (.literal v)), frames, c.past p rest, nesting⟩
    | .name n => ⟨.got (.leaf (.var n)), frames, c.past p rest, nesting⟩
    | .openParen => enter .expression .group frames (c.past p rest) nesting
    | found => ⟨.failed ⟨.noOperand found, p.location⟩, frames, c, nesting⟩

/-- Reads the name that a leading step demands. -/
def readSteppedName (s : Sign) (op : UpdateOp) (frames : List Frame) (c : Cursor)
    (nesting : Nat) : ExprMachine :=
  match c.ahead with
  | ⟨.name n, l⟩ :: rest =>
    ⟨.got (.leaf (.update n op true)), frames, c.past ⟨.name n, l⟩ rest, nesting⟩
  | _ => ⟨.failed ⟨.stepsNoName s, c.here⟩, frames, c, nesting⟩

/-- Looks for an operator before an operand. -/
def readOperand (frames : List Frame) (c : Cursor) (nesting : Nat) : ExprMachine :=
  match c.ahead with
  | ⟨.sign s, l⟩ :: rest =>
    match s.unaryOp? with
    | some op => enter (.joined []) (.unary op) frames (c.past ⟨.sign s, l⟩ rest) nesting
    | none =>
      match s.updateOp? with
      | some op => readSteppedName s op frames (c.past ⟨.sign s, l⟩ rest) nesting
      | none => ⟨.read .stepped, frames, c, nesting⟩
  | _ => ⟨.read .stepped, frames, c, nesting⟩

/-- Looks for an assignment. -/
def readExpression (frames : List Frame) (c : Cursor) (nesting : Nat) : ExprMachine :=
  match c.ahead with
  | ⟨.name name, _⟩ :: ⟨.sign s, l⟩ :: rest =>
    match s.assignOp? with
    | some op => enter .expression (.assign name op) frames (c.past ⟨.sign s, l⟩ rest) nesting
    | none => ⟨.read (.joined Level.all), frames, c, nesting⟩
  | _ => ⟨.read (.joined Level.all), frames, c, nesting⟩

/-- Begins to read a phrase. -/
def begin (frames : List Frame) (c : Cursor) (nesting : Nat) : Phrase → ExprMachine
  | .expression => readExpression frames c nesting
  | .joined (level :: tighter) =>
    ⟨.read (.joined tighter), .first level tighter :: frames, c, nesting⟩
  | .joined [] => readOperand frames c nesting
  | .stepped => ⟨.read .primary, .step :: frames, c, nesting⟩
  | .primary => readPrimary frames c nesting

/-- Looks for a step behind a primary. -/
def seekStep (node : Node) (frames : List Frame) (c : Cursor) (nesting : Nat) : ExprMachine :=
  match c.ahead with
  | ⟨.sign s, l⟩ :: rest =>
    match s.updateOp? with
    | none => ⟨.got node, frames, c, nesting⟩
    | some op =>
      match node.expr with
      | .var name =>
        ⟨.got (.leaf (.update name op false)), frames, c.past ⟨.sign s, l⟩ rest, nesting⟩
      | _ => ⟨.failed ⟨.noNameSteps s, l⟩, frames, c, nesting⟩
  | _ => ⟨.got node, frames, c, nesting⟩

/-- Takes the parenthesis that closes a group. -/
def closeGroup (node : Node) (frames : List Frame) (c : Cursor) (nesting : Nat) : ExprMachine :=
  match c.ahead with
  | ⟨.closeParen, l⟩ :: after => ⟨.got node, frames, c.past ⟨.closeParen, l⟩ after, nesting⟩
  | _ => ⟨.failed ⟨.unclosedGroup, c.here⟩, frames, c, nesting⟩

/-- Ends a slice, of which nothing may be left. -/
def finish (answer : List Expr) (frames : List Frame) (c : Cursor) (nesting : Nat) :
    ExprMachine :=
  match Expr.finished c with
  | .error e => ⟨.failed e, frames, c, nesting⟩
  | .ok _ => ⟨.done answer, frames, c, nesting⟩

/-- Looks for a comma behind an expression of a list, and for another expression behind it. -/
def seekComma (read : List Expr) (frames : List Frame) (c : Cursor) (nesting : Nat) :
    ExprMachine :=
  match c.ahead with
  | ⟨.comma, l⟩ :: rest =>
    if rest.isEmpty then ⟨.done read.reverse, frames, c.past ⟨.comma, l⟩ rest, nesting⟩
    else ⟨.read .expression, .item read :: frames, c.past ⟨.comma, l⟩ rest, nesting⟩
  | _ => finish read.reverse frames c nesting

/-- Goes on with what was put off last. -/
def resume (node : Node) (frames : List Frame) (c : Cursor) (nesting : Nat) : Frame → ExprMachine
  | .first level tighter => seekOperator level tighter node frames c nesting
  | .operator level tighter op left => joinOperand level tighter op left node frames c nesting
  | .unary op => leave frames c nesting (build (.unary op node.expr) (node.depth + 1) frames c)
  | .step => seekStep node frames c nesting
  | .group => leave frames c nesting (closeGroup node frames c)
  | .assign name op =>
    leave frames c nesting (build (.assign name op node.expr) (node.depth + 1) frames c)
  | .whole => finish [node.expr] frames c nesting
  | .item read => seekComma (node.expr :: read) frames c nesting

/-- One step. -/
def step : ExprMachine → Option ExprMachine
  | ⟨.read phrase, frames, c, nesting⟩ => some (begin frames c nesting phrase)
  | ⟨.got node, frame :: frames, c, nesting⟩ => some (resume node frames c nesting frame)
  | _ => none

/-- The error with which a machine has failed. -/
def failure? (m : ExprMachine) : Option SyntaxError :=
  match m.task with
  | .failed e => some e
  | _ => none

/-- How expressions are read step by step. -/
def stepping : StepMachine ExprMachine := ⟨step, failure?⟩

/-! ## Phrases and readers -/

open StepMachine Reader

/-- A reader answers as a machine does that is to read the phrase, whatever it has put off, as
long as the counter and the room of the reader make up the ceiling. The counter is at the end
where it was before. -/
def Performs (phrase : Phrase) (reader : Reader) (room : Nat) : Prop :=
  ∀ frames c nesting, nesting + room = nestingLimit →
    stepping.ComesTo (fun r => ⟨.got r.node, frames, r.rest, nesting⟩)
      ⟨.read phrase, frames, c, nesting⟩ (reader c)

/-- A way back into the grammar: it refuses if there is no room, and otherwise is a reader with
room for one less. -/
def Enters (phrase : Phrase) (reader : Reader) (room : Nat) : Prop :=
  (room = 0 ∧ reader = refused) ∨ ∃ r, room = r + 1 ∧ Performs phrase reader r

variable {room : Nat} {inner innerOperand : Reader}

/-- Opening something is reading the way back, with one more counted. -/
theorem Enters.comesTo {phrase : Phrase} (h : Enters phrase inner room) (frame : Frame)
    (frames : List Frame) (c : Cursor) {nesting : Nat} (hroom : nesting + room = nestingLimit) :
    stepping.ComesTo (fun r => ⟨.got r.node, frame :: frames, r.rest, nesting + 1⟩)
      (enter phrase frame frames c nesting) (inner c) := by
  unfold enter
  rcases h with ⟨rfl, rfl⟩ | ⟨r, rfl, h⟩
  · have hfull : nestingLimit ≤ nesting := by omega
    rw [if_pos hfull]
    exact comesTo_failed rfl
  · have hfree : ¬ nestingLimit ≤ nesting := by omega
    rw [if_neg hfree]
    apply h
    omega

/-! ## Readers -/

theorem performs_primary (h : Enters .expression inner room) :
    Performs .primary (primary inner) room := by
  intro frames c nesting hroom
  apply ComesTo.head (readPrimary frames c nesting) rfl
  obtain ⟨ahead, behind, finish⟩ := c
  cases ahead with
  | nil => exact comesTo_failed rfl
  | cons p rest =>
    obtain ⟨kind, l⟩ := p
    cases kind with
    | value v => exact Reaches.refl _
    | name n => exact Reaches.refl _
    | openParen =>
      have hinner := h.comesTo .group frames ⟨rest, l, finish⟩ hroom
      simp only [readPrimary, primary, Cursor.past]
      split
      · next e he =>
        rw [he] at hinner
        exact hinner
      · next node c₁ h₁ he =>
        rw [he] at hinner
        apply ComesTo.after hinner
        apply ComesTo.head (closeGroup node frames c₁ nesting) rfl
        obtain ⟨ahead₁, behind₁, finish₁⟩ := c₁
        cases ahead₁ with
        | nil => exact comesTo_failed rfl
        | cons q after =>
          obtain ⟨kind, l₁⟩ := q
          cases kind with
          | closeParen => exact Reaches.refl _
          | _ => exact comesTo_failed rfl
    | _ => exact comesTo_failed rfl

theorem performs_stepped (h : Enters .expression inner room) :
    Performs .stepped (stepped inner) room := by
  intro frames c nesting hroom
  have hfirst := performs_primary h (.step :: frames) c nesting hroom
  apply ComesTo.head ⟨.read .primary, .step :: frames, c, nesting⟩ rfl
  unfold stepped
  split
  · next e he =>
    rw [he] at hfirst
    exact hfirst
  · next node c₁ h₁ he =>
    rw [he] at hfirst
    apply ComesTo.after hfirst
    apply ComesTo.head (seekStep node frames c₁ nesting) rfl
    obtain ⟨ahead, behind, finish⟩ := c₁
    cases ahead with
    | nil => exact Reaches.refl _
    | cons p rest =>
      obtain ⟨kind, l⟩ := p
      cases kind with
      | sign s =>
        unfold seekStep
        dsimp only
        cases hop : s.updateOp? with
        | none => exact Reaches.refl _
        | some op =>
          obtain ⟨e, depth⟩ := node
          cases e with
          | var name => exact Reaches.refl _
          | _ => exact comesTo_failed rfl
      | _ => exact Reaches.refl _

theorem comesTo_steppedName (s : Sign) (op : UpdateOp) (frames : List Frame) (c : Cursor)
    (nesting : Nat) :
    stepping.ComesTo (fun r => ⟨.got r.node, frames, r.rest, nesting⟩)
      (readSteppedName s op frames c nesting) (steppedName s op c) := by
  obtain ⟨ahead, behind, finish⟩ := c
  cases ahead with
  | nil => exact comesTo_failed rfl
  | cons p rest =>
    obtain ⟨kind, l⟩ := p
    cases kind with
    | name n => exact Reaches.refl _
    | _ => exact comesTo_failed rfl

theorem performs_operand (h : Enters .expression inner room)
    (hoperand : Enters (.joined []) innerOperand room) :
    Performs (.joined []) (operand heightLimit inner innerOperand) room := by
  intro frames c nesting hroom
  apply ComesTo.head (readOperand frames c nesting) rfl
  -- Without an operator before it an operand is a stepped primary.
  have hstepped := performs_stepped h frames c nesting hroom
  obtain ⟨ahead, behind, finish⟩ := c
  cases ahead with
  | nil => exact hstepped
  | cons p rest =>
    obtain ⟨kind, l⟩ := p
    cases kind with
    | sign s =>
      simp only [readOperand, operand, Cursor.past]
      cases hunary : s.unaryOp? with
      | some op =>
        have hinner := hoperand.comesTo (.unary op) frames ⟨rest, l, finish⟩ hroom
        dsimp only
        split
        · next e he =>
          rw [he] at hinner
          exact hinner
        · next node c₁ h₁ he =>
          rw [he] at hinner
          apply ComesTo.after hinner
          apply ComesTo.head
            (build (.unary op node.expr) (node.depth + 1) frames c₁ nesting) rfl
          unfold build
          cases Node.checked heightLimit (.unary op node.expr) (node.depth + 1) c₁ with
          | error e => exact comesTo_failed rfl
          | ok whole => exact Reaches.refl _
      | none =>
        cases hupdate : s.updateOp? with
        | some op =>
          have hname := comesTo_steppedName s op frames ⟨rest, l, finish⟩ nesting
          dsimp only
          split
          · next e he =>
            rw [he] at hname
            exact hname
          · next node c₁ h₁ he =>
            rw [he] at hname
            exact hname
        | none => exact hstepped
    | _ => exact hstepped

/-- The loop of a level: each operator that is found has less behind it. -/
theorem comesTo_chainFrom {tighter : List Level} {reader : Reader} {nesting : Nat}
    (h : Performs (.joined tighter) reader room) (hroom : nesting + room = nestingLimit)
    (level : Level) (left : Node) (frames : List Frame) (c : Cursor) :
    stepping.ComesTo (fun answer => ⟨.got answer.1, frames, answer.2.1, nesting⟩)
      (seekOperator level tighter left frames c nesting)
      (chainFrom heightLimit level reader left c) := by
  rw [chainFrom]
  unfold seekOperator
  cases levelOperator? level c with
  | none => exact Reaches.refl _
  | some found =>
    obtain ⟨op, c₁, h₁⟩ := found
    have hright := h (.operator level tighter op left :: frames) c₁ nesting hroom
    dsimp only
    split
    · next e he =>
      rw [he] at hright
      exact hright
    · next right c₂ h₂ he =>
      rw [he] at hright
      apply ComesTo.after hright
      apply ComesTo.head (joinOperand level tighter op left right frames c₂ nesting) rfl
      unfold joinOperand
      cases Node.checked heightLimit (.binary op left.expr right.expr)
          (max left.depth right.depth + 1) c₂ with
      | error e => exact comesTo_failed rfl
      | ok joined =>
        have hrest := comesTo_chainFrom h hroom level joined frames c₂
        dsimp only
        split
        · next e he =>
          rw [he] at hrest
          exact hrest
        · next node c₃ h₃ he =>
          rw [he] at hrest
          exact hrest
termination_by c.ahead.length
decreasing_by omega

theorem performs_levels {reader : Reader} (h : Performs (.joined []) reader room)
    (ls : List Level) : Performs (.joined ls) (levels heightLimit reader ls) room := by
  induction ls with
  | nil => exact h
  | cons level tighter ih =>
    intro frames c nesting hroom
    have hfirst := ih (.first level tighter :: frames) c nesting hroom
    apply ComesTo.head ⟨.read (.joined tighter), .first level tighter :: frames, c, nesting⟩ rfl
    unfold levels chain
    split
    · next e he =>
      rw [he] at hfirst
      exact hfirst
    · next first c₁ h₁ he =>
      rw [he] at hfirst
      have hrest := comesTo_chainFrom ih hroom level first frames c₁
      apply ComesTo.after hfirst
      apply ComesTo.head (seekOperator level tighter first frames c₁ nesting) rfl
      split
      · next e he =>
        rw [he] at hrest
        exact hrest
      · next node c₂ h₂ he =>
        rw [he] at hrest
        exact hrest

theorem performs_expression (h : Enters .expression inner room)
    (hoperand : Enters (.joined []) innerOperand room) :
    Performs .expression (Reader.expression heightLimit inner innerOperand) room := by
  intro frames c nesting hroom
  apply ComesTo.head (readExpression frames c nesting) rfl
  have hlevels := performs_levels (performs_operand h hoperand) Level.all frames c nesting hroom
  unfold readExpression
  split
  · next name l₁ s l₂ rest hahead =>
    obtain ⟨ahead, behind, finish⟩ := c
    subst hahead
    simp only [Reader.expression, Cursor.past]
    cases hassign : s.assignOp? with
    | none => exact hlevels
    | some op =>
      have hinner := h.comesTo (.assign name op) frames ⟨rest, l₂, finish⟩ hroom
      dsimp only
      split
      · next e he =>
        rw [he] at hinner
        exact hinner
      · next value c₁ h₁ he =>
        rw [he] at hinner
        apply ComesTo.after hinner
        apply ComesTo.head
          (build (.assign name op value.expr) (value.depth + 1) frames c₁ nesting) rfl
        unfold build
        cases Node.checked heightLimit (.assign name op value.expr) (value.depth + 1) c₁ with
        | error e => exact comesTo_failed rfl
        | ok whole => exact Reaches.refl _
  · next hne =>
    unfold Reader.expression
    split
    · next name l₁ s l₂ rest hahead => exact absurd hahead (hne name l₁ s l₂ rest)
    · exact hlevels

/-- **The two ways back into the grammar**, by induction on the room. -/
theorem enters_descent (room : Nat) :
    Enters .expression (descent heightLimit room).expression room
      ∧ Enters (.joined []) (descent heightLimit room).operand room := by
  induction room with
  | zero => exact ⟨.inl ⟨rfl, rfl⟩, .inl ⟨rfl, rfl⟩⟩
  | succ room ih =>
    obtain ⟨hexpression, hoperand⟩ := ih
    exact ⟨.inr ⟨room, rfl, performs_expression hexpression hoperand⟩,
      .inr ⟨room, rfl, performs_operand hexpression hoperand⟩⟩

/-- With nothing open the machine comes to the answer of the top reader. -/
theorem performs_top : Performs .expression top nestingLimit := by
  obtain ⟨hexpression, hoperand⟩ := enters_descent nestingLimit
  exact performs_expression hexpression hoperand

/-! ## Slices -/

/-- What a slice is read as. -/
inductive Form where
  | single
  | list

/-- What a slice of the form is, as a list of expressions. -/
def Form.parse (form : Form) (tokens : List Token) : Except SyntaxError (List Expr) :=
  match form with
  | .single => (Expr.parse tokens).map fun e => [e]
  | .list => Expr.parseList tokens

/-- A machine at the front of the pieces of a slice. -/
def start (form : Form) (c : Cursor) : ExprMachine :=
  match form with
  | .single => ⟨.read .expression, [.whole], c, 0⟩
  | .list => ⟨.read .expression, [.item []], c, 0⟩

/-- A machine that has stopped with an answer. Where the answer is not an error, nothing is put
off and nothing is open. -/
def Gives (m : ExprMachine) : Except SyntaxError (List Expr) → Prop
  | .ok answer => m.task = .done answer ∧ m.frames = [] ∧ m.nesting = 0
  | .error e => m.task = .failed e

theorem Gives.step_eq_none {m : ExprMachine} {x : Except SyntaxError (List Expr)}
    (h : m.Gives x) : m.step = none := by
  obtain ⟨task, frames, c, nesting⟩ := m
  cases x with
  | error e =>
    obtain rfl : task = .failed e := h
    rfl
  | ok answer =>
    obtain ⟨rfl, -, -⟩ : task = .done answer ∧ frames = [] ∧ nesting = 0 := h
    rfl

/-- A machine that has failed gives the error. -/
theorem gives_of_failure {m : ExprMachine} {e : SyntaxError} (h : stepping.failure? m = some e) :
    m.Gives (.error e) := by
  obtain ⟨task, frames, c, nesting⟩ := m
  cases task with
  | failed e' =>
    cases h
    rfl
  | _ => cases h

/-- A machine at the end of a slice with nothing else put off. -/
theorem gives_finish (answer : List Expr) (c : Cursor) :
    (finish answer [] c 0).Gives ((Expr.finished c).map fun _ => answer) := by
  unfold finish
  cases Expr.finished c with
  | error e => rfl
  | ok _ => exact ⟨rfl, rfl, rfl⟩

theorem exists_gives_parse {tokens : List Token} {c : Cursor} (hc : Expr.cursor tokens = .ok c) :
    ∃ m, stepping.Reaches (start .single c) m ∧ m.Gives (Form.single.parse tokens) := by
  have htop := performs_top [.whole] c 0 rfl
  have hparse : Form.single.parse tokens = (top c).bind fun r =>
      (Expr.finished r.rest).map fun _ => [r.node.expr] := by
    simp only [Form.parse, Expr.parse, hc, bind, Except.bind]
    cases top c with
    | error e => rfl
    | ok r =>
      dsimp only
      cases Expr.finished r.rest <;> rfl
  rw [hparse]
  cases hread : top c with
  | error e =>
    rw [hread] at htop
    obtain ⟨m, hreach, hfailure⟩ := htop
    exact ⟨m, hreach, gives_of_failure hfailure⟩
  | ok r =>
    rw [hread] at htop
    refine ⟨finish [r.node.expr] [] r.rest 0, htop.trans ?_, gives_finish _ _⟩
    exact Reaches.head rfl (Reaches.refl _)

/-- A list from one of its expressions on. Each comma leaves less ahead. -/
theorem exists_gives_itemsFrom (c : Cursor) (read : List Expr) :
    ∃ m, stepping.Reaches ⟨.read .expression, [.item read], c, 0⟩ m
      ∧ m.Gives (Expr.itemsFrom c read) := by
  induction hn : c.ahead.length using Nat.strongRecOn generalizing c read with
  | ind n ih =>
    have htop := performs_top [.item read] c 0 rfl
    rw [Expr.itemsFrom]
    split
    · next e he =>
      rw [he] at htop
      obtain ⟨m, hreach, hfailure⟩ := htop
      exact ⟨m, hreach, gives_of_failure hfailure⟩
    · next node c₁ h₁ he =>
      rw [he] at htop
      have hseek : stepping.Reaches ⟨.read .expression, [.item read], c, 0⟩
          (seekComma (node.expr :: read) [] c₁ 0) :=
        htop.trans (Reaches.head rfl (Reaches.refl _))
      unfold seekComma at hseek
      split
      · next l rest hahead =>
        rw [hahead] at hseek
        dsimp only at hseek
        split
        · next hempty =>
          rw [if_pos hempty] at hseek
          exact ⟨_, hseek, rfl, rfl, rfl⟩
        · next hne =>
          rw [if_neg hne] at hseek
          have hshort : rest.length < n := by
            rw [hahead, List.length_cons] at h₁
            omega
          obtain ⟨m, hreach, hgives⟩ :=
            ih rest.length hshort (c₁.past ⟨.comma, l⟩ rest) (node.expr :: read) rfl
          exact ⟨m, hseek.trans hreach, hgives⟩
      · next hne =>
        refine ⟨finish (node.expr :: read).reverse [] c₁ 0, ?_, gives_finish _ _⟩
        split at hseek
        · next l rest hahead => exact absurd hahead (hne l rest)
        · exact hseek

/-- **A machine comes to what a slice is read as**, and stops there. -/
theorem exists_gives {tokens : List Token} {c : Cursor} (hc : Expr.cursor tokens = .ok c)
    (form : Form) : ∃ m, stepping.Reaches (start form c) m ∧ m.Gives (form.parse tokens) := by
  cases form with
  | single => exact exists_gives_parse hc
  | list =>
    have hparse : Form.list.parse tokens = Expr.itemsFrom c [] := by
      unfold Form.parse Expr.parseList
      rw [hc]
      rfl
    rw [hparse]
    exact exists_gives_itemsFrom c []

end ExprMachine

end Lipi
