/-
What is counted while an expression is read.

Two things are counted by hand on the way to an expression. A node carries the height of its
tree, from which the heights of the trees around it are worked out, and a counter has the
groups, operators before an operand and assignments that are open. Both decide what is refused,
so both have to be right at every moment and not only at the end: a node that knew too small a
height would let a tree grow too high, and a counter that missed a closing would refuse what
fits, or run below zero.

`ExprMachine.Counted` says that they are right in one state of the machine that reads a slice.
The counter is a number about the stack, so a step is checked against what it does to the stack:
it puts nothing on it that is not counted (`Stack.enter`), and takes one from the counter only
with the frame it was counted for (`Stack.leave`). Then it is so in every state that is reached
(`counted_of_reaches`).
-/
import Lipi.Proofs.Expr.Machine

set_option autoImplicit false

namespace Lipi

namespace ExprMachine

/-! ## Right counts -/

/-- The frames that are counted: those of a group, an operator before an operand and an
assignment. -/
def Frame.opens : Frame → Bool
  | .unary _ => true
  | .group => true
  | .assign _ _ => true
  | _ => false

/-- How many groups, operators before an operand and assignments are open. -/
def opened (m : ExprMachine) : Nat := m.frames.countP Frame.opens

/-- The node that a machine is about to go on with, if there is one. -/
def Task.nodes : Task → List Node
  | .got node => [node]
  | _ => []

/-- The node that has been put off with a frame, if there is one. -/
def Frame.nodes : Frame → List Node
  | .operator _ _ _ left => [left]
  | _ => []

/-- All the nodes there are in a state. -/
def nodes (m : ExprMachine) : List Node := m.task.nodes ++ m.frames.flatMap Frame.nodes

/-- Everything is counted as it should be: the counter is the number of what is open and within
its ceiling, each node knows the height of its tree, which is within its own, and nothing was
taken from a counter at zero. -/
structure Counted (m : ExprMachine) : Prop where
  nesting_eq : m.nesting = m.opened
  nesting_le : m.nesting ≤ nestingLimit
  depth_eq : ∀ node ∈ m.nodes, node.depth = node.expr.height
  height_le : ∀ node ∈ m.nodes, node.expr.height ≤ heightLimit
  no_underflow : m.task ≠ .underflow

/-! ## Stacks -/

/-- A stack whose counted frames the counter has, with measured nodes in it. -/
structure Stack (frames : List Frame) (nesting : Nat) : Prop where
  counts : Counts Frame.opens nestingLimit frames nesting
  measured : ∀ node ∈ frames.flatMap Frame.nodes, node.Measured heightLimit

variable {frames : List Frame} {frame : Frame} {nesting : Nat}

theorem forall_mem_nodes_cons {P : Node → Prop} :
    (∀ node ∈ (frame :: frames).flatMap Frame.nodes, P node)
      ↔ (∀ node ∈ frame.nodes, P node) ∧ ∀ node ∈ frames.flatMap Frame.nodes, P node := by
  rw [List.flatMap_cons, List.forall_mem_append]

/-- A frame that is not counted. -/
theorem Stack.push (h : Stack frames nesting) (hopens : frame.opens = false)
    (hnodes : ∀ node ∈ frame.nodes, node.Measured heightLimit) :
    Stack (frame :: frames) nesting :=
  ⟨(Counts.uncounted_iff hopens).mpr h.counts, forall_mem_nodes_cons.mpr ⟨hnodes, h.measured⟩⟩

/-- A frame that is not counted is taken off again. -/
theorem Stack.pop (h : Stack (frame :: frames) nesting) (hopens : frame.opens = false) :
    Stack frames nesting :=
  ⟨(Counts.uncounted_iff hopens).mp h.counts, (forall_mem_nodes_cons.mp h.measured).2⟩

/-- A frame that is counted, if the counter allows one more. No node is put off with it. -/
theorem Stack.enter (h : Stack frames nesting) (hopens : frame.opens = true)
    (hlt : nesting < nestingLimit) : Stack (frame :: frames) (nesting + 1) := by
  have hnodes : frame.nodes = [] := by
    cases frame with
    | operator level tighter op left => cases hopens
    | _ => rfl
  refine ⟨h.counts.enter hopens hlt, forall_mem_nodes_cons.mpr ⟨?_, h.measured⟩⟩
  rw [hnodes]
  exact List.forall_mem_nil _

/-- A frame that is counted is taken off again, and there is something to take from the
counter. -/
theorem Stack.leave (h : Stack (frame :: frames) nesting) (hopens : frame.opens = true) :
    ∃ n, nesting = n + 1 ∧ Stack frames n := by
  obtain ⟨n, hn, hcounts⟩ := h.counts.leave hopens
  exact ⟨n, hn, hcounts, (forall_mem_nodes_cons.mp h.measured).2⟩

/-! ## Steps -/

/-- A task that has not taken from a counter at zero, with a measured node if it has one. -/
def Task.Sound : Task → Prop
  | .got node => node.Measured heightLimit
  | .underflow => False
  | _ => True

/-- What is kept by every step. -/
structure Sound (m : ExprMachine) : Prop where
  stack : Stack m.frames m.nesting
  task : m.task.Sound

theorem Sound.counted {m : ExprMachine} (h : m.Sound) : m.Counted := by
  have hmeasured : ∀ node ∈ m.nodes, node.Measured heightLimit := by
    intro node hmem
    rcases List.mem_append.mp hmem with hmem | hmem
    · have htask := h.task
      cases ht : m.task with
      | got other =>
        rw [ht] at hmem htask
        rw [List.mem_singleton.mp hmem]
        exact htask
      | _ =>
        rw [ht] at hmem
        cases hmem
    · exact h.stack.measured node hmem
  refine ⟨h.stack.counts.eq, h.stack.counts.le, fun node hmem => (hmeasured node hmem).depth_eq,
    fun node hmem => (hmeasured node hmem).height_le, ?_⟩
  intro hunderflow
  have htask := h.task
  rw [hunderflow] at htask
  exact htask

variable {c : Cursor}

theorem sound_leaf (h : Stack frames nesting) {e : Expr} (he : e.height = 1) :
    Sound ⟨.got (.leaf e), frames, c, nesting⟩ :=
  ⟨h, Reader.measured_leaf (by decide) he⟩

theorem sound_enter (h : Stack frames nesting) (phrase : Phrase) (hopens : frame.opens = true) :
    Sound (enter phrase frame frames c nesting) := by
  unfold enter
  by_cases hfull : nestingLimit ≤ nesting
  · rw [if_pos hfull]
    exact ⟨h, trivial⟩
  · rw [if_neg hfull]
    exact ⟨h.enter hopens (by omega), trivial⟩

theorem sound_leave (h : Stack (frame :: frames) nesting) (hopens : frame.opens = true)
    {next : Nat → ExprMachine} (hnext : ∀ n, Stack frames n → Sound (next n)) :
    Sound (leave frames c nesting next) := by
  obtain ⟨n, rfl, hstack⟩ := h.leave hopens
  exact hnext n hstack

/-- A node of the height that its parts make up. -/
theorem sound_build (h : Stack frames nesting) {e : Expr} {depth : Nat}
    (hdepth : depth = e.height) : Sound (build e depth frames c nesting) := by
  unfold build
  split
  · exact ⟨h, trivial⟩
  · next node hnode =>
    obtain ⟨hle, rfl⟩ := Node.checked_eq_ok_iff.mp hnode
    subst hdepth
    exact ⟨h, rfl, hle⟩

theorem sound_seekOperator (h : Stack frames nesting) {left : Node}
    (hleft : left.Measured heightLimit) (level : Level) (tighter : List Level) :
    Sound (seekOperator level tighter left frames c nesting) := by
  unfold seekOperator
  split
  · exact ⟨h, hleft⟩
  · refine ⟨h.push rfl ?_, trivial⟩
    intro node hmem
    rw [List.mem_singleton.mp hmem]
    exact hleft

theorem sound_joinOperand (h : Stack frames nesting) {left right : Node}
    (hleft : left.Measured heightLimit) (hright : right.Measured heightLimit) (level : Level)
    (tighter : List Level) (op : BinaryOp) :
    Sound (joinOperand level tighter op left right frames c nesting) := by
  unfold joinOperand
  split
  · exact ⟨h, trivial⟩
  · next joined hjoined =>
    obtain ⟨hle, rfl⟩ := Node.checked_eq_ok_iff.mp hjoined
    apply sound_seekOperator h
    rw [hleft.depth_eq, hright.depth_eq] at hle ⊢
    exact ⟨rfl, hle⟩

theorem sound_readPrimary (h : Stack frames nesting) : Sound (readPrimary frames c nesting) := by
  unfold readPrimary
  split
  · exact ⟨h, trivial⟩
  · next p rest hahead =>
    split
    · exact sound_leaf h rfl
    · exact sound_leaf h rfl
    · exact sound_enter h .expression rfl
    · exact ⟨h, trivial⟩

theorem sound_readOperand (h : Stack frames nesting) : Sound (readOperand frames c nesting) := by
  unfold readOperand
  split
  · next s l rest hahead =>
    split
    · exact sound_enter h (.joined []) rfl
    · split
      · unfold readSteppedName
        split
        · exact sound_leaf h rfl
        · exact ⟨h, trivial⟩
      · exact ⟨h, trivial⟩
  · exact ⟨h, trivial⟩

theorem sound_readExpression (h : Stack frames nesting) :
    Sound (readExpression frames c nesting) := by
  unfold readExpression
  split
  · split
    · exact sound_enter h .expression rfl
    · exact ⟨h, trivial⟩
  · exact ⟨h, trivial⟩

theorem sound_begin (h : Stack frames nesting) (phrase : Phrase) :
    Sound (begin frames c nesting phrase) := by
  match phrase with
  | .expression => exact sound_readExpression h
  | .joined (level :: tighter) => exact ⟨h.push rfl (List.forall_mem_nil _), trivial⟩
  | .joined [] => exact sound_readOperand h
  | .stepped => exact ⟨h.push rfl (List.forall_mem_nil _), trivial⟩
  | .primary => exact sound_readPrimary h

theorem sound_seekStep (h : Stack frames nesting) {node : Node}
    (hnode : node.Measured heightLimit) : Sound (seekStep node frames c nesting) := by
  unfold seekStep
  split
  · split
    · exact ⟨h, hnode⟩
    · split
      · exact sound_leaf h rfl
      · exact ⟨h, trivial⟩
  · exact ⟨h, hnode⟩

theorem sound_closeGroup (h : Stack frames nesting) {node : Node}
    (hnode : node.Measured heightLimit) : Sound (closeGroup node frames c nesting) := by
  unfold closeGroup
  split
  · exact ⟨h, hnode⟩
  · exact ⟨h, trivial⟩

theorem sound_finish (h : Stack frames nesting) (answer : List Expr) :
    Sound (finish answer frames c nesting) := by
  unfold finish
  split
  · exact ⟨h, trivial⟩
  · exact ⟨h, trivial⟩

theorem sound_seekComma (h : Stack frames nesting) (read : List Expr) :
    Sound (seekComma read frames c nesting) := by
  unfold seekComma
  split
  · split
    · exact ⟨h, trivial⟩
    · exact ⟨h.push rfl (List.forall_mem_nil _), trivial⟩
  · exact sound_finish h _

/-- Going on with a node: what was counted for it is taken off, and a tree that is built of it
is as high as its node says. -/
theorem sound_resume (h : Stack (frame :: frames) nesting) {node : Node}
    (hnode : node.Measured heightLimit) : Sound (resume node frames c nesting frame) := by
  cases frame with
  | first level tighter => exact sound_seekOperator (h.pop rfl) hnode level tighter
  | operator level tighter op left =>
    have hleft : left.Measured heightLimit :=
      (forall_mem_nodes_cons.mp h.measured).1 left (List.mem_singleton_self left)
    exact sound_joinOperand (h.pop rfl) hleft hnode level tighter op
  | unary op =>
    apply sound_leave h rfl
    intro n hstack
    apply sound_build hstack
    rw [hnode.depth_eq, Expr.height]
  | step => exact sound_seekStep (h.pop rfl) hnode
  | group =>
    apply sound_leave h rfl
    intro n hstack
    exact sound_closeGroup hstack hnode
  | assign name op =>
    apply sound_leave h rfl
    intro n hstack
    apply sound_build hstack
    rw [hnode.depth_eq, Expr.height]
  | whole => exact sound_finish (h.pop rfl) _
  | item read => exact sound_seekComma (h.pop rfl) _

/-- **No step loses count.** -/
theorem sound_step {m m' : ExprMachine} (hstep : m.step = some m') (h : m.Sound) : m'.Sound := by
  obtain ⟨task, frames, c, nesting⟩ := m
  cases task with
  | read phrase =>
    cases hstep
    exact sound_begin h.stack phrase
  | got node =>
    cases frames with
    | nil => cases hstep
    | cons frame frames =>
      cases hstep
      exact sound_resume h.stack h.task
  | done answer => cases hstep
  | failed e => cases hstep
  | underflow => cases hstep

theorem sound_start (form : Form) (c : Cursor) : (start form c).Sound := by
  cases form with
  | single => exact ⟨⟨⟨rfl, Nat.zero_le _⟩, List.forall_mem_nil _⟩, trivial⟩
  | list => exact ⟨⟨⟨rfl, Nat.zero_le _⟩, List.forall_mem_nil _⟩, trivial⟩

/-- **Everything is counted as it should be in every state of a reading.** -/
theorem counted_of_reaches {form : Form} {c : Cursor} {m : ExprMachine}
    (h : stepping.Reaches (start form c) m) : m.Counted :=
  (StepMachine.invariant (fun _ _ => sound_step) (sound_start form c) h).counted

end ExprMachine

end Lipi
