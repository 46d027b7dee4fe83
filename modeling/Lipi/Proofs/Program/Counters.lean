/-
What is counted while a program is read.

The blocks that are open are counted by hand: one more when a brace is taken, one less when the
brace that closes it is taken. Between the two stand the readers of every form of statement, and
the count is right for the rest of the program only if each of them leaves it as it was.

`ProgramMachine.Counted` says that the counter is right in one state of the machine that reads
a program. A step that puts a block on the stack counts it and a step that takes one off
uncounts it, and no other changes the counter, so it is right in every state that is reached
(`counted_of_reaches`).
-/
import Lipi.Proofs.Program.Machine

set_option autoImplicit false

namespace Lipi

namespace ProgramMachine

open Program

/-- The frames that are counted: those of an open block. -/
def Frame.opens : Frame → Bool
  | .row (some _) _ => true
  | _ => false

/-- How many blocks are open. -/
def opened (m : ProgramMachine) : Nat := m.frames.countP Frame.opens

/-- The blocks are counted as they should be: the counter is the number of those that are open
and within its ceiling, and nothing was taken from it at zero. -/
structure Counted (m : ProgramMachine) : Prop where
  depth_eq : m.depth = m.opened
  depth_le : m.depth ≤ nestingLimit
  no_underflow : m.task ≠ .underflow

variable {frames : List Frame} {c : TokenCursor} {depth : Nat}

/-- The counter of a stack, as a state has it. -/
theorem Counted.counts {m : ProgramMachine} (h : m.Counted) :
    Counts Frame.opens nestingLimit m.frames m.depth :=
  ⟨h.depth_eq, h.depth_le⟩

theorem counted_of_counts {task : Task} (h : Counts Frame.opens nestingLimit frames depth)
    (htask : task ≠ .underflow) : Counted ⟨task, frames, c, depth⟩ :=
  ⟨h.eq, h.le, htask⟩

theorem counted_failed {e : SyntaxError} (h : Counts Frame.opens nestingLimit frames depth) :
    Counted ⟨.failed e, frames, c, depth⟩ :=
  counted_of_counts h Task.noConfusion

/-- A frame that is not counted is put on the stack, and a block is read. -/
theorem counted_block {frame : Frame} (h : Counts Frame.opens nestingLimit frames depth)
    (hopens : frame.opens = false) : Counted ⟨.block, frame :: frames, c, depth⟩ :=
  counted_of_counts ((Counts.uncounted_iff hopens).mpr h) Task.noConfusion

/-- What is read from the front of the tokens is not counted. -/
theorem counted_after {α : Type} {bound : Nat} {x : Except SyntaxError (Read α bound)}
    (h : Counts Frame.opens nestingLimit frames depth) {next : Read α bound → ProgramMachine}
    (hnext : ∀ r, (next r).Counted) : (after x frames c depth next).Counted := by
  unfold after
  split
  · exact counted_failed h
  · exact hnext _

theorem counted_beginBranch (h : Counts Frame.opens nestingLimit frames depth) (k : Keyword)
    (place choicePlace : Location) (before : List (List Token × List Statement)) :
    (beginBranch k place choicePlace before frames c depth).Counted := by
  apply counted_after h
  intro condition
  exact counted_block h rfl

theorem counted_beginForLoop (h : Counts Frame.opens nestingLimit frames depth)
    (place : Location) : (beginForLoop place frames c depth).Counted := by
  apply counted_after h
  intro header
  split
  · exact counted_block h rfl
  · exact counted_failed h

theorem counted_beginStatement (h : Counts Frame.opens nestingLimit frames depth)
    (first : Token) : (beginStatement first frames c depth).Counted := by
  unfold beginStatement
  split
  · apply counted_after h
    intro condition
    exact counted_block h rfl
  · exact counted_beginForLoop h _
  · exact counted_beginBranch h _ _ _ _
  · apply counted_after h
    intro r
    exact counted_of_counts h Task.noConfusion

/-- A row of statements goes on with the blocks that are open, itself included. -/
theorem counted_nextStatement {opening : Option Location} {read : List Statement}
    (h : Counts Frame.opens nestingLimit (.row opening read :: frames) depth) :
    (nextStatement opening read frames c depth).Counted := by
  unfold nextStatement
  split
  · exact counted_of_counts h Task.noConfusion
  · split
    · exact counted_of_counts h Task.noConfusion
    · exact counted_beginStatement h _

theorem counted_openBlock (h : Counts Frame.opens nestingLimit frames depth) :
    (openBlock frames c depth).Counted := by
  apply counted_after h
  intro opening
  by_cases hfull : nestingLimit ≤ depth
  · rw [if_pos hfull]
    exact counted_failed h
  · rw [if_neg hfull]
    have hcounts : Counts Frame.opens nestingLimit
        (.row (some opening.item.location) [] :: frames) (depth + 1) := h.enter rfl (by omega)
    exact counted_of_counts hcounts Task.noConfusion

theorem counted_closeBlock {opening : Location} {read : List Statement}
    (h : Counts Frame.opens nestingLimit (.row (some opening) read :: frames) depth) :
    (closeBlock opening read frames c depth).Counted := by
  unfold closeBlock
  split
  · exact counted_failed h
  · -- The block that is closed is one of those that are counted.
    obtain ⟨n, rfl, hcounts⟩ := h.leave rfl
    exact counted_of_counts hcounts Task.noConfusion

theorem counted_seekBranch (h : Counts Frame.opens nestingLimit frames depth) (place : Location)
    (before : List (List Token × List Statement)) :
    (seekBranch place before frames c depth).Counted := by
  unfold seekBranch
  split
  · exact counted_of_counts h Task.noConfusion
  · split
    · exact counted_beginBranch h _ _ _ _
    · split
      · exact counted_block h rfl
      · exact counted_of_counts h Task.noConfusion

theorem counted_unframe (h : Counts Frame.opens nestingLimit frames depth) :
    (unframe frames c depth).Counted := by
  unfold unframe
  split
  · exact counted_failed h
  · exact counted_of_counts ((Counts.uncounted_iff rfl).mpr h) Task.noConfusion

/-- A row that is not a block, or a statement that waits for one, is taken off the stack. -/
theorem counted_pop {frame : Frame} {task : Task}
    (h : Counts Frame.opens nestingLimit (frame :: frames) depth) (hopens : frame.opens = false)
    (htask : task ≠ .underflow) : Counted ⟨task, frames, c, depth⟩ :=
  counted_of_counts ((Counts.uncounted_iff hopens).mp h) htask

/-- **No step loses count.** -/
theorem counted_step {m m' : ProgramMachine} (hstep : m.step = some m') (h : m.Counted) :
    m'.Counted := by
  have hcounts := h.counts
  unfold step at hstep
  split at hstep
  · cases hstep
    exact counted_unframe hcounts
  · cases hstep
    exact counted_nextStatement hcounts
  · next item opening read frames c depth =>
    cases hstep
    have hopens : Frame.opens (.row opening (item.toList ++ read))
        = Frame.opens (.row opening read) := by
      cases opening <;> rfl
    exact counted_of_counts (hcounts.replace hopens) Task.noConfusion
  · cases hstep
    exact counted_pop hcounts rfl Task.noConfusion
  · cases hstep
    exact counted_closeBlock hcounts
  · cases hstep
    exact counted_openBlock hcounts
  · cases hstep
    exact counted_pop hcounts rfl Task.noConfusion
  · cases hstep
    exact counted_pop hcounts rfl Task.noConfusion
  · cases hstep
    exact counted_pop hcounts rfl Task.noConfusion
  · cases hstep
    exact counted_pop hcounts rfl Task.noConfusion
  · cases hstep
    exact counted_seekBranch hcounts _ _
  · cases hstep

theorem counted_start (tokens : List Token) : (start tokens).Counted :=
  ⟨rfl, Nat.zero_le _, Task.noConfusion⟩

/-- **The blocks are counted as they should be in every state of a reading.** -/
theorem counted_of_reaches {tokens : List Token} {m : ProgramMachine}
    (h : stepping.Reaches (start tokens) m) : m.Counted :=
  StepMachine.invariant (fun _ _ => counted_step) (counted_start tokens) h

end ProgramMachine

end Lipi
