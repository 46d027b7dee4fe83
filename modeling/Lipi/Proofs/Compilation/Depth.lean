/-
No tree is too deep.

Everything that walks over a script recurses over its trees, so the ceilings of the parsers are
what keeps it from running out of stack. They are kept by counting, and this is the whole of it:
what the ceilings come to in a script that has been compiled, and that the counts are right at
every moment of the two parsers that keep them (`bounded_depths`).
-/
import Lipi.Proofs.Expr.Counters
import Lipi.Proofs.Program.Counters
import Lipi.Proofs.Script.Bounds

set_option autoImplicit false

namespace Lipi

/-- In a script that was compiled, every command has at most 64 blocks around it, and every
expression of every command is a tree of height 512 at most. -/
theorem bounded_of_compile {source : String} {script : Script} (h : compile source = .ok script)
    {n : Nat} {c : Command} (hinside : c.Inside n script.body) :
    n ≤ 64 ∧ ∀ e ∈ c.expressions, e.height ≤ 512 := by
  obtain ⟨_, p, -, hp, hscript⟩ := compile_eq_ok_iff.mp h
  exact Program.bounded_script hp hscript n c hinside

/-- **Every depth is bounded, by counts that are right.** In a script that was compiled, every
command has at most 64 blocks around it, and every expression is a tree of height 512 at most.
When a slice is read, as one expression or as a list, then in every state on the way each node
knows the height of its tree, the counter is the number of groups, operators before an operand
and assignments that are open, at most 64, and it has not been taken from at zero; the reading
comes to what the slice is read as, with the counter at zero if that is not an error. And when a
program is read, the same is true of the counter of blocks. -/
theorem bounded_depths :
    (∀ source script, compile source = .ok script → ∀ n c, Command.Inside n c script.body →
        n ≤ 64 ∧ ∀ e ∈ c.expressions, e.height ≤ 512)
      ∧ (∀ form tokens c, Expr.cursor tokens = .ok c →
        (∀ m, ExprMachine.stepping.Reaches (ExprMachine.start form c) m → m.Counted)
          ∧ ∃ m, ExprMachine.stepping.Reaches (ExprMachine.start form c) m ∧ m.step = none
            ∧ m.Gives (form.parse tokens))
      ∧ ∀ tokens,
        (∀ m, ProgramMachine.stepping.Reaches (ProgramMachine.start tokens) m → m.Counted)
          ∧ ∃ m, ProgramMachine.stepping.Reaches (ProgramMachine.start tokens) m ∧ m.step = none
            ∧ m.Gives (Program.parse tokens) := by
  refine ⟨?_, ?_, ?_⟩
  · intro source script h n c hinside
    exact bounded_of_compile h hinside
  · intro form tokens c hc
    obtain ⟨m, hreach, hgives⟩ := ExprMachine.exists_gives hc form
    refine ⟨?_, m, hreach, hgives.step_eq_none, hgives⟩
    intro m' hreach'
    exact ExprMachine.counted_of_reaches hreach'
  · intro tokens
    obtain ⟨m, hreach, hgives⟩ := ProgramMachine.exists_gives tokens
    refine ⟨?_, m, hreach, hgives.step_eq_none, hgives⟩
    intro m' hreach'
    exact ProgramMachine.counted_of_reaches hreach'

/-- A program with a block in a block, and with everything that is counted in an expression. -/
def nested : String :=
  "arambha systummm prati_ghatak (ghoshit_kar i = 0; i < 3; i++) \x7b " ++
    "yadi (!(i == 1)) \x7b prakashit_kar(-(j = i + 2)) \x7d \x7d bihari_sramik"

/-- Its tokens are read as a program, and what it prints is read as a list. -/
theorem bounded_depths_nested : ∃ script c, compile nested = .ok script
    ∧ (∀ n d, Command.Inside n d script.body → n ≤ 64 ∧ ∀ e ∈ d.expressions, e.height ≤ 512)
    ∧ Expr.cursor [⟨.operator .minus, .nowhere⟩, ⟨.identifier "i", .nowhere⟩] = .ok c
    ∧ ∀ m, ExprMachine.stepping.Reaches (ExprMachine.start .list c) m → m.Counted := by
  obtain ⟨script, h⟩ := exists_eq_ok_of_isSome (x := compile nested) (by decide +kernel)
  obtain ⟨c, hc⟩ := exists_eq_ok_of_isSome
    (x := Expr.cursor [⟨.operator .minus, .nowhere⟩, ⟨.identifier "i", .nowhere⟩])
    (by decide +kernel)
  obtain ⟨hscripts, hslices, -⟩ := bounded_depths
  exact ⟨script, c, h, hscripts nested script h, hc, (hslices .list _ c hc).1⟩

end Lipi
