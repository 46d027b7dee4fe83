/-
Compiled scripts run through.

What compiles is well formed outside every loop (`Program.allWellFormed_script`), so no
command at the top of the script leaves it (`Command.not_escapes_of_allWellFormed`). Two
counts meet here, that of the loops around a statement when it is lowered and that of the
loops around a command when it runs: where they agree, no break can end a script in
silence, and only a fault keeps a command at the top from being run.
-/
import Lipi.Proofs.Compilation
import Lipi.Proofs.Sandbox.Sequence

set_option autoImplicit false

namespace Lipi

/-- **Compiled scripts are well formed and leak no loop control.** The commands of a script
that compiles are well formed with no loop around them. From any sandbox, running them is
done or ends in a fault; it never leaves a loop or goes on to a next pass. And each command
at the top is run in the sandbox in which those before it are done, unless one of these ends in
a fault; a fault of its own ends the run, and otherwise those after it are run in the sandbox
that it leaves. -/
theorem wellFormed_of_compile {source : String} {script : Script}
    (h : compile source = .ok script) :
    Command.AllWellFormed 0 script.body
      ∧ ∀ s : Sandbox,
        ((Command.runAll script.body s).1 = .ok .done
            ∨ ∃ fault, (Command.runAll script.body s).1 = .error fault)
          ∧ ∀ before c after, script.body = before ++ c :: after →
            (∃ fault t, Command.runAll before s = (.error fault, t)
                ∧ Command.runAll script.body s = (.error fault, t))
              ∨ ∃ t, Command.runAll before s = (.ok .done, t)
                ∧ Command.runAll script.body s = Command.runAll (c :: after) t
                ∧ ((∃ fault u, c.run t = (.error fault, u)
                      ∧ Command.runAll script.body s = (.error fault, u))
                  ∨ ∃ u, c.run t = (.ok .done, u)
                    ∧ Command.runAll script.body s = Command.runAll after u) := by
  obtain ⟨_, p, -, -, hp⟩ := compile_eq_ok_iff.mp h
  have hformed : Command.AllWellFormed 0 script.body := Program.allWellFormed_script hp
  have hstays := Command.not_escapes_of_allWellFormed script.body hformed
  refine ⟨hformed, fun s => ⟨?_, ?_⟩⟩
  · cases houtcome : (Command.runAll script.body s).1 with
    | error fault => exact .inr ⟨fault, rfl⟩
    | ok flow =>
      rw [Command.yields_done_all script.body hstays s flow houtcome]
      exact .inl rfl
  · intro before c after hbody
    rw [hbody] at hstays ⊢
    obtain ⟨hbefore, hfrom⟩ := Command.escapesInAll_append.mp hstays
    rcases Command.runAll_comes_to hbefore c after s with hfault | ⟨t, hdone, hrun⟩
    · exact .inl hfault
    · refine .inr ⟨t, hdone, hrun, ?_⟩
      rw [hrun]
      exact Command.runAll_cons_cases (Bool.or_eq_false_iff.mp hfrom).1 after t

/-- A program that breaks a loop from within a choice. -/
def breaking : String :=
  "arambha systummm prati_ghatak (ghoshit_kar i = 0; i < 9; i += 2) \x7b " ++
    "yadi (i == 4) \x7b viram \x7d \x7d prakashit_kar(1, 2) bihari_sramik"

/-- Its break leaves the loop and not the script. -/
theorem wellFormed_of_compile_breaking : ∃ script, compile breaking = .ok script
    ∧ Command.AllWellFormed 0 script.body
    ∧ ∀ s : Sandbox, (Command.runAll script.body s).1 = .ok .done
      ∨ ∃ fault, (Command.runAll script.body s).1 = .error fault := by
  obtain ⟨script, h⟩ := exists_eq_ok_of_isSome (x := compile breaking) (by decide +kernel)
  obtain ⟨hformed, hruns⟩ := wellFormed_of_compile h
  exact ⟨script, h, hformed, fun s => (hruns s).1⟩

end Lipi
