/-
Compiling as three stages.

A source text compiles if its tokens can be read, they can be read as a program, and the
program can be lowered, and the script is what lowering comes to (`compile_eq_ok_iff`).
The journal that compiling keeps plays no part in this. So what lowering makes sure of holds
of every script (`Program.allWellFormed_script`).
-/
import Lipi.Compilation
import Lipi.Proofs.Script.WellFormed

set_option autoImplicit false

namespace Lipi

/-- An outcome whose value can be computed is that value. -/
theorem eq_ok_of_toOption {ε α : Type} {x : Except ε α} {a : α} (h : x.toOption = some a) :
    x = .ok a := by
  cases x with
  | error e => cases h
  | ok b =>
    cases h
    rfl

theorem exists_eq_ok_of_isSome {ε α : Type} {x : Except ε α} (h : x.toOption.isSome = true) :
    ∃ a, x = .ok a := by
  obtain ⟨a, ha⟩ := Option.isSome_iff_exists.mp h
  exact ⟨a, eq_ok_of_toOption ha⟩

theorem Program.script_eq_ok_iff {p : Program} {script : Script} :
    p.script = .ok script ↔ (Statement.lowerAll 0 p.body 0).1 = .ok script.body := by
  show ((Statement.lowerAll 0 p.body 0).1.map Script.mk) = .ok script ↔ _
  cases (Statement.lowerAll 0 p.body 0).1 with
  | error e => exact ⟨nofun, nofun⟩
  | ok body =>
    constructor
    · intro h
      cases h
      rfl
    · intro h
      cases h
      rfl

/-- The commands of a script are well formed with no loop around them. -/
theorem Program.allWellFormed_script {p : Program} {script : Script} (h : p.script = .ok script) :
    Command.AllWellFormed 0 script.body :=
  Statement.allWellFormed_lowerAll 0 p.body 0 script.body (script_eq_ok_iff.mp h)

/-- **Which scripts a source text compiles to.** -/
theorem compile_eq_ok_iff {source : String} {script : Script} :
    compile source = .ok script ↔ ∃ tokens p, tokenize source = .ok tokens
      ∧ Program.parse tokens = .ok p ∧ p.script = .ok script := by
  unfold compile Compilation.ofSource
  -- Each stage either fails, and both sides with it, or has the one answer.
  cases htokens : tokenize source with
  | error e =>
    refine ⟨nofun, ?_⟩
    rintro ⟨tokens, p, h, -⟩
    cases h
  | ok tokens =>
    dsimp only
    cases hparse : Program.parse tokens with
    | error e =>
      refine ⟨nofun, ?_⟩
      rintro ⟨tokens', p, h, hp, -⟩
      cases h
      rw [hparse] at hp
      cases hp
    | ok p =>
      have hscript : ∀ outcome made, p.lower = (outcome, made) → p.script = outcome :=
        fun outcome made h => congrArg Prod.fst h
      dsimp only
      cases hlower : p.lower with
      | mk outcome made =>
        have houtcome := hscript outcome made hlower
        constructor
        · intro h
          refine ⟨tokens, p, rfl, hparse, ?_⟩
          cases outcome with
          | error e => cases h
          | ok script' =>
            cases h
            exact houtcome
        · rintro ⟨tokens', p', h, hp, hs⟩
          cases h
          rw [hparse] at hp
          cases hp
          rw [houtcome] at hs
          cases hs
          rfl

/-- **What running a source gives to be seen**: the log of its script, or why there is none. -/
theorem runSource_eq (source : String) :
    runSource source = match compile source with
      | .ok script => script.run.log.text
      | .error e => e.diagnostics := by
  unfold runSource Report.ofSource compile
  dsimp only
  cases (Compilation.ofSource source).outcome <;> rfl

end Lipi
