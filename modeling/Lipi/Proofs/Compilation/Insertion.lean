/-
Layout and compiling.

Only the kinds of the tokens of a source decide what it compiles to, but for places
(`compile_of_kinds`): parsing keeps them apart from the places, lowering does so too, and
neither a listing nor a run shows a place. Layout that is put in front of a token changes no
kind, so the source compiles to a script with the same listing and the same log
(`compile_inserted`).
-/
import Lipi.Proofs.Compilation
import Lipi.Proofs.Sandbox.Agreement
import Lipi.Proofs.Script.Listing
import Lipi.Proofs.Token.Insertion

set_option autoImplicit false

namespace Lipi

/-- **Kinds decide what is shown of a script.** -/
theorem compile_of_kinds {source source' : String} {tokens tokens' : List Token} {script : Script}
    (h : tokenize source = .ok tokens) (h' : tokenize source' = .ok tokens')
    (hkinds : Token.kinds tokens' = Token.kinds tokens) (hscript : compile source = .ok script) :
    ∃ script', compile source' = .ok script' ∧ script'.listing = script.listing
      ∧ ∀ s : Sandbox, (s.run script').log = (s.run script).log := by
  obtain ⟨_, p, htokens, hparse, hlower⟩ := compile_eq_ok_iff.mp hscript
  rw [h] at htokens
  cases htokens
  obtain ⟨p', hparse', hsame⟩ := Program.parse_of_kinds hparse hkinds
  have hbody : Statement.unlocatedAll p'.body = Statement.unlocatedAll p.body :=
    congrArg Program.body hsame
  rw [Program.script_eq_ok_iff] at hlower
  -- The same guards were made before, so the listing agrees as well as the bare form.
  obtain ⟨cs, hcs, hunplaced⟩ :=
    Statement.seen_of_unlocated Lowering.overlooks_unplaced hlower hbody 0 rfl rfl
  obtain ⟨ds, hds, hbare⟩ := Statement.lowered_of_unlocated hlower hbody 0
  rw [hcs] at hds
  cases hds
  refine ⟨⟨cs⟩, compile_eq_ok_iff.mpr ⟨tokens', p', h', hparse', ?_⟩, ?_, ?_⟩
  · exact Program.script_eq_ok_iff.mpr hcs
  · exact Script.listing_eq hunplaced
  · intro s
    have hagrees : Sandbox.Agrees (fun _ => True) #[] #[] (s.run ⟨cs⟩) (s.run script) :=
      Sandbox.agrees_run hbare (fun _ _ => trivial) (fun _ _ => trivial) (.refl _ _)
    exact hagrees.log_eq

/-- **Layout does not matter.** Layout that begins with a blank, put in front of any token of
a source, leaves the tokens of the kinds they are, moves those from there on by its length,
and changes neither the listing nor the log of what the source compiles to. -/
theorem compile_inserted {source : String} {tokens : List Token}
    (h : tokenize source = .ok tokens) {t : Token} (ht : t ∈ tokens) {w : List Char}
    (hw : Layout.Spacer w) :
    (∃ tokens', tokenize (inserted source t.location.offset w) = .ok tokens'
      ∧ Token.kinds tokens' = Token.kinds tokens
      ∧ tokens'.map (·.location.offset) = tokens.map fun u =>
        if u.location.offset < t.location.offset then u.location.offset
        else u.location.offset + w.length)
    ∧ ∀ script, compile source = .ok script →
      ∃ script', compile (inserted source t.location.offset w) = .ok script'
        ∧ script'.listing = script.listing
        ∧ ∀ s : Sandbox, (s.run script').log = (s.run script).log := by
  obtain ⟨tokens', h', hkinds, hoffsets⟩ := tokenize_inserted h ht hw
  exact ⟨⟨tokens', h', hkinds, hoffsets⟩, fun _ hscript => compile_of_kinds h h' hkinds hscript⟩

/-- A program that divides. -/
def dividing : String := "arambha systummm ghoshit_kar n = 7; prakashit_kar(n/2) bihari_sramik"

/-- A comment between a slash and the divisor. -/
theorem compile_inserted_divisor : ∃ tokens t script,
    tokenize dividing = .ok tokens ∧ t ∈ tokens ∧ t.location.offset = 52
      ∧ compile dividing = .ok script ∧ Layout.Spacer " /* by */".toList
      ∧ ∃ script', compile (inserted dividing t.location.offset " /* by */".toList) = .ok script'
          ∧ script'.listing = script.listing
          ∧ ∀ s : Sandbox, (s.run script').log = (s.run script).log := by
  obtain ⟨tokens, htokens⟩ := exists_eq_ok_of_isSome (x := tokenize dividing) (by decide +kernel)
  obtain ⟨script, hscript⟩ := exists_eq_ok_of_isSome (x := compile dividing) (by decide +kernel)
  have hany : (tokenize dividing).toOption.any (·.any (·.location.offset == 52)) = true := by
    decide +kernel
  rw [htokens] at hany
  obtain ⟨t, ht, hoffset⟩ := List.any_eq_true.mp hany
  have hw : Layout.Spacer " /* by */".toList :=
    ⟨.blank (by decide) (@Layout.Complete.block [' ', 'b', 'y', ' '] [] (by decide) .nil),
      ' ', "/* by */".toList, rfl, by decide⟩
  obtain ⟨-, hcompiles⟩ := compile_inserted htokens ht hw
  exact ⟨tokens, t, script, htokens, ht, beq_iff_eq.mp hoffset, hscript, hw,
    hcompiles script hscript⟩

end Lipi
