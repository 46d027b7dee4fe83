/-
What is wrong with a program is at one of its tokens.

The parser keeps the place of the token that it took last, for what is missing at the end of
the program, and an expression that of its last token. Both start as no place at all, and so a
refusal could be nowhere. It is not: whatever is refused blames a token of the source
(`SyntaxError.Blames`), and every token starts at a character of it. Only the source without a
token is refused nowhere, because it has nothing to point at.
-/
import Lipi.Proofs.Compilation.Diagnostics

set_option autoImplicit false

namespace Lipi

/-- Every token starts at a character of the source. -/
theorem isOf_of_tokenize {source : String} {tokens : List Token}
    (h : tokenize source = .ok tokens) {t : Token} (ht : t ∈ tokens) :
    t.location.IsOf source.toList := by
  obtain ⟨tiles, htiled, rfl⟩ := Scanner.exists_tiled h
  obtain ⟨before, rest, htext, hrest, hl⟩ := htiled.exists_ahead _ t ht
  have hsource : source.toList = before ++ rest := htext
  rw [hsource, hl]
  exact Location.isOf_past before rest hrest

/-- A character of a source is somewhere. -/
theorem Location.IsOf.ne_nowhere {source : List Char} {l : Location} (h : l.IsOf source) :
    l ≠ .nowhere := by
  rintro rfl
  have hline := h.line
  have hnowhere : Location.nowhere.line = 0 := rfl
  omega

/-- **A program is refused at one of its tokens.** What the parser or lowering raises for a
source that has tokens is at the place of one of them: a character of the source, with its line
and its column, and never nowhere. -/
theorem location_of_refused {source : String} {tokens : List Token} {e : SyntaxError}
    (htokens : tokenize source = .ok tokens) (hne : tokens ≠ [])
    (h : Program.parse tokens = .error e
      ∨ ∃ p, Program.parse tokens = .ok p ∧ p.script = .error e) :
    (∃ t ∈ tokens, e.location = t.location) ∧ e.location.IsOf source.toList
      ∧ e.location ≠ .nowhere := by
  obtain ⟨t, ht, hplace⟩ := List.mem_map.mp (SyntaxError.Blames.of_refused hne h).place
  have hisOf : e.location.IsOf source.toList := hplace ▸ isOf_of_tokenize htokens ht
  exact ⟨⟨t, ht, hplace.symm⟩, hisOf, hisOf.ne_nowhere⟩

/-- A break outside every loop, which is refused when the program is lowered. -/
def strayBreak : String := "arambha systummm viram; bihari_sramik"

/-- The tokens of `strayBreak`. -/
def strayBreakTokens : List Token :=
  [⟨.keyword .start, ⟨0, 1, 1⟩⟩, ⟨.keyword .main, ⟨8, 1, 9⟩⟩, ⟨.keyword .breakLoop, ⟨17, 1, 18⟩⟩,
    ⟨.symbol .semicolon, ⟨22, 1, 23⟩⟩, ⟨.keyword .finish, ⟨24, 1, 25⟩⟩]

/-- It is refused at the word itself. -/
theorem location_of_refused_strayBreak :
    tokenize strayBreak = .ok strayBreakTokens
      ∧ ∃ p e, Program.parse strayBreakTokens = .ok p ∧ p.script = .error e
        ∧ e.location = ⟨17, 1, 18⟩ ∧ (∃ t ∈ strayBreakTokens, e.location = t.location)
        ∧ e.location.IsOf strayBreak.toList ∧ e.location ≠ .nowhere := by
  have htokens : tokenize strayBreak = .ok strayBreakTokens := eq_ok_of_toOption (by decide +kernel)
  have hne : strayBreakTokens ≠ [] := by decide
  obtain ⟨p, hp⟩ := exists_eq_ok_of_isSome (x := Program.parse strayBreakTokens) (by decide +kernel)
  have hplace : (Program.parse strayBreakTokens).toOption.bind (fun p => match p.script with
      | .ok _ => none
      | .error e => some e.location) = some ⟨17, 1, 18⟩ := by decide +kernel
  rw [hp, Except.toOption, Option.bind_some] at hplace
  cases hscript : p.script with
  | ok script =>
    rw [hscript] at hplace
    cases hplace
  | error e =>
    rw [hscript] at hplace
    exact ⟨htokens, p, e, hp, hscript, Option.some.inj hplace,
      location_of_refused htokens hne (.inr ⟨p, hp, hscript⟩)⟩

end Lipi
