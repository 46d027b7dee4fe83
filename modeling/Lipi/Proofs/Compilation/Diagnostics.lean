/-
A source that does not compile is answered with one line.

Compiling fails at one of three stages (`exists_of_compile_error`), and each has its
own reason why the line holds together. What the scanner quotes is no line feed
(`Scanner.oneLine_of_error`); what the parser and lowering quote are tokens
(`SyntaxError.Blames`), and no token is shown on more than one line
(`oneLine_of_tokenize`). A source without any token has none to blame, but it fails at once,
and the error quotes nothing.
-/
import Lipi.Proofs.Script.Blame

set_option autoImplicit false

namespace Lipi

open Text

/-- What does not compile fails in the scanner, in the parser or in lowering. -/
theorem exists_of_compile_error {source : String} {error : CompileError}
    (h : compile source = .error error) :
    (∃ e, tokenize source = .error e ∧ error = .ofLex e)
      ∨ ∃ tokens e, tokenize source = .ok tokens ∧ error = .ofSyntax e
        ∧ (Program.parse tokens = .error e
          ∨ ∃ p, Program.parse tokens = .ok p ∧ p.script = .error e) := by
  unfold compile Compilation.ofSource at h
  cases htokens : tokenize source with
  | error e =>
    rw [htokens] at h
    cases h
    exact .inl ⟨e, rfl, rfl⟩
  | ok tokens =>
    rw [htokens] at h
    dsimp only at h
    cases hparse : Program.parse tokens with
    | error e =>
      rw [hparse] at h
      cases h
      exact .inr ⟨tokens, e, rfl, rfl, .inl hparse⟩
    | ok p =>
      rw [hparse] at h
      dsimp only at h
      cases hlower : p.lower with
      | mk outcome made =>
        have hscript : p.script = outcome := congrArg Prod.fst hlower
        rw [hlower] at h
        cases outcome with
        | ok script => cases h
        | error e =>
          cases h
          exact .inr ⟨tokens, e, rfl, rfl, .inr ⟨p, hparse, hscript⟩⟩

/-- What the parser or lowering refuses of some tokens blames one of them. -/
theorem SyntaxError.Blames.of_refused {tokens : List Token} (hne : tokens ≠ []) {e : SyntaxError}
    (h : Program.parse tokens = .error e
      ∨ ∃ p, Program.parse tokens = .ok p ∧ p.script = .error e) : e.Blames tokens := by
  have hparse := Program.blaming_parse hne
  rcases h with h | ⟨p, h, hscript⟩
  · exact hparse.of_eq_error h
  · rw [h] at hparse
    exact Program.blames_of_script hparse hscript

/-- Without a token the parser has nothing to blame. -/
theorem Program.parse_nil :
    parse [] = .error ⟨.expected (.keyword .start) .programStart none, .nowhere⟩ := rfl

/-- What the parser or lowering refuses quotes the tokens and nothing else. -/
theorem quotes_of_refused {tokens : List Token} {e : SyntaxError}
    (h : Program.parse tokens = .error e
      ∨ ∃ p, Program.parse tokens = .ok p ∧ p.script = .error e) : e.cause.Quotes tokens := by
  by_cases hne : tokens = []
  · subst hne
    rw [Program.parse_nil] at h
    rcases h with h | ⟨p, h, -⟩
    · cases h
      exact ⟨rfl, trivial, nofun⟩
    · cases h
  · exact (SyntaxError.Blames.of_refused hne h).quotes

namespace CompileError

/-- The words that an error's line begins with. -/
def heading : CompileError → String
  | ofLex _ => "Tokenization Error: "
  | ofSyntax _ => "Parse Error: "

/-- What was wrong, after the heading. -/
def message : CompileError → String
  | ofLex e => e.message
  | ofSyntax e => e.message

/-- What an error's line says in parentheses. -/
def context : CompileError → String
  | ofLex e => e.context
  | ofSyntax e => e.context

theorem diagnostics_eq (error : CompileError) :
    error.diagnostics = error.heading ++ error.message ++ " (" ++ error.context ++ ")" := by
  cases error with
  | ofLex e => rfl
  | ofSyntax e => rfl

theorem context_ne_empty (error : CompileError) : error.context ≠ "" := by
  cases error with
  | ofLex e => exact e.context_ne_empty
  | ofSyntax e => exact e.context_ne_empty

theorem oneLine_diagnostics {error : CompileError} (hmessage : OneLine error.message)
    (hcontext : OneLine error.context) : OneLine error.diagnostics := by
  have hheading : OneLine error.heading := by
    cases error <;> exact oneLine_ofList.mpr (by decide)
  rw [diagnostics_eq]
  simp only [oneLine_append]
  exact ⟨⟨⟨⟨hheading, hmessage⟩, oneLine_ofList.mpr (by decide)⟩, hcontext⟩,
    oneLine_ofList.mpr (by decide)⟩

end CompileError

/-- **Every source that does not compile is answered with one complete line.** The line begins
with the words for the stage that failed: those for tokens if the source could not be
split into tokens, and those for parsing if its tokens were refused, be it as a program or
as a script. It has a context, which is not empty, and no line feed in it. It is all that
running the source gives, and as a log it is one line. -/
theorem diagnostics_of_compile_error {source : String} {error : CompileError}
    (h : compile source = .error error) :
    ((∃ e, tokenize source = .error e ∧ error = .ofLex e
          ∧ "Tokenization Error: ".toList <+: error.diagnostics.toList)
        ∨ ∃ tokens e, tokenize source = .ok tokens ∧ error = .ofSyntax e
          ∧ (Program.parse tokens = .error e
            ∨ ∃ p, Program.parse tokens = .ok p ∧ p.script = .error e)
          ∧ "Parse Error: ".toList <+: error.diagnostics.toList)
      ∧ error.diagnostics = error.heading ++ error.message ++ " (" ++ error.context ++ ")"
      ∧ error.context ≠ ""
      ∧ '\n' ∉ error.diagnostics.toList
      ∧ runSource source = error.diagnostics
      ∧ Text.lines (runSource source) = [error.diagnostics.toList] := by
  have hheading : error.heading.toList <+: error.diagnostics.toList := by
    rw [CompileError.diagnostics_eq]
    simp only [String.toList_append, List.append_assoc]
    exact List.prefix_append _ _
  have hrun : runSource source = error.diagnostics := by
    have houtcome : (Compilation.ofSource source).outcome = .error error := h
    unfold runSource Report.ofSource
    dsimp only
    rw [houtcome]
  have hline : OneLine error.diagnostics := by
    rcases exists_of_compile_error h with ⟨e, htokens, rfl⟩ | ⟨tokens, e, htokens, rfl, hrefused⟩
    · have hquoted := Scanner.oneLine_of_error htokens
      exact CompileError.oneLine_diagnostics e.oneLine_message
        (LexError.Cause.oneLine_context hquoted)
    · have hquotes := quotes_of_refused hrefused
      have hkinds : ∀ k ∈ Token.kinds tokens, OneLine k.lexeme := by
        intro k hk
        obtain ⟨t, ht, rfl⟩ := List.mem_map.mp hk
        exact oneLine_of_tokenize htokens t ht
      exact CompileError.oneLine_diagnostics (SyntaxError.Cause.oneLine_message hkinds hquotes)
        (SyntaxError.Cause.oneLine_context hkinds hquotes)
  have hne : error.diagnostics ≠ "" := by
    rw [CompileError.diagnostics_eq]
    cases error <;> simp [CompileError.heading]
  refine ⟨?_, CompileError.diagnostics_eq error, error.context_ne_empty, hline, hrun, ?_⟩
  · rcases exists_of_compile_error h with ⟨e, htokens, rfl⟩ | ⟨tokens, e, htokens, rfl, hrefused⟩
    · exact .inl ⟨e, htokens, rfl, hheading⟩
    · exact .inr ⟨tokens, e, htokens, rfl, hrefused, hheading⟩
  · rw [hrun]
    exact lines_eq_of_oneLine hline hne

/-- A print whose argument is two texts next to each other, with an escaped line feed. -/
def adjacentTexts : String :=
  "arambha systummm prakashit_kar(1 \"a\\nb\") bihari_sramik"

/-- The second text is quoted in escaped form. -/
theorem diagnostics_of_compile_error_adjacentTexts :
    ∃ error, compile adjacentTexts = .error error
      ∧ '\n' ∉ error.diagnostics.toList ∧ error.context ≠ ""
      ∧ runSource adjacentTexts = error.diagnostics := by
  obtain ⟨error, h⟩ : ∃ error, compile adjacentTexts = .error error := by
    cases hcompile : compile adjacentTexts with
    | error error => exact ⟨error, rfl⟩
    | ok script =>
      have hnone : (compile adjacentTexts).toOption.isSome = false := by decide +kernel
      rw [hcompile] at hnone
      cases hnone
  obtain ⟨-, -, hcontext, hline, hrun, -⟩ := diagnostics_of_compile_error h
  exact ⟨error, h, hline, hcontext, hrun⟩

end Lipi
