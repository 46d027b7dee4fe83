/-
What a run puts out on a command line.

A command line that asks for nothing else reads one text, from a file or from the standard
input, and what it answers is a function of what it has read (`respond_eq`). A text that
compiles is run, and however the run ends the answer is a success (`answer_of_compile`). What is
put out is the log as a text with a line feed behind it, which is every line of the log with a
line feed of its own. Only a log without lines is to put out nothing; but whether there are any
is asked of the text, and that is empty as well if there is a single empty line
(`outputOfLog_text`).

All of this holds whatever the program is built on. How arguments are made options of matters
only in that they come to options that ask for nothing else.
-/
import Lipi.CommandLine
import Lipi.Proofs.Compilation
import Lipi.Proofs.Text.Joined

set_option autoImplicit false

namespace Lipi.CommandLine

open Text

/-! ## The log -/

/-- **What is put out of a log** are its lines, unless there is nothing but an empty one. -/
theorem outputOfLog_text (log : OutputLog) :
    outputOfLog log.text
      = if log.lines = #[""] then "" else String.join (log.lines.toList.map (· ++ "\n")) := by
  by_cases hblank : log.lines = #[""]
  · rw [if_pos hblank, OutputLog.text, hblank]
    rfl
  · have hne : log.lines.toList ≠ [""] := fun hlines => hblank (Array.toList_inj.mp hlines)
    rw [if_neg hblank]
    unfold outputOfLog
    by_cases hempty : log.text = ""
    · have hnone : log.lines.toList = [] :=
        (intercalate_lineFeed_eq_empty_iff.mp hempty).resolve_right hne
      rw [if_pos hempty, hnone]
      rfl
    · have hsome : log.lines.toList ≠ [] := fun hnone =>
        hempty (intercalate_lineFeed_eq_empty_iff.mpr (.inl hnone))
      rw [if_neg hempty, ← intercalate_append_lineFeed hsome]
      rfl

/-! ## The answer -/

variable {platform : Platform} {o : Options}

variable (platform) in
/-- What a text that compiles is answered with, unless it is to be listed. -/
theorem answer_of_compile (hemit : o.emit = false) {source : String} {script : Script}
    (h : compile source = .ok script) :
    (platform.answer o source).status = 0
      ∧ (platform.answer o source).output = outputOfLog script.run.log.text := by
  have houtcome : (Compilation.ofSource source).outcome = .ok script := h
  unfold Platform.answer
  dsimp only
  rw [houtcome]
  dsimp only
  rw [if_neg (Bool.eq_false_iff.mp hemit)]
  exact ⟨rfl, rfl⟩

/-- Options that ask for a text to be read and run. -/
structure Options.Runs (o : Options) : Prop where
  emit : o.emit = false
  playground : o.playground = false
  listSamples : o.listSamples = false
  sample : o.sample = Option.none

/-- Where the text is. -/
def Options.origin (o : Options) : Origin :=
  match o.file with
  | some path => .file path
  | .none => .standardInput

/-- The answer to what has been read. -/
def Platform.reply (platform : Platform) (o : Options) : Except ReadFailure String → Response
  | .error f => platform.unreadable o.origin f
  | .ok source => platform.answer o source

variable {m : Type → Type} [Monad m] [LawfulMonad m] {read : Origin → m (Except ReadFailure String)}

theorem withText_origin :
    platform.withText read o.origin (platform.answer o)
      = platform.reply o <$> read o.origin := by
  rw [Platform.withText, map_eq_pure_bind]
  congr 1
  funext outcome
  cases outcome <;> rfl

theorem carryOut_of_runs (h : o.Runs) :
    platform.carryOut read o = platform.reply o <$> read o.origin := by
  rw [← withText_origin, Platform.carryOut, h.listSamples, h.playground, h.sample,
    if_neg Bool.false_ne_true, if_neg Bool.false_ne_true, Options.origin]
  cases o.file <;> rfl

/-- **The text is read once, and the answer depends on it alone.** -/
theorem respond_eq {arguments : List String} (hparse : platform.parse arguments = .ok o)
    (h : o.Runs) : platform.respond read arguments = platform.reply o <$> read o.origin := by
  rw [Platform.respond, hparse]
  exact carryOut_of_runs h

variable (read) in
/-- **A run is a success and puts out the whole log**, whatever the program is built on, whatever
the command line reads and however. The answer to a text that compiles has the status 0, and its
output is every line of the log in order, each ended by a line feed, so nothing if there are
none. The exception is a log whose only line is empty: it puts out nothing, either. -/
theorem respond_run {arguments : List String} (hparse : platform.parse arguments = .ok o)
    (hruns : o.Runs) :
    platform.respond read arguments = platform.reply o <$> read o.origin
      ∧ ∀ source script, compile source = .ok script →
        (platform.reply o (.ok source)).status = 0
          ∧ (platform.reply o (.ok source)).output
            = if script.run.log.lines = #[""] then ""
              else String.join (script.run.log.lines.toList.map (· ++ "\n")) := by
  refine ⟨respond_eq hparse hruns, fun source script h => ?_⟩
  obtain ⟨hstatus, houtput⟩ := answer_of_compile platform hruns.emit h
  exact ⟨hstatus, houtput.trans (outputOfLog_text script.run.log)⟩

/-- Where there is one text to be read. -/
def only (origin : Origin) (text : String) : Origin → Id (Except ReadFailure String) := fun asked =>
  pure (if asked = origin then .ok text else .error .noSuchFile)

/-- A program that prints a word and an empty line. -/
def wordAndBlank : String :=
  "arambha systummm prakashit_kar(\"a\"); prakashit_kar(\"\"); bihari_sramik"

/-- A file whose log ends with an empty line, which is put out. -/
theorem respond_run_file :
    CommandLine.platform.parse ["-v", "demo"] = .ok ⟨some "demo", false, false, none, false, 1⟩
      ∧ Options.Runs ⟨some "demo", false, false, none, false, 1⟩
      ∧ ∃ script, compile wordAndBlank = .ok script ∧ script.run.log.lines = #["a", ""]
        ∧ (CommandLine.platform.respond (only (.file "demo") wordAndBlank)
            ["-v", "demo"]).run.status = 0
        ∧ (CommandLine.platform.respond (only (.file "demo") wordAndBlank)
            ["-v", "demo"]).run.output = "a\n\n" := by
  have hparse : CommandLine.platform.parse ["-v", "demo"]
      = .ok ⟨some "demo", false, false, none, false, 1⟩ := eq_ok_of_toOption (by decide +kernel)
  have hruns : Options.Runs ⟨some "demo", false, false, none, false, 1⟩ := ⟨rfl, rfl, rfl, rfl⟩
  obtain ⟨hrespond, hreply⟩ :=
    respond_run (only (.file "demo") wordAndBlank) hparse hruns
  obtain ⟨script, hcompile⟩ :=
    exists_eq_ok_of_isSome (x := compile wordAndBlank) (by decide +kernel)
  have hlog : (compile wordAndBlank).toOption.map (·.run.log.lines) = some #["a", ""] := by
    decide +kernel
  rw [hcompile] at hlog
  have hlines : script.run.log.lines = #["a", ""] := Option.some.inj hlog
  obtain ⟨hstatus, houtput⟩ := hreply wordAndBlank script hcompile
  -- The log has two lines, so it is not the exception.
  rw [hlines] at houtput
  refine ⟨hparse, hruns, script, hcompile, hlines, ?_, ?_⟩
  · rw [hrespond]
    exact hstatus
  · rw [hrespond]
    exact houtput

/-- A program that prints an empty line. -/
def onlyBlank : String := "arambha systummm prakashit_kar(\"\"); bihari_sramik"

/-- **The exception is real**: this log has a line, and nothing is put out. -/
theorem respond_onlyBlank :
    ∃ script, compile onlyBlank = .ok script ∧ script.run.log.lines = #[""]
      ∧ (CommandLine.platform.respond (only .standardInput onlyBlank) []).run = ⟨"", "", 0⟩ := by
  obtain ⟨script, hcompile⟩ := exists_eq_ok_of_isSome (x := compile onlyBlank) (by decide +kernel)
  have hlog : (compile onlyBlank).toOption.map (·.run.log.lines) = some #[""] := by
    decide +kernel
  rw [hcompile] at hlog
  exact ⟨script, hcompile, Option.some.inj hlog, by decide +kernel⟩

end Lipi.CommandLine
