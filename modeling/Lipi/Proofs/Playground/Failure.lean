/-
What the flag for a failure says of a run.

The playground is handed the log of a run as one text, and it takes a run for a failure if a
line of that text looks like the report of one. What went wrong in a run is in its records
(`GoesWrong`). No failure is missed: what is recorded of a fault begins like a report, and so
does what is said of a source that does not compile; and where the lines of a log are put
together none of them is hidden, for a line feed stands before each and a carriage return takes
nothing off the front of one. But a print can show such a line as well (`Imitates`), and nothing
else can. So the flag is set where something goes wrong or a print imitates it
(`failed_run_iff`).
-/
import Lipi.Proofs.Playground.Sessions
import Lipi.Proofs.Sandbox.Records
import Lipi.Proofs.Text.Joined

set_option autoImplicit false

namespace Lipi

open Text

namespace Playground

/-! ## The lines of a log -/

/-- The opening of a report does not reach over a carriage return at the end of a line. -/
theorem blindToEnd_isComplaint : BlindToEnd isComplaint where
  nil := by decide
  carriageReturn line := by
    have hopening : ∀ words ∈ complaintOpenings, '\r' ∉ words.toList := by decide
    rw [Bool.eq_iff_iff]
    constructor
    · intro h
      obtain ⟨words, hmem, hbegins⟩ := List.any_eq_true.mp h
      rcases List.prefix_concat_iff.mp (List.isPrefixOf_iff_prefix.mp hbegins) with heq | hbegins
      · have hreturn : '\r' ∈ words.toList := heq ▸ List.mem_append_right line List.mem_cons_self
        exact absurd hreturn (hopening words hmem)
      · exact List.any_eq_true.mpr ⟨words, hmem, List.isPrefixOf_iff_prefix.mpr hbegins⟩
    · exact isComplaint_of_prefix (List.prefix_append line ['\r'])

/-- **A log has a report in it if one of its lines has.** -/
theorem any_isComplaint_text (log : OutputLog) :
    (lines log.text).any isComplaint
      = log.lines.toList.any fun line => (lines line).any isComplaint :=
  blindToEnd_isComplaint.any_lines_intercalate log.lines.toList

/-- A fault is recorded with a report. -/
theorem any_isComplaint_of_fault {r : Record} {fault : Fault} (h : r.fault? = some fault) :
    (lines r.line).any isComplaint = true := by
  cases r with
  | shown values => cases h
  | recovered fault =>
    have hmem : "Error:" ∈ complaintOpenings := by decide
    have hopens : "Error:".toList <+: "Error: ".toList := by decide
    refine any_isComplaint_of_opening hmem ?_
    rw [Record.line, Fault.recoveredLine, String.toList_append]
    exact hopens.trans (List.prefix_append _ _)
  | fatal fault =>
    have hmem : "Execution Error:" ∈ complaintOpenings := by decide
    have hopens : "Execution Error:".toList <+: "Execution Error: ".toList := by decide
    refine any_isComplaint_of_opening hmem ?_
    rw [Record.line_fatal, String.toList_append]
    exact hopens.trans (List.prefix_append _ _)

/-- The reports in the log of a script are in the lines of its records. -/
theorem any_isComplaint_run {script : Script} {records : List Record}
    (h : Sandbox.fresh.Records script records) :
    (lines script.run.log.text).any isComplaint
      = records.any fun r => (lines r.line).any isComplaint := by
  have hfresh : Sandbox.fresh.log.lines = #[] := rfl
  rw [any_isComplaint_text, Script.run, h.lines, hfresh, Array.empty_append, List.any_map]
  rfl

/-! ## The flag -/

/-- Something goes wrong: the source does not compile, or its run records a fault. -/
def GoesWrong (source : String) : Prop :=
  (∃ e, compile source = .error e)
    ∨ ∃ script records, compile source = .ok script ∧ Sandbox.fresh.Records script records
      ∧ ∃ r ∈ records, ∃ fault, r.fault? = some fault

/-- A print shows a line that looks like the report of a failure. -/
def Imitates (source : String) : Prop :=
  ∃ script records, compile source = .ok script ∧ Sandbox.fresh.Records script records
    ∧ ∃ values, .shown values ∈ records
      ∧ ∃ line ∈ lines (OutputLog.captureLine (.ok values)), isComplaint line = true

/-- **The flag is set after a run if and only if something has gone wrong in it or a print has
imitated that.** -/
theorem failed_run_iff (p : Playground) :
    p.run.failed = true ↔ GoesWrong p.source ∨ Imitates p.source := by
  have hflag : p.run.failed = (lines (runSource p.source)).any isComplaint := flagged_run p
  rw [hflag, runSource_eq]
  unfold GoesWrong Imitates
  cases hcompile : compile p.source with
  | error e => exact iff_of_true (any_isComplaint_diagnostics e) (.inl (.inl ⟨e, rfl⟩))
  | ok script =>
    obtain ⟨records, hrecords, hunique⟩ := Sandbox.existsUnique_records script .fresh
    dsimp only
    rw [any_isComplaint_run hrecords, List.any_eq_true]
    constructor
    · rintro ⟨r, hr, hreport⟩
      cases hfault : r.fault? with
      | some fault => exact .inl (.inr ⟨script, records, rfl, hrecords, r, hr, fault, hfault⟩)
      | none =>
        cases r with
        | shown values =>
          obtain ⟨line, hline, hbegins⟩ := List.any_eq_true.mp hreport
          exact .inr ⟨script, records, rfl, hrecords, values, hr, line, hline, hbegins⟩
        | _ => cases hfault
    · -- There are no other records than these.
      rintro ((⟨e, h⟩ | ⟨_, _, ⟨⟩, h, r, hr, fault, hfault⟩)
        | ⟨_, _, ⟨⟩, h, values, hr, line, hline, hbegins⟩)
      · cases h
      · exact ⟨r, hunique _ h ▸ hr, any_isComplaint_of_fault hfault⟩
      · exact ⟨.shown values, hunique _ h ▸ hr, List.any_eq_true.mpr ⟨line, hline, hbegins⟩⟩

/-- The words for a fault are more than one. -/
theorem blank_mem_message (fault : Fault) : ' ' ∈ fault.message.toList := by
  cases fault with
  | undefined name =>
    have hmem : ' ' ∈ " is not defined".toList := by decide
    show ' ' ∈ (name ++ " is not defined").toList
    rw [String.toList_append]
    exact List.mem_append_right name.toList hmem
  | redeclared name =>
    have hmem : ' ' ∈ "' has already been declared".toList := by decide
    show ' ' ∈ ("Identifier '" ++ name ++ "' has already been declared").toList
    rw [String.toList_append]
    exact List.mem_append_right _ hmem
  | constant name =>
    show ' ' ∈ "Assignment to constant variable.".toList
    decide
  | iterationLimit guard limit =>
    have hmem : ' ' ∈ " iterations".toList := by decide
    show ' ' ∈ ("Loop iteration limit exceeded: more than " ++ toString limit
      ++ " iterations").toList
    rw [String.toList_append]
    exact List.mem_append_right _ hmem

/-- So an opening with one word behind it looks like a report, and is none. -/
theorem line_ne_of_fault {r : Record} {fault : Fault} (h : r.fault? = some fault) :
    r.line ≠ "Error: none" := by
  cases r with
  | shown values => cases h
  | recovered fault =>
    have hword : ' ' ∉ "none".toList := by decide
    have hsplit : "Error: none" = "Error: " ++ "none" := by decide +kernel
    intro hline
    rw [Record.line, Fault.recoveredLine, hsplit, String.append_right_inj] at hline
    exact hword (hline ▸ blank_mem_message fault)
  | fatal fault =>
    have hopening : 'x' ∈ "Execution Error: ".toList := by decide
    have hletter : 'x' ∉ "Error: none".toList := by decide
    intro hline
    rw [← hline, Record.line_fatal, String.toList_append] at hletter
    exact hletter (List.mem_append_left _ hopening)

/-- A program that prints what looks like the report of a failure. -/
def falseAlarm : String := "arambha systummm prakashit_kar(\"Error: none\"); bihari_sramik"

/-- **The flag can be set though nothing has gone wrong**: the source compiles, and no fault
comes up in its run. -/
theorem failed_run_falseAlarm :
    (ofSource "" falseAlarm).run.failed = true ∧ ¬ GoesWrong falseAlarm := by
  obtain ⟨script, hcompile⟩ := exists_eq_ok_of_isSome (x := compile falseAlarm) (by decide +kernel)
  have hlog : (compile falseAlarm).toOption.map (·.run.log.lines) = some #["Error: none"] := by
    decide +kernel
  rw [hcompile] at hlog
  refine ⟨by decide +kernel, ?_⟩
  rintro (⟨e, h⟩ | ⟨_, records, h, hrecords, r, hr, fault, hfault⟩)
  · rw [hcompile] at h
    cases h
  · rw [hcompile] at h
    cases h
    have hlines : #["Error: none"] = (records.map Record.line).toArray :=
      (Option.some.inj hlog).symm.trans (hrecords.lines.trans Array.empty_append)
    have hmem : r.line ∈ (#["Error: none"] : Array String) := by
      rw [hlines]
      exact List.mem_toArray.mpr (List.mem_map_of_mem hr)
    exact line_ne_of_fault hfault (Array.mem_singleton.mp hmem)

end Playground

end Lipi
