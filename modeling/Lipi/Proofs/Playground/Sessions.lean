/-
What stays true while the playground is used.

A session opens the playground with a text or a sample, and then presses keys, loads samples
and draws with some toolkit, in any order. Whatever is done comes to one of four things
(`apply_cases`): the source is run, it is listed, a sample is loaded, or no text changes and
at most the two panes are scrolled, the focus moves, or the playground is told to quit. So
each invariant has four cases, and the first three set everything that it is about.

There are two of them. What is shown belongs to what is loaded (`Consistent`), so the pane
never shows the result of another program. The flag for a failure says whether a line of the
output looks like the report of one (`Flagged`): a run looks at the lines itself, an error that
is shown in place of a listing begins with such a line, and a listing has none.
-/
import Lipi.Playground.Drawing
import Lipi.Proofs.Compilation.Diagnostics
import Lipi.Proofs.Script.Lines

set_option autoImplicit false

namespace Lipi.Playground

open Text

/-! ## Sessions -/

/-- How the playground is opened. -/
inductive Opening where
  | source (label text : String)
  | sample (index : Nat)
deriving DecidableEq, Repr

/-- The playground as it is opened. -/
def Opening.playground : Opening → Playground
  | source label text => ofSource label text
  | sample index => ofSample index

/-- Something that is done to the playground. -/
inductive Step (Frame : Type) where
  | press (key : Key)
  | load (index : Nat)
  | draw (frame : Frame)
deriving DecidableEq, Repr

section Steps

variable {Frame : Type} (kit : Toolkit Frame)

/-- What a step makes of the playground. -/
def Step.apply (p : Playground) : Step Frame → Playground
  | press key => p.press key
  | load index => p.load index
  | draw frame => (p.render kit frame).1

/-- The playground after some steps. -/
def after (p : Playground) (steps : List (Step Frame)) : Playground :=
  steps.foldl (Step.apply kit) p

theorem after_append (p : Playground) (steps more : List (Step Frame)) :
    p.after kit (steps ++ more) = (p.after kit steps).after kit more :=
  List.foldl_append

/-- What every step keeps is kept by all of them. -/
theorem after_induction {P : Playground → Prop} (hstep : ∀ p s, P p → P (Step.apply kit p s))
    (steps : List (Step Frame)) {p : Playground} (hp : P p) : P (p.after kit steps) := by
  induction steps generalizing p with
  | nil => exact hp
  | cons s steps ih => exact ih (hstep p s hp)

end Steps

/-! ## What a step can do -/

/-- The texts, the flag and the sample are the same, and quitting has not been taken back. -/
structure Untouched (p q : Playground) : Prop where
  label : q.label = p.label
  source : q.source = p.source
  sample : q.sample = p.sample
  output : q.output = p.output
  view : q.view = p.view
  failed : q.failed = p.failed
  quitting : p.quitting = true → q.quitting = true

theorem Untouched.refl (p : Playground) : Untouched p p :=
  ⟨rfl, rfl, rfl, rfl, rfl, rfl, id⟩

theorem untouched_scroll (f : Nat → Nat) (p : Playground) : Untouched p (p.scroll f) := by
  unfold scroll
  cases p.focus <;> exact ⟨rfl, rfl, rfl, rfl, rfl, rfl, id⟩

/-- What a step comes to. -/
inductive Effect (p : Playground) : Playground → Prop where
  | run : Effect p p.run
  | list : Effect p p.list
  | load (index : Nat) : Effect p (p.load index)
  | untouched {q : Playground} (h : Untouched p q) : Effect p q

theorem effect_toggle (p : Playground) : Effect p p.toggle := by
  unfold toggle
  split
  · exact .run
  · exact .list

theorem effect_nextSample (p : Playground) : Effect p p.nextSample := by
  unfold nextSample
  split <;> exact .load _

theorem effect_previousSample (p : Playground) : Effect p p.previousSample := by
  unfold previousSample
  dsimp only
  split <;> exact .load _

theorem effect_press (key : Key) (p : Playground) : Effect p (p.press key) := by
  have hquit : Effect p { p with quitting := true } :=
    .untouched ⟨rfl, rfl, rfl, rfl, rfl, rfl, fun _ => rfl⟩
  have hfocus : Effect p { p with focus := p.focus.next } :=
    .untouched ⟨rfl, rfl, rfl, rfl, rfl, rfl, id⟩
  unfold press
  split
  · exact hquit
  · exact hquit
  · exact hquit
  · exact .run
  · exact effect_toggle p
  · exact effect_nextSample p
  · exact effect_previousSample p
  · exact hfocus
  · exact hfocus
  · exact .untouched (untouched_scroll _ p)
  · exact .untouched (untouched_scroll _ p)
  · exact .untouched (.refl p)
  · exact .untouched (.refl p)

/-- **Every step runs the source, lists it, loads a sample or touches no text.** -/
theorem effect_apply {Frame : Type} (kit : Toolkit Frame) (p : Playground) (s : Step Frame) :
    Effect p (Step.apply kit p s) := by
  cases s with
  | press key => exact effect_press key p
  | load index => exact .load index
  | draw frame => exact .untouched ⟨rfl, rfl, rfl, rfl, rfl, rfl, id⟩

/-- The state after loading a sample, which may not be there. -/
theorem load_cases (index : Nat) (p : Playground) :
    p.load index = p
      ∨ ∃ h : index < Sample.all.length, p.load index =
        { p with
          label := Sample.all[index].title
          source := Sample.all[index].source
          sample := some index
          output := ""
          view := .log
          sourceScroll := 0
          outputScroll := 0
          failed := false
          status := .loaded Sample.all[index].description } := by
  unfold load Sample.at?
  by_cases h : index < Sample.all.length
  · rw [List.getElem?_eq_getElem h]
    exact .inr ⟨h, rfl⟩
  · rw [List.getElem?_eq_none (Nat.le_of_not_lt h)]
    exact .inl rfl

/-! ## What is shown belongs to what is loaded -/

/-- What the output pane shows of a source that is listed. -/
def listingText (source : String) : String :=
  match compile source with
  | .ok script => script.listing
  | .error e => e.diagnostics

/-- The sample is one of the samples and is what is loaded; a listing is that of the source, and
a log is its log unless there is none. -/
structure Consistent (p : Playground) : Prop where
  sample : ∀ index, p.sample = some index → ∃ h : index < Sample.all.length,
    p.label = Sample.all[index].title ∧ p.source = Sample.all[index].source
  listing : p.view = .listing → p.output = listingText p.source
  log : p.view = .log → p.output = "" ∨ p.output = runSource p.source

theorem Untouched.consistent {p q : Playground} (h : Untouched p q) (hp : p.Consistent) :
    q.Consistent where
  sample index := by
    rw [h.sample, h.label, h.source]
    exact hp.sample index
  listing := by
    rw [h.view, h.output, h.source]
    exact hp.listing
  log := by
    rw [h.view, h.output, h.source]
    exact hp.log

theorem consistent_run {p : Playground} (hp : p.Consistent) : p.run.Consistent where
  sample := hp.sample
  listing := nofun
  log _ := .inr rfl

theorem consistent_list {p : Playground} (hp : p.Consistent) : p.list.Consistent := by
  unfold list
  cases hcompile : compile p.source with
  | ok script =>
    refine ⟨hp.sample, fun _ => ?_, nofun⟩
    simp only [listingText, hcompile]
  | error e =>
    refine ⟨hp.sample, fun _ => ?_, nofun⟩
    simp only [listingText, hcompile]

theorem consistent_load (index : Nat) {p : Playground} (hp : p.Consistent) :
    (p.load index).Consistent := by
  rcases load_cases index p with hsame | ⟨h, hload⟩
  · rwa [hsame]
  · rw [hload]
    refine ⟨?_, nofun, fun _ => .inl rfl⟩
    rintro _ ⟨⟩
    exact ⟨h, rfl, rfl⟩

theorem Effect.consistent {p q : Playground} (h : Effect p q) (hp : p.Consistent) :
    q.Consistent := by
  cases h with
  | run => exact consistent_run hp
  | list => exact consistent_list hp
  | load index => exact consistent_load index hp
  | untouched h => exact h.consistent hp

theorem consistent_ofSource (label source : String) : (ofSource label source).Consistent :=
  ⟨nofun, nofun, fun _ => .inl rfl⟩

theorem Opening.consistent (o : Opening) : o.playground.Consistent := by
  cases o with
  | source label text => exact consistent_ofSource label text
  | sample index => exact consistent_load index (consistent_ofSource "" "")

theorem Effect.quitting {p q : Playground} (h : Effect p q) (hp : p.quitting = true) :
    q.quitting = true := by
  cases h with
  | run => exact hp
  | list =>
    unfold Playground.list
    split <;> exact hp
  | load index =>
    rcases load_cases index p with hsame | ⟨_, hload⟩
    · rwa [hsame]
    · rwa [hload]
  | untouched h => exact h.quitting hp

/-- **The playground never shows the result of another program.** However it is opened,
whatever it is drawn with and whatever is done then, in any order: a sample that is said to
be loaded is one of the samples, and its title and source are the ones there are; the listing
is that of the source, or says why there is none; the log is empty or that of the source; and
once told to quit it stays told. -/
theorem consistent_after {Frame : Type} (kit : Toolkit Frame) (o : Opening)
    (steps : List (Step Frame)) :
    (o.playground.after kit steps).Consistent
      ∧ ∀ more, (o.playground.after kit steps).quitting = true →
          (o.playground.after kit (steps ++ more)).quitting = true := by
  refine ⟨?_, fun more hquitting => ?_⟩
  · exact after_induction kit (fun p s => (effect_apply kit p s).consistent) steps o.consistent
  · rw [after_append]
    exact after_induction (P := fun p => p.quitting = true) kit
      (fun p s => (effect_apply kit p s).quitting) more hquitting

/-! ## The flag and the red lines -/

/-- The flag says whether a line of the output is a report. -/
def Flagged (p : Playground) : Prop := p.failed = (lines p.output).any isComplaint

/-- Reports have a colour of their own. -/
theorem colour_lineRole_eq_iff (line : List Char) :
    (lineRole line).style.colour = Role.complaint.style.colour ↔ isComplaint line = true := by
  unfold lineRole
  split
  · next h => simp [h]
  · next h => exact iff_of_false (by decide) h

/-- A text that opens like a report has a line that is one. The opening ends in a colon, so the
first line has all of it, however it ends. -/
theorem any_isComplaint_of_opening {words : String} (hmem : words ∈ complaintOpenings)
    {text : String} (h : words.toList <+: text.toList) :
    (lines text).any isComplaint = true := by
  have hopening : ∀ words ∈ complaintOpenings,
      words.toList.dropLast ++ [':'] = words.toList ∧ '\n' ∉ words.toList := by decide
  obtain ⟨hlast, hfeed⟩ := hopening words hmem
  rw [← hlast] at hfeed h
  obtain ⟨line, hline, hbegins⟩ := exists_mem_lines_of_prefix hfeed (by decide) h
  rw [hlast] at hbegins
  exact List.any_eq_true.mpr ⟨line, hline,
    List.any_eq_true.mpr ⟨words, hmem, List.isPrefixOf_iff_prefix.mpr hbegins⟩⟩

/-- What is said of a source that does not compile begins with a report. -/
theorem any_isComplaint_diagnostics (e : CompileError) :
    (lines e.diagnostics).any isComplaint = true := by
  have hopening : ∃ words ∈ complaintOpenings, words.toList <+: e.heading.toList := by
    cases e with
    | ofLex e =>
      have hopens : "Tokenization Error:".toList <+: "Tokenization Error: ".toList := by decide
      exact ⟨"Tokenization Error:", by decide, hopens⟩
    | ofSyntax e =>
      have hopens : "Parse Error:".toList <+: "Parse Error: ".toList := by decide
      exact ⟨"Parse Error:", by decide, hopens⟩
  obtain ⟨words, hmem, hopens⟩ := hopening
  refine any_isComplaint_of_opening hmem ?_
  rw [e.diagnostics_eq]
  simp only [String.toList_append, List.append_assoc]
  exact hopens.trans (List.prefix_append _ _)

theorem any_isComplaint_listing {source : String} {script : Script}
    (h : compile source = .ok script) : (lines script.listing).any isComplaint = false :=
  List.any_eq_false.mpr fun line hline =>
    Bool.eq_false_iff.mp (isComplaint_of_mem_lines h line hline)

theorem flagged_list (p : Playground) : p.list.Flagged := by
  unfold list
  cases hcompile : compile p.source with
  | ok script => exact (any_isComplaint_listing hcompile).symm
  | error e => exact (any_isComplaint_diagnostics e).symm

theorem flagged_load (index : Nat) {p : Playground} (hp : p.Flagged) : (p.load index).Flagged := by
  rcases load_cases index p with hsame | ⟨_, hload⟩
  · rwa [hsame]
  · rw [hload]
    rfl

theorem flagged_run (p : Playground) : p.run.Flagged := by
  unfold run Flagged
  rw [isFailure_eq]

theorem Effect.flagged {p q : Playground} (h : Effect p q) (hp : p.Flagged) : q.Flagged := by
  cases h with
  | run => exact flagged_run p
  | list => exact flagged_list p
  | load index => exact flagged_load index hp
  | untouched h =>
    -- Neither the flag nor the output has changed.
    unfold Flagged
    rw [h.failed, h.output]
    exact hp

theorem Opening.flagged (o : Opening) : o.playground.Flagged := by
  cases o with
  | source label text => rfl
  | sample index => exact flagged_load index rfl

/-- **The flag for a failure and the red lines agree.** However the playground is opened,
whatever it is drawn with and whatever is done then, the flag is set if and only if some line
of the output is drawn in the colour of a report. In particular no line of a listing is,
whatever source was compiled. -/
theorem failed_after_iff {Frame : Type} (kit : Toolkit Frame) (o : Opening)
    (steps : List (Step Frame)) :
    ((o.playground.after kit steps).failed = true
        ↔ ∃ line ∈ lines (o.playground.after kit steps).output,
          (lineRole line).style.colour = Role.complaint.style.colour)
      ∧ ∀ source script, compile source = .ok script →
          ∀ line ∈ lines script.listing,
            (lineRole line).style.colour ≠ Role.complaint.style.colour := by
  constructor
  · -- The invariant compares lines with the openings of reports; their colour says the same.
    have hflagged : (o.playground.after kit steps).Flagged :=
      after_induction kit (fun p s => (effect_apply kit p s).flagged) steps o.flagged
    rw [hflagged, List.any_eq_true]
    simp only [colour_lineRole_eq_iff]
  · intro source script h line hline
    rw [Ne, colour_lineRole_eq_iff, isComplaint_of_mem_lines h line hline]
    exact Bool.false_ne_true

end Lipi.Playground
