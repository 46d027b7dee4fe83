/-
What can reach the log.

A run prints lines, ends in some way and leaves an environment. None of these depends on
the names of guards, on what loops were written as or on places, although faults carry the
first and commands write the last into the sandbox; and none depends on what stands in the
environment under names that do not occur in the script. This is a statement about two
runs, of scripts that differ in the former, in sandboxes that differ in the latter
(`Sandbox.noninterference`).

Scripts that differ so are those of one bare form (`Command.bareAll`), and they have the
same names (`Command.namesOfAll_bare`), for a bare form keeps every expression. A command is
like its bare form, so the two runs are compared through a third.
-/
import Lipi.Proofs.Sandbox.Agreement

set_option autoImplicit false

namespace Lipi

/-! ## The names of a bare form -/

mutual

/-- What a bare form lacks has no names in it. -/
theorem Command.names_bare (c : Command) : c.bare.names = c.names := by
  match c with
  | .declare place mutability name value => rfl
  | .assign place name value => rfl
  | .capture place arguments => rfl
  | .choice place chain => exact chain.names_bare
  | .loop control none body =>
    have hbody := Command.namesOfAll_bare body
    show control.names ++ Command.namesOfAll (Command.bareAll body)
      = control.names ++ Command.namesOfAll body
    rw [hbody]
  | .loop control (some initial) body =>
    have hinitial := initial.names_bare
    have hbody := Command.namesOfAll_bare body
    show control.names ++ (initial.bare.names ++ Command.namesOfAll (Command.bareAll body))
      = control.names ++ (initial.names ++ Command.namesOfAll body)
    rw [hinitial, hbody]
  | .breakLoop => rfl
  | .continueLoop => rfl
  | .eval place value => rfl
termination_by structural c

/-- The same for a chain. -/
theorem CommandChain.names_bare (c : CommandChain) : c.bare.names = c.names := by
  match c with
  | .test condition body rest =>
    have hbody := Command.namesOfAll_bare body
    have hrest := rest.names_bare
    show condition.names ++ (Command.namesOfAll (Command.bareAll body) ++ rest.bare.names)
      = condition.names ++ (Command.namesOfAll body ++ rest.names)
    rw [hbody, hrest]
  | .otherwise body => exact Command.namesOfAll_bare body
  | .done => rfl
termination_by structural c

/-- The same for a row of commands. -/
theorem Command.namesOfAll_bare (cs : List Command) :
    Command.namesOfAll (Command.bareAll cs) = Command.namesOfAll cs := by
  match cs with
  | [] => rfl
  | c :: cs =>
    have hfirst := c.names_bare
    have hrest := Command.namesOfAll_bare cs
    show c.bare.names ++ Command.namesOfAll (Command.bareAll cs)
      = c.names ++ Command.namesOfAll cs
    rw [hfirst, hrest]
termination_by structural cs

end

/-- Rows of commands of one bare form have the same names. -/
theorem Command.namesOfAll_eq_of_bare {cs ds : List Command} (h : bareAll cs = bareAll ds) :
    namesOfAll cs = namesOfAll ds := by
  rw [← namesOfAll_bare cs, h, namesOfAll_bare ds]

/-! ## Two runs -/

namespace Sandbox

/-- **What a run depends on.** Let two scripts differ in the names of guards, the forms of
loops and places, and nothing else, and let two sandboxes have as many scopes as each other
and in every scope the same under the names of the scripts. Then both runs print the same
lines and end in the same way, in the same fault but for the name of a guard if in one, and
what they leave is the same under these names in every scope. -/
theorem noninterference {a b : Script} {s t : Sandbox}
    (hbare : Command.bareAll a.body = Command.bareAll b.body)
    (hst : s.environment.Agrees (fun name => name ∈ Command.namesOfAll a.body) t.environment) :
    Agree (fun f g => f.unnamed = g.unnamed) (fun x y => x = y) (s.outcome a) (t.outcome b)
      ∧ (∃ lines, (s.run a).log.lines = s.log.lines ++ lines
          ∧ (t.run b).log.lines = t.log.lines ++ lines)
      ∧ (s.run a).environment.Agrees (fun name => name ∈ Command.namesOfAll a.body)
          (t.run b).environment := by
  have hnames : ∀ name ∈ Command.namesOfAll b.body, name ∈ Command.namesOfAll a.body := by
    rw [Command.namesOfAll_eq_of_bare hbare]
    exact fun _ hname => hname
  -- Neither run has printed anything yet, whatever the two logs hold.
  have hstart : Agrees (fun name => name ∈ Command.namesOfAll a.body) s.log.lines t.log.lines s t :=
    ⟨hst, #[], Array.append_empty.symm, Array.append_empty.symm⟩
  have houtcome := (Command.same_runAll_of_bare hbare (fun _ hname => hname) hnames _ _
    (hstart.note (.executing a.body.length) (.executing b.body.length))).1
  have hend := agrees_run hbare (fun _ hname => hname) hnames hstart
  exact ⟨houtcome, hend.log, hend.environment⟩

/-- A sandbox with one scope, after some lines. -/
def holding (scope : Scope) (lines : Array String) : Sandbox :=
  ⟨⟨scope, []⟩, ⟨lines⟩, .nowhere, #[]⟩

end Sandbox

/-- A loop without end that prints what `n` stands for. -/
def Script.endless (place : Location) (form : LoopForm) (guard : Guard) : Script :=
  ⟨[.loop ⟨place, form, guard, none, none⟩ none [.capture place [.var "n"]]]⟩

/-- The loop passes its limit in both of two sandboxes, although it is written in another
way, under another guard, in the second, which has a name more and a line in its log. -/
theorem Sandbox.noninterference_endless :
    ∃ lines,
      ((holding [("n", ⟨.text "one", .mutable⟩)] #[]).run
          (.endless .start .onCondition ⟨"g", 2⟩)).log.lines = #[] ++ lines
        ∧ ((holding [("m", ⟨.null, .constant⟩), ("n", ⟨.text "one", .mutable⟩)] #["before"]).run
          (.endless .nowhere .counting ⟨"h", 2⟩)).log.lines = #["before"] ++ lines := by
  have hsame := noninterference (a := .endless .start .onCondition ⟨"g", 2⟩)
    (b := .endless .nowhere .counting ⟨"h", 2⟩)
    (s := holding [("n", ⟨.text "one", .mutable⟩)] #[])
    (t := holding [("m", ⟨.null, .constant⟩), ("n", ⟨.text "one", .mutable⟩)] #["before"])
    rfl ⟨rfl, ?_⟩
  · exact hsame.2.1
  · intro name hname
    have hn : name = "n" := List.mem_singleton.mp hname
    rw [hn]
    rfl

end Lipi
