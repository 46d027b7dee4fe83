/-
Running one row of commands after another.

A row stops at the first command that leaves a loop or goes on to its next pass. At the
top of a script there is no loop to leave, and no well-formed command there tries
(`Command.not_escapes_of_wellFormed`). A row of such commands is run to its end unless a
fault stops it, so a row that is followed by another runs as the one and then the other
(`Command.runAll_append`), and each of its commands is come to (`Command.runAll_comes_to`) and
run (`Command.runAll_cons_cases`).

For scripts this says that running two of them joined is running the one and then the
other in the same sandbox, as long as no fault ends the first (`Sandbox.run_append`). If
one does, what would have followed is not seen at all (`Sandbox.run_append_of_fault`).
-/
import Lipi.Proofs.Sandbox.Agreement
import Lipi.Proofs.Script.WellFormed

set_option autoImplicit false

namespace Lipi

open Procedure Activity

/-! ## Commands that stay -/

mutual

/-- Whether a command may leave a pass of a loop around it. -/
def Command.escapes : Command → Bool
  | .choice _ chain => chain.escapes
  | .breakLoop => true
  | .continueLoop => true
  | .loop _ _ _ => false
  | .declare _ _ _ _ => false
  | .assign _ _ _ => false
  | .capture _ _ => false
  | .eval _ _ => false
termination_by structural c => c

/-- Whether a block of a chain may leave a pass of a loop around it. -/
def CommandChain.escapes : CommandChain → Bool
  | .test _ body rest => Command.escapesInAll body || rest.escapes
  | .otherwise body => Command.escapesInAll body
  | .done => false
termination_by structural c => c

/-- Whether one of a row of commands may leave a pass of a loop around it. -/
def Command.escapesInAll : List Command → Bool
  | [] => false
  | c :: rest => c.escapes || Command.escapesInAll rest
termination_by structural cs => cs

end

theorem Command.escapesInAll_append {cs ds : List Command} :
    escapesInAll (cs ++ ds) = false ↔ escapesInAll cs = false ∧ escapesInAll ds = false := by
  induction cs with
  | nil => exact ⟨fun h => ⟨rfl, h⟩, fun h => h.2⟩
  | cons c cs ih =>
    rw [List.cons_append, escapesInAll, escapesInAll, Bool.or_eq_false_iff, Bool.or_eq_false_iff,
      ih, and_assoc]

theorem Activity.yields_inScope {α : Type} {p : α → Prop} {x : Activity α} (h : Yields p x) :
    Yields p (inScope x) :=
  fun s a ha => h s.enter a ha

mutual

/-- A command that stays in its pass is simply done when no fault ends it. -/
theorem Command.yields_done (c : Command) (h : c.escapes = false) : Yields (· = .done) c.run := by
  match c with
  | .declare place mutability name value =>
    refine (yields_any _).bind fun _ _ => ?_
    refine (yields_any _).bind fun _ _ => ?_
    exact (yields_any _).bind fun _ _ => yields_pure rfl
  | .assign place name value =>
    refine (yields_any _).bind fun _ _ => ?_
    refine (yields_any _).bind fun _ _ => ?_
    exact (yields_any _).bind fun _ _ => yields_pure rfl
  | .capture place arguments =>
    refine (yields_any _).bind fun _ _ => ?_
    refine (yields_any _).bind fun _ _ => ?_
    exact (yields_any _).bind fun _ _ => yields_pure rfl
  | .choice place chain =>
    exact (yields_any _).bind fun _ _ => chain.yields_done h
  | .loop control none body =>
    refine (yields_any _).bind fun _ _ => ?_
    exact (yields_any _).bind fun _ _ => yields_pure rfl
  | .loop control (some initial) body =>
    refine (yields_any _).bind fun _ _ => ?_
    exact (yields_any _).bind fun _ _ => yields_pure rfl
  | .eval place value =>
    refine (yields_any _).bind fun _ _ => ?_
    exact (yields_any _).bind fun _ _ => yields_pure rfl
termination_by structural c

/-- The same for a chain. -/
theorem CommandChain.yields_done (c : CommandChain) (h : c.escapes = false) :
    Yields (· = .done) c.run := by
  match c with
  | .test condition body rest =>
    obtain ⟨hbody, hrest⟩ := Bool.or_eq_false_iff.mp h
    refine (yields_any _).bind fun v _ => ?_
    by_cases hv : v.isTruthy = true
    · rw [if_pos hv]
      exact yields_inScope (Command.yields_done_all body hbody)
    · rw [if_neg hv]
      exact rest.yields_done hrest
  | .otherwise body => exact yields_inScope (Command.yields_done_all body h)
  | .done => exact yields_pure rfl
termination_by structural c

/-- The same for a row of commands. -/
theorem Command.yields_done_all (cs : List Command) (h : Command.escapesInAll cs = false) :
    Yields (· = .done) (Command.runAll cs) := by
  match cs with
  | [] => exact yields_pure rfl
  | c :: cs =>
    obtain ⟨hfirst, hrest⟩ := Bool.or_eq_false_iff.mp h
    refine (c.yields_done hfirst).bind fun flow hflow => ?_
    rw [hflow]
    exact Command.yields_done_all cs hrest
termination_by structural cs

end

mutual

/-- A well-formed command outside every loop has no loop to leave. -/
theorem Command.not_escapes_of_wellFormed (c : Command) (h : c.WellFormed 0) :
    c.escapes = false := by
  match c with
  | .choice _ chain => exact chain.not_escapes_of_wellFormed h
  | .breakLoop => exact absurd h (Nat.lt_irrefl 0)
  | .continueLoop => exact absurd h (Nat.lt_irrefl 0)
  | .loop _ _ _ => rfl
  | .declare _ _ _ _ => rfl
  | .assign _ _ _ => rfl
  | .capture _ _ => rfl
  | .eval _ _ => rfl
termination_by structural c

/-- The same for a chain. -/
theorem CommandChain.not_escapes_of_wellFormed (c : CommandChain) (h : c.WellFormed 0) :
    c.escapes = false := by
  match c with
  | .test _ body rest =>
    exact Bool.or_eq_false_iff.mpr
      ⟨Command.not_escapes_of_allWellFormed body h.2.1, rest.not_escapes_of_wellFormed h.2.2⟩
  | .otherwise body => exact Command.not_escapes_of_allWellFormed body h
  | .done => rfl
termination_by structural c

/-- The same for a row of commands. -/
theorem Command.not_escapes_of_allWellFormed (cs : List Command)
    (h : Command.AllWellFormed 0 cs) : Command.escapesInAll cs = false := by
  match cs with
  | [] => rfl
  | c :: cs =>
    exact Bool.or_eq_false_iff.mpr
      ⟨c.not_escapes_of_wellFormed h.1, Command.not_escapes_of_allWellFormed cs h.2⟩
termination_by structural cs

end

/-! ## Lowering -/

/-- A row that is followed by another is lowered as the one and then the other. -/
theorem Statement.lowerAll_append (loops : Nat) (ss ss' : List Statement) :
    Statement.lowerAll loops (ss ++ ss') = (do
      let cs ← Statement.lowerAll loops ss
      let ds ← Statement.lowerAll loops ss'
      return cs ++ ds) := by
  induction ss with
  | nil => simp only [List.nil_append, lowerAll, pure_bind, bind_pure]
  | cons s ss ih =>
    simp only [List.cons_append, lowerAll, ih, bind_assoc, pure_bind]

/-! ## Rows of commands -/

/-- **A row that is followed by another** runs as the one and then the other. -/
theorem Command.runAll_append {cs : List Command} (h : Command.escapesInAll cs = false)
    (ds : List Command) :
    Command.runAll (cs ++ ds) = (do
      let _ ← Command.runAll cs
      Command.runAll ds) := by
  induction cs with
  | nil => rfl
  | cons c cs ih =>
    obtain ⟨hfirst, hrest⟩ := Bool.or_eq_false_iff.mp h
    funext s
    rw [List.cons_append, runAll, runAll, ih hrest, bind_apply, bind_apply, bind_apply]
    -- The first command is simply done or ends in a fault, and nothing else stops a row.
    cases hs : c.run s with
    | mk outcome t =>
      cases outcome with
      | error fault => rfl
      | ok flow =>
        have hflow : flow = .done := c.yields_done hfirst s flow (congrArg Prod.fst hs)
        rw [hflow]
        exact bind_apply _ _ t

/-- **Each command of a row is come to**, unless a fault ends the row before it. -/
theorem Command.runAll_comes_to {before : List Command} (h : Command.escapesInAll before = false)
    (c : Command) (after : List Command) (s : Sandbox) :
    (∃ fault t, Command.runAll before s = (.error fault, t)
        ∧ Command.runAll (before ++ c :: after) s = (.error fault, t))
      ∨ ∃ t, Command.runAll before s = (.ok .done, t)
        ∧ Command.runAll (before ++ c :: after) s = Command.runAll (c :: after) t := by
  rw [runAll_append h, bind_apply]
  cases hs : Command.runAll before s with
  | mk outcome t =>
    cases outcome with
    | error fault => exact .inl ⟨fault, t, rfl, rfl⟩
    | ok flow =>
      obtain rfl : flow = .done := Command.yields_done_all before h s flow (congrArg Prod.fst hs)
      exact .inr ⟨t, rfl, rfl⟩

/-- A command that is come to is run, and those after it are, too, unless a fault ends it. -/
theorem Command.runAll_cons_cases {c : Command} (h : c.escapes = false) (after : List Command)
    (s : Sandbox) :
    (∃ fault t, c.run s = (.error fault, t) ∧ Command.runAll (c :: after) s = (.error fault, t))
      ∨ ∃ t, c.run s = (.ok .done, t)
        ∧ Command.runAll (c :: after) s = Command.runAll after t := by
  rw [runAll, bind_apply]
  cases hs : c.run s with
  | mk outcome t =>
    cases outcome with
    | error fault => exact .inl ⟨fault, t, rfl, rfl⟩
    | ok flow =>
      obtain rfl : flow = .done := c.yields_done h s flow (congrArg Prod.fst hs)
      exact .inr ⟨t, rfl, rfl⟩

/-! ## Scripts -/

namespace Sandbox

variable {s : Sandbox} {a b : Script}

/-- A row of commands does the same whatever the journal says of the run. -/
theorem agrees_executing (cs : List Command) {t : Sandbox}
    (h : Agrees (fun _ => True) #[] #[] s t) (n m : Nat) :
    Agree (fun a b => a.unnamed = b.unnamed) (fun a b => a = b)
        (Command.runAll cs (s.note (.executing n))).1 (Command.runAll cs (t.note (.executing m))).1
      ∧ Agrees (fun _ => True) #[] #[] (Command.runAll cs (s.note (.executing n))).2
        (Command.runAll cs (t.note (.executing m))).2 :=
  Command.same_runAll_of_bare rfl (fun _ _ => trivial) (fun _ _ => trivial) _ _ (h.note _ _)

/-- **Running two scripts joined** is running the one and then the other, if no fault ends
the first. -/
theorem run_append (h : Command.escapesInAll a.body = false) (hfault : s.fatalFault? a = none) :
    Agrees (fun _ => True) #[] #[] (s.run ⟨a.body ++ b.body⟩) ((s.run a).run b) := by
  obtain ⟨houtcome, hstate⟩ := agrees_executing a.body (.refl _ s)
    (a.body ++ b.body).length a.body.length
  rw [run_eq, run_eq b, run_eq a, Command.runAll_append h, bind_apply]
  unfold fatalFault? at hfault
  generalize Command.runAll a.body (s.note (.executing (a.body ++ b.body).length)) = x,
    Command.runAll a.body (s.note (.executing a.body.length)) = y at houtcome hstate hfault ⊢
  obtain ⟨outcome, t⟩ := x
  obtain ⟨outcome', t'⟩ := y
  cases houtcome with
  | error _ => cases hfault
  | ok _ =>
    -- Between the two, the session only adds an entry to the journal.
    have hsecond := Command.same_runAll_of_bare (rfl : Command.bareAll b.body = _)
      (fun _ _ => trivial) (fun _ _ => trivial) t (t'.note (.executing b.body.length))
      ⟨hstate.environment, hstate.log⟩
    exact agrees_closed hsecond.1 hsecond.2

/-- **A fault that ends the first of two scripts** ends both. -/
theorem run_append_of_fault (h : Command.escapesInAll a.body = false) {fault : Fault}
    (hfault : s.fatalFault? a = some fault) :
    Agrees (fun _ => True) #[] #[] (s.run ⟨a.body ++ b.body⟩) (s.run a) := by
  obtain ⟨houtcome, hstate⟩ := agrees_executing a.body (.refl _ s)
    (a.body ++ b.body).length a.body.length
  rw [run_eq, run_eq a, Command.runAll_append h, bind_apply]
  unfold fatalFault? at hfault
  generalize Command.runAll a.body (s.note (.executing (a.body ++ b.body).length)) = x,
    Command.runAll a.body (s.note (.executing a.body.length)) = y at houtcome hstate hfault ⊢
  obtain ⟨outcome, t⟩ := x
  obtain ⟨outcome', t'⟩ := y
  cases houtcome with
  | ok _ => cases hfault
  | error he => exact agrees_closed (.error he) hstate

end Sandbox

end Lipi
