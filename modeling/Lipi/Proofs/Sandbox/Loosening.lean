/-
What limits do to a run.

A limit is there for loops that would run forever, and a run in which no loop exceeds its
limit is not to be told from one under higher limits (`Sandbox.run_loosened`). A run in
which one does is cut short: under higher limits the same lines are printed up to that
point, and perhaps more after it.

This compares two executions of scripts that are the same but for limits, each loop's in
the second no lower than in the first (`Command.Loosened`). Until the first exceeds a limit
both do exactly the same, so the relation between activities is nearly equality: from the
same sandbox the two come to the same end, or the first ends over a limit with a log that
the second only adds to (`Activity.Outlasts`). It goes through sequences because whatever
runs after the cut can only add lines (`Command.prints_run`).

The counter of a loop begins anew each time the loop is entered. The induction for its
passes is on how many may still begin in the first, where as many or more may in the second.
-/
import Lipi.Proofs.Sandbox.Agreement
import Lipi.Proofs.Sandbox.Output

set_option autoImplicit false

namespace Lipi

open Procedure

/-! ## Scripts under higher limits -/

/-- A loop's control with another limit. -/
def LoopControl.withLimit (control : LoopControl) (limit : Nat) : LoopControl :=
  { control with guard := { control.guard with limit } }

mutual

/-- A command and the same command, but that limits of its loops may be higher. -/
inductive Command.Loosened : Command → Command → Prop where
  | same (c : Command) : Command.Loosened c c
  | choice (place : Location) {chain chain' : CommandChain} (h : CommandChain.Loosened chain chain') :
    Command.Loosened (.choice place chain) (.choice place chain')
  | loop {control : LoopControl} {limit : Nat} {body body' : List Command}
    (hlimit : control.guard.limit ≤ limit) (hbody : Command.LoosenedAll body body') :
    Command.Loosened (.loop control none body) (.loop (control.withLimit limit) none body')
  | loopFrom {control : LoopControl} {limit : Nat} {initial initial' : Command}
    {body body' : List Command} (hlimit : control.guard.limit ≤ limit)
    (hinitial : Command.Loosened initial initial') (hbody : Command.LoosenedAll body body') :
    Command.Loosened (.loop control (some initial) body)
      (.loop (control.withLimit limit) (some initial') body')

/-- The same for chains. -/
inductive CommandChain.Loosened : CommandChain → CommandChain → Prop where
  | test (condition : Expr) {body body' : List Command} {rest rest' : CommandChain}
    (hbody : Command.LoosenedAll body body') (hrest : CommandChain.Loosened rest rest') :
    CommandChain.Loosened (.test condition body rest) (.test condition body' rest')
  | otherwise {body body' : List Command} (hbody : Command.LoosenedAll body body') :
    CommandChain.Loosened (.otherwise body) (.otherwise body')
  | done : CommandChain.Loosened .done .done

/-- The same for rows of commands. -/
inductive Command.LoosenedAll : List Command → List Command → Prop where
  | nil : Command.LoosenedAll [] []
  | cons {c d : Command} {cs ds : List Command} (hfirst : Command.Loosened c d)
    (hrest : Command.LoosenedAll cs ds) : Command.LoosenedAll (c :: cs) (d :: ds)

end

/-! ## Activities -/

namespace Activity

variable {α β : Type} {n : Nat}

/-- The second of two activities does what the first does, unless the first ends over a
limit. Then all that the first has printed is there after the second as well. -/
def Outlasts (x y : Activity α) : Prop :=
  ∀ s, y s = x s
    ∨ ∃ guard limit t, x s = (.error (.iterationLimit guard limit), t)
      ∧ ∃ n, t.Prints n (y s).2

theorem outlasts_refl (x : Activity α) : Outlasts x x := fun _ => .inl rfl

/-- Over a limit at once: whatever the second does, it begins where the first stands. -/
theorem outlasts_throw {guard : String} {limit : Nat} {y : Activity α} (hy : Prints n y) :
    Outlasts (throw (.iterationLimit guard limit)) y :=
  fun s => .inr ⟨guard, limit, s, rfl, n, hy s⟩

/-- Going on from the same beginning. -/
theorem Outlasts.after (x : Activity α) {f g : α → Activity β}
    (hf : ∀ a, Outlasts (f a) (g a)) : Outlasts (x >>= f) (x >>= g) := by
  intro s
  rw [bind_apply, bind_apply]
  cases x s with
  | mk outcome t =>
    cases outcome with
    | error fault => exact .inl rfl
    | ok a => exact hf a t

/-- Going on from a beginning that may have been cut short. What the second then does
beyond the cut leaves the lines before it. -/
theorem Outlasts.bind {x y : Activity α} {f g : α → Activity β} (hx : Outlasts x y)
    (hf : ∀ a, Outlasts (f a) (g a)) (hg : ∀ a, Prints n (g a)) :
    Outlasts (x >>= f) (y >>= g) := by
  intro s
  rcases hx s with hsame | ⟨guard, limit, t, hcut, m, hmore⟩
  · rw [bind_apply, hsame, ← bind_apply]
    exact Outlasts.after x hf s
  · right
    refine ⟨guard, limit, t, ?_, ?_⟩
    · rw [bind_apply, hcut]
    · rw [bind_apply]
      cases hs : y s with
      | mk outcome u =>
        rw [hs] at hmore
        cases outcome with
        | error fault => exact ⟨m, hmore⟩
        | ok a => exact ⟨m + n, hmore.trans (hg a u)⟩

/-- Going on in the same way, without a line. -/
theorem Outlasts.before {x y : Activity α} {f : α → Activity β} (hx : Outlasts x y)
    (hf : ∀ a, Prints 0 (f a)) : Outlasts (x >>= f) (y >>= f) :=
  hx.bind (fun a => outlasts_refl (f a)) hf

theorem outlasts_inScope {x y : Activity α} (h : Outlasts x y) :
    Outlasts (inScope x) (inScope y) := by
  intro s
  rcases h s.enter with hsame | ⟨guard, limit, t, hcut, n, hmore⟩
  · left
    show ((y s.enter).1, (y s.enter).2.leave) = ((x s.enter).1, (x s.enter).2.leave)
    rw [hsame]
  · right
    refine ⟨guard, limit, t.leave, ?_, n, hmore⟩
    show ((x s.enter).1, (x s.enter).2.leave) = _
    rw [hcut]

end Activity

open Activity

/-! ## Loops -/

namespace LoopControl

variable {n m limit : Nat} {control : LoopControl} {body body' : Activity Flow}

/-- The condition of a loop knows nothing of the limit. -/
theorem holds_withLimit : (control.withLimit limit).holds = control.holds := rfl

/-- The passes of a loop, by induction on how many may still begin in the first. -/
theorem outlasts_passes (hbody : Outlasts body body') (hprints : Activity.Prints n body')
    {left left' : Nat} (hleft : left ≤ left') (made : Nat) :
    Outlasts (control.passes body left made)
      ((control.withLimit limit).passes body' left' made) := by
  induction left generalizing left' made with
  | zero =>
    rw [passes_eq, passes_eq, holds_withLimit]
    refine Outlasts.after _ fun goesOn => ?_
    cases goesOn with
    | false => exact outlasts_refl _
    | true => exact outlasts_throw (prints_pass _ hprints left' made)
  | succ left ih =>
    obtain ⟨fewer, rfl⟩ := Nat.exists_eq_add_of_le' (Nat.le_trans (Nat.le_add_left 1 left) hleft)
    rw [passes_eq, passes_eq, holds_withLimit]
    refine Outlasts.after _ fun goesOn => ?_
    cases goesOn with
    | false => exact outlasts_refl _
    | true =>
      have hnext : Outlasts (control.advance >>= fun _ => control.passes body left (made + 1))
          (control.advance >>= fun _ =>
            (control.withLimit limit).passes body' fewer (made + 1)) :=
        Outlasts.after _ fun _ => ih (Nat.le_of_succ_le_succ hleft) (made + 1)
      have hprinted := (prints_advance control).after fun _ =>
        prints_passes (control.withLimit limit) hprints fewer (made + 1)
      refine (outlasts_inScope hbody).bind (n := fewer * n) (fun flow => ?_) (fun flow => ?_)
      · cases flow with
        | leaveLoop => exact outlasts_refl _
        | done => exact hnext
        | nextPass => exact hnext
      · cases flow with
        | leaveLoop => exact (prints_pure _).mono (Nat.zero_le _)
        | done => exact hprinted
        | nextPass => exact hprinted

/-- A loop under another limit, which also opens with something longer. -/
theorem outlasts_run (hlimit : control.guard.limit ≤ limit) {initial initial' : Activity Unit}
    (hinitial : Outlasts initial initial') (hbody : Outlasts body body')
    (hprints : Activity.Prints n body') :
    Outlasts (control.run initial body) ((control.withLimit limit).run initial' body') := by
  refine outlasts_inScope (hinitial.bind (n := limit * n) (fun _ => ?_) fun _ => ?_)
  · refine Outlasts.after _ fun _ => ?_
    exact (outlasts_passes hbody hprints hlimit 0).before fun _ => prints_note _
  · refine (prints_note _).after fun _ => ?_
    exact (prints_passes _ hprints limit 0).before fun _ => prints_note _

end LoopControl

/-! ## Commands -/

mutual

/-- **A command under higher limits** does what it does under lower ones, as long as these
allow it. -/
theorem Command.Loosened.outlasts {c d : Command} (h : c.Loosened d) : Outlasts c.run d.run := by
  match c, h with
  | c, .same _ => exact outlasts_refl _
  | .choice place chain, .choice _ hchain =>
    exact Outlasts.after _ fun _ => hchain.outlasts
  | .loop control none body, .loop hlimit hbody =>
    have hpass := hbody.outlasts
    have hloop := LoopControl.outlasts_run hlimit (outlasts_refl (pure ())) hpass
      (Command.prints_runAll _)
    exact Outlasts.after _ fun _ => hloop.before fun _ => prints_pure _
  | .loop control (some initial) body, .loopFrom hlimit hinitial hbody =>
    have hopening := hinitial.outlasts.before fun _ => prints_pure ()
    have hpass := hbody.outlasts
    have hloop := LoopControl.outlasts_run hlimit hopening hpass (Command.prints_runAll _)
    exact Outlasts.after _ fun _ => hloop.before fun _ => prints_pure _
termination_by structural c

/-- The same for a chain. -/
theorem CommandChain.Loosened.outlasts {c d : CommandChain} (h : c.Loosened d) :
    Outlasts c.run d.run := by
  match c, h with
  | .test condition body rest, .test _ hbody hrest =>
    have hblock := hbody.outlasts
    have hothers := hrest.outlasts
    refine Outlasts.after _ fun v => ?_
    by_cases hholds : v.isTruthy = true
    · rw [if_pos hholds, if_pos hholds]
      exact outlasts_inScope hblock
    · rw [if_neg hholds, if_neg hholds]
      exact hothers
  | .otherwise body, .otherwise hbody => exact outlasts_inScope hbody.outlasts
  | .done, .done => exact outlasts_refl _
termination_by structural c

/-- The same for a row of commands. -/
theorem Command.LoosenedAll.outlasts {cs ds : List Command} (h : Command.LoosenedAll cs ds) :
    Outlasts (Command.runAll cs) (Command.runAll ds) := by
  match cs, ds, h with
  | [], [], .nil => exact outlasts_refl _
  | c :: cs, d :: ds, .cons hfirst hrest =>
    have hone := hfirst.outlasts
    have hothers := hrest.outlasts
    have hprinted := Command.prints_runAll ds
    refine hone.bind (n := mostLines (Command.capturesOfAll ds)) (fun flow => ?_) (fun flow => ?_)
    · cases flow with
      | done => exact hothers
      | leaveLoop => exact outlasts_refl _
      | nextPass => exact outlasts_refl _
    · cases flow with
      | done => exact hprinted
      | leaveLoop => exact (prints_pure _).mono (Nat.zero_le _)
      | nextPass => exact (prints_pure _).mono (Nat.zero_le _)
termination_by structural cs

end

/-! ## Scripts -/

/-- Scripts that are the same but for limits, those of the second no lower. -/
def Script.Loosened (a b : Script) : Prop := Command.LoosenedAll a.body b.body

theorem Command.LoosenedAll.length_eq {cs ds : List Command} (h : Command.LoosenedAll cs ds) :
    cs.length = ds.length := by
  match cs, ds, h with
  | [], [], .nil => rfl
  | c :: cs, d :: ds, .cons _ hrest => exact congrArg Nat.succ hrest.length_eq
termination_by structural cs

namespace Sandbox

/-- **A limit that is not exceeded makes no difference.** Let two scripts be the same but for
the limits of loops, each at least as high in the second. If the first run ends in anything
but a fault of a limit, the second ends in the same way and leaves the same sandbox. If the
first does end over a limit, then all its lines but the last, which says so, are among the
first of the second. -/
theorem run_loosened {a b : Script} (h : a.Loosened b) (s : Sandbox) :
    ((∀ guard limit, s.outcome a ≠ .error (.iterationLimit guard limit)) →
        s.outcome b = s.outcome a ∧ s.run b = s.run a)
      ∧ ∀ guard limit, s.outcome a = .error (.iterationLimit guard limit) →
        ∃ lines more,
          (s.run a).log.lines
              = (s.log.lines ++ lines).push (Fault.iterationLimit guard limit).fatalLine
            ∧ (s.run b).log.lines = s.log.lines ++ lines ++ more := by
  have hlength : a.body.length = b.body.length := Command.LoosenedAll.length_eq h
  have hcommands := Command.LoosenedAll.outlasts h (s.note (.executing b.body.length))
  obtain ⟨lines, hlines, -⟩ := Command.prints_runAll a.body (s.note (.executing b.body.length))
  rw [run_eq, run_eq, outcome, outcome, hlength]
  generalize Command.runAll a.body (s.note (.executing b.body.length)) = x,
    Command.runAll b.body (s.note (.executing b.body.length)) = y at hcommands hlines ⊢
  obtain ⟨more, hmore, -⟩ := prints_closed y
  rcases hcommands with rfl | ⟨guard, limit, t, rfl, n, between, hbetween, -⟩
  · refine ⟨fun _ => ⟨rfl, rfl⟩, ?_⟩
    -- Both are over a limit at the same point.
    intro guard limit hover
    refine ⟨lines, more, ?_, ?_⟩
    · obtain ⟨outcome, t⟩ := y
      cases hover
      exact congrArg (Array.push · (Fault.iterationLimit guard limit).fatalLine) hlines
    · rw [hmore, hlines]
      rfl
  · refine ⟨fun hnever => absurd rfl (hnever guard limit), ?_⟩
    intro guard' limit' hover
    cases hover
    refine ⟨lines, between ++ more, ?_, ?_⟩
    · exact congrArg (Array.push · (Fault.iterationLimit guard limit).fatalLine) hlines
    · rw [hmore, hbetween, hlines, Array.append_assoc]
      rfl

/-- A loop without end, under a limit of two and of three passes. -/
theorem run_loosened_endless : ∃ lines more,
    (fresh.run ⟨[.loop ⟨.start, .counting, ⟨"g", 2⟩, none, none⟩ none
        [.capture .start [.literal (.text "x")]]]⟩).log.lines
        = (fresh.log.lines ++ lines).push (Fault.iterationLimit "g" 2).fatalLine
      ∧ (fresh.run ⟨[.loop ⟨.start, .counting, ⟨"g", 3⟩, none, none⟩ none
        [.capture .start [.literal (.text "x")]]]⟩).log.lines = fresh.log.lines ++ lines ++ more := by
  have hlimit : (2 : Nat) ≤ 3 := by decide
  have hloosened : Script.Loosened
      ⟨[.loop ⟨.start, .counting, ⟨"g", 2⟩, none, none⟩ none
        [.capture .start [.literal (.text "x")]]]⟩
      ⟨[.loop ⟨.start, .counting, ⟨"g", 3⟩, none, none⟩ none
        [.capture .start [.literal (.text "x")]]]⟩ :=
    .cons (.loop hlimit (.cons (.same _) .nil)) .nil
  exact (run_loosened hloosened fresh).2 "g" 2 rfl

end Sandbox

end Lipi
