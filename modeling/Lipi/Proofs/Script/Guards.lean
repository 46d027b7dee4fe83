/-
The guards of a script in the order of its source.

Lowering hands out guards from a counter that runs along with it, and a script lists its
guards by a walk of its own. The two agree because both come to a loop before they come to
its body and to the blocks of a chain in their order. What is said of one part of a program
is that its loops have become loops in the same order, and that these have the guards from
one number of the counter up to another (`Numbered`); parts that are lowered one behind the
other are numbered on (`Numbered.append`), and a loop takes a number before its body does.
With that there is one case for each kind of statement (`Statement.numbered_lower`).

How many loops stand around a statement is handed down to it, so there is nothing to be
taken back behind a loop. It can be counted along as well: one more before the body of a
loop is lowered and one less behind it, also behind an error (`Counting.insideLoop`).
Lowering that counts is lowering all the same, and leaves the number of loops as it was
(`Statement.follows_counted`).
-/
import Lipi.Proofs.Compilation

set_option autoImplicit false

namespace Lipi

open Procedure

/-! ## Loops in the order in which they begin -/

mutual

/-- The places of a statement's loops, in the order in which they begin. -/
def Statement.loopPlaces : Statement → List Location
  | .choice _ chain => chain.loopPlaces
  | .whileLoop place _ body => place :: Statement.loopPlacesOfAll body
  | .forLoop place _ _ _ body => place :: Statement.loopPlacesOfAll body
  | .declare _ _ _ _ => []
  | .assign _ _ _ => []
  | .output _ _ => []
  | .breakLoop _ => []
  | .continueLoop _ => []
termination_by structural s => s

/-- The places of the loops in the blocks of a chain. -/
def StatementChain.loopPlaces : StatementChain → List Location
  | .test _ body rest => Statement.loopPlacesOfAll body ++ rest.loopPlaces
  | .otherwise body => Statement.loopPlacesOfAll body
  | .done => []
termination_by structural c => c

/-- The places of the loops of a row of statements. -/
def Statement.loopPlacesOfAll : List Statement → List Location
  | [] => []
  | s :: rest => s.loopPlaces ++ Statement.loopPlacesOfAll rest
termination_by structural ss => ss

end

/-- The places of a program's loops, in the order in which they begin. -/
def Program.loopPlaces (p : Program) : List Location := Statement.loopPlacesOfAll p.body

mutual

/-- What the loops of a command are controlled by, in the order in which they begin. -/
def Command.controls : Command → List LoopControl
  | .choice _ chain => chain.controls
  | .loop control _ body => control :: Command.controlsOfAll body
  | .declare _ _ _ _ => []
  | .assign _ _ _ => []
  | .capture _ _ => []
  | .breakLoop => []
  | .continueLoop => []
  | .eval _ _ => []
termination_by structural c => c

/-- What the loops in the blocks of a chain are controlled by. -/
def CommandChain.controls : CommandChain → List LoopControl
  | .test _ body rest => Command.controlsOfAll body ++ rest.controls
  | .otherwise body => Command.controlsOfAll body
  | .done => []
termination_by structural c => c

/-- What the loops of a row of commands are controlled by. -/
def Command.controlsOfAll : List Command → List LoopControl
  | [] => []
  | c :: rest => c.controls ++ Command.controlsOfAll rest
termination_by structural cs => cs

end

mutual

/-- The guards of a command are those of its loops. -/
theorem Command.guards_eq (c : Command) : c.guards = c.controls.map (·.guard) := by
  match c with
  | .choice _ chain => exact chain.guards_eq
  | .loop control _ body =>
    rw [Command.guards, Command.controls, List.map_cons, Command.guardsOfAll_eq body]
  | .declare _ _ _ _ | .assign _ _ _ | .capture _ _ | .breakLoop | .continueLoop
  | .eval _ _ => rfl
termination_by structural c

/-- The same for a chain. -/
theorem CommandChain.guards_eq (c : CommandChain) : c.guards = c.controls.map (·.guard) := by
  match c with
  | .test _ body rest =>
    rw [CommandChain.guards, CommandChain.controls, List.map_append, Command.guardsOfAll_eq body,
      rest.guards_eq]
  | .otherwise body => exact Command.guardsOfAll_eq body
  | .done => rfl
termination_by structural c

/-- The same for a row of commands. -/
theorem Command.guardsOfAll_eq (cs : List Command) :
    Command.guardsOfAll cs = (Command.controlsOfAll cs).map (·.guard) := by
  match cs with
  | [] => rfl
  | c :: cs =>
    rw [Command.guardsOfAll, Command.controlsOfAll, List.map_append, c.guards_eq,
      Command.guardsOfAll_eq cs]
termination_by structural cs

end

/-! ## Loops that are numbered through -/

/-- The loops at some places have become the loops of a script in the same order, with the
guards from one number of the counter up to another. -/
inductive Numbered : (made : Nat) → List Location → List LoopControl → (made' : Nat) → Prop where
  | none (made : Nat) : Numbered made [] [] made
  | loop {made made' : Nat} {place : Location} {control : LoopControl} {places : List Location}
      {controls : List LoopControl} (hplace : control.place = place)
      (hguard : control.guard = .numbered made) (h : Numbered (made + 1) places controls made') :
      Numbered made (place :: places) (control :: controls) made'

namespace Numbered

variable {made made' made'' : Nat} {places places' : List Location}
  {controls controls' : List LoopControl}

/-- Loops behind others are numbered on. -/
theorem append (h : Numbered made places controls made')
    (h' : Numbered made' places' controls' made'') :
    Numbered made (places ++ places') (controls ++ controls') made'' := by
  induction h with
  | none made => exact h'
  | loop hplace hguard _ ih => exact .loop hplace hguard (ih h')

/-- The counter has moved by the number of the loops. -/
theorem made_eq (h : Numbered made places controls made') : made' = made + places.length := by
  induction h with
  | none made => rfl
  | loop _ _ _ ih =>
    rw [ih, List.length_cons]
    omega

/-- The guards are numbered from the counter on. -/
theorem guards_eq (h : Numbered made places controls made') :
    controls.map (·.guard) = (List.range' made places.length).map Guard.numbered := by
  induction h with
  | none made => rfl
  | loop _ hguard _ ih =>
    rw [List.map_cons, List.length_cons, List.range'_succ, List.map_cons, ih, hguard]

/-- Each loop has its place, and the guard with its number. -/
theorem controls_eq (h : Numbered made places controls made') :
    controls.map (fun control => (control.place, control.guard))
      = (places.zipIdx made).map fun (place, n) => (place, Guard.numbered n) := by
  induction h with
  | none made => rfl
  | loop hplace hguard _ ih =>
    rw [List.map_cons, List.zipIdx_cons, List.map_cons, ih, hplace, hguard]

end Numbered

/-! ## Lowering -/

open Lowering

mutual

/-- **Lowering a statement numbers its loops** from the counter on, and leaves the counter
behind the last of them. -/
theorem Statement.numbered_lower (loops : Nat) (s : Statement) {made made' : Nat} {c : Command}
    (h : s.lower loops made = (.ok c, made')) : Numbered made s.loopPlaces c.controls made' := by
  match s with
  | .declare place mutability name value =>
    obtain ⟨e, -, h⟩ := liftM_bind_eq_ok h
    cases h
    exact .none _
  | .assign place name value =>
    obtain ⟨e, -, h⟩ := liftM_bind_eq_ok h
    cases h
    exact .none _
  | .output place value =>
    obtain ⟨es, -, h⟩ := liftM_bind_eq_ok h
    cases h
    exact .none _
  | .choice place chain =>
    obtain ⟨d, n, hd, h⟩ := bind_eq_ok_iff.mp h
    cases h
    exact chain.numbered_lower loops hd
  | .whileLoop place condition body =>
    -- The guard is taken before the body is lowered, so the loops in the body come after it.
    obtain ⟨g, n, hg, h⟩ := bind_eq_ok_iff.mp h
    obtain ⟨rfl, rfl⟩ := newGuard_cases hg
    obtain ⟨e, -, h⟩ := liftM_bind_eq_ok h
    obtain ⟨cs, n, hcs, h⟩ := bind_eq_ok_iff.mp h
    cases h
    exact .loop rfl rfl (Statement.numbered_lowerAll (loops + 1) body hcs)
  | .forLoop place initial condition increment body =>
    obtain ⟨g, n, hg, h⟩ := bind_eq_ok_iff.mp h
    obtain ⟨rfl, rfl⟩ := newGuard_cases hg
    obtain ⟨i, -, h⟩ := liftM_bind_eq_ok h
    obtain ⟨x, -, h⟩ := liftM_bind_eq_ok h
    obtain ⟨y, -, h⟩ := liftM_bind_eq_ok h
    obtain ⟨cs, n, hcs, h⟩ := bind_eq_ok_iff.mp h
    cases h
    exact .loop rfl rfl (Statement.numbered_lowerAll (loops + 1) body hcs)
  | .breakLoop place =>
    -- What leaves a loop asks how many there are, and counts nothing.
    obtain ⟨hc, rfl⟩ := liftM_eq_ok h
    obtain ⟨rfl, -⟩ := leaving_cases hc
    exact .none _
  | .continueLoop place =>
    obtain ⟨hc, rfl⟩ := liftM_eq_ok h
    obtain ⟨rfl, -⟩ := leaving_cases hc
    exact .none _
termination_by structural s

/-- The same for a chain. -/
theorem StatementChain.numbered_lower (loops : Nat) (s : StatementChain) {made made' : Nat}
    {c : CommandChain} (h : s.lower loops made = (.ok c, made')) :
    Numbered made s.loopPlaces c.controls made' := by
  match s with
  | .test condition body rest =>
    obtain ⟨e, -, h⟩ := liftM_bind_eq_ok h
    obtain ⟨cs, n, hcs, h⟩ := bind_eq_ok_iff.mp h
    obtain ⟨d, m, hd, h⟩ := bind_eq_ok_iff.mp h
    cases h
    exact (Statement.numbered_lowerAll loops body hcs).append (rest.numbered_lower loops hd)
  | .otherwise body =>
    obtain ⟨cs, n, hcs, h⟩ := bind_eq_ok_iff.mp h
    cases h
    exact Statement.numbered_lowerAll loops body hcs
  | .done =>
    cases h
    exact .none _
termination_by structural s

/-- The same for a row of statements. -/
theorem Statement.numbered_lowerAll (loops : Nat) (ss : List Statement) {made made' : Nat}
    {cs : List Command} (h : Statement.lowerAll loops ss made = (.ok cs, made')) :
    Numbered made (Statement.loopPlacesOfAll ss) (Command.controlsOfAll cs) made' := by
  match ss with
  | [] =>
    cases h
    exact .none _
  | s :: ss =>
    obtain ⟨c, n, hc, h⟩ := bind_eq_ok_iff.mp h
    obtain ⟨ds, m, hds, h⟩ := bind_eq_ok_iff.mp h
    cases h
    exact (s.numbered_lower loops hc).append (Statement.numbered_lowerAll loops ss hds)
termination_by structural ss

end

/-! ## Counting the loops along -/

/-- What is counted while a program is lowered: the guards that have been made, and the loops
around the part at hand. -/
structure Tally where
  made : Nat
  loops : Nat

/-- Lowering that counts the loops around a part by itself. -/
abbrev Counting (α : Type) := Procedure Tally SyntaxError α

namespace Counting

variable {α β : Type}

/-- The next guard. -/
def newGuard : Counting Guard :=
  fun tally => (.ok (.numbered tally.made), { tally with made := tally.made + 1 })

/-- Does something inside one loop more, and goes back to the loops there were before, however
it ends. -/
def insideLoop (x : Counting α) : Counting α := fun tally =>
  let (outcome, tally) := x { tally with loops := tally.loops + 1 }
  (outcome, { tally with loops := tally.loops - 1 })

/-- A statement that leaves a loop. -/
def leaving (k : Keyword) (command : Command) (place : Location) : Counting Command :=
  fun tally => (Lowering.leaving k command tally.loops place, tally)

end Counting

open Counting (insideLoop)

mutual

/-- Lowers a statement inside the loops that are counted. -/
def Statement.counted : Statement → Counting Command
  | .declare place mutability name value => do
    return .declare place mutability name (← Expr.parse value)
  | .assign place name value => do
    return .assign place name (← Expr.parse value)
  | .output place value => do
    return .capture place (← Expr.parseList value)
  | .choice place chain => do
    return .choice place (← chain.counted)
  | .whileLoop place condition body => do
    let guard ← Counting.newGuard
    let condition ← Expr.parse condition
    let body ← insideLoop (Statement.countedAll body)
    return .loop ⟨place, .onCondition, guard, some condition, none⟩ none body
  | .forLoop place initial condition increment body => do
    let guard ← Counting.newGuard
    let initial ← opening place initial
    let condition ← exprOrNone condition
    let increment ← exprOrNone increment
    let body ← insideLoop (Statement.countedAll body)
    return .loop ⟨place, .counting, guard, condition, increment⟩ initial body
  | .breakLoop place => Counting.leaving .breakLoop .breakLoop place
  | .continueLoop place => Counting.leaving .continueLoop .continueLoop place
termination_by structural s => s

/-- Lowers a chain inside the loops that are counted. -/
def StatementChain.counted : StatementChain → Counting CommandChain
  | .test condition body rest => do
    let condition ← Expr.parse condition
    let body ← Statement.countedAll body
    return .test condition body (← rest.counted)
  | .otherwise body => do
    return .otherwise (← Statement.countedAll body)
  | .done => return .done
termination_by structural c => c

/-- Lowers a row of statements inside the loops that are counted. -/
def Statement.countedAll : List Statement → Counting (List Command)
  | [] => return []
  | s :: rest => do
    let command ← s.counted
    return command :: (← Statement.countedAll rest)
termination_by structural ss => ss

end

namespace Counting

variable {α β : Type}

/-- Counting follows a lowering that is told how many loops there are: it comes to the same
outcome, makes as many guards, and leaves the number of loops as it was. -/
def Follows (x : Counting α) (y : (loops : Nat) → Lowering α) : Prop :=
  ∀ tally, x tally
    = ((y tally.loops tally.made).1, ⟨(y tally.loops tally.made).2, tally.loops⟩)

theorem follows_pure (a : α) : Follows (pure a) fun _ => pure a := fun _ => rfl

theorem follows_liftM (x : Except SyntaxError α) : Follows (liftM x) fun _ => liftM x :=
  fun _ => rfl

theorem follows_newGuard : Follows newGuard fun _ => Lowering.newGuard := fun _ => rfl

theorem follows_leaving (k : Keyword) (command : Command) (place : Location) :
    Follows (leaving k command place)
      fun loops => liftM (Lowering.leaving k command loops place) := fun _ => rfl

theorem Follows.bind {x : Counting α} {y : Nat → Lowering α} {f : α → Counting β}
    {g : α → Nat → Lowering β} (hx : Follows x y) (hf : ∀ a, Follows (f a) (g a)) :
    Follows (x >>= f) fun loops => y loops >>= fun a => g a loops := by
  intro tally
  dsimp only
  rw [bind_apply, bind_apply, hx tally]
  cases y tally.loops tally.made with
  | mk outcome made =>
    cases outcome with
    | error e => rfl
    | ok a => exact hf a ⟨made, tally.loops⟩

/-- **Behind a loop as many loops are counted as before it.** -/
theorem Follows.insideLoop {x : Counting α} {y : Nat → Lowering α} (h : Follows x y) :
    Follows (insideLoop x) fun loops => y (loops + 1) := by
  intro tally
  rw [Counting.insideLoop, h]
  rfl

end Counting

open Counting

mutual

/-- **Lowering that counts is lowering**, and it leaves the number of loops as it was. -/
theorem Statement.follows_counted (s : Statement) :
    Follows s.counted fun loops => s.lower loops := by
  match s with
  | .declare place mutability name value =>
    exact (follows_liftM _).bind fun e => follows_pure _
  | .assign place name value =>
    exact (follows_liftM _).bind fun e => follows_pure _
  | .output place value =>
    exact (follows_liftM _).bind fun es => follows_pure _
  | .choice place chain =>
    exact chain.follows_counted.bind fun c => follows_pure _
  | .whileLoop place condition body =>
    refine follows_newGuard.bind fun g => ?_
    refine (follows_liftM _).bind fun e => ?_
    exact (Statement.follows_countedAll body).insideLoop.bind fun cs => follows_pure _
  | .forLoop place initial condition increment body =>
    refine follows_newGuard.bind fun g => ?_
    refine (follows_liftM _).bind fun i => ?_
    refine (follows_liftM _).bind fun x => ?_
    refine (follows_liftM _).bind fun y => ?_
    exact (Statement.follows_countedAll body).insideLoop.bind fun cs => follows_pure _
  | .breakLoop place => exact follows_leaving _ _ _
  | .continueLoop place => exact follows_leaving _ _ _
termination_by structural s

/-- The same for a chain. -/
theorem StatementChain.follows_counted (c : StatementChain) :
    Follows c.counted fun loops => c.lower loops := by
  match c with
  | .test condition body rest =>
    refine (follows_liftM _).bind fun e => ?_
    refine (Statement.follows_countedAll body).bind fun cs => ?_
    exact rest.follows_counted.bind fun d => follows_pure _
  | .otherwise body => exact (Statement.follows_countedAll body).bind fun cs => follows_pure _
  | .done => exact follows_pure _
termination_by structural c

/-- The same for a row of statements. -/
theorem Statement.follows_countedAll (ss : List Statement) :
    Follows (Statement.countedAll ss) fun loops => Statement.lowerAll loops ss := by
  match ss with
  | [] => exact follows_pure _
  | s :: ss =>
    refine s.follows_counted.bind fun c => ?_
    exact (Statement.follows_countedAll ss).bind fun cs => follows_pure _
termination_by structural ss

end

/-! ## The guards of a script -/

/-- No two guards have one name. -/
theorem Guard.numbered_injective {m n : Nat}
    (h : (Guard.numbered m).name = (Guard.numbered n).name) : m = n := by
  have htext : ("__loop_guard_" ++ toString m).toList = ("__loop_guard_" ++ toString n).toList :=
    congrArg String.toList h
  rw [String.toList_append, String.toList_append, List.append_cancel_left_eq] at htext
  have hdigits : Nat.toDigits 10 m = Nat.toDigits 10 n := by
    rw [← Nat.toList_repr, ← Nat.toList_repr]
    exact htext
  rw [← @Nat.ofDigitChars_ten_toDigits m, hdigits, Nat.ofDigitChars_ten_toDigits]

/-- The loops of a script are those of its program, numbered from zero on. -/
theorem Program.numbered_script {p : Program} {script : Script} (h : p.script = .ok script) :
    Numbered 0 p.loopPlaces (Command.controlsOfAll script.body)
      (Statement.lowerAll 0 p.body 0).2 :=
  Statement.numbered_lowerAll 0 p.body (Prod.ext (script_eq_ok_iff.mp h) rfl)

/-- **The guards of a script are named apart, in the order of its source.** They are numbered
from zero on, as many as the program has loops, and the guard with a number is that of the
loop which has this number in the program. Lowering that counts the loops around it comes to
this script with as many guards made and outside of all loops. Whatever row of statements it is
given, inside however many loops, it comes to what lowering comes to, with as many guards made,
and leaves the number of loops as it was, also where it fails. -/
theorem Program.guardNames_of_script {p : Program} {script : Script}
    (h : p.script = .ok script) :
    script.guardNames
        = (List.range p.loopPlaces.length).map (fun n => "__loop_guard_" ++ toString n)
      ∧ script.guardNames.Nodup
      ∧ (Command.controlsOfAll script.body).map (fun control => (control.place, control.guard.name))
        = p.loopPlaces.zipIdx.map (fun (place, n) => (place, "__loop_guard_" ++ toString n))
      ∧ Statement.countedAll p.body ⟨0, 0⟩ = (.ok script.body, ⟨p.loopPlaces.length, 0⟩)
      ∧ ∀ ss made loops, Statement.countedAll ss ⟨made, loops⟩
        = ((Statement.lowerAll loops ss made).1, ⟨(Statement.lowerAll loops ss made).2, loops⟩) := by
  have hnumbered := numbered_script h
  have hnames : script.guardNames
      = (List.range p.loopPlaces.length).map (fun n => (Guard.numbered n).name) := by
    rw [Script.guardNames, Command.guardsOfAll_eq, hnumbered.guards_eq, List.map_map,
      List.range_eq_range']
    rfl
  refine ⟨hnames, ?_, ?_, ?_, ?_⟩
  · rw [hnames]
    exact List.Pairwise.map _ (fun m n hne heq => hne (Guard.numbered_injective heq))
      List.nodup_range
  · -- Places stay as they are, and of a guard the name is taken.
    have hcontrols := congrArg (List.map (Prod.map id Guard.name)) hnumbered.controls_eq
    rw [List.map_map, List.map_map] at hcontrols
    exact hcontrols
  · rw [Statement.follows_countedAll p.body ⟨0, 0⟩, script_eq_ok_iff.mp h, hnumbered.made_eq,
      Nat.zero_add]
  · intro ss made loops
    exact Statement.follows_countedAll ss ⟨made, loops⟩

/-- A program with a loop in a loop, a loop in each block of a chain, and one behind them. -/
def looping : Program where
  body :=
    [.whileLoop ⟨17, 2, 1⟩ [⟨.operator .wordTrue, ⟨24, 2, 8⟩⟩]
      [.forLoop ⟨35, 3, 3⟩ [] [] [] [.breakLoop ⟨57, 4, 5⟩], .breakLoop ⟨70, 6, 3⟩],
    .choice ⟨80, 8, 1⟩ (.test [⟨.operator .wordFalse, ⟨86, 8, 7⟩⟩]
      [.whileLoop ⟨98, 9, 3⟩ [⟨.operator .wordTrue, ⟨105, 9, 10⟩⟩] [.continueLoop ⟨118, 10, 5⟩]]
      (.otherwise [.forLoop ⟨150, 13, 3⟩ [] [⟨.operator .wordFalse, ⟨167, 13, 20⟩⟩] [] []])),
    .whileLoop ⟨185, 15, 1⟩ [⟨.operator .wordFalse, ⟨192, 15, 8⟩⟩] []]

/-- Its five guards are numbered as the loops begin. -/
theorem Program.guardNames_of_script_looping : ∃ script, looping.script = .ok script
    ∧ script.guardNames = ["__loop_guard_0", "__loop_guard_1", "__loop_guard_2",
      "__loop_guard_3", "__loop_guard_4"]
    ∧ script.guardNames.Nodup
    ∧ (Command.controlsOfAll script.body).map (fun control => (control.place, control.guard.name))
      = [(⟨17, 2, 1⟩, "__loop_guard_0"), (⟨35, 3, 3⟩, "__loop_guard_1"),
        (⟨98, 9, 3⟩, "__loop_guard_2"), (⟨150, 13, 3⟩, "__loop_guard_3"),
        (⟨185, 15, 1⟩, "__loop_guard_4")]
    ∧ Statement.countedAll looping.body ⟨0, 0⟩ = (.ok script.body, ⟨5, 0⟩) := by
  obtain ⟨script, h⟩ := exists_eq_ok_of_isSome (x := looping.script) (by decide +kernel)
  obtain ⟨hnames, hnodup, hcontrols, hcounts, -⟩ := guardNames_of_script h
  exact ⟨script, h, hnames, hnodup, hcontrols, hcounts⟩

end Lipi
