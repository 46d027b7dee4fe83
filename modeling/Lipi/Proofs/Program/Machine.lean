/-
Reading a program step by step, with a counter of the blocks that are open.

Like the readers of expressions, the reader of blocks carries no counter but is built by
recursion on the room that is left. The machine here (`ProgramMachine`) has the counter and the
stack: a row of statements that is being read, in a block or in none, and under it the statement
that waits for the block. A block is counted when its brace is taken, unless as many as may be
are open, and uncounted when the brace that closes it is taken; that could find the counter at
zero, and the machine would stop in `Task.underflow`.

What has no block of its own is read in one step, by the reader of statements: without a block
it is the same whatever reads blocks (`comesTo_statement`).

The machine comes to what the tokens are read as, with nothing open (`exists_gives`). What holds
of it on the way is the subject of `Lipi.Proofs.Program.Counters`.
-/
import Lipi.Program.Parser
import Lipi.Proofs.Transition

set_option autoImplicit false

namespace Lipi

open Program

/-! ## The machine -/

/-- What a machine is about to do. -/
inductive ProgramMachine.Task where
  /-- Take the words that frame the program. -/
  | frame
  /-- Go on with the row of statements. -/
  | next
  /-- Go on with the row after a statement of it, or after a token that comes to nothing. -/
  | finished (item : Option Statement)
  /-- Leave the row of statements. -/
  | ended
  | block
  | got (body : List Statement)
  /-- Look for another branch of a choice, given those before, the last one first. -/
  | more (place : Location) (before : List (List Token × List Statement))
  | done (body : List Statement)
  | failed (e : SyntaxError)
  /-- One was to be taken from a counter at zero. -/
  | underflow

/-- What a machine has put off. -/
inductive ProgramMachine.Frame where
  /-- A row of statements, the last one first, with the place of the brace if it is a block. -/
  | row (opening : Option Location) (read : List Statement)
  | whileLoop (place : Location) (condition : List Token)
  | forLoop (place : Location) (initial condition increment : List Token)
  /-- A branch that waits for its block, with those before. -/
  | branch (place : Location) (before : List (List Token × List Statement))
      (condition : List Token)
  | otherwise (place : Location) (before : List (List Token × List Statement))

/-- A machine that reads a program, with what it has put off, the latest first, and the number
of blocks it has opened. -/
structure ProgramMachine where
  task : ProgramMachine.Task
  frames : List ProgramMachine.Frame
  cursor : TokenCursor
  depth : Nat

namespace ProgramMachine

/-- Goes on with what a reader of the front of the tokens answers. -/
def after {α : Type} {bound : Nat} (x : Except SyntaxError (Read α bound)) (frames : List Frame)
    (c : TokenCursor) (depth : Nat) (next : Read α bound → ProgramMachine) : ProgramMachine :=
  match x with
  | .error e => ⟨.failed e, frames, c, depth⟩
  | .ok r => next r

/-- Reads the test of a branch. -/
def beginBranch (k : Keyword) (place choicePlace : Location)
    (before : List (List Token × List Statement)) (frames : List Frame) (c : TokenCursor)
    (depth : Nat) : ProgramMachine :=
  after (test k (.unclosedTest k) place c) frames c depth fun condition =>
    ⟨.block, .branch choicePlace before condition.item :: frames, condition.rest, depth⟩

/-- Reads the header of a counting loop. -/
def beginForLoop (place : Location) (frames : List Frame) (c : TokenCursor) (depth : Nat) :
    ProgramMachine :=
  after (parenthesized ⟨.unclosedLoopHeader, place⟩ c) frames c depth fun header =>
    match headerParts header.item with
    | [initial, condition, increment] =>
      ⟨.block, .forLoop place initial condition increment :: frames, header.rest, depth⟩
    | parts => ⟨.failed ⟨.headerSemicolons (parts.length - 1), place⟩, frames, c, depth⟩

/-- Reads a statement up to its first block. -/
def beginStatement (first : Token) (frames : List Frame) (c : TokenCursor) (depth : Nat) :
    ProgramMachine :=
  match first.kind with
  | .keyword .whileLoop =>
    after (test .whileLoop .unclosedLoopHeader first.location c) frames c depth fun condition =>
      ⟨.block, .whileLoop first.location condition.item :: frames, condition.rest, depth⟩
  | .keyword .forLoop => beginForLoop first.location frames c depth
  | .keyword .ifTest => beginBranch .ifTest first.location first.location [] frames c depth
  | _ =>
    after (statement (Program.block 0) first c) frames c depth fun r =>
      ⟨.finished r.item, frames, r.rest, depth⟩

/-- Whether a token ends a row of statements: in a block, the brace that closes it. -/
def stops : Option Location → Token → Bool
  | none, _ => false
  | some _, t => t.isSymbol .closeBrace

/-- Goes on with a row of statements. -/
def nextStatement (opening : Option Location) (read : List Statement) (frames : List Frame)
    (c : TokenCursor) (depth : Nat) : ProgramMachine :=
  match c.ahead with
  | [] => ⟨.ended, .row opening read :: frames, c, depth⟩
  | t :: rest =>
    if stops opening t then ⟨.ended, .row opening read :: frames, c, depth⟩
    else beginStatement t (.row opening read :: frames) ⟨rest, t.location⟩ depth

/-- Opens a block, unless as many as may be are open. -/
def openBlock (frames : List Frame) (c : TokenCursor) (depth : Nat) : ProgramMachine :=
  after (expect (.symbol .openBrace) .plain c) frames c depth fun opening =>
    if nestingLimit ≤ depth then
      ⟨.failed ⟨.blocksTooDeep, opening.item.location⟩, frames, opening.rest, depth⟩
    else ⟨.next, .row (some opening.item.location) [] :: frames, opening.rest, depth + 1⟩

/-- Closes a block. -/
def closeBlock (opening : Location) (read : List Statement) (frames : List Frame)
    (c : TokenCursor) (depth : Nat) : ProgramMachine :=
  match c.ahead with
  | [] => ⟨.failed ⟨.unclosedBlock opening, c.behind⟩, .row (some opening) read :: frames, c, depth⟩
  | t :: rest =>
    match depth with
    | 0 => ⟨.underflow, frames, ⟨rest, t.location⟩, 0⟩
    | n + 1 => ⟨.got read.reverse, frames, ⟨rest, t.location⟩, n⟩

/-- The branches of a choice in front of what follows them. -/
def chainOf (before : List (List Token × List Statement)) (rest : StatementChain) :
    StatementChain :=
  before.foldl (fun chain branch => .test branch.1 branch.2 chain) rest

/-- Looks for another branch of a choice. -/
def seekBranch (place : Location) (before : List (List Token × List Statement))
    (frames : List Frame) (c : TokenCursor) (depth : Nat) : ProgramMachine :=
  match c.ahead with
  | [] => ⟨.finished (some (.choice place (chainOf before .done))), frames, c, depth⟩
  | t :: rest =>
    if t.isKeyword .elseIfTest then
      beginBranch .elseIfTest t.location place before frames ⟨rest, t.location⟩ depth
    else if t.isKeyword .otherwise then
      ⟨.block, .otherwise place before :: frames, ⟨rest, t.location⟩, depth⟩
    else ⟨.finished (some (.choice place (chainOf before .done))), frames, c, depth⟩

/-- What follows the words that frame a program, up to the last of them. -/
def unframedAll (tokens : List Token) : Except SyntaxError TokenCursor := do
  let start ← expect (.keyword .start) .programStart (.ofTokens tokens)
  let main ← expect (.keyword .main) .programMain start.rest
  unframed main.rest

/-- Takes the words that frame the program. -/
def unframe (frames : List Frame) (c : TokenCursor) (depth : Nat) : ProgramMachine :=
  match unframedAll c.ahead with
  | .error e => ⟨.failed e, frames, c, depth⟩
  | .ok inside => ⟨.next, .row none [] :: frames, inside, depth⟩

/-- One step. -/
def step : ProgramMachine → Option ProgramMachine
  | ⟨.frame, frames, c, depth⟩ => some (unframe frames c depth)
  | ⟨.next, .row opening read :: frames, c, depth⟩ =>
    some (nextStatement opening read frames c depth)
  | ⟨.finished item, .row opening read :: frames, c, depth⟩ =>
    some ⟨.next, .row opening (item.toList ++ read) :: frames, c, depth⟩
  | ⟨.ended, .row none read :: frames, c, depth⟩ => some ⟨.done read.reverse, frames, c, depth⟩
  | ⟨.ended, .row (some opening) read :: frames, c, depth⟩ =>
    some (closeBlock opening read frames c depth)
  | ⟨.block, frames, c, depth⟩ => some (openBlock frames c depth)
  | ⟨.got body, .whileLoop place condition :: frames, c, depth⟩ =>
    some ⟨.finished (some (.whileLoop place condition body)), frames, c, depth⟩
  | ⟨.got body, .forLoop place initial condition increment :: frames, c, depth⟩ =>
    some ⟨.finished (some (.forLoop place initial condition increment body)), frames, c, depth⟩
  | ⟨.got body, .branch place before condition :: frames, c, depth⟩ =>
    some ⟨.more place ((condition, body) :: before), frames, c, depth⟩
  | ⟨.got body, .otherwise place before :: frames, c, depth⟩ =>
    some ⟨.finished (some (.choice place (chainOf before (.otherwise body)))), frames, c, depth⟩
  | ⟨.more place before, frames, c, depth⟩ => some (seekBranch place before frames c depth)
  | _ => none

/-- The error with which a machine has failed. -/
def failure? (m : ProgramMachine) : Option SyntaxError :=
  match m.task with
  | .failed e => some e
  | _ => none

/-- How programs are read step by step. -/
def stepping : StepMachine ProgramMachine := ⟨step, failure?⟩

/-- A machine at the front of a row of tokens. -/
def start (tokens : List Token) : ProgramMachine := ⟨.frame, [], .ofTokens tokens, 0⟩

/-! ## Readers of blocks -/

open StepMachine

/-- A reader of blocks answers as a machine does that is to read a block, whatever it has put
off, as long as the counter and the room of the reader make up the ceiling. The counter is at
the end where it was before. -/
def Opens (reader : BlockReader) (room : Nat) : Prop :=
  ∀ frames c depth, depth + room = nestingLimit →
    stepping.ComesTo (fun r => ⟨.got r.item, frames, r.rest, depth⟩) ⟨.block, frames, c, depth⟩
      (reader c)

variable {reader : BlockReader} {room depth : Nat}

theorem comesTo_branch (h : Opens reader room) (hroom : depth + room = nestingLimit)
    (k : Keyword) (place choicePlace : Location) (before : List (List Token × List Statement))
    (frames : List Frame) (c : TokenCursor) :
    stepping.ComesTo (fun r => ⟨.more choicePlace (r.item :: before), frames, r.rest, depth⟩)
      (beginBranch k place choicePlace before frames c depth) (branch reader k place c) := by
  unfold beginBranch branch
  cases test k (.unclosedTest k) place c with
  | error e => exact comesTo_failed rfl
  | ok condition =>
    apply (h (.branch choicePlace before condition.item :: frames) condition.rest depth hroom).bind
    intro body
    exact Reaches.head rfl (Reaches.refl _)

/-- What may follow a branch. Each branch that is read leaves less ahead. -/
theorem comesTo_chainFrom (h : Opens reader room) (hroom : depth + room = nestingLimit)
    (place : Location) (before : List (List Token × List Statement)) (frames : List Frame)
    (c : TokenCursor) :
    stepping.ComesTo
      (fun r => ⟨.finished (some (.choice place (chainOf before r.item))), frames, r.rest, depth⟩)
      ⟨.more place before, frames, c, depth⟩ (chainFrom reader c) := by
  induction hn : c.ahead.length using Nat.strongRecOn generalizing c before with
  | ind n ih =>
    apply ComesTo.head (seekBranch place before frames c depth) rfl
    rw [chainFrom]
    unfold seekBranch
    obtain ⟨ahead, behind⟩ := c
    cases ahead with
    | nil => exact Reaches.refl _
    | cons t rest =>
      dsimp only
      by_cases helse : t.isKeyword .elseIfTest = true
      · rw [if_pos helse, if_pos helse]
        apply (comesTo_branch h hroom .elseIfTest t.location place before frames
          ⟨rest, t.location⟩).bind
        intro first
        have hshort : first.rest.ahead.length < n := by
          have hwithin := first.within
          simp only [TokenCursor.length] at hwithin
          rw [← hn, List.length_cons]
          omega
        apply (ih _ hshort (first.item :: before) first.rest rfl).bind
        intro more
        exact Reaches.refl _
      · rw [if_neg helse, if_neg helse]
        by_cases hother : t.isKeyword .otherwise = true
        · rw [if_pos hother, if_pos hother]
          apply (h (.otherwise place before :: frames) ⟨rest, t.location⟩ depth hroom).bind
          intro body
          exact Reaches.head rfl (Reaches.refl _)
        · rw [if_neg hother, if_neg hother]
          exact Reaches.refl _

theorem comesTo_after {bound : Nat} (x : Except SyntaxError (Read (Option Statement) bound))
    (frames : List Frame) (c : TokenCursor) :
    stepping.ComesTo (fun r => ⟨.finished r.item, frames, r.rest, depth⟩)
      (after x frames c depth fun r => ⟨.finished r.item, frames, r.rest, depth⟩) x := by
  cases x with
  | error e => exact comesTo_failed rfl
  | ok r => exact Reaches.refl _

theorem comesTo_whileLoop (h : Opens reader room) (hroom : depth + room = nestingLimit)
    (place : Location) (frames : List Frame) (c : TokenCursor) :
    stepping.ComesTo (fun r => ⟨.finished r.item, frames, r.rest, depth⟩)
      (after (test .whileLoop .unclosedLoopHeader place c) frames c depth fun condition =>
        ⟨.block, .whileLoop place condition.item :: frames, condition.rest, depth⟩)
      ((whileLoop reader place c).map present) := by
  apply ComesTo.map
  unfold whileLoop
  cases test .whileLoop .unclosedLoopHeader place c with
  | error e => exact comesTo_failed rfl
  | ok condition =>
    apply (h (.whileLoop place condition.item :: frames) condition.rest depth hroom).bind
    intro body
    exact Reaches.head rfl (Reaches.refl _)

theorem comesTo_forLoop (h : Opens reader room) (hroom : depth + room = nestingLimit)
    (place : Location) (frames : List Frame) (c : TokenCursor) :
    stepping.ComesTo (fun r => ⟨.finished r.item, frames, r.rest, depth⟩)
      (beginForLoop place frames c depth) ((forLoop reader place c).map present) := by
  apply ComesTo.map
  unfold beginForLoop forLoop
  cases parenthesized ⟨.unclosedLoopHeader, place⟩ c with
  | error e => exact comesTo_failed rfl
  | ok header =>
    simp only [after, bind, Except.bind]
    generalize headerParts header.item = parts
    rcases parts with _ | ⟨initial, _ | ⟨condition, _ | ⟨increment, _ | ⟨_, _⟩⟩⟩⟩
    · exact comesTo_failed rfl
    · exact comesTo_failed rfl
    · exact comesTo_failed rfl
    · apply (h (.forLoop place initial condition increment :: frames) header.rest depth hroom).bind
      intro body
      exact Reaches.head rfl (Reaches.refl _)
    · exact comesTo_failed rfl

theorem comesTo_choice (h : Opens reader room) (hroom : depth + room = nestingLimit)
    (place : Location) (frames : List Frame) (c : TokenCursor) :
    stepping.ComesTo (fun r => ⟨.finished r.item, frames, r.rest, depth⟩)
      (beginBranch .ifTest place place [] frames c depth)
      ((choice reader place c).map present) := by
  apply ComesTo.map
  unfold choice
  apply (comesTo_branch h hroom .ifTest place place [] frames c).bind
  intro first
  apply (comesTo_chainFrom h hroom place [first.item] frames first.rest).bind
  intro more
  exact Reaches.refl _

theorem comesTo_statement (h : Opens reader room) (hroom : depth + room = nestingLimit)
    (first : Token) (frames : List Frame) (c : TokenCursor) :
    stepping.ComesTo (fun r => ⟨.finished r.item, frames, r.rest, depth⟩)
      (beginStatement first frames c depth) (statement reader first c) := by
  obtain ⟨kind, place⟩ := first
  cases kind with
  | keyword k =>
    cases k with
    | whileLoop => exact comesTo_whileLoop h hroom place frames c
    | forLoop => exact comesTo_forLoop h hroom place frames c
    | ifTest => exact comesTo_choice h hroom place frames c
    | _ =>
      simp only [beginStatement, statement]
      exact comesTo_after _ frames c
  | _ =>
    simp only [beginStatement, statement]
    exact comesTo_after _ frames c

/-- A row of statements up to the token that stops it. -/
theorem comesTo_statementsFrom (h : Opens reader room) (hroom : depth + room = nestingLimit)
    (opening : Option Location) (frames : List Frame) {bound : Nat} (c : TokenCursor)
    (hc : c.length ≤ bound) (read : List Statement) :
    stepping.ComesTo
      (fun r => ⟨.ended, .row opening r.item.reverse :: frames, r.rest, depth⟩)
      ⟨.next, .row opening read :: frames, c, depth⟩
      (statementsFrom (statement reader) (stops opening) c hc read) := by
  -- Where the row ends, it is as it was.
  have hended : stepping.Reaches ⟨.ended, .row opening read :: frames, c, depth⟩
      ⟨.ended, .row opening read.reverse.reverse :: frames, c, depth⟩ := by
    rw [List.reverse_reverse]
    exact Reaches.refl _
  induction hn : c.ahead.length using Nat.strongRecOn generalizing c read with
  | ind n ih =>
    rw [statementsFrom]
    apply ComesTo.head (nextStatement opening read frames c depth) rfl
    unfold nextStatement
    obtain ⟨ahead, behind⟩ := c
    cases ahead with
    | nil => exact hended
    | cons t rest =>
      dsimp only
      by_cases hstops : stops opening t = true
      · rw [if_pos hstops, if_pos hstops]
        exact hended
      · rw [if_neg hstops, if_neg hstops]
        apply (comesTo_statement h hroom t (.row opening read :: frames) ⟨rest, t.location⟩).bind
        intro next
        apply ComesTo.head
          ⟨.next, .row opening (next.item.toList ++ read) :: frames, next.rest, depth⟩ rfl
        have hshort : next.rest.ahead.length < n := by
          have hwithin := next.within
          simp only [TokenCursor.length] at hwithin
          rw [← hn, List.length_cons]
          omega
        apply ih _ hshort
        · rw [List.reverse_reverse]
          exact Reaches.refl _
        · rfl

/-- **Reading a block**, by induction on the room. -/
theorem opens_block (room : Nat) : Opens (Program.block room) room := by
  induction room with
  | zero =>
    intro frames c depth hroom
    apply ComesTo.head (openBlock frames c depth) rfl
    unfold openBlock Program.block
    cases expect (.symbol .openBrace) .plain c with
    | error e => exact comesTo_failed rfl
    | ok opening =>
      have hfull : nestingLimit ≤ depth := by omega
      simp only [after, if_pos hfull]
      exact comesTo_failed rfl
  | succ room ih =>
    intro frames c depth hroom
    apply ComesTo.head (openBlock frames c depth) rfl
    unfold openBlock Program.block
    cases expect (.symbol .openBrace) .plain c with
    | error e => exact comesTo_failed rfl
    | ok opening =>
      have hfree : ¬ nestingLimit ≤ depth := by omega
      have hroom' : depth + 1 + room = nestingLimit := by omega
      have hbody : stepping.ComesTo
          (fun r => ⟨.ended, .row (some opening.item.location) r.item.reverse :: frames, r.rest,
            depth + 1⟩)
          ⟨.next, .row (some opening.item.location) [] :: frames, opening.rest, depth + 1⟩
          (statementsFrom (statement (Program.block room)) (·.isSymbol .closeBrace) opening.rest
            opening.within []) :=
        comesTo_statementsFrom ih hroom' (some _) frames _ _ []
      simp only [after, if_neg hfree]
      apply hbody.bind
      intro body
      obtain ⟨item, ⟨ahead, behind⟩, within⟩ := body
      apply ComesTo.head (closeBlock opening.item.location item.reverse frames ⟨ahead, behind⟩
        (depth + 1)) rfl
      cases ahead with
      | nil => exact comesTo_failed rfl
      | cons t rest =>
        unfold closeBlock
        rw [List.reverse_reverse]
        exact Reaches.refl _

/-! ## Programs -/

/-- A machine that has stopped with an answer. Where the answer is not an error, nothing is put
off and no block is open. -/
def Gives (m : ProgramMachine) : Except SyntaxError Program → Prop
  | .ok p => m.task = .done p.body ∧ m.frames = [] ∧ m.depth = 0
  | .error e => m.task = .failed e

theorem Gives.step_eq_none {m : ProgramMachine} {x : Except SyntaxError Program}
    (h : m.Gives x) : m.step = none := by
  obtain ⟨task, frames, c, depth⟩ := m
  cases x with
  | error e =>
    obtain rfl : task = .failed e := h
    rfl
  | ok p =>
    obtain ⟨rfl, -, -⟩ : task = .done p.body ∧ frames = [] ∧ depth = 0 := h
    rfl

/-- A machine that has failed gives the error. -/
theorem gives_of_failure {m : ProgramMachine} {e : SyntaxError}
    (h : stepping.failure? m = some e) : m.Gives (.error e) := by
  obtain ⟨task, frames, c, depth⟩ := m
  cases task with
  | failed e' =>
    cases h
    rfl
  | _ => cases h

theorem parse_eq_bind (tokens : List Token) :
    Program.parse tokens = (unframedAll tokens).bind fun inside =>
      (statementsFrom (statement (Program.block nestingLimit)) (stops none) inside (Nat.le_refl _)
        []).map fun body => ⟨body.item⟩ := by
  unfold Program.parse unframedAll
  simp only [bind, Except.bind]
  cases expect (.keyword .start) .programStart (.ofTokens tokens) with
  | error e => rfl
  | ok start =>
    dsimp only
    cases expect (.keyword .main) .programMain start.rest with
    | error e => rfl
    | ok main =>
      dsimp only
      cases unframed main.rest with
      | error e => rfl
      | ok inside =>
        have hnone : stops none = fun _ => false := rfl
        rw [hnone]
        dsimp only
        cases statementsFrom (statement (Program.block nestingLimit)) (fun _ => false) inside
            (Nat.le_refl _) [] <;> rfl

/-- **A machine comes to what the tokens are read as**, and stops there. -/
theorem exists_gives (tokens : List Token) :
    ∃ m, stepping.Reaches (start tokens) m ∧ m.Gives (Program.parse tokens) := by
  have hunframe : stepping.Reaches (start tokens) (unframe [] (.ofTokens tokens) 0) :=
    Reaches.head rfl (Reaches.refl _)
  rw [parse_eq_bind]
  unfold unframe at hunframe
  cases hinside : unframedAll tokens with
  | error e =>
    have hahead : unframedAll (TokenCursor.ofTokens tokens).ahead = .error e := hinside
    rw [hahead] at hunframe
    exact ⟨_, hunframe, rfl⟩
  | ok inside =>
    have hahead : unframedAll (TokenCursor.ofTokens tokens).ahead = .ok inside := hinside
    rw [hahead] at hunframe
    have hrow := comesTo_statementsFrom (opens_block nestingLimit) (Nat.zero_add _) none [] inside
      (Nat.le_refl _) []
    simp only [Except.bind]
    cases hread : statementsFrom (statement (Program.block nestingLimit)) (stops none) inside
        (Nat.le_refl _) [] with
    | error e =>
      rw [hread] at hrow
      obtain ⟨m, hreach, hfailure⟩ := hrow
      exact ⟨m, hunframe.trans hreach, gives_of_failure hfailure⟩
    | ok body =>
      rw [hread] at hrow
      refine ⟨⟨.done body.item.reverse.reverse, [], body.rest, 0⟩, ?_, ?_⟩
      · exact hunframe.trans (hrow.trans (Reaches.head rfl (Reaches.refl _)))
      · rw [List.reverse_reverse]
        exact ⟨rfl, rfl, rfl⟩

end ProgramMachine

end Lipi
