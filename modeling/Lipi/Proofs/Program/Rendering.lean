/-
Programs as rows of tokens.

`rendered` writes a statement down: its first token stands where the statement says, the
others nowhere, and its slices are written as they are. A semicolon follows whatever
could otherwise run on. Read again, a row of rendered statements is the same row. The
proof is one recursion over statements, chains and rows of statements; what follows the
rendered text is a parameter of it, because a choice ends only where no branch follows,
and the rendering of no statement begins with the keyword of a branch.

The semicolons are no statements, so reading passes over them; that is why they need not
be remembered.
-/
import Lipi.Proofs.Program.Relocation
import Lipi.Proofs.Program.WellFormed

set_option autoImplicit false

namespace Lipi

/-! ## Rendering -/

namespace Program

/-- The semicolon after a statement. -/
def terminator : Token := .ofKind (.symbol .semicolon)

/-- A block with its braces. -/
def braced (body : List Token) : List Token :=
  .ofKind (.symbol .openBrace) :: (body ++ [.ofKind (.symbol .closeBrace)])

end Program

open Program

mutual

/-- A statement as tokens. -/
def Statement.rendered : Statement → List Token
  | .declare place mutability name value =>
    ⟨.keyword mutability.declares, place⟩ :: .ofKind (.identifier name)
      :: .ofKind (.operator .assign) :: (value ++ [terminator])
  | .assign place name value =>
    ⟨.identifier name, place⟩ :: .ofKind (.operator .assign) :: (value ++ [terminator])
  | .output place value =>
    ⟨.keyword .print, place⟩ :: group .nowhere .nowhere value [terminator]
  | .choice place chain => chain.rendered ⟨.keyword .ifTest, place⟩
  | .whileLoop place condition body =>
    ⟨.keyword .whileLoop, place⟩
      :: group .nowhere .nowhere condition (braced (Statement.renderedAll body))
  | .forLoop place initial condition increment body =>
    ⟨.keyword .forLoop, place⟩ :: group .nowhere .nowhere
      (header .nowhere .nowhere initial condition increment) (braced (Statement.renderedAll body))
  | .breakLoop place => [⟨.keyword .breakLoop, place⟩, terminator]
  | .continueLoop place => [⟨.keyword .continueLoop, place⟩, terminator]
termination_by structural s => s

/-- A chain as tokens, given the keyword of its first test. -/
def StatementChain.rendered (first : Token) : StatementChain → List Token
  | .test condition body rest =>
    first :: group .nowhere .nowhere condition
      (braced (Statement.renderedAll body) ++ rest.rendered (.ofKind (.keyword .elseIfTest)))
  | .otherwise body => .ofKind (.keyword .otherwise) :: braced (Statement.renderedAll body)
  | .done => []
termination_by structural c => c

/-- A row of statements as tokens. -/
def Statement.renderedAll : List Statement → List Token
  | [] => []
  | s :: rest => s.rendered ++ Statement.renderedAll rest
termination_by structural ss => ss

end

namespace Program

/-- A program as tokens, framed by its skeleton. -/
def rendered (p : Program) : List Token :=
  .ofKind (.keyword .start) :: .ofKind (.keyword .main)
    :: (Statement.renderedAll p.body ++ [.ofKind (.keyword .finish)])

/-! ## What may follow -/

/-- The keyword of a branch begins no statement. -/
theorem Takes.noBranch_of_statement {room : Nat} {tokens rest : List Token} {s : Option Statement}
    (h : Takes room tokens (.statement s) rest) : NoBranch tokens := by
  intro t more he
  cases h with
  | declare _ _ _ mutability =>
    cases he
    cases mutability <;> exact ⟨nofun, nofun⟩
  | idle h =>
    cases he
    exact ⟨h.1 _, h.1 _⟩
  | _ =>
    cases he
    exact ⟨nofun, nofun⟩

/-- Where a row of statements begins, a chain of branches may end. -/
theorem Takes.noBranch_of_sequence {room : Nat} {tokens rest : List Token} {inBlock : Bool}
    {body : List Statement} (h : Takes room tokens (.sequence inBlock body) rest) :
    NoBranch tokens := by
  intro t more he
  cases h with
  | nothing => cases he
  | brace l =>
    cases he
    exact ⟨nofun, nofun⟩
  | next _ hfirst _ => exact hfirst.noBranch_of_statement t more he

/-- Where a statement begins, its row does not end. -/
theorem not_closes_of_keyword {inBlock : Bool} {k : Keyword} {l : Location} :
    ¬ Closes inBlock ⟨.keyword k, l⟩ := by
  rintro ⟨-, he⟩
  cases he

theorem not_closes_of_name {inBlock : Bool} {name : String} {l : Location} :
    ¬ Closes inBlock ⟨.identifier name, l⟩ := by
  rintro ⟨-, he⟩
  cases he

theorem IsValue.runsTo {slice : List Token} (h : Token.IsValue (Token.kinds slice))
    (rest : List Token) : RunsTo slice (terminator :: rest) :=
  runsTo_semicolon_iff.mpr ⟨h.noKeyword, h.noSemicolon, h.noTarget⟩

/-! ## Reading what is rendered -/

/-- A block that is rendered is read, if its statements are. -/
theorem Takes.braced {room depth : Nat} {body : List Statement} {tokens : List Token}
    (rest : List Token) (hd : depth + 1 ≤ room)
    (h : ∀ {inner : Nat}, depth ≤ inner → ∀ {after last : List Token} {more : List Statement},
      Takes inner after (.sequence true more) last →
        Takes inner (tokens ++ after) (.sequence true (body ++ more)) last) :
    Takes room (Program.braced tokens ++ rest) (.block body) rest := by
  obtain ⟨inner, rfl⟩ : ∃ inner, room = inner + 1 := ⟨room - 1, by omega⟩
  have hend : Takes inner (.ofKind (.symbol .closeBrace) :: rest) (.sequence true [])
      (.ofKind (.symbol .closeBrace) :: rest) := .brace .nowhere
  have hbody := h (Nat.le_of_succ_le_succ hd) hend
  rw [List.append_nil] at hbody
  rw [Program.braced, List.cons_append, List.append_assoc]
  exact .block .nowhere .nowhere hbody

end Program

mutual

/-- A rendered statement is read, and the statements after it. -/
theorem Statement.takes_rendered {room : Nat} (s : Statement) (hw : s.WellFormed)
    (hd : s.depth ≤ room) {inBlock : Bool} {tokens rest : List Token} {more : List Statement}
    (hmore : Takes room tokens (.sequence inBlock more) rest) :
    Takes room (s.rendered ++ tokens) (.sequence inBlock (s :: more)) rest := by
  match s with
  | .declare place mutability name value =>
    -- A value runs to the semicolon that is written after it.
    have hruns := Program.IsValue.runsTo hw tokens
    have hne := Token.kinds_ne_nil.mp hw.ne_nil
    rw [Statement.rendered, List.cons_append, List.cons_append, List.cons_append,
      List.append_assoc]
    exact .next not_closes_of_keyword (.declare place _ _ mutability name hne hruns)
      (hmore.terminated .nowhere)
  | .assign place name value =>
    have hruns := Program.IsValue.runsTo hw tokens
    have hne := Token.kinds_ne_nil.mp hw.ne_nil
    rw [Statement.rendered, List.cons_append, List.cons_append, List.append_assoc]
    exact .next not_closes_of_name (.assign place _ name hne hruns) (hmore.terminated .nowhere)
  | .output place value =>
    have hbalanced := balancedFrom_zero_iff.mpr hw.2
    have hne := Token.kinds_ne_nil.mp hw.1
    rw [Statement.rendered, List.cons_append, group_append]
    exact .next not_closes_of_keyword (.output place _ _ hne hbalanced) (hmore.terminated .nowhere)
  | .choice place (.test condition body others) =>
    obtain ⟨-, hcondition, hbody, hothers⟩ := hw
    have hbalanced := balancedFrom_zero_iff.mpr hcondition.2
    have hne := Token.kinds_ne_nil.mp hcondition.1
    obtain ⟨hdbody, hdothers⟩ := Nat.max_le.mp hd
    -- The branches end where no other follows, and no statement begins like a branch.
    have hend := others.takes_rendered hothers hdothers hmore.noBranch_of_sequence
    have hblock := Takes.braced (others.rendered (.ofKind (.keyword .elseIfTest)) ++ tokens) hdbody
      fun hd => Statement.takes_renderedAll body hbody hd
    rw [Statement.rendered, StatementChain.rendered, List.cons_append, group_append,
      List.append_assoc]
    exact .next not_closes_of_keyword (.choice place _ _ hne hbalanced hblock hend) hmore
  -- A well-formed choice begins with a test.
  | .choice _ (.otherwise _) | .choice _ .done =>
    obtain ⟨⟨_, _, _, he⟩, -⟩ := hw
    cases he
  | .whileLoop place condition body =>
    obtain ⟨hcondition, hbody⟩ := hw
    have hbalanced := balancedFrom_zero_iff.mpr hcondition.2
    have hne := Token.kinds_ne_nil.mp hcondition.1
    have hblock := Takes.braced tokens hd fun hd => Statement.takes_renderedAll body hbody hd
    rw [Statement.rendered, List.cons_append, group_append]
    exact .next not_closes_of_keyword (.whileLoop place _ _ hne hbalanced hblock) hmore
  | .forLoop place initial condition increment body =>
    obtain ⟨hinitial, hcondition, hincrement, hheader, hbody⟩ := hw
    have hbalanced := balancedFrom_zero_iff.mpr hheader
    have hblock := Takes.braced tokens hd fun hd => Statement.takes_renderedAll body hbody hd
    rw [Statement.rendered, List.cons_append, group_append]
    exact .next not_closes_of_keyword
      (.forLoop place _ _ _ _ hinitial hcondition hincrement hbalanced hblock) hmore
  | .breakLoop place =>
    exact .next not_closes_of_keyword (.breakLoop place) (hmore.terminated .nowhere)
  | .continueLoop place =>
    exact .next not_closes_of_keyword (.continueLoop place) (hmore.terminated .nowhere)
termination_by structural s

/-- A rendered chain is read where no other branch follows. -/
theorem StatementChain.takes_rendered {room : Nat} (chain : StatementChain) (hw : chain.WellFormed)
    (hd : chain.depth ≤ room) {tokens : List Token} (hend : NoBranch tokens) :
    Takes room (chain.rendered (.ofKind (.keyword .elseIfTest)) ++ tokens) (.chain chain) tokens := by
  match chain with
  | .test condition body others =>
    obtain ⟨hcondition, hbody, hothers⟩ := hw
    have hbalanced := balancedFrom_zero_iff.mpr hcondition.2
    have hne := Token.kinds_ne_nil.mp hcondition.1
    obtain ⟨hdbody, hdothers⟩ := Nat.max_le.mp hd
    have hmore := others.takes_rendered hothers hdothers hend
    have hblock := Takes.braced (others.rendered (.ofKind (.keyword .elseIfTest)) ++ tokens) hdbody
      fun hd => Statement.takes_renderedAll body hbody hd
    rw [StatementChain.rendered, List.cons_append, group_append, List.append_assoc]
    exact .elseIf .nowhere _ _ hne hbalanced hblock hmore
  | .otherwise body =>
    have hblock := Takes.braced tokens hd fun hd => Statement.takes_renderedAll body hw hd
    exact .otherwise .nowhere hblock
  | .done => exact .noBranch hend
termination_by structural chain

/-- A rendered row of statements is read, and the statements after it. -/
theorem Statement.takes_renderedAll {room : Nat} (ss : List Statement)
    (hw : Statement.AllWellFormed ss) (hd : Statement.depthOfAll ss ≤ room) {inBlock : Bool}
    {tokens rest : List Token} {more : List Statement}
    (hmore : Takes room tokens (.sequence inBlock more) rest) :
    Takes room (Statement.renderedAll ss ++ tokens) (.sequence inBlock (ss ++ more)) rest := by
  match ss with
  | [] => exact hmore
  | s :: ss =>
    have htail := Statement.takes_renderedAll ss hw.2 (Nat.le_trans (Nat.le_max_right _ _) hd) hmore
    rw [Statement.renderedAll, List.append_assoc]
    exact s.takes_rendered hw.1 (Nat.le_trans (Nat.le_max_left _ _) hd) htail
termination_by structural ss

end

namespace Program

/-! ## Round trip -/

/-- A well-formed program is read from its rendering. -/
theorem parse_rendered {p : Program} (h : p.WellFormed) : parse p.rendered = .ok p := by
  have hend : Takes nestingLimit [] (.sequence false []) [] := .nothing false
  have htakes := Statement.takes_renderedAll p.body h.body h.depth hend
  rw [List.append_nil, List.append_nil] at htakes
  exact parse_iff_takes.mpr ⟨_, _, _, _, rfl, htakes⟩

/-- **Rendering and reading are inverse.** A well-formed program is read from its rendering,
and but for its places from any tokens of the same kinds; only well-formed programs are
read; and what has been read is read again from its own rendering. -/
theorem rendered_round_trip :
    (∀ p : Program, p.WellFormed → parse p.rendered = .ok p
        ∧ ∀ tokens, Token.kinds tokens = Token.kinds p.rendered →
          ∃ q, parse tokens = .ok q ∧ q.unlocated = p.unlocated)
      ∧ ∀ tokens p, parse tokens = .ok p → p.WellFormed ∧ parse p.rendered = .ok p := by
  constructor
  · intro p hp
    have hread := parse_rendered hp
    exact ⟨hread, fun tokens hkinds => parse_of_kinds hread hkinds⟩
  · intro tokens p hread
    have hp := wellFormed_of_parse hread
    exact ⟨hp, parse_rendered hp⟩

end Program

end Lipi
