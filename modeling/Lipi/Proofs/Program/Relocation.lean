/-
Places decide nothing.

A reader asks a token what it is and never where it stands. So two rows of tokens of the
same kinds are read alike: if one is a program the other is, and the two programs are the
same but for the places in them. Forgetting places (`unlocated`) makes "the same but for
the places" an equation.

The proof goes through the grammar and not through the readers. Whatever is taken off
one row is taken off the other, with tokens of the same kinds left (`Takes.of_kinds`);
each step cuts the other row where the kinds say that it must be cut.
-/
import Lipi.Proofs.Program.Parsing

set_option autoImplicit false

namespace Lipi

/-! ## Forgetting places -/

namespace Token

/-- A token whose place does not matter. -/
def ofKind (kind : Kind) : Token := ⟨kind, .nowhere⟩

/-- A token without its place. -/
def unlocated (t : Token) : Token := ofKind t.kind

theorem map_unlocated_eq_iff {a b : List Token} :
    a.map unlocated = b.map unlocated ↔ kinds a = kinds b := by
  have hkinds : ∀ tokens : List Token, tokens.map unlocated = (kinds tokens).map ofKind := by
    intro tokens
    rw [kinds, List.map_map]
    rfl
  have hinj : Function.Injective ofKind := fun k k' h => congrArg Token.kind h
  rw [hkinds, hkinds, List.map_inj_right fun _ _ h => hinj h]

end Token

mutual

/-- A statement without its places. -/
def Statement.unlocated : Statement → Statement
  | .declare _ mutability name value =>
    .declare .nowhere mutability name (value.map Token.unlocated)
  | .assign _ name value => .assign .nowhere name (value.map Token.unlocated)
  | .output _ value => .output .nowhere (value.map Token.unlocated)
  | .choice _ chain => .choice .nowhere chain.unlocated
  | .whileLoop _ condition body =>
    .whileLoop .nowhere (condition.map Token.unlocated) (Statement.unlocatedAll body)
  | .forLoop _ initial condition increment body =>
    .forLoop .nowhere (initial.map Token.unlocated) (condition.map Token.unlocated)
      (increment.map Token.unlocated) (Statement.unlocatedAll body)
  | .breakLoop _ => .breakLoop .nowhere
  | .continueLoop _ => .continueLoop .nowhere
termination_by structural s => s

/-- A chain without its places. -/
def StatementChain.unlocated : StatementChain → StatementChain
  | .test condition body rest =>
    .test (condition.map Token.unlocated) (Statement.unlocatedAll body) rest.unlocated
  | .otherwise body => .otherwise (Statement.unlocatedAll body)
  | .done => .done
termination_by structural c => c

/-- A row of statements without their places. -/
def Statement.unlocatedAll : List Statement → List Statement
  | [] => []
  | s :: rest => s.unlocated :: Statement.unlocatedAll rest
termination_by structural ss => ss

end

namespace Program

/-- A program without its places. -/
def unlocated (p : Program) : Program := ⟨Statement.unlocatedAll p.body⟩

/-- Fragments that differ in places only. -/
inductive Fragment.Same : Fragment → Fragment → Prop where
  | statement {s' s : Option Statement} (h : s'.map Statement.unlocated = s.map Statement.unlocated) :
      Same (.statement s') (.statement s)
  | block {body' body : List Statement}
      (h : Statement.unlocatedAll body' = Statement.unlocatedAll body) :
      Same (.block body') (.block body)
  | chain {more' more : StatementChain} (h : more'.unlocated = more.unlocated) :
      Same (.chain more') (.chain more)
  | sequence {inBlock : Bool} {body' body : List Statement}
      (h : Statement.unlocatedAll body' = Statement.unlocatedAll body) :
      Same (.sequence inBlock body') (.sequence inBlock body)

/-! ## Cutting a row by kinds -/

section Kinds

open Token

theorem exists_of_kinds_eq_cons {tokens : List Token} {t : Token} {rest : List Token}
    (h : kinds tokens = kinds (t :: rest)) :
    ∃ l rest', tokens = ⟨t.kind, l⟩ :: rest' ∧ kinds rest' = kinds rest := by
  obtain ⟨⟨k, l⟩, rest', rfl, hk, hrest⟩ := List.map_eq_cons_iff.mp h
  obtain rfl : k = t.kind := hk
  exact ⟨l, rest', rfl, hrest⟩

theorem exists_of_kinds_eq_append {tokens a b : List Token} (h : kinds tokens = kinds (a ++ b)) :
    ∃ a' b', tokens = a' ++ b' ∧ kinds a' = kinds a ∧ kinds b' = kinds b := by
  rw [kinds, kinds, List.map_append] at h
  exact List.map_eq_append_iff.mp h

theorem exists_of_kinds_eq_group {tokens slice rest : List Token} {l₁ l₂ : Location}
    (h : kinds tokens = kinds (group l₁ l₂ slice rest)) :
    ∃ l₁' l₂' slice' rest', tokens = group l₁' l₂' slice' rest' ∧ kinds slice' = kinds slice
      ∧ kinds rest' = kinds rest := by
  obtain ⟨l₁', _, rfl, hinside⟩ := exists_of_kinds_eq_cons h
  obtain ⟨slice', _, rfl, hslice, hclosing⟩ := exists_of_kinds_eq_append hinside
  obtain ⟨l₂', rest', rfl, hrest⟩ := exists_of_kinds_eq_cons hclosing
  exact ⟨l₁', l₂', slice', rest', rfl, hslice, hrest⟩

theorem exists_of_kinds_eq_header {slice initial condition increment : List Token}
    {l₁ l₂ : Location} (h : kinds slice = kinds (header l₁ l₂ initial condition increment)) :
    ∃ l₁' l₂' initial' condition' increment', slice = header l₁' l₂' initial' condition' increment'
      ∧ kinds initial' = kinds initial ∧ kinds condition' = kinds condition
      ∧ kinds increment' = kinds increment := by
  obtain ⟨initial', _, rfl, hinitial, hfirst⟩ := exists_of_kinds_eq_append h
  obtain ⟨l₁', _, rfl, hmiddle⟩ := exists_of_kinds_eq_cons hfirst
  obtain ⟨condition', _, rfl, hcondition, hsecond⟩ := exists_of_kinds_eq_append hmiddle
  obtain ⟨l₂', increment', rfl, hincrement⟩ := exists_of_kinds_eq_cons hsecond
  exact ⟨l₁', l₂', initial', condition', increment', rfl, hinitial, hcondition, hincrement⟩

theorem ne_nil_of_kinds_eq {a b : List Token} (h : kinds a = kinds b) (hne : b ≠ []) : a ≠ [] := by
  rintro rfl
  exact hne (List.map_eq_nil_iff.mp h.symm)

theorem endsValue_of_kinds {t : Token} {l : Location} {rest rest' : List Token}
    (h : kinds rest' = kinds rest) : endsValue ⟨t.kind, l⟩ rest' = endsValue t rest := by
  have hhead : ∀ tokens : List Token, tokens.head?.any (·.isOperator .assign)
      = (kinds tokens).head?.any (· == .operator .assign) := by
    intro tokens
    cases tokens <;> rfl
  rw [endsValue, endsValue, hhead, hhead, h]
  rfl

theorem RunsTo.of_kinds {slice slice' rest rest' : List Token} (h : RunsTo slice rest)
    (hslice : kinds slice' = kinds slice) (hrest : kinds rest' = kinds rest) :
    RunsTo slice' rest' := by
  induction slice generalizing slice' with
  | nil =>
    obtain rfl := List.map_eq_nil_iff.mp hslice
    rintro t' more' rfl
    obtain ⟨l, more, rfl, hmore⟩ := exists_of_kinds_eq_cons hrest.symm
    have hends := h _ more rfl
    rwa [endsValue_of_kinds hmore] at hends
  | cons t slice ih =>
    obtain ⟨l, slice', rfl, htail⟩ := exists_of_kinds_eq_cons hslice
    have happend : kinds (slice' ++ rest') = kinds (slice ++ rest) := by
      rw [kinds_append, kinds_append, htail, hrest]
    exact ⟨(endsValue_of_kinds happend).trans h.1, ih h.2 htail⟩

theorem NoBranch.of_kinds {rest rest' : List Token} (h : NoBranch rest)
    (hrest : kinds rest' = kinds rest) : NoBranch rest' := by
  rintro t more rfl
  obtain ⟨l, more', rfl, -⟩ := exists_of_kinds_eq_cons hrest.symm
  exact h ⟨t.kind, l⟩ more' rfl

theorem Idle.of_kinds {t : Token} {l : Location} {rest rest' : List Token} (h : Idle t rest)
    (hrest : kinds rest' = kinds rest) : Idle ⟨t.kind, l⟩ rest' := by
  refine ⟨h.1, ?_⟩
  rintro hname l' more rfl
  obtain ⟨l'', more', rfl, -⟩ := exists_of_kinds_eq_cons hrest.symm
  exact h.2 hname l'' more' rfl

end Kinds

/-! ## Reading a row of the same kinds -/

/-- A statement that may be missing, in front of others. -/
theorem unlocatedAll_toList_append {s' s : Option Statement} {more' more : List Statement}
    (hs : s'.map Statement.unlocated = s.map Statement.unlocated)
    (hmore : Statement.unlocatedAll more' = Statement.unlocatedAll more) :
    Statement.unlocatedAll (s'.toList ++ more') = Statement.unlocatedAll (s.toList ++ more) := by
  cases s' with
  | none =>
    cases s with
    | none => exact hmore
    | some s => cases hs
  | some s' =>
    cases s with
    | none => cases hs
    | some s =>
      simp only [Option.toList_some, List.cons_append, List.nil_append, Statement.unlocatedAll,
        Option.some.inj hs, hmore]

/-- **Rows of the same kinds are read alike.** What is taken off one row is taken off
another of the same kinds, but for its places, and the kinds of what is left are the
same again. -/
theorem Takes.of_kinds {room : Nat} {tokens tokens' rest : List Token} {fragment : Fragment}
    (h : Takes room tokens fragment rest) (hk : Token.kinds tokens' = Token.kinds tokens) :
    ∃ fragment' rest', Takes room tokens' fragment' rest' ∧ fragment'.Same fragment
      ∧ Token.kinds rest' = Token.kinds rest := by
  -- The other row is cut where the first is, and each condition asks for kinds alone.
  induction h generalizing tokens' with
  | declare l l₁ l₂ mutability name hne hruns =>
    obtain ⟨l', _, rfl, hk₁⟩ := exists_of_kinds_eq_cons hk
    obtain ⟨l₁', _, rfl, hk₂⟩ := exists_of_kinds_eq_cons hk₁
    obtain ⟨l₂', _, rfl, hk₃⟩ := exists_of_kinds_eq_cons hk₂
    obtain ⟨value', rest', rfl, hvalue, hrest⟩ := exists_of_kinds_eq_append hk₃
    refine ⟨_, rest', .declare l' l₁' l₂' mutability name (ne_nil_of_kinds_eq hvalue hne)
      (hruns.of_kinds hvalue hrest), .statement ?_, hrest⟩
    simp only [Option.map_some, Statement.unlocated, Token.map_unlocated_eq_iff.mpr hvalue]
  | assign l l₁ name hne hruns =>
    obtain ⟨l', _, rfl, hk₁⟩ := exists_of_kinds_eq_cons hk
    obtain ⟨l₁', _, rfl, hk₂⟩ := exists_of_kinds_eq_cons hk₁
    obtain ⟨value', rest', rfl, hvalue, hrest⟩ := exists_of_kinds_eq_append hk₂
    refine ⟨_, rest', .assign l' l₁' name (ne_nil_of_kinds_eq hvalue hne)
      (hruns.of_kinds hvalue hrest), .statement ?_, hrest⟩
    simp only [Option.map_some, Statement.unlocated, Token.map_unlocated_eq_iff.mpr hvalue]
  | output l l₁ l₂ hne hbalanced =>
    obtain ⟨l', _, rfl, hk₁⟩ := exists_of_kinds_eq_cons hk
    obtain ⟨l₁', l₂', value', rest', rfl, hvalue, hrest⟩ := exists_of_kinds_eq_group hk₁
    rw [← hvalue] at hbalanced
    refine ⟨_, rest', .output l' l₁' l₂' (ne_nil_of_kinds_eq hvalue hne) hbalanced,
      .statement ?_, hrest⟩
    simp only [Option.map_some, Statement.unlocated, Token.map_unlocated_eq_iff.mpr hvalue]
  | choice l l₁ l₂ hne hbalanced _ _ ihbody ihmore =>
    obtain ⟨l', _, rfl, hk₁⟩ := exists_of_kinds_eq_cons hk
    obtain ⟨l₁', l₂', condition', _, rfl, hcondition, hahead⟩ := exists_of_kinds_eq_group hk₁
    obtain ⟨_, _, hbody', _ | ⟨hbody⟩, hmid⟩ := ihbody hahead
    obtain ⟨_, rest', hmore', _ | _ | ⟨hmore⟩, hrest⟩ := ihmore hmid
    rw [← hcondition] at hbalanced
    refine ⟨_, rest', .choice l' l₁' l₂' (ne_nil_of_kinds_eq hcondition hne) hbalanced hbody'
      hmore', .statement ?_, hrest⟩
    simp only [Option.map_some, Statement.unlocated, StatementChain.unlocated,
      Token.map_unlocated_eq_iff.mpr hcondition, hbody, hmore]
  | whileLoop l l₁ l₂ hne hbalanced _ ihbody =>
    obtain ⟨l', _, rfl, hk₁⟩ := exists_of_kinds_eq_cons hk
    obtain ⟨l₁', l₂', condition', _, rfl, hcondition, hahead⟩ := exists_of_kinds_eq_group hk₁
    obtain ⟨_, rest', hbody', _ | ⟨hbody⟩, hrest⟩ := ihbody hahead
    rw [← hcondition] at hbalanced
    refine ⟨_, rest', .whileLoop l' l₁' l₂' (ne_nil_of_kinds_eq hcondition hne) hbalanced hbody',
      .statement ?_, hrest⟩
    simp only [Option.map_some, Statement.unlocated, Token.map_unlocated_eq_iff.mpr hcondition,
      hbody]
  | forLoop l l₁ l₂ l₃ l₄ hinitial hcondition hincrement hbalanced _ ihbody =>
    obtain ⟨l', _, rfl, hk₁⟩ := exists_of_kinds_eq_cons hk
    obtain ⟨l₁', l₂', _, _, rfl, hheader, hahead⟩ := exists_of_kinds_eq_group hk₁
    rw [← hheader] at hbalanced
    obtain ⟨l₃', l₄', initial', condition', increment', rfl, hi, hc, hs⟩ :=
      exists_of_kinds_eq_header hheader
    obtain ⟨_, rest', hbody', _ | ⟨hbody⟩, hrest⟩ := ihbody hahead
    rw [Undivided, ← hi] at hinitial
    rw [Undivided, ← hc] at hcondition
    rw [Undivided, ← hs] at hincrement
    refine ⟨_, rest', .forLoop l' l₁' l₂' l₃' l₄' hinitial hcondition hincrement hbalanced hbody',
      .statement ?_, hrest⟩
    simp only [Option.map_some, Statement.unlocated, Token.map_unlocated_eq_iff.mpr hi,
      Token.map_unlocated_eq_iff.mpr hc, Token.map_unlocated_eq_iff.mpr hs, hbody]
  | breakLoop l =>
    obtain ⟨l', rest', rfl, hrest⟩ := exists_of_kinds_eq_cons hk
    exact ⟨_, rest', .breakLoop l', .statement rfl, hrest⟩
  | continueLoop l =>
    obtain ⟨l', rest', rfl, hrest⟩ := exists_of_kinds_eq_cons hk
    exact ⟨_, rest', .continueLoop l', .statement rfl, hrest⟩
  | idle h =>
    obtain ⟨l', rest', rfl, hrest⟩ := exists_of_kinds_eq_cons hk
    exact ⟨_, rest', .idle (h.of_kinds hrest), .statement rfl, hrest⟩
  | block l₁ l₂ _ ih =>
    obtain ⟨l₁', _, rfl, hk₁⟩ := exists_of_kinds_eq_cons hk
    obtain ⟨_, _, hbody', _ | _ | _ | ⟨hbody⟩, hclosing⟩ := ih hk₁
    obtain ⟨l₂', rest', rfl, hrest⟩ := exists_of_kinds_eq_cons hclosing
    exact ⟨_, rest', .block l₁' l₂' hbody', .block hbody, hrest⟩
  | elseIf l l₁ l₂ hne hbalanced _ _ ihbody ihmore =>
    obtain ⟨l', _, rfl, hk₁⟩ := exists_of_kinds_eq_cons hk
    obtain ⟨l₁', l₂', condition', _, rfl, hcondition, hahead⟩ := exists_of_kinds_eq_group hk₁
    obtain ⟨_, _, hbody', _ | ⟨hbody⟩, hmid⟩ := ihbody hahead
    obtain ⟨_, rest', hmore', _ | _ | ⟨hmore⟩, hrest⟩ := ihmore hmid
    rw [← hcondition] at hbalanced
    refine ⟨_, rest', .elseIf l' l₁' l₂' (ne_nil_of_kinds_eq hcondition hne) hbalanced hbody'
      hmore', .chain ?_, hrest⟩
    simp only [StatementChain.unlocated, Token.map_unlocated_eq_iff.mpr hcondition, hbody, hmore]
  | otherwise l _ ihbody =>
    obtain ⟨l', _, rfl, hk₁⟩ := exists_of_kinds_eq_cons hk
    obtain ⟨_, rest', hbody', _ | ⟨hbody⟩, hrest⟩ := ihbody hk₁
    refine ⟨_, rest', .otherwise l' hbody', .chain ?_, hrest⟩
    simp only [StatementChain.unlocated, hbody]
  | noBranch h => exact ⟨_, tokens', .noBranch (h.of_kinds hk), .chain rfl, hk⟩
  | nothing inBlock =>
    obtain rfl := List.map_eq_nil_iff.mp hk
    exact ⟨_, [], .nothing inBlock, .sequence rfl, rfl⟩
  | brace l =>
    obtain ⟨l', rest', rfl, hrest⟩ := exists_of_kinds_eq_cons hk
    exact ⟨_, _, .brace l', .sequence rfl, hk⟩
  | @next _ t ahead mid _ inBlock s more hgoes _ _ ihfirst ihmore =>
    obtain ⟨_, mid', hfirst', ⟨hfirst⟩, hmid⟩ := ihfirst hk
    obtain ⟨_, rest', hmore', _ | _ | _ | ⟨hmore⟩, hrest⟩ := ihmore hmid
    obtain ⟨l', ahead', rfl, -⟩ := exists_of_kinds_eq_cons hk
    refine ⟨_, rest', .next hgoes hfirst' hmore', .sequence ?_, hrest⟩
    exact unlocatedAll_toList_append hfirst hmore

/-- Rows of the same kinds are the same programs but for their places. -/
theorem parse_of_kinds {tokens tokens' : List Token} {p : Program} (h : parse tokens = .ok p)
    (hk : Token.kinds tokens' = Token.kinds tokens) :
    ∃ p', parse tokens' = .ok p' ∧ p'.unlocated = p.unlocated := by
  obtain ⟨l₁, l₂, l₃, inside, rfl, htakes⟩ := parse_iff_takes.mp h
  obtain ⟨l₁', _, rfl, hk₁⟩ := exists_of_kinds_eq_cons hk
  obtain ⟨l₂', _, rfl, hk₂⟩ := exists_of_kinds_eq_cons hk₁
  obtain ⟨inside', _, rfl, hinside, hk₃⟩ := exists_of_kinds_eq_append hk₂
  obtain ⟨l₃', _, rfl, hk₄⟩ := exists_of_kinds_eq_cons hk₃
  obtain rfl := List.map_eq_nil_iff.mp hk₄
  obtain ⟨_, rest', htakes', _ | _ | _ | ⟨hbody⟩, hrest⟩ := htakes.of_kinds hinside
  obtain rfl := List.map_eq_nil_iff.mp hrest
  refine ⟨⟨_⟩, parse_iff_takes.mpr ⟨l₁', l₂', l₃', inside', rfl, htakes'⟩, ?_⟩
  exact congrArg Program.mk hbody

end Program

end Lipi
