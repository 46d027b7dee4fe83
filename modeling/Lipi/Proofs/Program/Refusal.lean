/-
A print that cannot be read.

Reading goes from the front, and nothing that is read reaches over a keyword: a value ends before
one, a choice sees in it that no branch follows, and in parentheses there is none, if the slices
hold no keywords. So what stands behind the keyword of a print decides nothing about what is taken
before it (`Takes.refused_or_left`). Put other tokens there, and whatever left the print as it was
is taken as before and leaves it with the other tokens. Whatever had taken the print comes to it
again, and if no print can be read from the other tokens its reader fails with the error of the
print, for no reader replaces an error by another.

A print cannot be read if its parenthesis is never closed, and it is not if the tokens behind the
parenthesis are balanced (`print_unclosed`).
-/
import Lipi.Proofs.Program.Skeleton
import Lipi.Proofs.Program.WellFormed

set_option autoImplicit false

namespace Lipi

namespace Program

/-! ## Failing -/

section Failing

variable {α β : Type} {n : Nat} {answer : Except SyntaxError (Read α n)}
  {next : Read α n → Except SyntaxError β} {e : SyntaxError}

/-- Nothing goes on after an error. -/
theorem bind_of_error (h : answer = .error e) : answer >>= next = .error e := by
  rw [h]
  rfl

/-- What goes on after a reader starts from what it returns. -/
theorem bind_of_returns {item : α} {c' : TokenCursor} (h : Returns answer item c') :
    answer >>= next = next ⟨item, c', h.within⟩ := by
  obtain ⟨_, rfl⟩ := h
  rfl

theorem map_present_of_error {answer : Except SyntaxError (Read Statement n)}
    (h : answer = .error e) : answer.map present = .error e := by
  rw [h]
  rfl

end Failing

/-! ## Readers that fail -/

section Readers

variable {block : BlockReader} {l l₁ l₂ : Location} {c c₁ : TokenCursor}
  {condition rest : List Token} {body : List Statement} {e : SyntaxError}

theorem branch_refused {k : Keyword} (hc : c.ahead = group l₁ l₂ condition rest)
    (hne : condition ≠ []) (hbalanced : BalancedFrom 0 (Token.kinds condition))
    (h : block ⟨rest, l₂⟩ = .error e) : branch block k l c = .error e := by
  rw [branch, bind_of_returns (returns_test_of_group hc hne hbalanced)]
  exact bind_of_error h

theorem whileLoop_refused (hc : c.ahead = group l₁ l₂ condition rest) (hne : condition ≠ [])
    (hbalanced : BalancedFrom 0 (Token.kinds condition)) (h : block ⟨rest, l₂⟩ = .error e) :
    whileLoop block l c = .error e := by
  rw [whileLoop, bind_of_returns (returns_test_of_group hc hne hbalanced)]
  exact bind_of_error h

theorem forLoop_refused {l₃ l₄ : Location} {initial increment : List Token}
    (hc : c.ahead = group l₁ l₂ (header l₃ l₄ initial condition increment) rest)
    (hinitial : Undivided initial) (hcondition : Undivided condition)
    (hincrement : Undivided increment)
    (hbalanced : BalancedFrom 0 (Token.kinds (header l₃ l₄ initial condition increment)))
    (h : block ⟨rest, l₂⟩ = .error e) : forLoop block l c = .error e := by
  have hheader : Returns (parenthesized ⟨.unclosedLoopHeader, l⟩ c)
      (header l₃ l₄ initial condition increment) ⟨rest, l₂⟩ :=
    returns_parenthesized_iff.mpr ⟨l₁, hc, hbalanced⟩
  have hparts : headerParts (header l₃ l₄ initial condition increment)
      = [initial, condition, increment] :=
    headerParts_eq_three_iff.mpr ⟨⟨l₃, l₄, rfl⟩, hinitial, hcondition, hincrement⟩
  rw [forLoop, bind_of_returns hheader]
  dsimp only
  rw [hparts]
  exact bind_of_error h

theorem choice_refused_first (h : branch block .ifTest l c = .error e) :
    choice block l c = .error e :=
  bind_of_error h

theorem choice_refused_more (hbranch : Returns (branch block .ifTest l c) (condition, body) c₁)
    (h : chainFrom block c₁ = .error e) : choice block l c = .error e := by
  rw [choice, bind_of_returns hbranch]
  exact bind_of_error h

theorem chainFrom_refused_branch (hc : c.ahead = ⟨.keyword .elseIfTest, l⟩ :: rest)
    (h : branch block .elseIfTest l ⟨rest, l⟩ = .error e) : chainFrom block c = .error e := by
  obtain ⟨ahead, behind⟩ := c
  obtain rfl : ahead = _ := hc
  rw [chainFrom]
  exact bind_of_error h

theorem chainFrom_refused_more (hc : c.ahead = ⟨.keyword .elseIfTest, l⟩ :: rest)
    (hbranch : Returns (branch block .elseIfTest l ⟨rest, l⟩) (condition, body) c₁)
    (h : chainFrom block c₁ = .error e) : chainFrom block c = .error e := by
  obtain ⟨ahead, behind⟩ := c
  obtain rfl : ahead = _ := hc
  rw [chainFrom]
  exact (bind_of_returns hbranch).trans (bind_of_error h)

theorem chainFrom_refused_last (hc : c.ahead = ⟨.keyword .otherwise, l⟩ :: rest)
    (h : block ⟨rest, l⟩ = .error e) : chainFrom block c = .error e := by
  obtain ⟨ahead, behind⟩ := c
  obtain rfl : ahead = _ := hc
  rw [chainFrom]
  exact bind_of_error h

variable {reader : StatementReader} {stop : Token → Bool} {bound : Nat} {t : Token}
  {read : List Statement}

theorem statementsFrom_refused_first {hbound : c.length ≤ bound} (hc : c.ahead = t :: rest)
    (hgoes : stop t = false) (h : reader t ⟨rest, t.location⟩ = .error e) :
    statementsFrom reader stop c hbound read = .error e := by
  obtain ⟨ahead, behind⟩ := c
  obtain rfl : ahead = _ := hc
  rw [statementsFrom]
  simp only [hgoes, Bool.false_eq_true, if_false]
  exact bind_of_error h

theorem statementsFrom_refused_more {hbound : c.length ≤ bound} {s : Option Statement}
    (hc : c.ahead = t :: rest) (hgoes : stop t = false)
    (hs : Returns (reader t ⟨rest, t.location⟩) s c₁)
    (h : ∀ hbound : c₁.length ≤ bound,
      statementsFrom reader stop c₁ hbound (s.toList ++ read) = .error e) :
    statementsFrom reader stop c hbound read = .error e := by
  obtain ⟨ahead, behind⟩ := c
  obtain rfl : ahead = _ := hc
  rw [statementsFrom]
  simp only [hgoes, Bool.false_eq_true, if_false]
  exact (bind_of_returns hs).trans (h _)

theorem block_refused {room : Nat} (hc : c.ahead = ⟨.symbol .openBrace, l⟩ :: rest)
    (h : ∀ hbound : (TokenCursor.mk rest l).length ≤ c.length - 1,
      statementsFrom (statement (Program.block room)) (·.isSymbol .closeBrace) ⟨rest, l⟩ hbound []
        = .error e) : Program.block (room + 1) c = .error e := by
  have hbrace : Returns (expect (.symbol .openBrace) .plain c) ⟨.symbol .openBrace, l⟩ ⟨rest, l⟩ :=
    returns_expect_iff.mpr ⟨l, rest, hc, rfl, rfl⟩
  rw [Program.block, bind_of_returns hbrace]
  exact bind_of_error (h _)

end Readers

/-! ## The print itself -/

/-- **A parenthesis is never closed if what follows it is balanced.** -/
theorem closingFrom_eq_none {bound : Nat} {ahead : List Token}
    (h : BalancedFrom 0 (Token.kinds ahead)) (hbound : ahead.length ≤ bound) :
    closingFrom ahead hbound 0 [] = none := by
  rw [Option.eq_none_iff_forall_ne_some]
  intro r hr
  -- What stands before the parenthesis that closes it is balanced, so nothing is open there.
  obtain ⟨slice, -, rfl, hslice⟩ := exists_balanced_of_closingFrom hr
  rw [Token.kinds_append, Token.kinds_cons, ← Nat.zero_add 0, balancedFrom_append_iff hslice] at h
  exact not_balancedFrom_closeParen h

theorem print_unclosed {l l₁ : Location} {c : TokenCursor} {ahead : List Token}
    (hc : c.ahead = ⟨.symbol .openParen, l₁⟩ :: ahead) (h : BalancedFrom 0 (Token.kinds ahead)) :
    print l c = .error ⟨.unclosedPrint, l⟩ := by
  have hopen : Returns (expect (.symbol .openParen) .plain c) ⟨.symbol .openParen, l₁⟩
      ⟨ahead, l₁⟩ :=
    returns_expect_iff.mpr ⟨l₁, ahead, hc, rfl, rfl⟩
  have hnone : closingFrom ahead hopen.within 0 [] = none := closingFrom_eq_none h _
  refine bind_of_error ?_
  rw [parenthesized, bind_of_returns hopen]
  simp only [hnone]

/-! ## What a print's keyword separates -/

/-- The keyword of a print, and what follows it. -/
abbrev printed (l : Location) (tail : List Token) : List Token := ⟨.keyword .print, l⟩ :: tail

section Separation

variable {l : Location} {tail tail' before slice rest : List Token} {t : Token}

theorem endsValue_printed :
    endsValue t (before ++ printed l tail) = endsValue t (before ++ printed l tail') := by
  cases before <;> rfl

theorem RunsTo.printed (h : RunsTo slice (before ++ printed l tail)) :
    RunsTo slice (before ++ Program.printed l tail') := by
  induction slice with
  | nil =>
    intro t more he
    rcases before with _ | ⟨u, before⟩
    · cases he
      rfl
    · cases he
      exact endsValue_printed.trans (h _ (before ++ Program.printed l tail) rfl)
  | cons t slice ih =>
    refine ⟨?_, ih h.2⟩
    rw [← List.append_assoc, endsValue_printed, List.append_assoc]
    exact h.1

theorem NoBranch.printed (h : NoBranch (before ++ printed l tail)) :
    NoBranch (before ++ Program.printed l tail') := by
  intro t more he
  rcases before with _ | ⟨u, before⟩
  · cases he
    exact ⟨nofun, nofun⟩
  · cases he
    exact h _ (before ++ Program.printed l tail) rfl

theorem Idle.printed (h : Idle t (before ++ printed l tail)) :
    Idle t (before ++ Program.printed l tail') := by
  refine ⟨h.1, fun hname l' more he => ?_⟩
  rcases before with _ | ⟨u, before⟩
  · cases he
  · cases he
    exact h.2 hname l' (before ++ Program.printed l tail) rfl

/-- A print stands behind a slice without the keyword of one. -/
theorem exists_left (h : slice ++ rest = before ++ printed l tail)
    (hslice : .keyword .print ∉ Token.kinds slice) :
    ∃ before', before = slice ++ before' ∧ rest = before' ++ printed l tail := by
  rcases List.append_eq_append_iff.mp h with h | ⟨mid, rfl, hmid⟩
  · exact h
  · rcases mid with _ | ⟨u, mid⟩
    · exact ⟨[], by simp, hmid.symm⟩
    · obtain ⟨rfl, -⟩ := List.cons.inj hmid
      rw [Token.kinds_append, Token.kinds_cons] at hslice
      exact absurd (List.mem_append_right _ List.mem_cons_self) hslice

theorem exists_left_of_cons (h : t :: rest = before ++ printed l tail)
    (ht : t.kind ≠ .keyword .print) :
    ∃ before', before = t :: before' ∧ rest = before' ++ printed l tail := by
  have hsingle : .keyword .print ∉ Token.kinds [t] := fun he => ht (List.mem_singleton.mp he).symm
  exact exists_left h hsingle

theorem exists_left_of_group {l₁ l₂ : Location}
    (h : group l₁ l₂ slice rest = before ++ printed l tail)
    (hslice : .keyword .print ∉ Token.kinds slice) :
    ∃ before', before = group l₁ l₂ slice before' ∧ rest = before' ++ printed l tail := by
  obtain ⟨inside, rfl, hinside⟩ := exists_left_of_cons h nofun
  obtain ⟨closing, rfl, hclosing⟩ := exists_left hinside hslice
  obtain ⟨before', rfl, hrest⟩ := exists_left_of_cons hclosing nofun
  exact ⟨before', rfl, hrest⟩

/-- A print stands behind a keyword and a slice in parentheses. -/
theorem exists_left_of_headed {l₁ l₂ : Location}
    (h : t :: group l₁ l₂ slice rest = before ++ printed l tail) (ht : t.kind ≠ .keyword .print)
    (hslice : .keyword .print ∉ Token.kinds slice) :
    ∃ before', rest = before' ++ printed l tail
      ∧ before ++ printed l tail' = t :: group l₁ l₂ slice (before' ++ printed l tail') := by
  obtain ⟨inside, rfl, hinside⟩ := exists_left_of_cons h ht
  obtain ⟨before', rfl, hrest⟩ := exists_left_of_group hinside hslice
  exact ⟨before', hrest, by rw [List.cons_append, group_append]⟩

/-- The first token is the print's keyword or stands before it. -/
theorem exists_cons_printed (h : t :: rest = before ++ printed l tail) :
    ∃ ahead, before ++ printed l tail' = t :: ahead := by
  rcases before with _ | ⟨u, before⟩
  · obtain ⟨rfl, -⟩ := List.cons.inj h
    exact ⟨tail', rfl⟩
  · obtain ⟨rfl, -⟩ := List.cons.inj h
    exact ⟨_, rfl⟩

theorem not_mem_of_keywordFree (h : Token.KeywordFree slice) (k : Keyword) :
    .keyword k ∉ Token.kinds slice := by
  intro hmem
  obtain ⟨⟨kind, l⟩, ht, rfl⟩ := List.mem_map.mp hmem
  cases h _ ht

theorem not_mem_opening (h : Token.OpeningKeywordFree slice) :
    .keyword .print ∉ Token.kinds slice := by
  rcases h with h | ⟨l, rest, mutability, rfl, h⟩
  · exact not_mem_of_keywordFree h .print
  · rw [Token.kinds_cons, List.mem_cons, not_or]
    refine ⟨?_, not_mem_of_keywordFree h .print⟩
    cases mutability <;> exact nofun

theorem not_mem_header_of_keywordFree {l₁ l₂ : Location} {initial condition increment : List Token}
    (hinitial : Token.OpeningKeywordFree initial) (hcondition : Token.KeywordFree condition)
    (hincrement : Token.KeywordFree increment) :
    .keyword .print ∉ Token.kinds (header l₁ l₂ initial condition increment) := by
  simp only [kinds_header, List.mem_cons, List.mem_append, not_or]
  exact ⟨not_mem_opening hinitial, nofun, not_mem_of_keywordFree hcondition .print, nofun,
    not_mem_of_keywordFree hincrement .print⟩

end Separation

/-! ## Fragments that are refused -/

/-- The reader of a fragment fails at the front of a row of tokens. -/
def Fragment.Refused (room : Nat) (tokens : List Token) (e : SyntaxError) : Fragment → Prop
  | statement _ => ∃ t ahead, tokens = t :: ahead
      ∧ Program.statement (Program.block room) t ⟨ahead, t.location⟩ = .error e
  | block _ => ∀ c : TokenCursor, c.ahead = tokens → Program.block room c = .error e
  | chain _ => ∀ c : TokenCursor, c.ahead = tokens → chainFrom (Program.block room) c = .error e
  | sequence inBlock _ => ∀ (stop : Token → Bool), (∀ t, stop t = true ↔ Closes inBlock t) →
      ∀ (bound : Nat) (c : TokenCursor) (h : c.length ≤ bound) (read : List Statement),
      c.ahead = tokens →
        statementsFrom (Program.statement (Program.block room)) stop c h read = .error e

section Fragments

variable {l : Location} {tail tail' : List Token} {e : SyntaxError}

/-- **What stands behind a print's keyword decides nothing about what is taken before it.** A
fragment is taken off a row of tokens that holds a print. With other tokens behind the keyword,
from which no print can be read, the reader of the fragment comes to the print and fails with its
error, or the print was left, and then the same fragment is taken and the print is left again. -/
theorem Takes.refused_or_left (hprint : ∀ c : TokenCursor, c.ahead = tail' → print l c = .error e)
    {room : Nat} {tokens rest : List Token} {fragment : Fragment}
    (h : Takes room tokens fragment rest) (hfree : fragment.KeywordFree) {before : List Token}
    (htokens : tokens = before ++ printed l tail) :
    fragment.Refused room (before ++ printed l tail') e
      ∨ ∃ before', rest = before' ++ printed l tail
        ∧ Takes room (before ++ printed l tail') fragment (before' ++ printed l tail') := by
  -- One case a rule. What a rule takes itself holds no print, so the print stands behind it; what
  -- its parts take is by induction, and a part that is refused is the last that is read.
  induction h generalizing before with
  | declare l' l₁ l₂ mutability name hne hruns =>
    have hvalue := not_mem_of_keywordFree (hfree _ rfl) .print
    have hkeyword : Token.Kind.keyword mutability.declares ≠ .keyword .print := by
      cases mutability <;> exact nofun
    obtain ⟨_, rfl, hname⟩ := exists_left_of_cons htokens hkeyword
    obtain ⟨_, rfl, hsign⟩ := exists_left_of_cons hname nofun
    obtain ⟨_, rfl, hslice⟩ := exists_left_of_cons hsign nofun
    obtain ⟨before', rfl, rfl⟩ := exists_left hslice hvalue
    refine .inr ⟨before', rfl, ?_⟩
    simp only [List.cons_append, List.append_assoc]
    exact .declare l' l₁ l₂ mutability name hne hruns.printed
  | assign l' l₁ name hne hruns =>
    have hvalue := not_mem_of_keywordFree (hfree _ rfl) .print
    obtain ⟨_, rfl, hsign⟩ := exists_left_of_cons htokens nofun
    obtain ⟨_, rfl, hslice⟩ := exists_left_of_cons hsign nofun
    obtain ⟨before', rfl, rfl⟩ := exists_left hslice hvalue
    refine .inr ⟨before', rfl, ?_⟩
    simp only [List.cons_append, List.append_assoc]
    exact .assign l' l₁ name hne hruns.printed
  | output l' l₁ l₂ hne hbalanced =>
    have hvalue := not_mem_of_keywordFree (hfree _ rfl) .print
    rcases before with _ | ⟨u, before⟩
    · -- This is the print.
      obtain ⟨he, -⟩ := List.cons.inj htokens
      cases he
      refine .inl ⟨_, tail', rfl, ?_⟩
      exact map_present_of_error (hprint ⟨tail', l⟩ rfl)
    · obtain ⟨rfl, hinside⟩ := List.cons.inj htokens
      obtain ⟨before', rfl, rfl⟩ := exists_left_of_group hinside hvalue
      refine .inr ⟨before', rfl, ?_⟩
      rw [List.cons_append, group_append]
      exact .output l' l₁ l₂ hne hbalanced
  | choice l' l₁ l₂ hne hbalanced _ _ ihbody ihmore =>
    obtain ⟨hcondition, hbody, hmore⟩ := hfree _ rfl
    obtain ⟨inside, hahead, hheaded⟩ :=
      exists_left_of_headed htokens nofun (not_mem_of_keywordFree hcondition .print)
    rw [hheaded]
    rcases ihbody hbody hahead with hrefused | ⟨before₁, hmid, hblock⟩
    · refine .inl ⟨_, _, rfl, ?_⟩
      refine map_present_of_error (choice_refused_first ?_)
      exact branch_refused rfl hne hbalanced (hrefused _ rfl)
    · rcases ihmore hmore hmid with hrefused | ⟨before₂, hrest, hchain⟩
      · obtain ⟨c₁, hc₁, hreturns⟩ := hblock.accepts ⟨_, l₂⟩ rfl
        refine .inl ⟨_, _, rfl, ?_⟩
        exact map_present_of_error (choice_refused_more
          (returns_branch_of_group rfl hne hbalanced hreturns) (hrefused c₁ hc₁))
      · exact .inr ⟨before₂, hrest, .choice l' l₁ l₂ hne hbalanced hblock hchain⟩
  | whileLoop l' l₁ l₂ hne hbalanced _ ihbody =>
    obtain ⟨hcondition, hbody⟩ := hfree _ rfl
    obtain ⟨inside, hahead, hheaded⟩ :=
      exists_left_of_headed htokens nofun (not_mem_of_keywordFree hcondition .print)
    rw [hheaded]
    rcases ihbody hbody hahead with hrefused | ⟨before', hrest, hblock⟩
    · refine .inl ⟨_, _, rfl, ?_⟩
      exact map_present_of_error (whileLoop_refused rfl hne hbalanced (hrefused _ rfl))
    · exact .inr ⟨before', hrest, .whileLoop l' l₁ l₂ hne hbalanced hblock⟩
  | forLoop l' l₁ l₂ l₃ l₄ hinitial hcondition hincrement hbalanced _ ihbody =>
    obtain ⟨hfirst, hsecond, hthird, hbody⟩ := hfree _ rfl
    obtain ⟨inside, hahead, hheaded⟩ := exists_left_of_headed htokens nofun
      (not_mem_header_of_keywordFree hfirst hsecond hthird)
    rw [hheaded]
    rcases ihbody hbody hahead with hrefused | ⟨before', hrest, hblock⟩
    · refine .inl ⟨_, _, rfl, ?_⟩
      exact map_present_of_error
        (forLoop_refused rfl hinitial hcondition hincrement hbalanced (hrefused _ rfl))
    · exact .inr ⟨before', hrest,
        .forLoop l' l₁ l₂ l₃ l₄ hinitial hcondition hincrement hbalanced hblock⟩
  | breakLoop l' =>
    obtain ⟨before', rfl, rfl⟩ := exists_left_of_cons htokens nofun
    exact .inr ⟨before', rfl, .breakLoop l'⟩
  | continueLoop l' =>
    obtain ⟨before', rfl, rfl⟩ := exists_left_of_cons htokens nofun
    exact .inr ⟨before', rfl, .continueLoop l'⟩
  | idle hidle =>
    obtain ⟨before', rfl, rfl⟩ := exists_left_of_cons htokens (hidle.1 _)
    exact .inr ⟨before', rfl, .idle hidle.printed⟩
  | block l₁ l₂ _ ihbody =>
    obtain ⟨before, rfl, hahead⟩ := exists_left_of_cons htokens nofun
    rcases ihbody hfree hahead with hrefused | ⟨closing, hclosing, hbody⟩
    · refine .inl fun c hc => block_refused hc fun hbound => ?_
      exact hrefused _ isSymbol_closeBrace_iff _ _ hbound [] rfl
    · obtain ⟨before', rfl, hrest⟩ := exists_left_of_cons hclosing nofun
      exact .inr ⟨before', hrest, .block l₁ l₂ hbody⟩
  | elseIf l' l₁ l₂ hne hbalanced _ _ ihbody ihmore =>
    obtain ⟨hcondition, hbody, hmore⟩ := hfree
    obtain ⟨inside, hahead, hheaded⟩ :=
      exists_left_of_headed htokens nofun (not_mem_of_keywordFree hcondition .print)
    rw [hheaded]
    rcases ihbody hbody hahead with hrefused | ⟨before₁, hmid, hblock⟩
    · refine .inl fun c hc => chainFrom_refused_branch hc ?_
      exact branch_refused rfl hne hbalanced (hrefused _ rfl)
    · rcases ihmore hmore hmid with hrefused | ⟨before₂, hrest, hchain⟩
      · obtain ⟨c₁, hc₁, hreturns⟩ := hblock.accepts ⟨_, l₂⟩ rfl
        exact .inl fun c hc => chainFrom_refused_more hc
          (returns_branch_of_group rfl hne hbalanced hreturns) (hrefused c₁ hc₁)
      · exact .inr ⟨before₂, hrest, .elseIf l' l₁ l₂ hne hbalanced hblock hchain⟩
  | otherwise l' _ ihbody =>
    obtain ⟨before, rfl, hahead⟩ := exists_left_of_cons htokens nofun
    rcases ihbody hfree hahead with hrefused | ⟨before', hrest, hblock⟩
    · exact .inl fun c hc => chainFrom_refused_last hc (hrefused _ rfl)
    · exact .inr ⟨before', hrest, .otherwise l' hblock⟩
  | noBranch hnone =>
    subst htokens
    exact .inr ⟨before, rfl, .noBranch hnone.printed⟩
  | nothing inBlock =>
    rcases before with _ | ⟨u, before⟩ <;> cases htokens
  | brace l' =>
    obtain ⟨before', rfl, rfl⟩ := exists_left_of_cons htokens nofun
    exact .inr ⟨⟨.symbol .closeBrace, l'⟩ :: before', rfl, .brace l'⟩
  | @next _ t _ _ _ inBlock s more hgoes _ _ ihfirst ihmore =>
    obtain ⟨hfirst, hmore⟩ := Statement.allKeywordFree_append.mp hfree
    have hs : (Fragment.statement s).KeywordFree := by
      rintro s' rfl
      exact hfirst.1
    obtain ⟨ahead, hahead⟩ : ∃ ahead, before ++ printed l tail' = t :: ahead :=
      exists_cons_printed htokens
    have hstop : ∀ {stop : Token → Bool}, (∀ t, stop t = true ↔ Closes inBlock t) →
        stop t = false := fun hstop => Bool.eq_false_iff.mpr fun he => hgoes ((hstop t).mp he)
    rcases ihfirst hs htokens with ⟨_, _, he, hrefused⟩ | ⟨before₁, hmid, htakes⟩
    · obtain ⟨rfl, rfl⟩ := List.cons.inj (hahead.symm.trans he)
      exact .inl fun stop hcloses bound c h read hc =>
        statementsFrom_refused_first (hc.trans hahead) (hstop hcloses) hrefused
    · rcases ihmore hmore hmid with hrefused | ⟨before₂, hrest, hsequence⟩
      · obtain ⟨_, _, he, c₁, hc₁, hreturns⟩ := htakes.accepts
        obtain ⟨rfl, rfl⟩ := List.cons.inj (hahead.symm.trans he)
        exact .inl fun stop hcloses bound c h read hc =>
          statementsFrom_refused_more (hc.trans hahead) (hstop hcloses) hreturns fun hbound =>
            hrefused stop hcloses bound c₁ hbound _ hc₁
      · refine .inr ⟨before₂, hrest, ?_⟩
        rw [hahead] at htakes ⊢
        exact .next hgoes htakes hsequence

/-! ## Programs -/

/-- **A program with a print that cannot be read is refused** with the error of the print, if it
is one with other tokens behind the print's keyword. -/
theorem parse_refused (hprint : ∀ c : TokenCursor, c.ahead = tail' → print l c = .error e)
    {before : List Token} {body : List Statement}
    (h : Takes nestingLimit (before ++ printed l tail) (.sequence false body) [])
    (hfree : Statement.AllKeywordFree body) (l₁ l₂ l₃ : Location) :
    parse (⟨.keyword .start, l₁⟩ :: ⟨.keyword .main, l₂⟩
      :: (before ++ printed l tail' ++ [⟨.keyword .finish, l₃⟩])) = .error e := by
  rcases h.refused_or_left hprint hfree rfl with hrefused | ⟨before', hnil, -⟩
  · have hstart : ∀ tokens, Returns (expect (.keyword .start) .programStart
        (.ofTokens (⟨.keyword .start, l₁⟩ :: tokens))) ⟨.keyword .start, l₁⟩ ⟨tokens, l₁⟩ :=
      fun tokens => returns_expect_iff.mpr ⟨l₁, tokens, rfl, rfl, rfl⟩
    have hmain : ∀ tokens, Returns (expect (.keyword .main) .programMain
        ⟨⟨.keyword .main, l₂⟩ :: tokens, l₁⟩) ⟨.keyword .main, l₂⟩ ⟨tokens, l₂⟩ :=
      fun tokens => returns_expect_iff.mpr ⟨l₂, tokens, rfl, rfl, rfl⟩
    have hframe : ∀ inside, unframed ⟨inside ++ [⟨.keyword .finish, l₃⟩], l₂⟩ = .ok ⟨inside, l₂⟩ :=
      fun inside => unframed_eq_ok_iff.mpr ⟨l₃, rfl, rfl⟩
    have hstop : ∀ t : Token, false = true ↔ Closes false t := by simp [Closes]
    rw [parse, bind_of_returns (hstart _), bind_of_returns (hmain _), hframe]
    exact bind_of_error (hrefused _ hstop _ ⟨_, l₂⟩ (Nat.le_refl _) [] rfl)
  · -- Nothing is left behind a program, and no print.
    rcases before' with _ | ⟨t, before'⟩ <;> cases hnil

end Fragments

end Program

end Lipi
