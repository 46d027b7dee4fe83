/-
The parser of programs reads exactly the grammar.

Soundness follows the readers: what a reader returns was taken off the tokens it was
given (`Takes`). The loops over statements and over branches recur on the tokens that
are left, and blocks on the room for them, so each of the three is its own induction
and the one about blocks ties them together. Completeness is one induction on the
relation: whatever is taken off a row of tokens, the reader of that fragment returns
it from any cursor at that row, with what has been read before in front of it.

Both together say when a row of tokens is a program, and which (`parse_iff_takes`);
what the parser did to find out is not mentioned again.
-/
import Lipi.Proofs.Program.Reading

set_option autoImplicit false

namespace Lipi

namespace Program

/-! ## Soundness -/

/-- What a reader of blocks returns was taken off its tokens. -/
def BlockReader.Sound (room : Nat) (block : BlockReader) : Prop :=
  ∀ {c c' : TokenCursor} {body : List Statement}, Returns (block c) body c' →
    Takes room c.ahead (.block body) c'.ahead

section Soundness

variable {room : Nat} {block : BlockReader}

theorem exists_group_of_test {k : Keyword} {unclosed : SyntaxError.Cause} {place : Location}
    {c c' : TokenCursor} {condition : List Token}
    (h : Returns (test k unclosed place c) condition c') :
    ∃ l₁ l₂, c.ahead = group l₁ l₂ condition c'.ahead ∧ condition ≠ []
      ∧ BalancedFrom 0 (Token.kinds condition) := by
  obtain ⟨hparens, hne⟩ := returns_test_iff.mp h
  obtain ⟨l₁, hc, hbalanced⟩ := returns_parenthesized_iff.mp hparens
  exact ⟨l₁, c'.behind, hc, hne, hbalanced⟩

theorem exists_group_of_branch (hblock : block.Sound room) {k : Keyword} {place : Location}
    {c c' : TokenCursor} {condition : List Token} {body : List Statement}
    (h : Returns (branch block k place c) (condition, body) c') :
    ∃ l₁ l₂ ahead, c.ahead = group l₁ l₂ condition ahead ∧ condition ≠ []
      ∧ BalancedFrom 0 (Token.kinds condition) ∧ Takes room ahead (.block body) c'.ahead := by
  obtain ⟨c₁, htest, hbody⟩ := returns_branch_iff.mp h
  obtain ⟨l₁, l₂, hc, hne, hbalanced⟩ := exists_group_of_test htest
  exact ⟨l₁, l₂, c₁.ahead, hc, hne, hbalanced, hblock hbody⟩

theorem takes_of_chainFrom (hblock : block.Sound room) {c c' : TokenCursor}
    {chain : StatementChain} (h : Returns (chainFrom block c) chain c') :
    Takes room c.ahead (.chain chain) c'.ahead := by
  -- Each turn takes a branch, and a branch leaves fewer tokens.
  induction hn : c.length using Nat.strongRecOn generalizing c chain with
  | ind n ih =>
    rcases returns_chainFrom_iff.mp h with
      ⟨l, rest, condition, body, c₁, more, hc, hbranch, hmore, rfl⟩ | ⟨l, rest, body, hc, hbody, rfl⟩
        | ⟨hnone, rfl, rfl⟩
    · obtain ⟨l₁, l₂, ahead, hrest, hne, hbalanced, hbody⟩ := exists_group_of_branch hblock hbranch
      obtain rfl : rest = _ := hrest
      have hlt : c₁.length < n := by
        have := hbranch.within
        rw [← hn, TokenCursor.length, TokenCursor.length, hc, List.length_cons]
        exact Nat.lt_succ_of_le this
      rw [hc]
      exact .elseIf l l₁ l₂ hne hbalanced hbody (ih c₁.length hlt hmore rfl)
    · rw [hc]
      exact .otherwise l (hblock hbody)
    · refine .noBranch ?_
      rintro ⟨k, l⟩ more ht
      constructor
      · rintro rfl
        exact (hnone l more).1 ht
      · rintro rfl
        exact (hnone l more).2 ht

theorem takes_of_declaration {mutability : Mutability} {l : Location} {c c' : TokenCursor}
    {s : Statement} (h : Returns (declaration mutability l c) s c') :
    Takes room (⟨.keyword mutability.declares, l⟩ :: c.ahead) (.statement (some s)) c'.ahead := by
  obtain ⟨name, l₁, l₂, rest, slice, hc, hvalue, rfl⟩ := returns_declaration_iff.mp h
  obtain ⟨hrest, hruns, hne⟩ := hvalue.runsTo
  obtain rfl : rest = _ := hrest
  rw [hc]
  exact .declare l l₁ l₂ mutability name hne hruns

theorem takes_of_assignment {name : String} {l : Location} {c c' : TokenCursor}
    {item : Option Statement} (h : Returns (assignment name l c) item c') :
    Takes room (⟨.identifier name, l⟩ :: c.ahead) (.statement item) c'.ahead := by
  rcases returns_assignment_iff.mp h with ⟨l₁, rest, slice, hc, hvalue, rfl⟩ | ⟨hnone, rfl, rfl⟩
  · obtain ⟨hrest, hruns, hne⟩ := hvalue.runsTo
    obtain rfl : rest = _ := hrest
    rw [hc]
    exact .assign l l₁ name hne hruns
  · refine .idle ⟨?_, fun _ => hnone⟩
    rintro k ⟨⟩

theorem takes_of_print {l : Location} {c c' : TokenCursor} {s : Statement}
    (h : Returns (print l c) s c') :
    Takes room (⟨.keyword .print, l⟩ :: c.ahead) (.statement (some s)) c'.ahead := by
  obtain ⟨slice, hparens, hne, rfl⟩ := returns_print_iff.mp h
  obtain ⟨l₁, hc, hbalanced⟩ := returns_parenthesized_iff.mp hparens
  rw [hc]
  exact .output l l₁ c'.behind hne hbalanced

theorem takes_of_whileLoop (hblock : block.Sound room) {l : Location} {c c' : TokenCursor}
    {s : Statement} (h : Returns (whileLoop block l c) s c') :
    Takes room (⟨.keyword .whileLoop, l⟩ :: c.ahead) (.statement (some s)) c'.ahead := by
  obtain ⟨condition, c₁, body, htest, hbody, rfl⟩ := returns_whileLoop_iff.mp h
  obtain ⟨l₁, l₂, hc, hne, hbalanced⟩ := exists_group_of_test htest
  rw [hc]
  exact .whileLoop l l₁ l₂ hne hbalanced (hblock hbody)

theorem takes_of_forLoop (hblock : block.Sound room) {l : Location} {c c' : TokenCursor}
    {s : Statement} (h : Returns (forLoop block l c) s c') :
    Takes room (⟨.keyword .forLoop, l⟩ :: c.ahead) (.statement (some s)) c'.ahead := by
  obtain ⟨slice, c₁, initial, condition, increment, body, hparens, hparts, hbody, rfl⟩ :=
    returns_forLoop_iff.mp h
  obtain ⟨l₁, hc, hbalanced⟩ := returns_parenthesized_iff.mp hparens
  obtain ⟨⟨l₃, l₄, rfl⟩, hinitial, hcondition, hincrement⟩ := headerParts_eq_three_iff.mp hparts
  rw [hc]
  exact .forLoop l l₁ c₁.behind l₃ l₄ hinitial hcondition hincrement hbalanced (hblock hbody)

theorem takes_of_choice (hblock : block.Sound room) {l : Location} {c c' : TokenCursor}
    {s : Statement} (h : Returns (choice block l c) s c') :
    Takes room (⟨.keyword .ifTest, l⟩ :: c.ahead) (.statement (some s)) c'.ahead := by
  obtain ⟨condition, body, c₁, more, hbranch, hmore, rfl⟩ := returns_choice_iff.mp h
  obtain ⟨l₁, l₂, ahead, hc, hne, hbalanced, hbody⟩ := exists_group_of_branch hblock hbranch
  rw [hc]
  exact .choice l l₁ l₂ hne hbalanced hbody (takes_of_chainFrom hblock hmore)

theorem takes_of_statement (hblock : block.Sound room) {t : Token} {c c' : TokenCursor}
    {item : Option Statement} (h : Returns (statement block t c) item c') :
    Takes room (t :: c.ahead) (.statement item) c'.ahead := by
  obtain ⟨kind, l⟩ := t
  -- A token of any other kind is passed over.
  have hidle : (∀ k, kind ≠ .keyword k) → (∀ name, kind ≠ .identifier name) →
      Returns (.ok ⟨none, c, Nat.le_refl _⟩ : Except SyntaxError (Read (Option Statement) c.length))
        item c' → Takes room (⟨kind, l⟩ :: c.ahead) (.statement item) c'.ahead := by
    intro hkeyword hname h
    obtain ⟨rfl, rfl⟩ := returns_ok.mp h
    exact .idle ⟨hkeyword, fun ⟨name, he⟩ => absurd he (hname name)⟩
  cases kind with
  | keyword k =>
    cases k with
    | letDecl =>
      obtain ⟨s, rfl, hs⟩ := returns_map_present.mp h
      exact takes_of_declaration hs
    | constDecl =>
      obtain ⟨s, rfl, hs⟩ := returns_map_present.mp h
      exact takes_of_declaration hs
    | print =>
      obtain ⟨s, rfl, hs⟩ := returns_map_present.mp h
      exact takes_of_print hs
    | whileLoop =>
      obtain ⟨s, rfl, hs⟩ := returns_map_present.mp h
      exact takes_of_whileLoop hblock hs
    | forLoop =>
      obtain ⟨s, rfl, hs⟩ := returns_map_present.mp h
      exact takes_of_forLoop hblock hs
    | ifTest =>
      obtain ⟨s, rfl, hs⟩ := returns_map_present.mp h
      exact takes_of_choice hblock hs
    | breakLoop =>
      obtain ⟨rfl, rfl⟩ := returns_ok.mp h
      exact .breakLoop l
    | continueLoop =>
      obtain ⟨rfl, rfl⟩ := returns_ok.mp h
      exact .continueLoop l
    | start | main | finish | elseIfTest | otherwise => exact absurd h not_returns_error
  | identifier name => exact takes_of_assignment h
  | integer _ | decimal _ | text _ | operator _ | symbol _ => exact hidle nofun nofun h

/-- The statements read before stay in front of those taken now. -/
theorem takes_of_statementsFrom (hblock : block.Sound room) {inBlock : Bool} {stop : Token → Bool}
    (hstop : ∀ t, stop t = true ↔ Closes inBlock t) {bound : Nat} {c c' : TokenCursor}
    {h : c.length ≤ bound} {read body : List Statement}
    (hb : Returns (statementsFrom (statement block) stop c h read) body c') :
    ∃ more, body = read.reverse ++ more
      ∧ Takes room c.ahead (.sequence inBlock more) c'.ahead := by
  -- Each statement, and each token that is passed over, leaves fewer tokens.
  induction hn : c.length using Nat.strongRecOn generalizing c read with
  | ind n ih =>
    rcases returns_statementsFrom_iff.mp hb with
      ⟨hends, rfl, rfl⟩ | ⟨t, rest, s, c₁, h₁, hc, hgoes, hs, hmore⟩
    · refine ⟨[], (List.append_nil _).symm, ?_⟩
      obtain ⟨_ | ⟨⟨k, l⟩, rest⟩, behind⟩ := c'
      · exact .nothing inBlock
      · obtain ⟨rfl, rfl⟩ := (hstop _).mp (hends _ _ rfl)
        exact .brace l
    · have hlt : c₁.length < n := by
        have := hs.within
        rw [← hn, TokenCursor.length, TokenCursor.length, hc, List.length_cons]
        exact Nat.lt_succ_of_le this
      obtain ⟨more, rfl, htakes⟩ := ih c₁.length hlt hmore rfl
      have hreverse : (s.toList ++ read).reverse ++ more = read.reverse ++ (s.toList ++ more) := by
        cases s <;> simp
      refine ⟨s.toList ++ more, hreverse, ?_⟩
      rw [hc]
      have hgoes : ¬ Closes inBlock t := fun h => Bool.eq_false_iff.mp hgoes ((hstop t).mpr h)
      exact .next hgoes (takes_of_statement hblock hs) htakes

end Soundness

/-- A row of statements leaves nothing, or what starts with the token that ends it. -/
theorem Takes.closes {room : Nat} {tokens rest : List Token} {inBlock : Bool}
    {body : List Statement} (h : Takes room tokens (.sequence inBlock body) rest) {t : Token}
    {more : List Token} (hrest : rest = t :: more) : Closes inBlock t := by
  generalize hf : Fragment.sequence inBlock body = fragment at h
  induction h generalizing body with
  | nothing => cases hrest
  | brace l =>
    cases hf
    cases hrest
    exact ⟨rfl, rfl⟩
  | next _ _ _ _ ih =>
    cases hf
    exact ih hrest rfl
  | _ => cases hf

theorem isSymbol_closeBrace_iff (t : Token) :
    t.isSymbol .closeBrace = true ↔ Closes true t := by
  simp [Token.isSymbol, Closes]

theorem sound_block (room : Nat) : BlockReader.Sound room (block room) := by
  -- By induction on the room: the blocks inside a block have one less.
  induction room with
  | zero =>
    intro c c' body h
    obtain ⟨_, _, _, _, _, _, he, -⟩ := returns_block_iff.mp h
    cases he
  | succ room ih =>
    intro c c' body h
    obtain ⟨_, l, rest, k, _, c₁, he, hc, hb, hc₁⟩ := returns_block_iff.mp h
    cases he
    obtain ⟨more, rfl, htakes⟩ := takes_of_statementsFrom ih isSymbol_closeBrace_iff hb
    obtain ⟨-, rfl⟩ : true = true ∧ k = .symbol .closeBrace := htakes.closes hc₁
    rw [hc₁] at htakes
    rw [hc]
    exact .block l c'.behind htakes

/-! ## Completeness -/

/-- The reader of a fragment takes it off a row of tokens, with the same tokens left. -/
def Fragment.Accepts (room : Nat) (tokens : List Token) : Fragment → List Token → Prop
  | statement item, rest => ∃ t ahead, tokens = t :: ahead ∧ ∃ c' : TokenCursor, c'.ahead = rest
      ∧ Returns (Program.statement (Program.block room) t ⟨ahead, t.location⟩) item c'
  | block body, rest => ∀ c : TokenCursor, c.ahead = tokens → ∃ c' : TokenCursor, c'.ahead = rest
      ∧ Returns (Program.block room c) body c'
  | chain branches, rest => ∀ c : TokenCursor, c.ahead = tokens → ∃ c' : TokenCursor, c'.ahead = rest
      ∧ Returns (chainFrom (Program.block room) c) branches c'
  | sequence inBlock body, rest => ∀ (stop : Token → Bool), (∀ t, stop t = true ↔ Closes inBlock t) →
      ∀ (bound : Nat) (c : TokenCursor) (h : c.length ≤ bound) (read : List Statement),
      c.ahead = tokens → ∃ c' : TokenCursor, c'.ahead = rest
        ∧ Returns (statementsFrom (Program.statement (Program.block room)) stop c h read)
            (read.reverse ++ body) c'

theorem returns_test_of_group {k : Keyword} {unclosed : SyntaxError.Cause} {place : Location}
    {c : TokenCursor} {condition rest : List Token} {l₁ l₂ : Location}
    (hc : c.ahead = group l₁ l₂ condition rest) (hne : condition ≠ [])
    (hbalanced : BalancedFrom 0 (Token.kinds condition)) :
    Returns (test k unclosed place c) condition ⟨rest, l₂⟩ :=
  returns_test_iff.mpr ⟨returns_parenthesized_iff.mpr ⟨l₁, hc, hbalanced⟩, hne⟩

theorem returns_branch_of_group {block : BlockReader} {k : Keyword} {l : Location}
    {c c' : TokenCursor} {condition rest : List Token} {body : List Statement} {l₁ l₂ : Location}
    (hc : c.ahead = group l₁ l₂ condition rest) (hne : condition ≠ [])
    (hbalanced : BalancedFrom 0 (Token.kinds condition))
    (hbody : Returns (block ⟨rest, l₂⟩) body c') :
    Returns (branch block k l c) (condition, body) c' :=
  returns_branch_iff.mpr ⟨⟨rest, l₂⟩, returns_test_of_group hc hne hbalanced, hbody⟩

theorem returns_assignment_of_idle {name : String} {place : Location} {c : TokenCursor}
    (h : ∀ l rest, c.ahead ≠ ⟨.operator .assign, l⟩ :: rest) :
    Returns (assignment name place c) none c :=
  returns_assignment_iff.mpr (.inr ⟨h, rfl, rfl⟩)

theorem returns_statement_of_idle {block : BlockReader} {t : Token} {c : TokenCursor}
    (h : Idle t c.ahead) : Returns (statement block t c) none c := by
  obtain ⟨kind, l⟩ := t
  obtain ⟨hkeyword, hname⟩ := h
  cases kind with
  | keyword k => exact absurd rfl (hkeyword k)
  | identifier name => exact returns_assignment_of_idle (hname ⟨name, rfl⟩)
  | integer _ | decimal _ | text _ | operator _ | symbol _ => exact returns_ok.mpr ⟨rfl, rfl⟩

/-- Whatever is taken off a row of tokens, its reader takes. -/
theorem Takes.accepts {room : Nat} {tokens rest : List Token} {fragment : Fragment}
    (h : Takes room tokens fragment rest) : fragment.Accepts room tokens rest := by
  -- One case a rule: what it takes is what the equivalence of its reader asks for.
  induction h with
  | declare l l₁ l₂ mutability name hne hruns =>
    obtain ⟨c', rfl, hvalue⟩ := HasValue.of_runsTo (c := ⟨_, l₂⟩) rfl hruns hne
    refine ⟨_, _, rfl, c', rfl, ?_⟩
    cases mutability with
    | mutable =>
      exact returns_map_present.mpr ⟨_, rfl, returns_declaration_iff.mpr
        ⟨name, l₁, l₂, _, _, rfl, hvalue, rfl⟩⟩
    | constant =>
      exact returns_map_present.mpr ⟨_, rfl, returns_declaration_iff.mpr
        ⟨name, l₁, l₂, _, _, rfl, hvalue, rfl⟩⟩
  | assign l l₁ name hne hruns =>
    obtain ⟨c', rfl, hvalue⟩ := HasValue.of_runsTo (c := ⟨_, l₁⟩) rfl hruns hne
    exact ⟨_, _, rfl, c', rfl, returns_assignment_iff.mpr (.inl ⟨l₁, _, _, rfl, hvalue, rfl⟩)⟩
  | output l l₁ l₂ hne hbalanced =>
    refine ⟨_, _, rfl, ⟨_, l₂⟩, rfl, returns_map_present.mpr ⟨_, rfl, ?_⟩⟩
    exact returns_print_iff.mpr ⟨_, returns_parenthesized_iff.mpr ⟨l₁, rfl, hbalanced⟩, hne, rfl⟩
  | choice l l₁ l₂ hne hbalanced _ _ ihbody ihmore =>
    obtain ⟨c₁, hc₁, hbody⟩ := ihbody ⟨_, l₂⟩ rfl
    obtain ⟨c', hc', hmore⟩ := ihmore c₁ hc₁
    refine ⟨_, _, rfl, c', hc', returns_map_present.mpr ⟨_, rfl, ?_⟩⟩
    refine returns_choice_iff.mpr ⟨_, _, c₁, _, ?_, hmore, rfl⟩
    exact returns_branch_of_group rfl hne hbalanced hbody
  | whileLoop l l₁ l₂ hne hbalanced _ ihbody =>
    obtain ⟨c', hc', hbody⟩ := ihbody ⟨_, l₂⟩ rfl
    refine ⟨_, _, rfl, c', hc', returns_map_present.mpr ⟨_, rfl, ?_⟩⟩
    exact returns_whileLoop_iff.mpr ⟨_, _, _, returns_test_of_group rfl hne hbalanced, hbody, rfl⟩
  | forLoop l l₁ l₂ l₃ l₄ hinitial hcondition hincrement hbalanced _ ihbody =>
    obtain ⟨c', hc', hbody⟩ := ihbody ⟨_, l₂⟩ rfl
    refine ⟨_, _, rfl, c', hc', returns_map_present.mpr ⟨_, rfl, ?_⟩⟩
    exact returns_forLoop_iff.mpr ⟨_, _, _, _, _, _,
      returns_parenthesized_iff.mpr ⟨l₁, rfl, hbalanced⟩,
      headerParts_eq_three_iff.mpr ⟨⟨l₃, l₄, rfl⟩, hinitial, hcondition, hincrement⟩, hbody, rfl⟩
  | breakLoop l => exact ⟨_, _, rfl, ⟨_, l⟩, rfl, returns_ok.mpr ⟨rfl, rfl⟩⟩
  | continueLoop l => exact ⟨_, _, rfl, ⟨_, l⟩, rfl, returns_ok.mpr ⟨rfl, rfl⟩⟩
  | idle h => exact ⟨_, _, rfl, _, rfl, returns_statement_of_idle h⟩
  | @block _ ahead _ _ l₁ l₂ _ ih =>
    intro c hc
    have hlength : ahead.length ≤ c.length - 1 := by
      rw [TokenCursor.length, hc]
      exact Nat.le_refl _
    obtain ⟨c₁, hc₁, hbody⟩ := ih _ isSymbol_closeBrace_iff _ ⟨_, l₁⟩ hlength [] rfl
    exact ⟨⟨_, l₂⟩, rfl, returns_block_iff.mpr ⟨_, l₁, _, _, hlength, c₁, rfl, hc, hbody, hc₁⟩⟩
  | elseIf l l₁ l₂ hne hbalanced _ _ ihbody ihmore =>
    intro c hc
    obtain ⟨c₁, hc₁, hbody⟩ := ihbody ⟨_, l₂⟩ rfl
    obtain ⟨c', hc', hmore⟩ := ihmore c₁ hc₁
    refine ⟨c', hc', returns_chainFrom_iff.mpr (.inl ⟨l, _, _, _, c₁, _, hc, ?_, hmore, rfl⟩)⟩
    exact returns_branch_of_group rfl hne hbalanced hbody
  | otherwise l _ ihbody =>
    intro c hc
    obtain ⟨c', hc', hbody⟩ := ihbody ⟨_, l⟩ rfl
    exact ⟨c', hc', returns_chainFrom_iff.mpr (.inr (.inl ⟨l, _, _, hc, hbody, rfl⟩))⟩
  | noBranch hnone =>
    intro c hc
    refine ⟨c, hc, returns_chainFrom_iff.mpr (.inr (.inr ⟨fun l rest => ⟨?_, ?_⟩, rfl, rfl⟩))⟩
    · intro he
      exact (hnone _ _ (hc.symm.trans he)).1 rfl
    · intro he
      exact (hnone _ _ (hc.symm.trans he)).2 rfl
  | nothing inBlock =>
    intro stop hstop bound c h read hc
    refine ⟨c, hc, returns_statementsFrom_iff.mpr (.inl ⟨?_, List.append_nil _, rfl⟩)⟩
    intro t rest he
    rw [hc] at he
    cases he
  | brace l =>
    intro stop hstop bound c h read hc
    refine ⟨c, hc, returns_statementsFrom_iff.mpr (.inl ⟨?_, List.append_nil _, rfl⟩)⟩
    intro t rest he
    rw [hc] at he
    cases he
    exact (hstop _).mpr ⟨rfl, rfl⟩
  | @next _ t ahead mid _ _ s more hgoes _ _ ihfirst ihmore =>
    intro stop hstop bound c h read hc
    obtain ⟨_, _, he, c₁, hc₁, hs⟩ := ihfirst
    cases he
    have hlength : c₁.length ≤ bound := by
      refine Nat.le_trans hs.within (Nat.le_trans ?_ h)
      rw [TokenCursor.length, TokenCursor.length, hc]
      exact Nat.le_succ _
    obtain ⟨c', hc', hmore⟩ := ihmore stop hstop bound c₁ hlength (s.toList ++ read) hc₁
    have hreverse : (s.toList ++ read).reverse ++ more = read.reverse ++ (s.toList ++ more) := by
      cases s <;> simp
    rw [hreverse] at hmore
    have hgoes : stop t = false := Bool.eq_false_iff.mpr fun he => hgoes ((hstop t).mp he)
    exact ⟨c', hc', returns_statementsFrom_iff.mpr
      (.inr ⟨t, ahead, s, c₁, hlength, hc, hgoes, hs, hmore⟩)⟩

/-! ## Programs -/

/-- **Which programs a row of tokens can be read as.** A program stands between the words
of its skeleton, as a row of statements that leaves nothing. -/
theorem parse_iff_takes {tokens : List Token} {p : Program} :
    parse tokens = .ok p ↔ ∃ l₁ l₂ l₃ inside,
      tokens = ⟨.keyword .start, l₁⟩ :: ⟨.keyword .main, l₂⟩
          :: (inside ++ [⟨.keyword .finish, l₃⟩])
        ∧ Takes nestingLimit inside (.sequence false p.body) [] := by
  have hstop : ∀ t : Token, false = true ↔ Closes false t := by simp [Closes]
  rw [parse_eq_ok_iff]
  constructor
  · rintro ⟨l₁, l₂, l₃, inside, c', htokens, hbody⟩
    obtain ⟨more, hmore, htakes⟩ :=
      takes_of_statementsFrom (sound_block nestingLimit) hstop hbody
    have hnil : c'.ahead = [] := by
      cases hrest : c'.ahead with
      | nil => rfl
      | cons t rest => exact absurd (htakes.closes hrest).1 Bool.false_ne_true
    rw [hnil] at htakes
    obtain rfl : p.body = more := hmore
    exact ⟨l₁, l₂, l₃, inside, htokens, htakes⟩
  · rintro ⟨l₁, l₂, l₃, inside, htokens, htakes⟩
    obtain ⟨c', -, hbody⟩ := htakes.accepts _ hstop _ ⟨inside, l₂⟩ (Nat.le_refl _) [] rfl
    exact ⟨l₁, l₂, l₃, inside, c', htokens, hbody⟩

end Program

end Lipi
