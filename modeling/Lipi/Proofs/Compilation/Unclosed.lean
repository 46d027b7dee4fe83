/-
A print whose parenthesis is not closed.

Of a program that compiles it can be said where its parentheses stand, not only slice by slice but
in the whole row of its tokens (`Token.Level`): all are closed, and no print stands inside one. The
slices that are read as expressions close what they open, those in parentheses do so because the
program is well formed, and between the slices there are only the parentheses of the statements
themselves (`Statement.level_lower`).

Take away a parenthesis that closes something in a print, and one more is opened than closed from
there to the end of the program, whatever follows. So the scan for the parenthesis that closes the
print's comes to the end without one, and since nothing before the print is read in another way,
the program is refused for this print and no other (`parse_unclosed`).
-/
import Lipi.Proofs.Compilation.Skeleton
import Lipi.Proofs.Expr.Arguments
import Lipi.Proofs.Program.Refusal
import Lipi.Proofs.Program.Rendering
import Lipi.Proofs.Script.Bare

set_option autoImplicit false

namespace Lipi

/-! ## Parentheses and prints -/

/-- A row that closes the parentheses it opens, with no print inside one. -/
structure Token.Level (kinds : List Token.Kind) : Prop where
  balanced : Program.BalancedFrom 0 kinds
  outside : ∀ before after, kinds = before ++ .keyword .print :: after →
    Program.BalancedFrom 0 before

namespace Program

variable {m : Nat} {kinds a b : List Token.Kind} {slice rest : List Token}

/-- Behind a slice in parentheses no more is open than before them. -/
theorem balancedFrom_group {l₁ l₂ : Location} (h : BalancedFrom 0 (Token.kinds slice)) :
    BalancedFrom 0 (Token.kinds (group l₁ l₂ slice rest)) ↔ BalancedFrom 0 (Token.kinds rest) := by
  rw [group, Token.kinds_cons, Token.kinds_append, Token.kinds_cons, balancedFrom_openParen,
    balancedFrom_append_iff h]
  exact balancedFrom_closeParen

/-- **One parenthesis fewer, and no more is closed than opened**: with any of the closing ones
gone, the last one takes its part. -/
theorem balancedFrom_erase (h : BalancedFrom m kinds)
    (he : kinds ++ [.symbol .closeParen] = a ++ .symbol .closeParen :: b) :
    BalancedFrom m (a ++ b) := by
  induction a generalizing m kinds with
  | nil =>
    rcases kinds with _ | ⟨k, kinds⟩
    · obtain ⟨-, rfl⟩ := List.cons.inj he
      exact h
    · -- The first is gone, so one more is open up to the last.
      obtain ⟨rfl, rfl⟩ := List.cons.inj he
      obtain ⟨fewer, rfl, hfewer⟩ := balancedFrom_closeParen_iff.mp h
      have hclose : BalancedFrom 1 [.symbol .closeParen] := balancedFrom_closeParen.mpr rfl
      exact hfewer.append hclose
  | cons k a ih =>
    rcases kinds with _ | ⟨k', kinds⟩
    · simp at he
    · obtain ⟨rfl, hrest⟩ := List.cons.inj he
      rw [List.cons_append]
      by_cases hopen : k' = .symbol .openParen
      · subst hopen
        rw [balancedFrom_openParen] at h ⊢
        exact ih h hrest
      · by_cases hclose : k' = .symbol .closeParen
        · subst hclose
          obtain ⟨fewer, rfl, hfewer⟩ := balancedFrom_closeParen_iff.mp h
          exact balancedFrom_closeParen.mpr (ih hfewer hrest)
        · rw [balancedFrom_cons_of_ne hopen hclose] at h ⊢
          exact ih h hrest

end Program

namespace Token

open Program

variable {kinds more : List Kind} {k : Kind}

theorem level_of_not_mem (h : BalancedFrom 0 kinds) (hprint : .keyword .print ∉ kinds) :
    Level kinds where
  balanced := h
  outside before after he := by
    rw [he] at hprint
    exact absurd (List.mem_append_right _ List.mem_cons_self) hprint

theorem level_nil : Level [] := level_of_not_mem rfl List.not_mem_nil

theorem Level.append (h : Level kinds) (hmore : Level more) : Level (kinds ++ more) where
  balanced := h.balanced.append hmore.balanced
  outside before after he := by
    rcases List.append_eq_append_iff.mp he with ⟨mid, rfl, hmid⟩ | ⟨mid, hmid, he⟩
    · exact h.balanced.append (hmore.outside mid after hmid)
    · rcases mid with _ | ⟨k, mid⟩
      · rw [List.append_nil] at hmid
        exact hmid ▸ h.balanced
      · obtain ⟨rfl, -⟩ := List.cons.inj he
        exact h.outside before mid hmid

theorem Level.cons (hopen : k ≠ .symbol .openParen) (hclose : k ≠ .symbol .closeParen)
    (h : Level kinds) : Level (k :: kinds) where
  balanced := (balancedFrom_cons_of_ne hopen hclose).mpr h.balanced
  outside before after he := by
    rcases before with _ | ⟨k', before⟩
    · exact rfl
    · obtain ⟨rfl, hkinds⟩ := List.cons.inj he
      exact (balancedFrom_cons_of_ne hopen hclose).mpr (h.outside before after hkinds)

variable {slice rest body : List Token}

theorem Level.group (l₁ l₂ : Location) (h : BalancedFrom 0 (Token.kinds slice))
    (hprint : .keyword .print ∉ Token.kinds slice) (hrest : Level (Token.kinds rest)) :
    Level (Token.kinds (Program.group l₁ l₂ slice rest)) := by
  have hparens : Level (Token.kinds (Program.group l₁ l₂ slice [])) := by
    refine level_of_not_mem ((balancedFrom_group h).mpr rfl) ?_
    simpa [Program.group, Token.kinds] using hprint
  have hall := hparens.append hrest
  rwa [← Token.kinds_append, group_append, List.nil_append] at hall

theorem Level.braced (h : Level (Token.kinds body)) :
    Level (Token.kinds (Program.braced body)) := by
  have hclose : Level (Token.kinds [.ofKind (.symbol .closeBrace)]) := .cons nofun nofun level_nil
  have hinside := h.append hclose
  rw [← Token.kinds_append] at hinside
  exact .cons nofun nofun hinside

/-- Behind a print all that is opened is closed. -/
theorem Level.behind {before : List Token} {l l₁ l₂ : Location}
    (h : Level (Token.kinds (before ++ printed l (Program.group l₁ l₂ slice rest))))
    (hslice : BalancedFrom 0 (Token.kinds slice)) : BalancedFrom 0 (Token.kinds rest) := by
  rw [Token.kinds_append, Token.kinds_cons] at h
  have hbefore := h.outside _ _ rfl
  have hall := h.balanced
  rw [← Nat.zero_add 0, balancedFrom_append_iff hbefore] at hall
  have hgroup : BalancedFrom 0 (Token.kinds (Program.group l₁ l₂ slice rest)) :=
    (balancedFrom_cons_of_ne (k := .keyword .print) nofun nofun).mp hall
  exact (balancedFrom_group hslice).mp hgroup

theorem level_terminator : Level (Token.kinds [terminator]) := .cons nofun nofun level_nil

end Token

open Procedure Program

/-! ## Slices -/

theorem Expr.level_of_parse {slice : List Token} {e : Expr} (h : parse slice = .ok e) :
    Token.Level (Token.kinds slice) :=
  Token.level_of_not_mem (balancedFrom_zero_iff.mpr (marks_of_parse h).2)
    (not_mem_of_keywordFree (keywordFree_of_parse h) .print)

namespace Lowering

theorem level_parse (slice : List Token) :
    Yields (fun _ => Token.Level (Token.kinds slice)) (liftM (Expr.parse slice) : Lowering Expr) :=
  yields_liftM fun _ h => Expr.level_of_parse h

end Lowering

open Lowering

/-! ## Statements -/

mutual

/-- **No print of a statement stands in parentheses**, and all are closed, if it can be
lowered. -/
theorem Statement.level_lower (loops : Nat) (s : Statement) (hw : s.WellFormed) :
    Yields (fun _ => Token.Level (Token.kinds s.rendered)) (s.lower loops) := by
  match s with
  | .declare place mutability name value =>
    refine (level_parse value).bind fun _ h => yields_pure ?_
    have hkeyword := h.append Token.level_terminator
    rw [← Token.kinds_append] at hkeyword
    exact .cons nofun nofun (.cons nofun nofun (.cons nofun nofun hkeyword))
  | .assign place name value =>
    refine (level_parse value).bind fun _ h => yields_pure ?_
    have hvalue := h.append Token.level_terminator
    rw [← Token.kinds_append] at hvalue
    exact .cons nofun nofun (.cons nofun nofun hvalue)
  | .output place value =>
    refine (keywordFree_parseList value).bind fun _ h => yields_pure ?_
    have hbalanced := balancedFrom_zero_iff.mpr hw.2
    have hprint := not_mem_of_keywordFree h .print
    exact .cons nofun nofun (.group _ _ hbalanced hprint Token.level_terminator)
  | .choice place chain =>
    exact (chain.level_lower loops hw.2 .ifTest place).bind fun _ h => yields_pure h
  | .whileLoop place condition body =>
    refine (yields_any _).bind fun _ _ => ?_
    refine (keywordFree_parse condition).bind fun _ hc => ?_
    refine (Statement.level_lowerAll (loops + 1) body hw.2).bind fun _ hb => yields_pure ?_
    have hbalanced := balancedFrom_zero_iff.mpr hw.1.2
    have hprint := not_mem_of_keywordFree hc .print
    exact .cons nofun nofun (.group _ _ hbalanced hprint hb.braced)
  | .forLoop place initial condition increment body =>
    obtain ⟨-, -, -, hheader, hbody⟩ := hw
    refine (yields_any _).bind fun _ _ => ?_
    refine (keywordFree_opening place initial).bind fun _ hi => ?_
    refine (keywordFree_exprOrNone condition).bind fun _ hc => ?_
    refine (keywordFree_exprOrNone increment).bind fun _ hs => ?_
    refine (Statement.level_lowerAll (loops + 1) body hbody).bind fun _ hb => yields_pure ?_
    have hbalanced := balancedFrom_zero_iff.mpr hheader
    exact .cons nofun nofun
      (.group _ _ hbalanced (not_mem_header_of_keywordFree hi hc hs) hb.braced)
  | .breakLoop place | .continueLoop place =>
    exact fun _ _ _ => .cons nofun nofun Token.level_terminator
termination_by structural s

/-- The same for a chain. -/
theorem StatementChain.level_lower (loops : Nat) (c : StatementChain) (hw : c.WellFormed)
    (k : Keyword) (place : Location) :
    Yields (fun _ => Token.Level (Token.kinds (c.rendered ⟨.keyword k, place⟩)))
      (c.lower loops) := by
  match c with
  | .test condition body rest =>
    obtain ⟨hcondition, hbody, hrest⟩ := hw
    refine (keywordFree_parse condition).bind fun _ hc => ?_
    refine (Statement.level_lowerAll loops body hbody).bind fun _ hb => ?_
    refine (rest.level_lower loops hrest .elseIfTest .nowhere).bind fun _ hr => yields_pure ?_
    have hbalanced := balancedFrom_zero_iff.mpr hcondition.2
    have hprint := not_mem_of_keywordFree hc .print
    have hblocks := hb.braced.append hr
    rw [← Token.kinds_append] at hblocks
    exact .cons nofun nofun (.group _ _ hbalanced hprint hblocks)
  | .otherwise body =>
    refine (Statement.level_lowerAll loops body hw).bind fun _ hb => yields_pure ?_
    exact .cons nofun nofun hb.braced
  | .done => exact yields_pure Token.level_nil
termination_by structural c

/-- The same for a row of statements. -/
theorem Statement.level_lowerAll (loops : Nat) (ss : List Statement)
    (hw : Statement.AllWellFormed ss) :
    Yields (fun _ => Token.Level (Token.kinds (Statement.renderedAll ss)))
      (Statement.lowerAll loops ss) := by
  match ss with
  | [] => exact yields_pure Token.level_nil
  | s :: ss =>
    refine (s.level_lower loops hw.1).bind fun _ hs => ?_
    refine (Statement.level_lowerAll loops ss hw.2).bind fun _ hss => yields_pure ?_
    rw [Statement.renderedAll, Token.kinds_append]
    exact hs.append hss
termination_by structural ss

end

/-! ## Programs -/

namespace Program

/-- The closing word is not part of what stands in parentheses, so it stands behind them. -/
theorem exists_inside_of_group {inside before slice rest : List Token} {t : Token}
    {l₁ l₂ l₃ : Location}
    (h : inside ++ [⟨.keyword .finish, l₃⟩] = before ++ t :: group l₁ l₂ slice rest) :
    ∃ rest', rest = rest' ++ [⟨.keyword .finish, l₃⟩]
      ∧ inside = before ++ t :: group l₁ l₂ slice rest' := by
  rcases List.eq_nil_or_concat' rest with rfl | ⟨rest', u, rfl⟩
  · rw [group, ← List.cons_append, ← List.cons_append, ← List.append_assoc] at h
    obtain ⟨-, hlast⟩ := List.append_inj' h rfl
    cases hlast
  · rw [← group_append, ← List.cons_append, ← List.append_assoc] at h
    obtain ⟨rfl, hlast⟩ := List.append_inj' h rfl
    obtain ⟨rfl, -⟩ := List.cons.inj hlast
    exact ⟨rest', rfl, rfl⟩

variable {p : Program} {script : Script} {tokens before slice after a b : List Token}
  {l l₁ l₂ l₃ : Location}

/-- **A print whose parenthesis is not closed is always reported as such.** In the tokens of a
program that compiles, written with a semicolon after each simple statement, take away any
parenthesis that closes something in a print, its own or one in its arguments. Whatever
statements, parentheses and blocks stand around it or follow it, the parser answers with an error
that says so, at the place of this print. -/
theorem parse_unclosed (hp : p.WellFormed) (hscript : p.script = .ok script)
    (hkinds : Token.kinds tokens = Token.kinds p.rendered)
    (htokens : tokens = before ++ ⟨.keyword .print, l⟩ :: group l₁ l₂ slice after)
    (hslice : Token.Balanced (Token.kinds slice))
    (hclose : slice ++ [⟨.symbol .closeParen, l₂⟩] = a ++ ⟨.symbol .closeParen, l₃⟩ :: b) :
    ∃ e, parse (before ++ ⟨.keyword .print, l⟩ :: ⟨.symbol .openParen, l₁⟩ :: (a ++ b ++ after))
        = .error e
      ∧ e.tag = "MISSING_RIGHT_PAREN" ∧ e.location = l
      ∧ e.message = "Unmatched '(' in 'prakashit_kar' arguments" := by
  obtain ⟨q, hread, hsame⟩ := parse_of_kinds (parse_rendered hp) hkinds
  have hlower := script_eq_ok_iff.mp hscript
  -- The tokens are read as the program but for its places, which lowering does not ask for.
  have hfree : Statement.AllKeywordFree q.body := by
    obtain ⟨commands, hcommands, -⟩ :=
      Statement.lowered_of_unlocated hlower (congrArg Program.body hsame) 0
    exact Statement.allKeywordFree_lowerAll 0 q.body 0 commands hcommands
  obtain ⟨m₁, m₂, m₃, inside, rfl, htakes⟩ := parse_iff_takes.mp hread
  have hlevel : Token.Level (Token.kinds inside) := by
    have hinside : Token.kinds inside = Token.kinds (Statement.renderedAll p.body) := by
      simpa [rendered, Token.kinds, Token.ofKind] using hkinds
    rw [hinside]
    exact Statement.level_lowerAll 0 p.body hp.body 0 _ hlower
  -- The print stands inside the skeleton.
  obtain ⟨_, rfl, hmain⟩ := exists_left_of_cons htokens (by simp)
  obtain ⟨outer, rfl, hinside⟩ := exists_left_of_cons hmain (by simp)
  obtain ⟨after, rfl, rfl⟩ := exists_inside_of_group hinside
  have hbalanced : BalancedFrom 0 (Token.kinds (a ++ b ++ after)) := by
    have hslice := balancedFrom_zero_iff.mpr hslice
    have herase : BalancedFrom 0 (Token.kinds a ++ Token.kinds b) := by
      refine balancedFrom_erase hslice ?_
      simpa [Token.kinds] using congrArg Token.kinds hclose
    rw [Token.kinds_append, Token.kinds_append]
    exact herase.append (hlevel.behind hslice)
  have hprint : ∀ c : TokenCursor, c.ahead = ⟨.symbol .openParen, l₁⟩ :: (a ++ b ++ after) →
      print l c = .error ⟨.unclosedPrint, l⟩ := fun _ hc => print_unclosed hc hbalanced
  have hrefused := parse_refused hprint htakes hfree m₁ m₂ m₃
  refine ⟨⟨.unclosedPrint, l⟩, ?_, rfl, rfl, rfl⟩
  simpa using hrefused

/-- A program that prints in a loop and after it, with a column for each token:
`yatha (i < 3) { prakashit_kar((i + 1) * 2, i); i = i + 1; } prakashit_kar(i);` behind the
declaration of a counter. -/
def printing : List Token :=
  ([.keyword .start, .keyword .main, .keyword .letDecl, .identifier "i", .operator .assign,
    .integer 0, .symbol .semicolon, .keyword .whileLoop, .symbol .openParen, .identifier "i",
    .operator .lt, .integer 3, .symbol .closeParen, .symbol .openBrace, .keyword .print,
    .symbol .openParen, .symbol .openParen, .identifier "i", .operator .plus, .integer 1,
    .symbol .closeParen, .operator .star, .integer 2, .symbol .comma, .identifier "i",
    .symbol .closeParen, .symbol .semicolon, .identifier "i", .operator .assign, .identifier "i",
    .operator .plus, .integer 1, .symbol .semicolon, .symbol .closeBrace, .keyword .print,
    .symbol .openParen, .identifier "i", .symbol .closeParen, .symbol .semicolon,
    .keyword .finish] : List Token.Kind).mapIdx fun n kind => ⟨kind, ⟨n, 1, n + 1⟩⟩

/-- Without the parenthesis that closes the sum, the print in the loop is not closed by that of
the other print. -/
theorem parse_unclosed_printing : ∃ e, parse (printing.eraseIdx 20) = .error e
    ∧ e.tag = "MISSING_RIGHT_PAREN" ∧ e.location = ⟨14, 1, 15⟩
    ∧ e.message = "Unmatched '(' in 'prakashit_kar' arguments" := by
  obtain ⟨p, hread⟩ := exists_eq_ok_of_isSome (x := parse printing) (by decide +kernel)
  have hlowered : ((parse printing).toOption.any (·.script.toOption.isSome)) = true := by
    decide +kernel
  have hkinds : ((parse printing).toOption.all fun p =>
      Token.kinds printing = Token.kinds p.rendered) = true := by
    decide +kernel
  rw [hread] at hlowered hkinds
  obtain ⟨script, hscript⟩ := exists_eq_ok_of_isSome hlowered
  have htokens : printing = printing.take 14 ++ ⟨.keyword .print, ⟨14, 1, 15⟩⟩
      :: group ⟨15, 1, 16⟩ ⟨25, 1, 26⟩ ((printing.drop 16).take 9) (printing.drop 26) := by
    decide +kernel
  have hslice : Token.Balanced (Token.kinds ((printing.drop 16).take 9)) := by
    have hsum : Token.kinds ((printing.drop 16).take 9) = [.symbol .openParen, .identifier "i",
        .operator .plus, .integer 1, .symbol .closeParen, .operator .star, .integer 2,
        .symbol .comma, .identifier "i"] := by
      decide +kernel
    rw [hsum, ← balancedFrom_zero_iff]
    simp [balancedFrom_cons_of_ne]
  have hclose : (printing.drop 16).take 9 ++ [⟨.symbol .closeParen, ⟨25, 1, 26⟩⟩]
      = (printing.drop 16).take 4 ++ ⟨.symbol .closeParen, ⟨20, 1, 21⟩⟩
        :: (printing.drop 21).take 5 := by
    decide +kernel
  have hgone : printing.eraseIdx 20 = printing.take 14 ++ ⟨.keyword .print, ⟨14, 1, 15⟩⟩
      :: ⟨.symbol .openParen, ⟨15, 1, 16⟩⟩
      :: ((printing.drop 16).take 4 ++ (printing.drop 21).take 5 ++ printing.drop 26) := by
    decide +kernel
  rw [hgone]
  exact parse_unclosed (wellFormed_of_parse hread) hscript (of_decide_eq_true hkinds) htokens
    hslice hclose

end Program

end Lipi
