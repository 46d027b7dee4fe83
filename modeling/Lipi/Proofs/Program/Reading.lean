/-
What each reader of statements answers.

As for expressions, a statement about a reader leaves out the proof that its answer
carries, here that no more tokens are ahead than before (`Program.Returns`). For each
reader one equivalence says when it returns what, in terms of the readers it calls;
later proofs go through these and open no reader.

Two readers are loops over tokens, and for them the equivalence is with a predicate
on lists. `RunsTo slice rest` says of a value that it ends exactly where `rest`
begins, which depends on the first two tokens of `rest`. `BalancedFrom opened kinds`
says of a slice that it closes what it opens and `opened` parentheses besides, and
never one more.
-/
import Lipi.Proofs.Program.Grammar

set_option autoImplicit false

namespace Lipi

namespace Program

/-! ## Returning -/

/-- A reader's answer is an item and the cursor after it. -/
def Returns {α : Type} {bound : Nat} (answer : Except SyntaxError (Read α bound)) (item : α)
    (c' : TokenCursor) : Prop :=
  ∃ h, answer = .ok ⟨item, c', h⟩

theorem Returns.within {α : Type} {bound : Nat} {answer : Except SyntaxError (Read α bound)}
    {item : α} {c' : TokenCursor} (h : Returns answer item c') : c'.length ≤ bound := h.1

theorem returns_ok {α : Type} {bound : Nat} {r : Read α bound} {item : α} {c' : TokenCursor} :
    Returns (.ok r) item c' ↔ item = r.item ∧ c' = r.rest := by
  constructor
  · rintro ⟨_, h⟩
    cases h
    exact ⟨rfl, rfl⟩
  · rintro ⟨rfl, rfl⟩
    exact ⟨r.within, rfl⟩

theorem not_returns_error {α : Type} {bound : Nat} {e : SyntaxError} {item : α}
    {c' : TokenCursor} : ¬ Returns (.error e : Except SyntaxError (Read α bound)) item c' := by
  rintro ⟨_, h⟩
  cases h

/-- Going on after a reader: what it returns is what the next one starts from. -/
theorem returns_bind_iff {α β : Type} {m n : Nat} {answer : Except SyntaxError (Read α m)}
    {next : Read α m → Except SyntaxError (Read β n)} {item : β} {c' : TokenCursor} :
    Returns (answer >>= next) item c' ↔
      ∃ a c₁, ∃ h : Returns answer a c₁, Returns (next ⟨a, c₁, h.within⟩) item c' := by
  cases answer with
  | error e => simp [bind, Except.bind, not_returns_error]
  | ok r =>
    constructor
    · intro hn
      exact ⟨r.item, r.rest, ⟨r.within, rfl⟩, hn⟩
    · rintro ⟨_, _, ⟨_, h⟩, hn⟩
      cases h
      exact hn

theorem returns_ite_error_iff {α : Type} {n : Nat} {p : Prop} [Decidable p] {e : SyntaxError}
    {answer : Except SyntaxError (Read α n)} {item : α} {c' : TokenCursor} :
    Returns (if p then .error e else answer) item c' ↔ ¬ p ∧ Returns answer item c' := by
  by_cases h : p <;> simp [h, not_returns_error]

/-- What is returned for perhaps a statement by a reader of statements. -/
theorem returns_map_present {bound : Nat} {answer : Except SyntaxError (Read Statement bound)}
    {item : Option Statement} {c' : TokenCursor} :
    Returns (answer.map present) item c' ↔ ∃ s, item = some s ∧ Returns answer s c' := by
  cases answer with
  | error e => simp [Except.map, not_returns_error]
  | ok r => simp only [Except.map, returns_ok, present]; grind

/-! ## Demands -/

theorem returns_expect_iff {kind : Token.Kind} {purpose : SyntaxError.Purpose} {c c' : TokenCursor}
    {t : Token} :
    Returns (expect kind purpose c) t c' ↔
      ∃ l rest, c.ahead = ⟨kind, l⟩ :: rest ∧ t = ⟨kind, l⟩ ∧ c' = ⟨rest, l⟩ := by
  obtain ⟨_ | ⟨⟨kind₁, l⟩, rest⟩, behind⟩ := c
  · simp [expect, not_returns_error]
  · by_cases hk : kind₁ = kind
    · simp only [expect, if_pos hk, returns_ok]
      constructor
      · rintro ⟨rfl, rfl⟩
        exact ⟨l, rest, by rw [hk], by rw [hk], rfl⟩
      · rintro ⟨_, _, h, rfl, rfl⟩
        cases h
        exact ⟨rfl, rfl⟩
    · simp only [expect, if_neg hk, not_returns_error, false_iff]
      rintro ⟨_, _, h, -, -⟩
      cases h
      exact hk rfl

theorem returns_expectName_iff {c c' : TokenCursor} {name : String} :
    Returns (expectName c) name c' ↔
      ∃ l rest, c.ahead = ⟨.identifier name, l⟩ :: rest ∧ c' = ⟨rest, l⟩ := by
  obtain ⟨_ | ⟨⟨kind, l⟩, rest⟩, behind⟩ := c
  · simp [expectName, not_returns_error]
  · cases kind with
    | identifier found =>
      simp only [expectName, Token.name?, returns_ok]
      constructor
      · rintro ⟨rfl, rfl⟩
        exact ⟨l, rest, rfl, rfl⟩
      · rintro ⟨_, _, h, rfl⟩
        cases h
        exact ⟨rfl, rfl⟩
    | _ => simp [expectName, Token.name?, not_returns_error]

/-! ## Values -/

theorem valueFrom_item {bound : Nat} {c : TokenCursor} {h : c.length ≤ bound}
    {read slice rest : List Token} (hc : c.ahead = slice ++ rest) (hruns : RunsTo slice rest) :
    (valueFrom c h read).item = read.reverse ++ slice
      ∧ (valueFrom c h read).rest.ahead = rest := by
  induction slice generalizing c read with
  | nil =>
    obtain ⟨ahead, behind⟩ := c
    subst hc
    rw [valueFrom]
    split
    · next hnil => exact ⟨(List.append_nil _).symm, rfl⟩
    · next t more hrest =>
      rw [if_pos (hruns t more hrest)]
      exact ⟨(List.append_nil _).symm, rfl⟩
  | cons t slice ih =>
    obtain ⟨ahead, behind⟩ := c
    subst hc
    obtain ⟨hgoes, hruns⟩ := hruns
    rw [valueFrom]
    simp only [List.cons_append, hgoes, Bool.false_eq_true, if_false]
    obtain ⟨hitem, hrest⟩ := ih (c := ⟨slice ++ rest, t.location⟩) rfl hruns
    exact ⟨by rw [hitem, List.reverse_cons, List.append_assoc, List.singleton_append], hrest⟩

/-- Every row of tokens begins with a value, which may be empty. -/
theorem exists_runsTo (tokens : List Token) :
    ∃ slice rest, tokens = slice ++ rest ∧ RunsTo slice rest := by
  induction tokens with
  | nil => exact ⟨[], [], rfl, fun t more h => (by cases h)⟩
  | cons t tokens ih =>
    by_cases hends : endsValue t tokens = true
    · exact ⟨[], t :: tokens, rfl, fun t' more h => by cases h; exact hends⟩
    · obtain ⟨slice, rest, rfl, hruns⟩ := ih
      exact ⟨t :: slice, rest, rfl, Bool.eq_false_iff.mpr hends, hruns⟩

/-- The value ahead is the slice that runs to the rest. -/
theorem value_eq_iff {c : TokenCursor} {slice rest : List Token} :
    (value c).item = slice ∧ (value c).rest.ahead = rest ↔
      c.ahead = slice ++ rest ∧ RunsTo slice rest := by
  constructor
  · rintro ⟨rfl, rfl⟩
    obtain ⟨slice, rest, hc, hruns⟩ := exists_runsTo c.ahead
    have hvalue : (value c).item = slice ∧ (value c).rest.ahead = rest := valueFrom_item hc hruns
    rw [hvalue.1, hvalue.2]
    exact ⟨hc, hruns⟩
  · rintro ⟨hc, hruns⟩
    exact valueFrom_item hc hruns

/-- A declaration's or an assignment's value: the slice that runs to the rest, unless
there is none. -/
def HasValue (c : TokenCursor) (slice : List Token) (c' : TokenCursor) : Prop :=
  (value c).item = slice ∧ (value c).rest = c' ∧ slice ≠ []

theorem HasValue.runsTo {c c' : TokenCursor} {slice : List Token} (h : HasValue c slice c') :
    c.ahead = slice ++ c'.ahead ∧ RunsTo slice c'.ahead ∧ slice ≠ [] := by
  obtain ⟨hitem, hrest, hne⟩ := h
  obtain ⟨hc, hruns⟩ := value_eq_iff.mp ⟨hitem, congrArg TokenCursor.ahead hrest⟩
  exact ⟨hc, hruns, hne⟩

theorem HasValue.of_runsTo {c : TokenCursor} {slice rest : List Token}
    (hc : c.ahead = slice ++ rest) (hruns : RunsTo slice rest) (hne : slice ≠ []) :
    ∃ c', c'.ahead = rest ∧ HasValue c slice c' := by
  obtain ⟨hitem, hrest⟩ := value_eq_iff.mpr ⟨hc, hruns⟩
  exact ⟨_, hrest, hitem, rfl, hne⟩

theorem returns_declaration_iff {mutability : Mutability} {place : Location} {c c' : TokenCursor}
    {s : Statement} :
    Returns (declaration mutability place c) s c' ↔ ∃ name l₁ l₂ rest slice,
      c.ahead = ⟨.identifier name, l₁⟩ :: ⟨.operator .assign, l₂⟩ :: rest
        ∧ HasValue ⟨rest, l₂⟩ slice c' ∧ s = .declare place mutability name slice := by
  simp only [declaration, returns_bind_iff, returns_expectName_iff, returns_expect_iff,
    returns_ite_error_iff, returns_ok, HasValue]
  constructor
  · rintro ⟨name, _, ⟨l₁, _, hc, rfl⟩, _, _, ⟨l₂, rest, rfl, rfl, rfl⟩, hne, rfl, rfl⟩
    exact ⟨name, l₁, l₂, rest, _, hc, ⟨rfl, rfl, fun he => hne (by rw [he]; rfl)⟩, rfl⟩
  · rintro ⟨name, l₁, l₂, rest, slice, hc, ⟨rfl, rfl, hne⟩, rfl⟩
    exact ⟨name, _, ⟨l₁, _, hc, rfl⟩, _, _, ⟨l₂, rest, rfl, rfl, rfl⟩,
      fun he => hne (List.isEmpty_iff.mp he), rfl, rfl⟩

theorem returns_assignment_iff {name : String} {place : Location} {c c' : TokenCursor}
    {item : Option Statement} :
    Returns (assignment name place c) item c' ↔
      (∃ l rest slice, c.ahead = ⟨.operator .assign, l⟩ :: rest ∧ HasValue ⟨rest, l⟩ slice c'
          ∧ item = some (.assign place name slice))
        ∨ ((∀ l rest, c.ahead ≠ ⟨.operator .assign, l⟩ :: rest) ∧ item = none ∧ c' = c) := by
  obtain ⟨_ | ⟨⟨kind, l⟩, rest⟩, behind⟩ := c
  · simp [assignment, returns_ok]
  · by_cases hk : kind = .operator .assign
    · subst hk
      simp only [assignment, Token.isOperator, beq_self_eq_true, if_true, returns_ite_error_iff,
        returns_ok, HasValue]
      constructor
      · rintro ⟨hne, rfl, rfl⟩
        exact .inl ⟨l, rest, _, rfl, ⟨rfl, rfl, fun he => hne (by rw [he]; rfl)⟩, rfl⟩
      · rintro (⟨_, _, slice, h, ⟨rfl, rfl, hne⟩, rfl⟩ | ⟨h, -⟩)
        · cases h
          exact ⟨fun he => hne (List.isEmpty_iff.mp he), rfl, rfl⟩
        · exact absurd rfl (h l rest)
    · have hno : (Token.mk kind l).isOperator .assign = false := by
        simpa [Token.isOperator] using hk
      simp only [assignment, hno, Bool.false_eq_true, if_false, returns_ok]
      constructor
      · rintro ⟨rfl, rfl⟩
        exact .inr ⟨fun l' rest' h => hk (by cases h; rfl), rfl, rfl⟩
      · rintro (⟨_, _, slice, h, -⟩ | ⟨-, rfl, rfl⟩)
        · cases h
          exact absurd rfl hk
        · exact ⟨rfl, rfl⟩

/-! ## Parentheses -/

theorem isSymbol_eq {k : Token.Kind} {l : Location} {s : Symbol} :
    (Token.mk k l).isSymbol s = decide (k = .symbol s) := rfl

theorem exists_balanced_of_closingFrom {bound : Nat} {ahead : List Token}
    {h : ahead.length ≤ bound} {opened : Nat} {read : List Token} {r : Read (List Token) (bound - 1)}
    (hr : closingFrom ahead h opened read = some r) :
    ∃ slice, r.item = read.reverse ++ slice
      ∧ ahead = slice ++ ⟨.symbol .closeParen, r.rest.behind⟩ :: r.rest.ahead
      ∧ BalancedFrom opened (Token.kinds slice) := by
  induction ahead generalizing opened read with
  | nil => cases hr
  | cons t rest ih =>
    obtain ⟨kind, l⟩ := t
    -- What is said of a slice after one more token.
    have step : ∀ {opened' : Nat} {hrest : rest.length ≤ bound},
        (∀ kinds, BalancedFrom opened' kinds → BalancedFrom opened (kind :: kinds)) →
        closingFrom rest hrest opened' (⟨kind, l⟩ :: read) = some r →
        ∃ slice, r.item = read.reverse ++ slice
          ∧ ⟨kind, l⟩ :: rest = slice ++ ⟨.symbol .closeParen, r.rest.behind⟩ :: r.rest.ahead
          ∧ BalancedFrom opened (Token.kinds slice) := by
      intro opened' hrest hbalanced hr
      obtain ⟨slice, hitem, hrest, hs⟩ := ih hr
      refine ⟨⟨kind, l⟩ :: slice, ?_, by rw [hrest, List.cons_append], hbalanced _ hs⟩
      rw [hitem, List.reverse_cons, List.append_assoc, List.singleton_append]
    simp only [closingFrom, isSymbol_eq, decide_eq_true_eq] at hr
    by_cases hopen : kind = .symbol .openParen
    · rw [if_pos hopen] at hr
      exact step (fun kinds hb => by rw [BalancedFrom, if_pos hopen]; exact hb) hr
    · rw [if_neg hopen] at hr
      by_cases hclose : kind = .symbol .closeParen
      · rw [if_pos hclose] at hr
        cases opened with
        | zero =>
          cases hr
          exact ⟨[], (List.append_nil _).symm, by rw [hclose]; rfl, rfl⟩
        | succ fewer =>
          refine step (fun kinds hb => ?_) hr
          rw [BalancedFrom, if_neg hopen, if_pos hclose]
          exact ⟨fewer, rfl, hb⟩
      · rw [if_neg hclose] at hr
        exact step (fun kinds hb => by
          rw [BalancedFrom, if_neg hopen, if_neg hclose]; exact hb) hr

theorem closingFrom_of_balanced {bound opened : Nat} {ahead read slice rest : List Token}
    {l : Location} {h : ahead.length ≤ bound}
    (ha : ahead = slice ++ ⟨.symbol .closeParen, l⟩ :: rest)
    (hb : BalancedFrom opened (Token.kinds slice)) :
    (closingFrom ahead h opened read).map (fun r => (r.item, r.rest))
      = some (read.reverse ++ slice, ⟨rest, l⟩) := by
  subst ha
  induction slice generalizing opened read with
  | nil =>
    obtain rfl : opened = 0 := hb
    simp [closingFrom, isSymbol_eq]
  | cons t slice ih =>
    obtain ⟨kind, l'⟩ := t
    have hread : (read.reverse ++ ⟨kind, l'⟩ :: slice)
        = (⟨kind, l'⟩ :: read : List Token).reverse ++ slice := by simp
    simp only [List.cons_append, closingFrom, isSymbol_eq, decide_eq_true_eq, hread]
    rw [Token.kinds, List.map_cons, BalancedFrom] at hb
    by_cases hopen : kind = .symbol .openParen
    · simp only [if_pos hopen] at hb ⊢
      exact ih hb
    · by_cases hclose : kind = .symbol .closeParen
      · simp only [if_neg hopen, if_pos hclose] at hb ⊢
        obtain ⟨fewer, rfl, hb⟩ := hb
        exact ih hb
      · simp only [if_neg hopen, if_neg hclose] at hb ⊢
        exact ih hb

/-- A parenthesized slice is balanced and may be any balanced slice. -/
theorem returns_parenthesized_iff {unclosed : SyntaxError} {c c' : TokenCursor}
    {slice : List Token} :
    Returns (parenthesized unclosed c) slice c' ↔ ∃ l,
      c.ahead = ⟨.symbol .openParen, l⟩
          :: (slice ++ ⟨.symbol .closeParen, c'.behind⟩ :: c'.ahead)
        ∧ BalancedFrom 0 (Token.kinds slice) := by
  simp only [parenthesized, returns_bind_iff, returns_expect_iff]
  constructor
  · rintro ⟨_, _, ⟨l, rest, hc, rfl, rfl⟩, h⟩
    split at h
    · next r hr =>
      obtain ⟨rfl, rfl⟩ := returns_ok.mp h
      obtain ⟨slice, hitem, hrest, hb⟩ := exists_balanced_of_closingFrom hr
      obtain rfl : r.item = slice := hitem
      exact ⟨l, by rw [hc]; exact congrArg _ hrest, hb⟩
    · exact absurd h not_returns_error
  · rintro ⟨l, hc, hb⟩
    refine ⟨_, ⟨_, l⟩, ⟨l, _, hc, rfl, rfl⟩, ?_⟩
    split
    · next r hr =>
      have hclosing := (congrArg (Option.map fun r => (r.item, r.rest)) hr).symm.trans
        (closingFrom_of_balanced rfl hb)
      rw [Option.map_some, Option.some.injEq, Prod.mk.injEq] at hclosing
      exact returns_ok.mpr ⟨hclosing.1.symm, hclosing.2.symm⟩
    · next hr =>
      have hclosing := (congrArg (Option.map fun r => (r.item, r.rest)) hr).symm.trans
        (closingFrom_of_balanced rfl hb)
      cases hclosing

/-- A print: a parenthesized slice that is not empty. -/
theorem returns_print_iff {place : Location} {c c' : TokenCursor} {s : Statement} :
    Returns (print place c) s c' ↔ ∃ slice,
      Returns (parenthesized ⟨.unclosedPrint, place⟩ c) slice c' ∧ slice ≠ []
        ∧ s = .output place slice := by
  simp only [print, returns_bind_iff, returns_ite_error_iff, returns_ok, List.isEmpty_iff]
  constructor
  · rintro ⟨slice, _, hp, hne, rfl, rfl⟩
    exact ⟨slice, hp, hne, rfl⟩
  · rintro ⟨slice, hp, hne, rfl⟩
    exact ⟨slice, c', hp, hne, rfl, rfl⟩

theorem returns_test_iff {k : Keyword} {unclosed : SyntaxError.Cause} {place : Location}
    {c c' : TokenCursor} {slice : List Token} :
    Returns (test k unclosed place c) slice c' ↔
      Returns (parenthesized ⟨unclosed, place⟩ c) slice c' ∧ slice ≠ [] := by
  simp only [test, returns_bind_iff, returns_ite_error_iff, returns_ok, List.isEmpty_iff]
  constructor
  · rintro ⟨_, _, hp, hne, rfl, rfl⟩
    exact ⟨hp, hne⟩
  · rintro ⟨hp, hne⟩
    exact ⟨slice, c', hp, hne, rfl, rfl⟩

/-! ## Statements with blocks -/

section Blocks

variable {block : BlockReader} {place : Location} {c c' : TokenCursor}

theorem returns_whileLoop_iff {s : Statement} :
    Returns (whileLoop block place c) s c' ↔ ∃ condition c₁ body,
      Returns (test .whileLoop .unclosedLoopHeader place c) condition c₁
        ∧ Returns (block c₁) body c' ∧ s = .whileLoop place condition body := by
  simp only [whileLoop, returns_bind_iff, returns_ok]
  constructor
  · rintro ⟨condition, c₁, ht, body, _, hb, rfl, rfl⟩
    exact ⟨condition, c₁, body, ht, hb, rfl⟩
  · rintro ⟨condition, c₁, body, ht, hb, rfl⟩
    exact ⟨condition, c₁, ht, body, c', hb, rfl, rfl⟩

/-- The first of several parts ends at a separator, and the others are those of what
follows it. -/
theorem exists_of_splitOnP_eq_cons_cons {α : Type} {p : α → Bool} {xs a b : List α}
    {more : List (List α)} (h : xs.splitOnP p = a :: b :: more) :
    ∃ x ys, xs = a ++ x :: ys ∧ p x = true ∧ (∀ y ∈ a, p y = false)
      ∧ ys.splitOnP p = b :: more := by
  induction xs generalizing a with
  | nil => cases h
  | cons x xs ih =>
    rw [List.splitOnP_cons_eq_if_modifyHead] at h
    by_cases hx : p x = true
    · rw [if_pos hx] at h
      obtain ⟨rfl, hys⟩ := List.cons.inj h
      exact ⟨x, xs, rfl, hx, by simp, hys⟩
    · rw [if_neg hx] at h
      obtain ⟨a', parts, hparts⟩ := List.exists_cons_of_ne_nil (List.splitOnP_ne_nil p xs)
      rw [hparts, List.modifyHead_cons, List.cons.injEq] at h
      obtain ⟨rfl, rfl⟩ := h
      obtain ⟨y, ys, rfl, hy, hall, hys⟩ := ih hparts
      refine ⟨y, ys, rfl, hy, ?_, hys⟩
      intro z hz
      rcases List.mem_cons.mp hz with rfl | hz
      · exact Bool.eq_false_iff.mpr hx
      · exact hall z hz

/-- A single part is everything, and no separator is in it. -/
theorem eq_of_splitOnP_eq_singleton {α : Type} {p : α → Bool} {xs a : List α}
    (h : xs.splitOnP p = [a]) : xs = a ∧ ∀ y ∈ a, p y = false := by
  induction xs generalizing a with
  | nil =>
    cases h
    exact ⟨rfl, by simp⟩
  | cons x xs ih =>
    rw [List.splitOnP_cons_eq_if_modifyHead] at h
    by_cases hx : p x = true
    · rw [if_pos hx] at h
      exact absurd (List.cons.inj h).2 (List.splitOnP_ne_nil p xs)
    · rw [if_neg hx] at h
      obtain ⟨a', parts, hparts⟩ := List.exists_cons_of_ne_nil (List.splitOnP_ne_nil p xs)
      rw [hparts, List.modifyHead_cons, List.cons.injEq] at h
      obtain ⟨rfl, rfl⟩ := h
      obtain ⟨rfl, hall⟩ := ih hparts
      refine ⟨rfl, ?_⟩
      intro z hz
      rcases List.mem_cons.mp hz with rfl | hz
      · exact Bool.eq_false_iff.mpr hx
      · exact hall z hz

/-- Three parts are those before, between and after the only two semicolons. -/
theorem headerParts_eq_three_iff {slice initial condition increment : List Token} :
    headerParts slice = [initial, condition, increment] ↔
      (∃ l₁ l₂, slice = header l₁ l₂ initial condition increment)
        ∧ Undivided initial ∧ Undivided condition ∧ Undivided increment := by
  have hfalse : ∀ part : List Token,
      (∀ t ∈ part, t.isSymbol .semicolon = false) ↔ Undivided part := by
    intro part
    simp [Undivided, Token.kinds, Token.isSymbol]
  simp only [← hfalse]
  constructor
  · intro h
    obtain ⟨⟨k₁, l₁⟩, rest, rfl, hk₁, hinitial, h⟩ := exists_of_splitOnP_eq_cons_cons h
    obtain ⟨⟨k₂, l₂⟩, rest, rfl, hk₂, hcondition, h⟩ := exists_of_splitOnP_eq_cons_cons h
    obtain ⟨rfl, hincrement⟩ := eq_of_splitOnP_eq_singleton h
    obtain rfl := of_decide_eq_true (isSymbol_eq ▸ hk₁)
    obtain rfl := of_decide_eq_true (isSymbol_eq ▸ hk₂)
    exact ⟨⟨l₁, l₂, rfl⟩, hinitial, hcondition, hincrement⟩
  · rintro ⟨⟨l₁, l₂, rfl⟩, hinitial, hcondition, hincrement⟩
    have hsep : ∀ l, (Token.mk (.symbol .semicolon) l).isSymbol .semicolon = true :=
      fun l => beq_self_eq_true _
    rw [headerParts, header, List.splitOnP_append_cons_of_forall_mem hinitial _ (hsep l₁),
      List.splitOnP_append_cons_of_forall_mem hcondition _ (hsep l₂),
      List.splitOnP_eq_singleton hincrement]

theorem returns_forLoop_iff {s : Statement} :
    Returns (forLoop block place c) s c' ↔ ∃ header c₁ initial condition increment body,
      Returns (parenthesized ⟨.unclosedLoopHeader, place⟩ c) header c₁
        ∧ headerParts header = [initial, condition, increment]
        ∧ Returns (block c₁) body c'
        ∧ s = .forLoop place initial condition increment body := by
  simp only [forLoop, returns_bind_iff]
  constructor
  · rintro ⟨header, c₁, hp, h⟩
    split at h
    · next initial condition increment hparts =>
      simp only [returns_bind_iff, returns_ok] at h
      obtain ⟨body, _, hb, rfl, rfl⟩ := h
      exact ⟨header, c₁, initial, condition, increment, body, hp, hparts, hb, rfl⟩
    · exact absurd h not_returns_error
  · rintro ⟨header, c₁, initial, condition, increment, body, hp, hparts, hb, rfl⟩
    refine ⟨header, c₁, hp, ?_⟩
    rw [hparts]
    simp only [returns_bind_iff, returns_ok]
    exact ⟨body, c', hb, rfl, rfl⟩

theorem returns_branch_iff {k : Keyword} {item : List Token × List Statement} :
    Returns (branch block k place c) item c' ↔ ∃ c₁,
      Returns (test k (.unclosedTest k) place c) item.1 c₁ ∧ Returns (block c₁) item.2 c' := by
  obtain ⟨condition, body⟩ := item
  simp only [branch, returns_bind_iff, returns_ok, Prod.mk.injEq]
  constructor
  · rintro ⟨_, c₁, ht, _, _, hb, ⟨rfl, rfl⟩, rfl⟩
    exact ⟨c₁, ht, hb⟩
  · rintro ⟨c₁, ht, hb⟩
    exact ⟨condition, c₁, ht, body, c', hb, ⟨rfl, rfl⟩, rfl⟩

theorem returns_chainFrom_iff {chain : StatementChain} :
    Returns (chainFrom block c) chain c' ↔
      (∃ l rest condition body c₁ more, c.ahead = ⟨.keyword .elseIfTest, l⟩ :: rest
          ∧ Returns (branch block .elseIfTest l ⟨rest, l⟩) (condition, body) c₁
          ∧ Returns (chainFrom block c₁) more c' ∧ chain = .test condition body more)
        ∨ (∃ l rest body, c.ahead = ⟨.keyword .otherwise, l⟩ :: rest
          ∧ Returns (block ⟨rest, l⟩) body c' ∧ chain = .otherwise body)
        ∨ ((∀ l rest, c.ahead ≠ ⟨.keyword .elseIfTest, l⟩ :: rest
            ∧ c.ahead ≠ ⟨.keyword .otherwise, l⟩ :: rest) ∧ chain = .done ∧ c' = c) := by
  obtain ⟨_ | ⟨⟨kind, l⟩, rest⟩, behind⟩ := c
  · rw [chainFrom]
    simp [returns_ok]
  · rw [chainFrom]
    by_cases helse : kind = .keyword .elseIfTest
    · subst helse
      simp only [Token.isKeyword, beq_self_eq_true, if_true, returns_bind_iff, returns_ok]
      constructor
      · rintro ⟨⟨condition, body⟩, c₁, hb, more, _, hm, rfl, rfl⟩
        exact .inl ⟨l, rest, condition, body, c₁, more, rfl, hb, hm, rfl⟩
      · rintro (⟨_, _, condition, body, c₁, more, h, hb, hm, rfl⟩ | ⟨_, _, _, h, -⟩ | ⟨h, -⟩)
        · cases h
          exact ⟨(condition, body), c₁, hb, more, c', hm, rfl, rfl⟩
        · cases h
        · exact absurd rfl (h l rest).1
    · have hno : (Token.mk kind l).isKeyword .elseIfTest = false := by
        simpa [Token.isKeyword] using helse
      simp only [hno, Bool.false_eq_true, if_false]
      by_cases hother : kind = .keyword .otherwise
      · subst hother
        simp only [Token.isKeyword, beq_self_eq_true, if_true, returns_bind_iff, returns_ok]
        constructor
        · rintro ⟨body, _, hb, rfl, rfl⟩
          exact .inr (.inl ⟨l, rest, body, rfl, hb, rfl⟩)
        · rintro (⟨_, _, _, _, _, _, h, -⟩ | ⟨_, _, body, h, hb, rfl⟩ | ⟨h, -⟩)
          · cases h
          · cases h
            exact ⟨body, c', hb, rfl, rfl⟩
          · exact absurd rfl (h l rest).2
      · have hno' : (Token.mk kind l).isKeyword .otherwise = false := by
          simpa [Token.isKeyword] using hother
        simp only [hno', Bool.false_eq_true, if_false, returns_ok]
        constructor
        · rintro ⟨rfl, rfl⟩
          refine .inr (.inr ⟨fun l' rest' => ⟨fun h => ?_, fun h => ?_⟩, rfl, rfl⟩)
          · cases h
            exact helse rfl
          · cases h
            exact hother rfl
        · rintro (⟨_, _, _, _, _, _, h, -⟩ | ⟨_, _, _, h, -⟩ | ⟨-, rfl, rfl⟩)
          · cases h
            exact absurd rfl helse
          · cases h
            exact absurd rfl hother
          · exact ⟨rfl, rfl⟩

theorem returns_choice_iff {s : Statement} :
    Returns (choice block place c) s c' ↔ ∃ condition body c₁ more,
      Returns (branch block .ifTest place c) (condition, body) c₁
        ∧ Returns (chainFrom block c₁) more c' ∧ s = .choice place (.test condition body more) := by
  simp only [choice, returns_bind_iff, returns_ok]
  constructor
  · rintro ⟨⟨condition, body⟩, c₁, hb, more, _, hm, rfl, rfl⟩
    exact ⟨condition, body, c₁, more, hb, hm, rfl⟩
  · rintro ⟨condition, body, c₁, more, hb, hm, rfl⟩
    exact ⟨(condition, body), c₁, hb, more, c', hm, rfl, rfl⟩

theorem returns_statementsFrom_iff {reader : StatementReader} {stop : Token → Bool} {bound : Nat}
    {h : c.length ≤ bound} {read body : List Statement} :
    Returns (statementsFrom reader stop c h read) body c' ↔
      ((∀ t rest, c.ahead = t :: rest → stop t = true) ∧ body = read.reverse ∧ c' = c)
        ∨ ∃ t rest s c₁, ∃ h₁ : c₁.length ≤ bound, c.ahead = t :: rest ∧ stop t = false
          ∧ Returns (reader t ⟨rest, t.location⟩) s c₁
          ∧ Returns (statementsFrom reader stop c₁ h₁ (s.toList ++ read)) body c' := by
  obtain ⟨_ | ⟨t, rest⟩, behind⟩ := c
  · rw [statementsFrom]
    simp [returns_ok]
  · rw [statementsFrom]
    by_cases hstop : stop t = true
    · simp only [hstop, if_true, returns_ok]
      constructor
      · rintro ⟨rfl, rfl⟩
        exact .inl ⟨fun _ _ he => by cases he; exact hstop, rfl, rfl⟩
      · rintro (⟨-, rfl, rfl⟩ | ⟨_, _, _, _, _, he, hgoes, -⟩)
        · exact ⟨rfl, rfl⟩
        · cases he
          exact absurd hstop (Bool.eq_false_iff.mp hgoes)
    · simp only [hstop, Bool.false_eq_true, if_false, returns_bind_iff]
      constructor
      · rintro ⟨s, c₁, hs, hmore⟩
        have hc₁ : c₁.length ≤ bound :=
          Nat.le_trans hs.within (Nat.le_trans (Nat.le_succ _) h)
        exact .inr ⟨t, rest, s, c₁, hc₁, rfl, Bool.eq_false_iff.mpr hstop, hs, hmore⟩
      · rintro (⟨hends, -⟩ | ⟨_, _, s, c₁, _, he, -, hs, hmore⟩)
        · exact absurd (hends t rest rfl) hstop
        · cases he
          exact ⟨s, c₁, hs, hmore⟩

theorem returns_block_iff {room : Nat} {body : List Statement} :
    Returns (Program.block room c) body c' ↔
      ∃ inner l rest k, ∃ h : rest.length ≤ c.length - 1, ∃ c₁ : TokenCursor, room = inner + 1
        ∧ c.ahead = ⟨.symbol .openBrace, l⟩ :: rest
        ∧ Returns (statementsFrom (statement (Program.block inner)) (·.isSymbol .closeBrace)
            ⟨rest, l⟩ h []) body c₁
        ∧ c₁.ahead = ⟨k, c'.behind⟩ :: c'.ahead := by
  cases room with
  | zero =>
    simp only [Program.block, returns_bind_iff, not_returns_error]
    simp
  | succ inner =>
    simp only [Program.block, returns_bind_iff, returns_expect_iff]
    constructor
    · rintro ⟨_, _, ⟨l, rest, hc, rfl, rfl⟩, body, c₁, hb, h⟩
      split at h
      · exact absurd h not_returns_error
      · next t after hafter =>
        obtain ⟨rfl, rfl⟩ := returns_ok.mp h
        have hrest : rest.length ≤ c.length - 1 := by
          rw [TokenCursor.length, hc]
          exact Nat.le_refl _
        exact ⟨inner, l, rest, t.kind, hrest, c₁, rfl, hc, hb, hafter⟩
    · rintro ⟨_, l, rest, k, h, c₁, he, hc, hb, hafter⟩
      cases he
      refine ⟨_, ⟨rest, l⟩, ⟨l, rest, hc, rfl, rfl⟩, body, c₁, hb, ?_⟩
      split
      · next hnil =>
        rw [hafter] at hnil
        cases hnil
      · next t after ht =>
        rw [hafter] at ht
        cases ht
        exact returns_ok.mpr ⟨rfl, rfl⟩

end Blocks

/-! ## Programs -/

theorem unframed_eq_ok_iff {c c' : TokenCursor} :
    unframed c = .ok c' ↔ ∃ l, c.ahead = c'.ahead ++ [⟨.keyword .finish, l⟩]
      ∧ c'.behind = c.behind := by
  obtain ⟨ahead, behind⟩ := c
  obtain ⟨ahead', behind'⟩ := c'
  cases hlast : ahead.getLast? with
  | none =>
    obtain rfl := List.getLast?_eq_none_iff.mp hlast
    simp [unframed]
  | some last =>
    obtain ⟨tokens, rfl⟩ := List.getLast?_eq_some_iff.mp hlast
    obtain ⟨kind, l⟩ := last
    by_cases hk : kind = .keyword .finish
    · subst hk
      simp [unframed, Token.isKeyword]
      grind
    · simp [unframed, Token.isKeyword, hk]

theorem bind_eq_ok_iff_returns {α β : Type} {bound : Nat}
    {answer : Except SyntaxError (Read α bound)} {next : Read α bound → Except SyntaxError β}
    {b : β} :
    answer >>= next = .ok b ↔
      ∃ a c₁, ∃ h : Returns answer a c₁, next ⟨a, c₁, h.within⟩ = .ok b := by
  cases answer with
  | error e => simp [bind, Except.bind, not_returns_error]
  | ok r =>
    constructor
    · intro hn
      exact ⟨r.item, r.rest, ⟨r.within, rfl⟩, hn⟩
    · rintro ⟨_, _, ⟨_, h⟩, hn⟩
      cases h
      exact hn

/-- A program is framed by its skeleton; inside it stands a row of statements. -/
theorem parse_eq_ok_iff {tokens : List Token} {p : Program} :
    parse tokens = .ok p ↔ ∃ l₁ l₂ l₃ inside, ∃ c' : TokenCursor,
      tokens = ⟨.keyword .start, l₁⟩ :: ⟨.keyword .main, l₂⟩
          :: (inside ++ [⟨.keyword .finish, l₃⟩])
        ∧ Returns (statementsFrom (statement (block nestingLimit)) (fun _ => false)
            ⟨inside, l₂⟩ (Nat.le_refl _) []) p.body c' := by
  simp only [parse, bind_eq_ok_iff_returns, returns_expect_iff]
  constructor
  · rintro ⟨_, _, ⟨l₁, rest, rfl, rfl, rfl⟩, _, _, ⟨l₂, rest, hrest, rfl, rfl⟩, h⟩
    obtain rfl : _ = _ := hrest
    cases hframe : unframed ⟨rest, l₂⟩ with
    | error e =>
      rw [hframe] at h
      cases h
    | ok c =>
      rw [hframe] at h
      obtain ⟨l₃, hahead, hbehind⟩ := unframed_eq_ok_iff.mp hframe
      obtain ⟨body, c', hbody, hp⟩ := bind_eq_ok_iff_returns.mp h
      obtain ⟨inside, _⟩ := c
      obtain rfl : _ = l₂ := hbehind
      obtain rfl : rest = _ := hahead
      cases hp
      exact ⟨l₁, _, l₃, inside, c', rfl, hbody⟩
  · rintro ⟨l₁, l₂, l₃, inside, c', rfl, hbody⟩
    refine ⟨_, _, ⟨l₁, _, rfl, rfl, rfl⟩, _, _, ⟨l₂, _, rfl, rfl, rfl⟩, ?_⟩
    have hframe : unframed ⟨inside ++ [⟨.keyword .finish, l₃⟩], l₂⟩ = .ok ⟨inside, l₂⟩ :=
      unframed_eq_ok_iff.mpr ⟨l₃, rfl, rfl⟩
    rw [hframe]
    exact bind_eq_ok_iff_returns.mpr ⟨p.body, c', hbody, rfl⟩

end Program

end Lipi
