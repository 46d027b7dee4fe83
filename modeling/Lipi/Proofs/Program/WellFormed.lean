/-
What every program that is read looks like.

The parser decides where a slice ends by looking at the tokens around it; the
conditions here look at the slice alone, and only at the kinds of its tokens. A value
is never empty and holds nothing that would have ended it (`IsValue`); what stands in
parentheses is balanced (`Balanced`, which counts parentheses and mentions no scan); a
choice has a branch; and no statement opens more blocks inside one another than there is
room for (`Statement.depth`). A program that meets all of them is well formed, whether
or not it has ever been text.

The result is that the parser returns no other (`wellFormed_of_parse`). It is an
induction on the grammar: the slices are looked at once, and each form of statement adds
its own condition.
-/
import Lipi.Proofs.Program.Parsing

set_option autoImplicit false

namespace Lipi

/-! ## Conditions on slices -/

namespace Token

/-- A value of a declaration or an assignment: not empty, with nothing in it that would
have ended it. -/
structure IsValue (kinds : List Kind) : Prop where
  ne_nil : kinds ≠ []
  noKeyword : ∀ k, .keyword k ∉ kinds
  noSemicolon : .symbol .semicolon ∉ kinds
  noTarget : ∀ name, ¬ [.identifier name, .operator .assign] <:+: kinds

/-- Every parenthesis is closed, and none is closed before it is opened. -/
structure Balanced (kinds : List Kind) : Prop where
  opened : ∀ n, (kinds.take n).count (.symbol .closeParen) ≤ (kinds.take n).count (.symbol .openParen)
  closed : kinds.count (.symbol .openParen) = kinds.count (.symbol .closeParen)

/-- A print's arguments or a condition. -/
def IsTest (kinds : List Kind) : Prop := kinds ≠ [] ∧ Balanced kinds

theorem kinds_ne_nil {tokens : List Token} : kinds tokens ≠ [] ↔ tokens ≠ [] := by
  rw [kinds, ne_eq, List.map_eq_nil_iff]

end Token

/-! ## Well-formed programs -/

mutual

/-- A statement whose slices are as they should be, with its blocks. -/
def Statement.WellFormed : Statement → Prop
  | .declare _ _ _ value => Token.IsValue (Token.kinds value)
  | .assign _ _ value => Token.IsValue (Token.kinds value)
  | .output _ value => Token.IsTest (Token.kinds value)
  | .choice _ chain => (∃ condition body rest, chain = .test condition body rest) ∧ chain.WellFormed
  | .whileLoop _ condition body =>
    Token.IsTest (Token.kinds condition) ∧ Statement.AllWellFormed body
  | .forLoop _ initial condition increment body =>
    Program.Undivided initial ∧ Program.Undivided condition ∧ Program.Undivided increment
      ∧ Token.Balanced
          (Token.kinds (Program.header .nowhere .nowhere initial condition increment))
      ∧ Statement.AllWellFormed body
  | .breakLoop _ => True
  | .continueLoop _ => True
termination_by structural s => s

/-- A chain whose conditions are as they should be, with its blocks. -/
def StatementChain.WellFormed : StatementChain → Prop
  | .test condition body rest =>
    Token.IsTest (Token.kinds condition) ∧ Statement.AllWellFormed body ∧ rest.WellFormed
  | .otherwise body => Statement.AllWellFormed body
  | .done => True
termination_by structural c => c

/-- A row of well-formed statements. -/
def Statement.AllWellFormed : List Statement → Prop
  | [] => True
  | s :: rest => s.WellFormed ∧ Statement.AllWellFormed rest
termination_by structural ss => ss

end

mutual

/-- How many blocks a statement opens inside one another. -/
def Statement.depth : Statement → Nat
  | .choice _ chain => chain.depth
  | .whileLoop _ _ body => Statement.depthOfAll body + 1
  | .forLoop _ _ _ _ body => Statement.depthOfAll body + 1
  | .declare _ _ _ _ => 0
  | .assign _ _ _ => 0
  | .output _ _ => 0
  | .breakLoop _ => 0
  | .continueLoop _ => 0
termination_by structural s => s

/-- How many blocks a chain opens inside one another. -/
def StatementChain.depth : StatementChain → Nat
  | .test _ body rest => max (Statement.depthOfAll body + 1) rest.depth
  | .otherwise body => Statement.depthOfAll body + 1
  | .done => 0
termination_by structural c => c

/-- The most blocks that a statement of a row opens inside one another. -/
def Statement.depthOfAll : List Statement → Nat
  | [] => 0
  | s :: rest => max s.depth (Statement.depthOfAll rest)
termination_by structural ss => ss

end

namespace Program

/-- A program with well-formed statements and no more blocks inside one another than may
be open. -/
structure WellFormed (p : Program) : Prop where
  body : Statement.AllWellFormed p.body
  depth : Statement.depthOfAll p.body ≤ nestingLimit

/-! ## Slices that are read -/

theorem endsValue_eq_false_iff {t : Token} {rest : List Token} :
    endsValue t rest = false ↔ (∀ k, t.kind ≠ .keyword k) ∧ t.kind ≠ .symbol .semicolon
      ∧ ∀ name, t.kind = .identifier name → ∀ l more, rest ≠ ⟨.operator .assign, l⟩ :: more := by
  obtain ⟨kind, l⟩ := t
  cases kind with
  | keyword k => simp [endsValue, Token.isAnyKeyword]
  | identifier name =>
    simp only [endsValue, Token.isAnyKeyword, Token.isSymbol, Token.name?, Option.isSome_some,
      Bool.true_and, Bool.false_or]
    rcases rest with _ | ⟨⟨kind, l'⟩, rest⟩
    · simp
    · simp [Token.isOperator]
  | _ => simp [endsValue, Token.isAnyKeyword, Token.isSymbol, Token.name?]

/-- The slices that run to a semicolon are those that hold no end of a value. -/
theorem runsTo_semicolon_iff {slice rest : List Token} {l : Location} :
    RunsTo slice (⟨.symbol .semicolon, l⟩ :: rest) ↔
      (∀ k, .keyword k ∉ Token.kinds slice) ∧ .symbol .semicolon ∉ Token.kinds slice
        ∧ ∀ name, ¬ [.identifier name, .operator .assign] <:+: Token.kinds slice := by
  induction slice with
  | nil =>
    have hends : endsValue ⟨.symbol .semicolon, l⟩ rest = true := rfl
    simp [RunsTo, Token.kinds, hends]
  | cons t slice ih =>
    -- A target at the front of the slice is one that the tokens ahead show.
    have hfront : ∀ name, (t.kind = .identifier name →
        ∀ l' more, slice ++ ⟨.symbol .semicolon, l⟩ :: rest ≠ ⟨.operator .assign, l'⟩ :: more) ↔
        ¬ [.identifier name, .operator .assign] <+: t.kind :: Token.kinds slice := by
      intro name
      rcases slice with _ | ⟨⟨kind, l''⟩, slice⟩
      · simp [Token.kinds]
      · rw [Token.kinds, List.map_cons, List.cons_prefix_cons, List.cons_prefix_cons]
        constructor
        · rintro h ⟨hname, hassign, -⟩
          obtain rfl : .operator .assign = kind := hassign
          exact h hname.symm l'' _ rfl
        · rintro h hname l' more he
          cases he
          exact h ⟨hname.symm, rfl, List.nil_prefix⟩
    rw [RunsTo, ih, endsValue_eq_false_iff]
    simp only [hfront]
    simp only [Token.kinds, List.map_cons, List.mem_cons, not_or, List.infix_cons_iff]
    constructor
    · rintro ⟨⟨hk, hs, hn⟩, hks, hss, hns⟩
      exact ⟨fun k => ⟨Ne.symm (hk k), hks k⟩, ⟨Ne.symm hs, hss⟩, fun name => ⟨hn name, hns name⟩⟩
    · rintro ⟨hk, hs, hn⟩
      exact ⟨⟨fun k he => (hk k).1 he.symm, fun he => hs.1 he.symm, fun name => (hn name).1⟩,
        fun k => (hk k).2, hs.2, fun name => (hn name).2⟩

/-- What a slice runs to matters only where it ends. -/
theorem RunsTo.to_semicolon {slice rest : List Token} (h : RunsTo slice rest) (l : Location)
    (rest' : List Token) : RunsTo slice (⟨.symbol .semicolon, l⟩ :: rest') := by
  induction slice with
  | nil =>
    intro t more he
    cases he
    rfl
  | cons t slice ih =>
    obtain ⟨hgoes, h⟩ := h
    refine ⟨?_, ih h⟩
    rw [endsValue_eq_false_iff] at hgoes ⊢
    refine ⟨hgoes.1, hgoes.2.1, ?_⟩
    intro name hname l' more he
    rcases slice with _ | ⟨t', slice⟩
    · cases he
    · cases he
      exact hgoes.2.2 name hname l' _ rfl

theorem RunsTo.isValue {slice rest : List Token} (h : RunsTo slice rest) (hne : slice ≠ []) :
    Token.IsValue (Token.kinds slice) := by
  obtain ⟨hkeyword, hsemicolon, htarget⟩ := runsTo_semicolon_iff.mp (h.to_semicolon .nowhere [])
  exact ⟨Token.kinds_ne_nil.mpr hne, hkeyword, hsemicolon, htarget⟩

/-! ## Counting what is open -/

section Balance

variable {m n : Nat} {k : Token.Kind} {kinds more : List Token.Kind}

@[simp] theorem balancedFrom_nil : BalancedFrom n [] ↔ n = 0 := Iff.rfl

@[simp] theorem balancedFrom_openParen :
    BalancedFrom n (.symbol .openParen :: kinds) ↔ BalancedFrom (n + 1) kinds := by
  rw [BalancedFrom, if_pos rfl]

/-- A parenthesis closes one that is open. -/
theorem balancedFrom_closeParen_iff :
    BalancedFrom n (.symbol .closeParen :: kinds)
      ↔ ∃ fewer, n = fewer + 1 ∧ BalancedFrom fewer kinds := by
  rw [BalancedFrom, if_neg (by decide), if_pos rfl]

@[simp] theorem balancedFrom_closeParen :
    BalancedFrom (n + 1) (.symbol .closeParen :: kinds) ↔ BalancedFrom n kinds := by
  rw [balancedFrom_closeParen_iff]
  constructor
  · rintro ⟨fewer, hfewer, h⟩
    obtain rfl : n = fewer := by omega
    exact h
  · exact fun h => ⟨n, rfl, h⟩

theorem balancedFrom_cons_of_ne (hopen : k ≠ .symbol .openParen)
    (hclose : k ≠ .symbol .closeParen) :
    BalancedFrom n (k :: kinds) ↔ BalancedFrom n kinds := by
  rw [BalancedFrom, if_neg hopen, if_neg hclose]

theorem not_balancedFrom_closeParen : ¬ BalancedFrom 0 (.symbol .closeParen :: kinds) := by
  rw [balancedFrom_closeParen_iff]
  rintro ⟨fewer, hfewer, -⟩
  omega

/-- Behind a slice that closes what it opens and more, that much less is open. -/
theorem balancedFrom_append_iff (h : BalancedFrom m kinds) :
    BalancedFrom (m + n) (kinds ++ more) ↔ BalancedFrom n more := by
  induction kinds generalizing m with
  | nil =>
    obtain rfl : m = 0 := h
    rw [Nat.zero_add, List.nil_append]
  | cons k kinds ih =>
    rw [List.cons_append]
    by_cases hopen : k = .symbol .openParen
    · subst hopen
      rw [balancedFrom_openParen] at h ⊢
      rw [Nat.add_right_comm, ih h]
    · by_cases hclose : k = .symbol .closeParen
      · subst hclose
        obtain ⟨fewer, rfl, hfewer⟩ := balancedFrom_closeParen_iff.mp h
        rw [Nat.add_right_comm, balancedFrom_closeParen, ih hfewer]
      · rw [balancedFrom_cons_of_ne hopen hclose] at h ⊢
        exact ih h

theorem BalancedFrom.append (h : BalancedFrom m kinds) (hmore : BalancedFrom n more) :
    BalancedFrom (m + n) (kinds ++ more) :=
  (balancedFrom_append_iff h).mpr hmore

end Balance

/-- A scan that counts what is open finds a slice balanced exactly when the counts of its
beginnings say so. -/
theorem balancedFrom_iff {opened : Nat} {kinds : List Token.Kind} :
    BalancedFrom opened kinds ↔
      (∀ n, (kinds.take n).count (.symbol .closeParen)
          ≤ opened + (kinds.take n).count (.symbol .openParen))
        ∧ opened + kinds.count (.symbol .openParen) = kinds.count (.symbol .closeParen) := by
  induction kinds generalizing opened with
  | nil => simp [BalancedFrom]
  | cons k kinds ih =>
    have htake : ∀ p : List Token.Kind → Prop,
        (∀ n, p ((k :: kinds).take n)) ↔ p [] ∧ ∀ n, p (k :: kinds.take n) := by
      intro p
      constructor
      · intro h
        exact ⟨h 0, fun n => h (n + 1)⟩
      · rintro ⟨hnil, hcons⟩ (_ | n)
        · exact hnil
        · exact hcons n
    rw [htake fun taken => taken.count (.symbol .closeParen)
      ≤ opened + taken.count (.symbol .openParen), BalancedFrom]
    have hne : Token.Kind.symbol .openParen ≠ .symbol .closeParen := by decide
    by_cases hopen : k = .symbol .openParen
    · subst hopen
      simp only [if_true, ih, List.count_nil, List.count_cons_self,
        List.count_cons_of_ne hne, Nat.zero_le, true_and]
      -- One more is open for the rest, as the counts of the whole say.
      have hcomm : ∀ m, opened + 1 + m = opened + (m + 1) := by omega
      simp only [hcomm]
    · by_cases hclose : k = .symbol .closeParen
      · subst hclose
        simp only [if_neg hopen, if_true, ih, List.count_nil, List.count_cons_self,
          List.count_cons_of_ne hne.symm, Nat.zero_le, true_and]
        constructor
        · rintro ⟨fewer, rfl, htaken, hall⟩
          refine ⟨fun n => ?_, by omega⟩
          have := htaken n
          omega
        · rintro ⟨htaken, hall⟩
          -- What has been taken when nothing has: the parenthesis must have been open.
          have hpos := htaken 0
          simp only [List.take_zero, List.count_nil] at hpos
          refine ⟨opened - 1, by omega, fun n => ?_, by omega⟩
          have := htaken n
          omega
      · rw [if_neg hopen, if_neg hclose, ih]
        simp [hopen, hclose]

theorem balancedFrom_zero_iff {kinds : List Token.Kind} :
    BalancedFrom 0 kinds ↔ Token.Balanced kinds := by
  rw [balancedFrom_iff]
  simp only [Nat.zero_add]
  exact ⟨fun h => ⟨h.1, h.2⟩, fun h => ⟨h.opened, h.closed⟩⟩

theorem isTest_of_balancedFrom {slice : List Token} (hne : slice ≠ [])
    (h : BalancedFrom 0 (Token.kinds slice)) : Token.IsTest (Token.kinds slice) :=
  ⟨Token.kinds_ne_nil.mpr hne, balancedFrom_zero_iff.mp h⟩

/-- The kinds of a header, wherever its semicolons stand. -/
theorem kinds_header (l₁ l₂ : Location) (initial condition increment : List Token) :
    Token.kinds (header l₁ l₂ initial condition increment)
      = Token.kinds initial ++ .symbol .semicolon
          :: (Token.kinds condition ++ .symbol .semicolon :: Token.kinds increment) := by
  simp [header, Token.kinds]

/-! ## Programs that are read -/

namespace Fragment

/-- The statements of a fragment are well formed. -/
def WellFormed : Fragment → Prop
  | statement none => True
  | statement (some s) => s.WellFormed
  | block body => Statement.AllWellFormed body
  | chain branches => branches.WellFormed
  | sequence _ body => Statement.AllWellFormed body

/-- How many blocks a fragment opens inside one another, itself included. -/
def depth : Fragment → Nat
  | statement none => 0
  | statement (some s) => s.depth
  | block body => Statement.depthOfAll body + 1
  | chain branches => branches.depth
  | sequence _ body => Statement.depthOfAll body

end Fragment

/-- Whatever is taken off a row of tokens is well formed. -/
theorem Takes.wellFormed {room : Nat} {tokens rest : List Token} {fragment : Fragment}
    (h : Takes room tokens fragment rest) : fragment.WellFormed := by
  induction h with
  | declare _ _ _ _ _ hne hruns => exact hruns.isValue hne
  | assign _ _ _ hne hruns => exact hruns.isValue hne
  | output _ _ _ hne hbalanced => exact isTest_of_balancedFrom hne hbalanced
  | choice _ _ _ hne hbalanced _ _ ihbody ihmore =>
    exact ⟨⟨_, _, _, rfl⟩, isTest_of_balancedFrom hne hbalanced, ihbody, ihmore⟩
  | whileLoop _ _ _ hne hbalanced _ ihbody => exact ⟨isTest_of_balancedFrom hne hbalanced, ihbody⟩
  | forLoop _ _ _ _ _ hinitial hcondition hincrement hbalanced _ ihbody =>
    rw [kinds_header, ← kinds_header .nowhere .nowhere] at hbalanced
    exact ⟨hinitial, hcondition, hincrement, balancedFrom_zero_iff.mp hbalanced, ihbody⟩
  | breakLoop _ => exact trivial
  | continueLoop _ => exact trivial
  | idle _ => exact trivial
  | block _ _ _ ih => exact ih
  | elseIf _ _ _ hne hbalanced _ _ ihbody ihmore =>
    exact ⟨isTest_of_balancedFrom hne hbalanced, ihbody, ihmore⟩
  | otherwise _ _ ihbody => exact ihbody
  | noBranch _ => exact trivial
  | nothing _ => exact trivial
  | brace _ => exact trivial
  | @next _ _ _ _ _ _ s more _ _ _ ihfirst ihmore =>
    cases s with
    | none => exact ihmore
    | some s => exact ⟨ihfirst, ihmore⟩

/-- Whatever is taken off a row of tokens opens no more blocks than there is room for. -/
theorem Takes.depth_le {room : Nat} {tokens rest : List Token} {fragment : Fragment}
    (h : Takes room tokens fragment rest) : fragment.depth ≤ room := by
  -- Only a block uses up room; every other form is as deep as its deepest part.
  induction h with
  | choice _ _ _ _ _ _ _ ihbody ihmore => exact Nat.max_le.mpr ⟨ihbody, ihmore⟩
  | elseIf _ _ _ _ _ _ _ ihbody ihmore => exact Nat.max_le.mpr ⟨ihbody, ihmore⟩
  | whileLoop _ _ _ _ _ _ ihbody => exact ihbody
  | forLoop _ _ _ _ _ _ _ _ _ _ ihbody => exact ihbody
  | block _ _ _ ih => exact Nat.succ_le_succ ih
  | otherwise _ _ ihbody => exact ihbody
  | @next _ _ _ _ _ _ s more _ _ _ ihfirst ihmore =>
    cases s with
    | none => exact ihmore
    | some s => exact Nat.max_le.mpr ⟨ihfirst, ihmore⟩
  | _ => exact Nat.zero_le _

/-- **A program that is read is well formed.** -/
theorem wellFormed_of_parse {tokens : List Token} {p : Program} (h : parse tokens = .ok p) :
    p.WellFormed := by
  obtain ⟨_, _, _, _, -, htakes⟩ := parse_iff_takes.mp h
  exact ⟨htakes.wellFormed, htakes.depth_le⟩

end Program

end Lipi
