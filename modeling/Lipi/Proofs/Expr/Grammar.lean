/-
The grammar of expressions, level by level.

`Phrase.Derives` relates a nonterminal, a row of pieces and the expression that they
spell, by one constructor for each rule of the grammar. The rules for operators
between operands are left-recursive, the way a grammar is written down; that a
reader has to take the operands from the left and carry what it has joined so far
is its own affair, and `Lipi.Proofs.Expr.Reading` shows that it comes to the same.
Which sign is what is taken from the tables that the readers use, so that each rule
stands beside its reader. That these are the language's is said where the table of
precedences is spelled out (`Lipi.Proofs.Expr.Precedence`).

A derivation also has a nesting: the greatest number of groups, operators before an
operand and assignments that stand around one point of it. It is synthesized along
the rules and restricts none of them, so that the relation is the whole grammar and
a ceiling is a condition on its last argument.

The height of an expression has no such argument. A ceiling on the height of every
tree that is built is one on the height of the whole, because no subtree is higher
(`Expr.height_le_iff`).
-/
import Lipi.Expr.Piece

set_option autoImplicit false

namespace Lipi

/-! ## Subtrees -/

/-- An expression and everything it is built from. -/
def Expr.subtrees : Expr → List Expr
  | e@(literal _) => [e]
  | e@(var _) => [e]
  | e@(unary _ operand) => e :: operand.subtrees
  | e@(binary _ left right) => e :: (left.subtrees ++ right.subtrees)
  | e@(assign _ _ value) => e :: value.subtrees
  | e@(update _ _ _) => [e]

theorem Expr.mem_subtrees_self (e : Expr) : e ∈ e.subtrees := by
  cases e <;> simp [subtrees]

/-- No subtree is higher than the whole. -/
theorem Expr.height_le_of_mem_subtrees {t e : Expr} (h : t ∈ e.subtrees) :
    t.height ≤ e.height := by
  induction e with
  | literal v =>
    rw [subtrees, List.mem_singleton] at h
    exact h ▸ Nat.le_refl _
  | var name =>
    rw [subtrees, List.mem_singleton] at h
    exact h ▸ Nat.le_refl _
  | update name op leading =>
    rw [subtrees, List.mem_singleton] at h
    exact h ▸ Nat.le_refl _
  | unary op operand ih =>
    rcases List.mem_cons.mp h with rfl | h
    · exact Nat.le_refl _
    · have := ih h
      rw [height]; omega
  | assign name op value ih =>
    rcases List.mem_cons.mp h with rfl | h
    · exact Nat.le_refl _
    · have := ih h
      rw [height]; omega
  | binary op left right ihl ihr =>
    rcases List.mem_cons.mp h with rfl | h
    · exact Nat.le_refl _
    · rw [height]
      rcases List.mem_append.mp h with h | h
      · have := ihl h
        omega
      · have := ihr h
        omega

/-- A ceiling on the whole is a ceiling on every subtree. -/
theorem Expr.height_le_iff (e : Expr) (limit : Nat) :
    e.height ≤ limit ↔ ∀ t ∈ e.subtrees, t.height ≤ limit :=
  ⟨fun h _ ht => Nat.le_trans (height_le_of_mem_subtrees ht) h,
    fun h => h e e.mem_subtrees_self⟩

/-! ## The grammar -/

/-- The nonterminals. `joined Level.all` is a disjunction of conjunctions and so on,
each tail of the list the next tighter level; `joined []` is an operand with the
operators before it. -/
inductive Phrase where
  | expression
  | joined (levels : List Level)
  | stepped
  | primary
deriving DecidableEq, Repr

/-- `phrase.Derives pieces e nesting`: the pieces, all of them, are a `phrase` and
spell `e`, with at most `nesting` groups, operators before an operand and
assignments around any one of them. -/
inductive Phrase.Derives : Phrase → List Piece → Expr → Nat → Prop where
  /-- `name = expression`, and the same with an operator in the sign. -/
  | assign {s : Sign} {op : Option BinaryOp} {pieces : List Piece} {value : Expr} {n : Nat}
      (name : String) (l₁ l₂ : Location) (hop : s.assignOp? = some op)
      (hvalue : expression.Derives pieces value n) :
      expression.Derives (⟨.name name, l₁⟩ :: ⟨.sign s, l₂⟩ :: pieces) (.assign name op value)
        (n + 1)
  | ofJoined {pieces : List Piece} {e : Expr} {n : Nat}
      (h : (joined Level.all).Derives pieces e n) : expression.Derives pieces e n
  /-- An operator of a level joins what stands before it on the same level, and a
  phrase of the next level after it. -/
  | join {level : Level} {tighter : List Level} {s : Sign} {op : BinaryOp}
      {before after : List Piece} {left right : Expr} {n m : Nat} (l : Location)
      (hop : level.operator? s = some op)
      (hleft : (joined (level :: tighter)).Derives before left n)
      (hright : (joined tighter).Derives after right m) :
      (joined (level :: tighter)).Derives (before ++ ⟨.sign s, l⟩ :: after)
        (.binary op left right) (max n m)
  | ofTighter {level : Level} {tighter : List Level} {pieces : List Piece} {e : Expr} {n : Nat}
      (h : (joined tighter).Derives pieces e n) : (joined (level :: tighter)).Derives pieces e n
  | unary {s : Sign} {op : UnaryOp} {pieces : List Piece} {operand : Expr} {n : Nat}
      (l : Location) (hop : s.unaryOp? = some op)
      (hoperand : (joined []).Derives pieces operand n) :
      (joined []).Derives (⟨.sign s, l⟩ :: pieces) (.unary op operand) (n + 1)
  /-- A step before a name. -/
  | leading {s : Sign} {op : UpdateOp} (name : String) (l₁ l₂ : Location)
      (hop : s.updateOp? = some op) :
      (joined []).Derives [⟨.sign s, l₁⟩, ⟨.name name, l₂⟩] (.update name op true) 0
  | ofStepped {pieces : List Piece} {e : Expr} {n : Nat} (h : stepped.Derives pieces e n) :
      (joined []).Derives pieces e n
  /-- A step after a name, which may stand in parentheses. -/
  | trailing {s : Sign} {op : UpdateOp} {pieces : List Piece} {name : String} {n : Nat}
      (l : Location) (hop : s.updateOp? = some op)
      (hname : primary.Derives pieces (.var name) n) :
      stepped.Derives (pieces ++ [⟨.sign s, l⟩]) (.update name op false) n
  | ofPrimary {pieces : List Piece} {e : Expr} {n : Nat} (h : primary.Derives pieces e n) :
      stepped.Derives pieces e n
  | value (v : Value) (l : Location) : primary.Derives [⟨.value v, l⟩] (.literal v) 0
  | name (name : String) (l : Location) : primary.Derives [⟨.name name, l⟩] (.var name) 0
  | group {pieces : List Piece} {e : Expr} {n : Nat} (l₁ l₂ : Location)
      (h : expression.Derives pieces e n) :
      primary.Derives (⟨.openParen, l₁⟩ :: (pieces ++ [⟨.closeParen, l₂⟩])) e (n + 1)

/-! ## What a derivation looks like -/

namespace Phrase

/-- Nothing is derived from no pieces. -/
theorem Derives.ne_nil {phrase : Phrase} {pieces : List Piece} {e : Expr} {n : Nat}
    (h : phrase.Derives pieces e n) : pieces ≠ [] := by
  induction h with
  | ofJoined _ ih => exact ih
  | ofTighter _ ih => exact ih
  | ofStepped _ ih => exact ih
  | ofPrimary _ ih => exact ih
  | assign | join | unary | leading | trailing | value | name | group => simp

/-- A sign is one thing only, as far as what can follow an operand goes. -/
theorem level_exclusive {level : Level} {s : Sign} {op : BinaryOp}
    (h : level.operator? s = some op) :
    s.updateOp? = none ∧ s.assignOp? = none
      ∧ ∀ other : Level, other ≠ level → other.operator? s = none := by
  cases level <;> cases s <;> simp_all [Level.operator?, Sign.updateOp?, Sign.assignOp?]

theorem assignOp?_eq_none_of_updateOp? {s : Sign} {op : UpdateOp} (h : s.updateOp? = some op) :
    s.assignOp? = none := by
  cases s <;> simp_all [Sign.updateOp?, Sign.assignOp?]

/-- A name at the front is followed by the sign of an assignment only where the
phrase is an assignment. This is what two pieces of lookahead rely on. -/
theorem Derives.assignOp?_second {phrase : Phrase} {pieces : List Piece} {e : Expr} {n : Nat}
    (h : phrase.Derives pieces e n) (hne : phrase ≠ .expression) {name : String}
    {s : Sign} {l₁ l₂ : Location} {rest : List Piece}
    (hp : pieces = ⟨.name name, l₁⟩ :: ⟨.sign s, l₂⟩ :: rest) : s.assignOp? = none := by
  induction h generalizing rest with
  | assign | ofJoined => exact absurd rfl hne
  | unary | leading | value | name | group => simp at hp
  | ofTighter _ ih => exact ih (by simp) hp
  | ofStepped _ ih => exact ih (by simp) hp
  | ofPrimary _ ih => exact ih (by simp) hp
  | @join _ _ _ _ before _ _ _ _ _ l hop hleft _ ih _ =>
    -- The sign is the operator itself if a lone name stands before it.
    match before, hleft.ne_nil with
    | [p], _ =>
      simp only [List.singleton_append, List.cons.injEq, Piece.mk.injEq, Piece.Kind.sign.injEq] at hp
      rw [← hp.2.1.1]
      exact (level_exclusive hop).2.1
    | p :: q :: more, _ =>
      simp only [List.cons_append, List.cons.injEq] at hp
      exact ih (by simp) (show _ = _ :: _ :: more by rw [hp.1, hp.2.1])
  | @trailing _ _ pieces _ _ l hop hname ih =>
    match pieces, hname.ne_nil with
    | [p], _ =>
      simp only [List.singleton_append, List.cons.injEq, Piece.mk.injEq, Piece.Kind.sign.injEq] at hp
      rw [← hp.2.1.1]
      exact assignOp?_eq_none_of_updateOp? hop
    | p :: q :: more, _ =>
      simp only [List.cons_append, List.cons.injEq] at hp
      exact ih (by simp) (show _ = _ :: _ :: more by rw [hp.1, hp.2.1])

/-- Neither a primary nor a stepped one begins with a sign. -/
theorem Derives.not_sign_head {phrase : Phrase} {pieces : List Piece} {e : Expr} {n : Nat}
    (h : phrase.Derives pieces e n) (hp : phrase = primary ∨ phrase = stepped) {s : Sign}
    {l : Location} {rest more : List Piece} : pieces ++ more ≠ ⟨.sign s, l⟩ :: rest := by
  induction h generalizing more with
  | assign | ofJoined | join | ofTighter | unary | leading | ofStepped => simp at hp
  | trailing _ _ _ ih =>
    rw [List.append_assoc]
    exact ih (.inl rfl)
  | ofPrimary _ ih => exact ih (.inl rfl)
  | value | name | group => simp

/-! ## What may follow a phrase -/

/-- The signs that a reader of the phrase would not leave behind. -/
def GoesOn : Phrase → Sign → Prop
  | expression, s => s.assignOp? ≠ none ∨ s.updateOp? ≠ none
      ∨ ∃ level ∈ Level.all, level.operator? s ≠ none
  | joined levels, s => s.updateOp? ≠ none ∨ ∃ level ∈ levels, level.operator? s ≠ none
  | stepped, s => s.updateOp? ≠ none
  | primary, _ => False

/-- The pieces that may follow a phrase: none, or any but a sign that goes on. -/
def Stops (phrase : Phrase) (rest : List Piece) : Prop :=
  ∀ s l more, rest = ⟨.sign s, l⟩ :: more → ¬ phrase.GoesOn s

theorem stops_nil (phrase : Phrase) : phrase.Stops [] := by
  intro s l more h
  cases h

theorem stops_closeParen (phrase : Phrase) (l : Location) (rest : List Piece) :
    phrase.Stops (⟨.closeParen, l⟩ :: rest) := by
  intro s l more h
  simp at h

/-- What may follow a phrase may follow any phrase that goes on with less. -/
theorem Stops.mono {phrase other : Phrase} {rest : List Piece} (h : phrase.Stops rest)
    (hle : ∀ s, other.GoesOn s → phrase.GoesOn s) : other.Stops rest :=
  fun s l more hr hs => h s l more hr (hle s hs)

/-- An operator of a level may follow the next tighter one. -/
theorem stops_operator {level : Level} {tighter : List Level} {s : Sign} {op : BinaryOp}
    (hop : level.operator? s = some op) (hnodup : level ∉ tighter) (l : Location)
    (rest : List Piece) : (joined tighter).Stops (⟨.sign s, l⟩ :: rest) := by
  intro s' l' more h
  simp only [List.cons.injEq, Piece.mk.injEq, Piece.Kind.sign.injEq] at h
  obtain ⟨hupdate, -, hother⟩ := level_exclusive hop
  rw [← h.1.1]
  rintro (hs | ⟨other, hmem, hs⟩)
  · exact hs hupdate
  · exact hs (hother other fun he => hnodup (he ▸ hmem))

end Phrase

end Lipi
