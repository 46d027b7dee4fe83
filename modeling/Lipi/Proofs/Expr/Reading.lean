/-
What each reader of the expression grammar answers.

A reader answers with a node, a cursor and a proof that the cursor has moved. The
proof is what makes the readers end, and nothing else depends on it, so statements
about readers are made with the relation `Reader.Reads`, which leaves it out. For
each reader one equivalence says when it holds, in terms of the same relation for
the readers it calls. Everything that is proved about expressions later goes through
these equivalences and opens no reader.
-/
import Lipi.Expr.Parser

set_option autoImplicit false

namespace Lipi

/-! ## Nodes and cursors -/

theorem Node.checked_eq_ok_iff {limit depth : Nat} {e : Expr} {c : Cursor} {node : Node} :
    checked limit e depth c = .ok node ↔ depth ≤ limit ∧ node = ⟨e, depth⟩ := by
  unfold checked
  by_cases h : limit < depth
  · rw [if_pos h]
    constructor
    · intro he
      cases he
    · rintro ⟨hle, -⟩
      omega
  · rw [if_neg h, Except.ok.injEq]
    exact ⟨fun he => ⟨Nat.le_of_not_lt h, he.symm⟩, fun he => he.2.symm⟩

namespace Reader

/-- A reader answers a cursor with a node and another cursor. -/
def Reads (reader : Reader) (c : Cursor) (node : Node) (c' : Cursor) : Prop :=
  ∃ h, reader c = .ok ⟨node, c', h⟩

/-- A reader has one answer. -/
theorem Reads.unique {reader : Reader} {c c₁ c₂ : Cursor} {node₁ node₂ : Node}
    (h₁ : reader.Reads c node₁ c₁) (h₂ : reader.Reads c node₂ c₂) :
    node₁ = node₂ ∧ c₁ = c₂ := by
  obtain ⟨_, h₁⟩ := h₁
  obtain ⟨_, h₂⟩ := h₂
  rw [h₁, Except.ok.injEq, Reading.mk.injEq] at h₂
  exact h₂

theorem Reads.length_lt {reader : Reader} {c c' : Cursor} {node : Node}
    (h : reader.Reads c node c') : c'.ahead.length < c.ahead.length := h.1

theorem not_reads_refused {c c' : Cursor} {node : Node} : ¬ refused.Reads c node c' := by
  rintro ⟨_, h⟩
  cases h

/-! ## Primaries and steps -/

theorem reads_primary_iff {expression : Reader} {c c' : Cursor} {node : Node} :
    (primary expression).Reads c node c' ↔ ∃ p rest, c.ahead = p :: rest ∧
      ((∃ v, p.kind = .value v ∧ node = .leaf (.literal v) ∧ c' = c.past p rest)
        ∨ (∃ n, p.kind = .name n ∧ node = .leaf (.var n) ∧ c' = c.past p rest)
        ∨ (p.kind = .openParen ∧ ∃ c₁ l after, expression.Reads (c.past p rest) node c₁
            ∧ c₁.ahead = ⟨.closeParen, l⟩ :: after
            ∧ c' = c₁.past ⟨.closeParen, l⟩ after)) := by
  constructor
  · rintro ⟨_, h⟩
    unfold primary at h
    split at h
    · cases h
    · next p rest hc =>
      refine ⟨p, rest, hc, ?_⟩
      dsimp only at h
      split at h
      · next v hv => cases h; exact .inl ⟨v, hv, rfl, rfl⟩
      · next n hn => cases h; exact .inr (.inl ⟨n, hn, rfl, rfl⟩)
      · next hp =>
        split at h
        · cases h
        · next node₁ c₁ h₁ he =>
          split at h
          · next l after hc₁ =>
            cases h
            exact .inr (.inr ⟨hp, c₁, l, after, ⟨h₁, he⟩, hc₁, rfl⟩)
          · cases h
      · cases h
  · rintro ⟨⟨kind, l⟩, rest, hc, h⟩
    obtain ⟨ahead, behind, finish⟩ := c
    subst hc
    obtain ⟨v, rfl, rfl, rfl⟩ | ⟨n, rfl, rfl, rfl⟩ | ⟨rfl, c₁, l₁, after, ⟨hlt, h⟩, hc₁, rfl⟩ := h
    · exact ⟨_, rfl⟩
    · exact ⟨_, rfl⟩
    · obtain ⟨ahead₁, behind₁, finish₁⟩ := c₁
      subst hc₁
      simp only [Cursor.past, List.length_cons] at hlt
      refine ⟨by simp only [Cursor.past, List.length_cons]; omega, ?_⟩
      simp only [primary]
      rw [h]

theorem reads_stepped_iff {expression : Reader} {c c' : Cursor} {node : Node} :
    (stepped expression).Reads c node c' ↔ ∃ first c₁, (primary expression).Reads c first c₁ ∧
      ((∃ s op l rest name, c₁.ahead = ⟨.sign s, l⟩ :: rest ∧ s.updateOp? = some op
          ∧ first.expr = .var name ∧ node = .leaf (.update name op false)
          ∧ c' = c₁.past ⟨.sign s, l⟩ rest)
        ∨ ((∀ s l rest, c₁.ahead = ⟨.sign s, l⟩ :: rest → s.updateOp? = none)
          ∧ node = first ∧ c' = c₁)) := by
  constructor
  · rintro ⟨_, h⟩
    unfold stepped at h
    split at h
    · cases h
    · next first c₁ h₁ he =>
      refine ⟨first, c₁, ⟨h₁, he⟩, ?_⟩
      split at h
      · next s l rest hc =>
        split at h
        · next hs =>
          cases h
          refine .inr ⟨?_, rfl, rfl⟩
          intro s' l' rest' hc'
          rw [hc] at hc'
          cases hc'
          exact hs
        · next op hs =>
          split at h
          · next name hname =>
            cases h
            exact .inl ⟨s, op, l, rest, name, hc, hs, hname, rfl, rfl⟩
          · cases h
      · next hne =>
        cases h
        exact .inr ⟨fun s l rest hc => absurd hc (hne s l rest), rfl, rfl⟩
  · rintro ⟨⟨e, depth⟩, c₁, ⟨hlt, hfirst⟩, h⟩
    obtain ⟨s, op, l, rest, name, hc, hs, rfl, rfl, rfl⟩ | ⟨hnone, rfl, rfl⟩ := h
    · obtain ⟨ahead, behind, finish⟩ := c₁
      subst hc
      simp only [List.length_cons] at hlt
      refine ⟨by simp only [Cursor.past]; omega, ?_⟩
      simp only [stepped]
      rw [hfirst]
      simp only [hs]
    · refine ⟨hlt, ?_⟩
      simp only [stepped]
      rw [hfirst]
      dsimp only
      split
      · next s l rest hc =>
        rw [hnone s l rest hc]
      · rfl

/-! ## Operands -/

theorem reads_steppedName_iff {s : Sign} {op : UpdateOp} {c c' : Cursor} {node : Node} :
    (steppedName s op).Reads c node c' ↔ ∃ name l rest, c.ahead = ⟨.name name, l⟩ :: rest
      ∧ node = .leaf (.update name op true) ∧ c' = c.past ⟨.name name, l⟩ rest := by
  constructor
  · rintro ⟨_, h⟩
    unfold steppedName at h
    split at h
    · next name l rest hc => cases h; exact ⟨name, l, rest, hc, rfl, rfl⟩
    · cases h
  · rintro ⟨name, l, rest, hc, rfl, rfl⟩
    obtain ⟨ahead, behind, finish⟩ := c
    subst hc
    exact ⟨_, rfl⟩

theorem reads_operand_iff {limit : Nat} {expression inner : Reader} {c c' : Cursor}
    {node : Node} :
    (operand limit expression inner).Reads c node c' ↔
      (∃ s op l rest value, c.ahead = ⟨.sign s, l⟩ :: rest ∧ s.unaryOp? = some op
          ∧ inner.Reads (c.past ⟨.sign s, l⟩ rest) value c' ∧ value.depth + 1 ≤ limit
          ∧ node = ⟨.unary op value.expr, value.depth + 1⟩)
        ∨ (∃ s op l rest, c.ahead = ⟨.sign s, l⟩ :: rest ∧ s.updateOp? = some op
          ∧ (steppedName s op).Reads (c.past ⟨.sign s, l⟩ rest) node c')
        ∨ ((∀ s l rest, c.ahead = ⟨.sign s, l⟩ :: rest →
            s.unaryOp? = none ∧ s.updateOp? = none) ∧ (stepped expression).Reads c node c') := by
  constructor
  · rintro ⟨hlt, h⟩
    unfold operand at h
    split at h
    · next s l rest hc =>
      dsimp only at h
      split at h
      · next op hs =>
        split at h
        · cases h
        · next value c₁ h₁ he =>
          split at h
          · cases h
          · next whole hw =>
            cases h
            obtain ⟨hle, rfl⟩ := Node.checked_eq_ok_iff.mp hw
            exact .inl ⟨s, op, l, rest, value, hc, hs, ⟨h₁, he⟩, hle, rfl⟩
      · next hs =>
        split at h
        · next op hu =>
          split at h
          · cases h
          · next node₁ c₁ h₁ he =>
            cases h
            exact .inr (.inl ⟨s, op, l, rest, hc, hu, ⟨h₁, he⟩⟩)
        · next hu =>
          refine .inr (.inr ⟨?_, hlt, h⟩)
          intro s' l' rest' hc'
          rw [hc] at hc'
          cases hc'
          exact ⟨hs, hu⟩
    · next hne => exact .inr (.inr ⟨fun s l rest hc => absurd hc (hne s l rest), hlt, h⟩)
  · obtain ⟨ahead, behind, finish⟩ := c
    rintro (⟨s, op, l, rest, value, hc, hs, ⟨hlt, hv⟩, hle, rfl⟩
      | ⟨s, op, l, rest, hc, hu, hlt, hname⟩ | ⟨hnone, hlt, h⟩)
    · subst hc
      simp only [Cursor.past] at hlt hv
      refine ⟨by simp only [List.length_cons]; omega, ?_⟩
      simp only [operand, Cursor.past, hs]
      rw [hv]
      have hw := Node.checked_eq_ok_iff (c := c') (e := .unary op value.expr).mpr ⟨hle, rfl⟩
      simp only [hw]
    · subst hc
      have hs : s.unaryOp? = none := by cases s <;> first | rfl | cases hu
      simp only [Cursor.past] at hlt hname
      refine ⟨by simp only [List.length_cons]; omega, ?_⟩
      simp only [operand, Cursor.past, hs, hu]
      rw [hname]
    · refine ⟨hlt, ?_⟩
      unfold operand
      split
      · next s l rest hc =>
        obtain ⟨hs, hu⟩ := hnone s l rest hc
        simp only [hs, hu]
        exact h
      · exact h

/-! ## Chains -/

/-- The answer of `chainFrom`: the node in which a chain ends that has come as far
as `left`, and the cursor after it. -/
def ChainsTo (limit : Nat) (level : Level) (tighter : Reader) (left : Node) (c : Cursor)
    (node : Node) (c' : Cursor) : Prop :=
  ∃ h, chainFrom limit level tighter left c = .ok (node, ⟨c', h⟩)

/-- No operator of the level stands ahead. -/
def NoneAhead (level : Level) (c : Cursor) : Prop :=
  ∀ s l rest, c.ahead = ⟨.sign s, l⟩ :: rest → level.operator? s = none

theorem levelOperator?_eq_none_iff {level : Level} {c : Cursor} :
    levelOperator? level c = none ↔ NoneAhead level c := by
  obtain ⟨_ | ⟨⟨kind, l⟩, rest⟩, behind, finish⟩ := c
  · exact ⟨fun _ s l rest hc => (by cases hc), fun _ => rfl⟩
  · cases kind with
    | sign s =>
      refine Option.map_eq_none_iff.trans ⟨fun h s' l' rest' hc => ?_, fun h => h s l rest rfl⟩
      cases hc
      exact h
    | _ => exact ⟨fun _ s l rest hc => (by cases hc), fun _ => rfl⟩

theorem levelOperator?_eq_some {level : Level} {c c' : Cursor} {op : BinaryOp}
    {hlt : c'.ahead.length < c.ahead.length} (h : levelOperator? level c = some (op, ⟨c', hlt⟩)) :
    ∃ s l rest, c.ahead = ⟨.sign s, l⟩ :: rest ∧ level.operator? s = some op
      ∧ c' = c.past ⟨.sign s, l⟩ rest := by
  obtain ⟨_ | ⟨⟨kind, l⟩, rest⟩, behind, finish⟩ := c
  · cases h
  · cases kind with
    | sign s =>
      obtain ⟨op', hs, heq⟩ := Option.map_eq_some_iff.mp h
      cases heq
      exact ⟨s, l, rest, rfl, hs, rfl⟩
    | _ => cases h

theorem chainsTo_iff {limit : Nat} {level : Level} {tighter : Reader} {left node : Node}
    {c c' : Cursor} :
    ChainsTo limit level tighter left c node c' ↔
      (NoneAhead level c ∧ node = left ∧ c' = c)
        ∨ ∃ s op l rest right c₂, c.ahead = ⟨.sign s, l⟩ :: rest ∧ level.operator? s = some op
          ∧ tighter.Reads (c.past ⟨.sign s, l⟩ rest) right c₂
          ∧ max left.depth right.depth + 1 ≤ limit
          ∧ ChainsTo limit level tighter
              ⟨.binary op left.expr right.expr, max left.depth right.depth + 1⟩ c₂ node c' := by
  constructor
  · rintro ⟨_, h⟩
    rw [chainFrom] at h
    split at h
    · next hnone =>
      cases h
      exact .inl ⟨levelOperator?_eq_none_iff.mp hnone, rfl, rfl⟩
    · next op c₁ h₁ hop =>
      obtain ⟨s, l, rest, hc, hs, rfl⟩ := levelOperator?_eq_some hop
      split at h
      · cases h
      · next right c₂ h₂ hr =>
        split at h
        · cases h
        · next joined hj =>
          obtain ⟨hle, rfl⟩ := Node.checked_eq_ok_iff.mp hj
          split at h
          · cases h
          · next node₁ c₃ h₃ hrest =>
            cases h
            exact .inr ⟨s, op, l, rest, right, c₂, hc, hs, ⟨h₂, hr⟩, hle, h₃, hrest⟩
  · rintro (⟨hnone, rfl, rfl⟩ | ⟨s, op, l, rest, right, c₂, hc, hs, ⟨hlt, hr⟩, hle, hlt', hrest⟩)
    · refine ⟨Nat.le_refl _, ?_⟩
      rw [chainFrom]
      split
      · rfl
      · next op c₁ h₁ hop =>
        rw [levelOperator?_eq_none_iff.mpr hnone] at hop
        cases hop
    · obtain ⟨ahead, behind, finish⟩ := c
      subst hc
      have hop : levelOperator? level ⟨⟨.sign s, l⟩ :: rest, behind, finish⟩
          = some (op, ⟨⟨rest, l, finish⟩, by simp⟩) := by
        simp [levelOperator?, hs, Cursor.past]
      simp only [Cursor.past] at hlt hr
      have hj := Node.checked_eq_ok_iff (c := c₂)
        (e := .binary op left.expr right.expr).mpr ⟨hle, rfl⟩
      refine ⟨by simp only [List.length_cons]; omega, ?_⟩
      rw [chainFrom]
      split
      · next hnone => rw [hop] at hnone; cases hnone
      · next op' c₁ h₁ hop' =>
        rw [hop] at hop'
        cases hop'
        rw [hr]
        simp only [hj, hrest]

theorem reads_chain_iff {limit : Nat} {level : Level} {tighter : Reader} {c c' : Cursor}
    {node : Node} :
    (chain limit level tighter).Reads c node c' ↔
      ∃ first c₁, tighter.Reads c first c₁ ∧ ChainsTo limit level tighter first c₁ node c' := by
  constructor
  · rintro ⟨_, h⟩
    unfold chain at h
    split at h
    · cases h
    · next first c₁ h₁ he =>
      split at h
      · cases h
      · next node₁ c₂ h₂ hrest =>
        cases h
        exact ⟨first, c₁, ⟨h₁, he⟩, h₂, hrest⟩
  · rintro ⟨first, c₁, ⟨hlt, he⟩, hle, hrest⟩
    refine ⟨by omega, ?_⟩
    unfold chain
    rw [he]
    simp only [hrest]

/-! ## Expressions -/

theorem reads_expression_iff {limit : Nat} {inner innerOperand : Reader} {c c' : Cursor}
    {node : Node} :
    (expression limit inner innerOperand).Reads c node c' ↔
      (∃ name s op l₁ l₂ rest value, c.ahead = ⟨.name name, l₁⟩ :: ⟨.sign s, l₂⟩ :: rest
          ∧ s.assignOp? = some op ∧ inner.Reads (c.past ⟨.sign s, l₂⟩ rest) value c'
          ∧ value.depth + 1 ≤ limit ∧ node = ⟨.assign name op value.expr, value.depth + 1⟩)
        ∨ ((∀ name s l₁ l₂ rest, c.ahead = ⟨.name name, l₁⟩ :: ⟨.sign s, l₂⟩ :: rest →
            s.assignOp? = none)
          ∧ (levels limit (operand limit inner innerOperand) Level.all).Reads c node c') := by
  constructor
  · rintro ⟨hlt, h⟩
    unfold expression at h
    split at h
    · next name l₁ s l₂ rest hc =>
      split at h
      · next op hs =>
        split at h
        · cases h
        · next value c₁ h₁ he =>
          split at h
          · cases h
          · next whole hw =>
            cases h
            obtain ⟨hle, rfl⟩ := Node.checked_eq_ok_iff.mp hw
            exact .inl ⟨name, s, op, l₁, l₂, rest, value, hc, hs, ⟨h₁, he⟩, hle, rfl⟩
      · next hs =>
        refine .inr ⟨?_, hlt, h⟩
        intro name' s' l₁' l₂' rest' hc'
        rw [hc] at hc'
        cases hc'
        exact hs
    · next hne =>
      exact .inr ⟨fun name s l₁ l₂ rest hc => absurd hc (hne name l₁ s l₂ rest), hlt, h⟩
  · obtain ⟨ahead, behind, finish⟩ := c
    rintro (⟨name, s, op, l₁, l₂, rest, value, hc, hs, ⟨hlt, hv⟩, hle, rfl⟩ | ⟨hnone, hlt, h⟩)
    · subst hc
      simp only [Cursor.past] at hlt hv
      refine ⟨by simp only [List.length_cons]; omega, ?_⟩
      simp only [expression, Cursor.past, hs]
      rw [hv]
      have hw := Node.checked_eq_ok_iff (c := c') (e := .assign name op value.expr).mpr ⟨hle, rfl⟩
      simp only [hw]
    · refine ⟨hlt, ?_⟩
      unfold expression
      split
      · next name l₁ s l₂ rest hc =>
        simp only [hnone name s l₁ l₂ rest hc]
        exact h
      · exact h

end Reader

end Lipi
