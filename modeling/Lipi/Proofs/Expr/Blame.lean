/-
Errors in expressions blame tokens of the slice.

A cursor stands among tokens if the pieces ahead come from them and the two places that it
remembers are theirs (`Cursor.Within`). The readers start at such a cursor and only
ever move past a piece, and every place that they report is a piece's or one of the two. So
each reader either leaves a cursor among the same tokens or blames one of them
(`Reader.Within`), and this goes through every way of building readers from others, up to
whole slices that are not empty (`Expr.blaming_parse`, `Expr.blaming_parseList`).
-/
import Lipi.Proofs.Expr.Fusion
import Lipi.Proofs.Expr.Reading

set_option autoImplicit false

namespace Lipi

open SyntaxError

variable {source : List Token}

/-! ## Cursors -/

/-- A cursor whose pieces and places are those of some tokens. -/
structure Cursor.Within (source : List Token) (c : Cursor) : Prop where
  ahead : ∀ p ∈ c.ahead, p.Within source
  behind : c.behind ∈ Token.places source
  finish : c.finish ∈ Token.places source

theorem Cursor.Within.here {c : Cursor} (h : c.Within source) :
    c.here ∈ Token.places source := by
  unfold Cursor.here
  cases hahead : c.ahead with
  | nil => exact h.finish
  | cons p rest =>
    have hp : p ∈ c.ahead := by
      rw [hahead]
      exact List.mem_cons_self
    exact (h.ahead p hp).place

/-- The piece ahead is from the tokens, and so is all that follows it. -/
theorem Cursor.Within.past {c : Cursor} (h : c.Within source) {p : Piece} {rest : List Piece}
    (hahead : c.ahead = p :: rest) : p.Within source ∧ (c.past p rest).Within source := by
  have hall := h.ahead
  rw [hahead, List.forall_mem_cons] at hall
  exact ⟨hall.1, hall.2, hall.1.place, h.finish⟩

theorem Node.blames_of_checked {c : Cursor} (hc : c.Within source) {limit depth : Nat} {e : Expr}
    {failure : SyntaxError} (h : checked limit e depth c = .error failure) :
    failure.Blames source := by
  unfold checked at h
  split at h
  · cases h
    exact ⟨hc.behind, trivial⟩
  · cases h

/-! ## Readers -/

/-- A reader that among some tokens stays among them, or blames one. -/
def Reader.Within (source : List Token) (reader : Reader) : Prop :=
  ∀ c : Cursor, c.Within source → Blaming source (fun r => r.rest.Within source) (reader c)

namespace Reader

variable {reader expression inner : Reader} {limit : Nat}

/-- What a reader among some tokens comes to. -/
theorem Within.cases (h : reader.Within source) {c : Cursor} (hc : c.Within source) :
    (∀ e, reader c = .error e → e.Blames source)
      ∧ ∀ node c' hlt, reader c = .ok ⟨node, c', hlt⟩ → c'.Within source := by
  have hread := h c hc
  constructor
  · intro e he
    rw [he] at hread
    exact hread
  · intro node c' hlt he
    rw [he] at hread
    exact hread

theorem within_primary (hexpression : expression.Within source) :
    (primary expression).Within source := by
  intro c hc
  unfold primary
  split
  · exact ⟨hc.finish, trivial⟩
  · next p rest hahead =>
    obtain ⟨hp, hpast⟩ := hc.past hahead
    obtain ⟨hfails, hreads⟩ := hexpression.cases hpast
    dsimp only
    split
    · exact hpast
    · exact hpast
    · split
      · next e he => exact hfails e he
      · next node c₁ hlt he =>
        have hc₁ := hreads node c₁ hlt he
        split
        · next l after hclose => exact (hc₁.past hclose).2
        · exact ⟨hc₁.here, trivial⟩
    · exact ⟨hp.place, hp.quotes⟩

theorem within_stepped (hexpression : expression.Within source) :
    (stepped expression).Within source := by
  intro c hc
  obtain ⟨hfails, hreads⟩ := (within_primary hexpression).cases hc
  unfold stepped
  split
  · next e he => exact hfails e he
  · next node c₁ hlt he =>
    have hc₁ := hreads node c₁ hlt he
    split
    · next s l rest hahead =>
      obtain ⟨hsign, hpast⟩ := hc₁.past hahead
      split
      · exact hc₁
      · split
        · exact hpast
        · exact ⟨hsign.place, trivial⟩
    · exact hc₁

theorem within_steppedName (s : Sign) (op : UpdateOp) : (steppedName s op).Within source := by
  intro c hc
  unfold steppedName
  split
  · next n l rest hahead => exact (hc.past hahead).2
  · exact ⟨hc.here, trivial⟩

theorem within_operand (hexpression : expression.Within source) (hinner : inner.Within source) :
    (operand limit expression inner).Within source := by
  intro c hc
  unfold operand
  split
  · next s l rest hahead =>
    obtain ⟨-, hpast⟩ := hc.past hahead
    dsimp only
    split
    · obtain ⟨hfails, hreads⟩ := hinner.cases hpast
      split
      · next e he => exact hfails e he
      · next node c₁ hlt he =>
        have hc₁ := hreads node c₁ hlt he
        split
        · next e he => exact Node.blames_of_checked hc₁ he
        · exact hc₁
    · split
      · next op _ =>
        obtain ⟨hfails, hreads⟩ := (within_steppedName s op).cases hpast
        split
        · next e he => exact hfails e he
        · next node c₁ hlt he => exact hreads node c₁ hlt he
      · exact within_stepped hexpression c hc
  · exact within_stepped hexpression c hc

/-! ## Levels -/

/-- Each operand that is joined leaves less ahead. -/
theorem within_chainFrom (limit : Nat) (hreader : reader.Within source) (level : Level)
    (left : Node) {c : Cursor} (hc : c.Within source) :
    Blaming source (fun answer => answer.2.1.Within source)
      (chainFrom limit level reader left c) := by
  rw [chainFrom]
  split
  · exact hc
  · next op c₁ hlt₁ hop =>
    obtain ⟨s, l, rest, hahead, -, rfl⟩ := levelOperator?_eq_some hop
    obtain ⟨-, hpast⟩ := hc.past hahead
    obtain ⟨hfails, hreads⟩ := hreader.cases hpast
    split
    · next e he => exact hfails e he
    · next right c₂ hlt₂ he =>
      have hc₂ := hreads right c₂ hlt₂ he
      split
      · next e he => exact Node.blames_of_checked hc₂ he
      · next joined _ =>
        have hmore := within_chainFrom limit hreader level joined hc₂
        split
        · next e he =>
          rw [he] at hmore
          exact hmore
        · next node c₃ hle he =>
          rw [he] at hmore
          exact hmore
termination_by c.ahead.length
decreasing_by omega

theorem within_chain (hreader : reader.Within source) (level : Level) :
    (chain limit level reader).Within source := by
  intro c hc
  obtain ⟨hfails, hreads⟩ := hreader.cases hc
  unfold chain
  split
  · next e he => exact hfails e he
  · next first c₁ hlt he =>
    have hmore := within_chainFrom limit hreader level first (hreads first c₁ hlt he)
    split
    · next e he =>
      rw [he] at hmore
      exact hmore
    · next node c₂ hle he =>
      rw [he] at hmore
      exact hmore

theorem within_levels (hreader : reader.Within source) (levels : List Level) :
    (Reader.levels limit reader levels).Within source := by
  induction levels with
  | nil => exact hreader
  | cons level tighter ih => exact within_chain ih level

/-! ## Expressions -/

theorem within_expression (hexpression : expression.Within source) (hinner : inner.Within source) :
    (Reader.expression limit expression inner).Within source := by
  have hlevels : (levels limit (operand limit expression inner) Level.all).Within source :=
    within_levels (within_operand hexpression hinner) Level.all
  intro c hc
  unfold Reader.expression
  split
  · next name l₁ s l₂ rest hahead =>
    split
    · obtain ⟨-, hname⟩ := hc.past hahead
      obtain ⟨-, hpast⟩ := hname.past rfl
      obtain ⟨hfails, hreads⟩ := hexpression.cases hpast
      split
      · next e he => exact hfails e he
      · next value c₁ hlt he =>
        have hc₁ := hreads value c₁ hlt he
        split
        · next e he => exact Node.blames_of_checked hc₁ he
        · exact hc₁
    · exact hlevels c hc
  · exact hlevels c hc

theorem within_refused : refused.Within source :=
  fun _ hc => ⟨hc.behind, trivial⟩

theorem within_descent (limit room : Nat) :
    (descent limit room).expression.Within source ∧ (descent limit room).operand.Within source := by
  induction room with
  | zero => exact ⟨within_refused, within_refused⟩
  | succ room ih => exact ⟨within_expression ih.1 ih.2, within_operand ih.1 ih.2⟩

theorem within_top : top.Within source :=
  (within_descent heightLimit (nestingLimit + 1)).1

end Reader

/-! ## Whole slices -/

namespace Expr

variable {slice : List Token}

theorem blaming_cursor (hslice : slice ⊆ source) (hne : slice ≠ []) :
    Blaming source (fun c => c.Within source) (cursor slice) := by
  obtain ⟨pieces, hfuse, hpieces⟩ := Piece.fuse_within hslice
  have hend : sliceEnd slice ∈ Token.places source := by
    rw [sliceEnd, List.getLast?_eq_some_getLast hne]
    exact Token.mem_places (hslice (List.getLast_mem hne))
  rw [cursor, hfuse]
  refine ⟨hpieces, ?_, hend⟩
  unfold Cursor.ofPieces
  cases pieces with
  | nil => exact hend
  | cons p rest => exact (hpieces p List.mem_cons_self).place

theorem blaming_finished {c : Cursor} (hc : c.Within source) :
    Blaming source (fun _ => True) (finished c) := by
  unfold finished
  split
  · trivial
  · next p rest hahead =>
    obtain ⟨hp, -⟩ := hc.past hahead
    exact ⟨hp.place, hp.quotes⟩

/-- **What cannot be read as an expression blames a token of the slice.** -/
theorem blaming_parse (hslice : slice ⊆ source) (hne : slice ≠ []) :
    Blaming source (fun _ => True) (parse slice) := by
  refine (blaming_cursor hslice hne).bind fun c hc => ?_
  refine (Reader.within_top c hc).bind fun r hr => ?_
  exact (blaming_finished hr).bind fun _ _ => trivial

theorem blaming_itemsFrom {c : Cursor} (hc : c.Within source) (read : List Expr) :
    Blaming source (fun _ => True) (itemsFrom c read) := by
  induction hn : c.ahead.length using Nat.strongRecOn generalizing c read with
  | ind n ih =>
    obtain ⟨hfails, hreads⟩ := Reader.within_top.cases hc
    rw [itemsFrom]
    split
    · next e he => exact hfails e he
    · next node c₁ hlt he =>
      have hc₁ := hreads node c₁ hlt he
      split
      · next l rest hahead =>
        split
        · trivial
        · have hshort : rest.length < n := by
            have hlength := congrArg List.length hahead
            rw [List.length_cons] at hlength
            omega
          exact ih _ hshort (hc₁.past hahead).2 _ rfl
      · exact (blaming_finished hc₁).map fun _ _ => trivial

/-- The same for a list of expressions. -/
theorem blaming_parseList (hslice : slice ⊆ source) (hne : slice ≠ []) :
    Blaming source (fun _ => True) (parseList slice) :=
  (blaming_cursor hslice hne).bind fun _ hc => blaming_itemsFrom hc []

end Expr

end Lipi
