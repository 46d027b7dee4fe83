/-
What can be read as expressions, and what comes of it.

Four things hold of every slice that is read, whether as one expression or as a row of
them. A row is expressions of the grammar with commas between them (`Phrase.Items`), at
least one. No token of the slice is a keyword: a keyword becomes a stray piece, gluing
loses no token, and the grammar derives nothing from stray pieces
(`keywordFree_of_parse`). An assignment in what is read that carries an operator
carries one of arithmetic, because only such signs are assignments
(`arithmetic_of_parse`). And nothing that is read is higher than the ceiling
(`derives_of_parse`, `height_le_of_parseList`).
-/
import Lipi.Proofs.Expr.Relocation

set_option autoImplicit false

namespace Lipi

/-! ## Assignments -/

/-- The operators that an assignment can carry. -/
def BinaryOp.arithmetic : List BinaryOp := [add, sub, mul, div, rem]

/-- Every assignment in an expression that carries an operator carries one of arithmetic. -/
def Expr.Arithmetic (e : Expr) : Prop :=
  ∀ name op value, .assign name (some op) value ∈ e.subtrees → op ∈ BinaryOp.arithmetic

namespace Phrase

variable {phrase : Phrase} {pieces : List Piece} {e : Expr} {n : Nat}

/-- **Only arithmetic is carried by an assignment.** -/
theorem Derives.arithmetic (h : phrase.Derives pieces e n) : e.Arithmetic := by
  intro target carried value hmem
  induction h with
  | @assign s op _ _ _ _ _ _ hop _ ih =>
    rcases List.mem_cons.mp hmem with he | hmem
    · cases he
      cases s <;> cases hop <;> decide
    · exact ih hmem
  | join _ _ _ _ ihleft ihright =>
    rcases List.mem_cons.mp hmem with he | hmem
    · cases he
    · rcases List.mem_append.mp hmem with hmem | hmem
      · exact ihleft hmem
      · exact ihright hmem
  | unary _ _ _ ih =>
    rcases List.mem_cons.mp hmem with he | hmem
    · cases he
    · exact ih hmem
  | leading | trailing | value | name => cases List.mem_singleton.mp hmem
  | ofJoined _ ih => exact ih hmem
  | ofTighter _ ih => exact ih hmem
  | ofStepped _ ih => exact ih hmem
  | ofPrimary _ ih => exact ih hmem
  | group _ _ _ ih => exact ih hmem

/-! ## Pieces that no expression can hold -/

/-- **Nothing is derived from stray pieces.** -/
theorem Derives.not_stray (h : phrase.Derives pieces e n) :
    ∀ p ∈ pieces, ∀ text, p.kind ≠ .stray text := by
  induction h with
  | assign _ _ _ _ _ ih =>
    rw [List.forall_mem_cons, List.forall_mem_cons]
    exact ⟨nofun, nofun, ih⟩
  | join _ _ _ _ ihleft ihright =>
    rw [List.forall_mem_append, List.forall_mem_cons]
    exact ⟨ihleft, nofun, ihright⟩
  | unary _ _ _ ih =>
    rw [List.forall_mem_cons]
    exact ⟨nofun, ih⟩
  | leading =>
    rw [List.forall_mem_cons, List.forall_mem_singleton]
    exact ⟨nofun, nofun⟩
  | trailing _ _ _ ih =>
    rw [List.forall_mem_append, List.forall_mem_singleton]
    exact ⟨ih, nofun⟩
  | value | name =>
    rw [List.forall_mem_singleton]
    exact nofun
  | group _ _ _ ih =>
    rw [List.forall_mem_cons, List.forall_mem_append, List.forall_mem_singleton]
    exact ⟨nofun, ih, nofun⟩
  | ofJoined _ ih => exact ih
  | ofTighter _ ih => exact ih
  | ofStepped _ ih => exact ih
  | ofPrimary _ ih => exact ih

/-! ## Rows of expressions -/

/-- Expressions with commas between them, and perhaps one after the last. -/
inductive Items : List Piece → List Expr → Prop where
  | last {pieces : List Piece} {e : Expr} {n : Nat} (h : expression.Derives pieces e n) :
      Items pieces [e]
  | closed {pieces : List Piece} {e : Expr} {n : Nat} (l : Location)
      (h : expression.Derives pieces e n) : Items (pieces ++ [⟨.comma, l⟩]) [e]
  | next {pieces rest : List Piece} {e : Expr} {n : Nat} {es : List Expr} (l : Location)
      (h : expression.Derives pieces e n) (hrest : Items rest es) :
      Items (pieces ++ ⟨.comma, l⟩ :: rest) (e :: es)

variable {es : List Expr}

theorem Items.ne_nil (h : Items pieces es) : es ≠ [] := by
  cases h <;> exact List.cons_ne_nil _ _

theorem Items.arithmetic (h : Items pieces es) : ∀ e ∈ es, e.Arithmetic := by
  induction h with
  | last h => exact List.forall_mem_singleton.mpr h.arithmetic
  | closed _ h => exact List.forall_mem_singleton.mpr h.arithmetic
  | next _ h _ ih => exact List.forall_mem_cons.mpr ⟨h.arithmetic, ih⟩

theorem Items.not_stray (h : Items pieces es) : ∀ p ∈ pieces, ∀ text, p.kind ≠ .stray text := by
  induction h with
  | last h => exact h.not_stray
  | closed _ h =>
    rw [List.forall_mem_append, List.forall_mem_singleton]
    exact ⟨h.not_stray, nofun⟩
  | next _ h _ ih =>
    rw [List.forall_mem_append, List.forall_mem_cons]
    exact ⟨h.not_stray, nofun, ih⟩

end Phrase

/-! ## Gluing -/

namespace Piece

theorem mem_of_flush {run : Run} {read flushed : List Piece} (h : run.flush read = .ok flushed)
    {p : Piece} (hp : p ∈ read) : p ∈ flushed := by
  unfold Run.flush at h
  cases hcut : Sign.cut run.spelled.reverse [] with
  | error rest =>
    rw [hcut] at h
    cases h
  | ok signs =>
    rw [hcut] at h
    cases h
    exact List.mem_append_right _ hp

/-- Gluing keeps the pieces that it has, and every token that joins no run becomes one. -/
theorem mem_of_fuseFrom {tokens : List Token} {run : Run} {read pieces : List Piece}
    (h : fuseFrom tokens run read = .ok pieces) :
    (∀ p ∈ read, p ∈ pieces)
      ∧ ∀ t ∈ tokens, joins? t.kind = none → ⟨ofKind t.kind, t.location⟩ ∈ pieces := by
  induction tokens generalizing run read with
  | nil =>
    rw [fuseFrom] at h
    cases hf : run.flush read with
    | error e =>
      rw [hf] at h
      cases h
    | ok flushed =>
      rw [hf] at h
      cases h
      exact ⟨fun p hp => List.mem_reverse.mpr (mem_of_flush hf hp), List.forall_mem_nil _⟩
  | cons t tokens ih =>
    rw [fuseFrom] at h
    cases hjoins : joins? t.kind with
    | some spelling =>
      rw [hjoins] at h
      obtain ⟨hread, htokens⟩ := ih h
      refine ⟨hread, List.forall_mem_cons.mpr ⟨fun hnone => ?_, htokens⟩⟩
      rw [hjoins] at hnone
      cases hnone
    | none =>
      rw [hjoins] at h
      cases hf : run.flush read with
      | error e =>
        rw [hf] at h
        cases h
      | ok flushed =>
        rw [hf] at h
        obtain ⟨hread, htokens⟩ := ih h
        obtain ⟨hself, hrest⟩ := List.forall_mem_cons.mp hread
        exact ⟨fun p hp => hrest p (mem_of_flush hf hp),
          List.forall_mem_cons.mpr ⟨fun _ => hself, htokens⟩⟩

end Piece

/-- A slice without keywords. -/
def Token.KeywordFree (tokens : List Token) : Prop := ∀ t ∈ tokens, t.isAnyKeyword = false

/-- A keyword leaves a stray piece. -/
theorem Piece.keywordFree_of_fuse {tokens : List Token} {pieces : List Piece}
    (h : fuse tokens = .ok pieces) (hpieces : ∀ p ∈ pieces, ∀ text, p.kind ≠ .stray text) :
    Token.KeywordFree tokens := by
  rintro ⟨kind, l⟩ ht
  cases kind with
  | keyword k => exact absurd rfl (hpieces _ ((mem_of_fuseFrom h).2 _ ht rfl) _)
  | _ => rfl

/-! ## Slices -/

namespace Expr

variable {tokens : List Token}

theorem keywordFree_of_parse {e : Expr} (h : parse tokens = .ok e) :
    Token.KeywordFree tokens := by
  obtain ⟨pieces, n, hfuse, hderives, -⟩ := derives_of_parse h
  exact Piece.keywordFree_of_fuse hfuse hderives.not_stray

theorem arithmetic_of_parse {e : Expr} (h : parse tokens = .ok e) : e.Arithmetic := by
  obtain ⟨pieces, n, -, hderives, -⟩ := derives_of_parse h
  exact hderives.arithmetic

/-- A row of expressions is one of the grammar. -/
theorem items_of_itemsFrom {c : Cursor} {read es : List Expr} (h : itemsFrom c read = .ok es) :
    ∃ more, es = read.reverse ++ more ∧ Phrase.Items c.ahead more := by
  induction hn : c.ahead.length using Nat.strongRecOn generalizing c read with
  | ind n ih =>
    obtain ⟨node, c₁, hread, hrest⟩ := itemsFrom_eq_ok_iff.mp h
    have hsound : Reader.Sound heightLimit (nestingLimit + 1) .expression Reader.top :=
      (Reader.sound_descent (by decide) (nestingLimit + 1)).1
    obtain ⟨taken, nesting, hahead, hderives, -⟩ := hsound hread
    rcases hrest with ⟨hc₁, rfl⟩ | ⟨l, hc₁, rfl⟩ | ⟨l, p, rest, hc₁, hmore⟩
    · rw [hc₁, List.append_nil] at hahead
      rw [hahead, List.reverse_cons]
      exact ⟨[node.expr], rfl, .last hderives⟩
    · rw [hc₁] at hahead
      rw [hahead, List.reverse_cons]
      exact ⟨[node.expr], rfl, .closed l hderives⟩
    · have hlt : (p :: rest).length < n := by
        have hshort := hread.length_lt
        rw [hc₁, hn, List.length_cons] at hshort
        omega
      obtain ⟨more, rfl, hitems⟩ := ih _ hlt hmore rfl
      rw [hc₁] at hahead
      rw [hahead, List.reverse_cons, List.append_assoc]
      exact ⟨node.expr :: more, rfl, .next l hderives hitems⟩

theorem items_of_parseList {es : List Expr} (h : parseList tokens = .ok es) :
    ∃ pieces, Piece.fuse tokens = .ok pieces ∧ Phrase.Items pieces es := by
  unfold parseList cursor at h
  cases hfuse : Piece.fuse tokens with
  | error e =>
    rw [hfuse] at h
    cases h
  | ok pieces =>
    rw [hfuse] at h
    obtain ⟨more, rfl, hitems⟩ := items_of_itemsFrom h
    exact ⟨pieces, rfl, hitems⟩

/-- No expression that a reader with nothing open answers with is higher than the ceiling. -/
theorem height_le_of_reads_top {c c' : Cursor} {node : Node} (h : Reader.top.Reads c node c') :
    node.expr.height ≤ heightLimit := by
  have hsound : Reader.Sound heightLimit (nestingLimit + 1) .expression Reader.top :=
    (Reader.sound_descent (by decide) (nestingLimit + 1)).1
  obtain ⟨_, _, -, -, -, hmeasured⟩ := hsound h
  exact hmeasured.height_le

/-- The same for a list, given those that were read before. -/
theorem height_le_of_itemsFrom {c : Cursor} {read es : List Expr} (h : itemsFrom c read = .ok es)
    (hread : ∀ e ∈ read, e.height ≤ heightLimit) : ∀ e ∈ es, e.height ≤ heightLimit := by
  induction hn : c.ahead.length using Nat.strongRecOn generalizing c read with
  | ind n ih =>
    obtain ⟨node, c₁, hfirst, hrest⟩ := itemsFrom_eq_ok_iff.mp h
    have hmore : ∀ e ∈ node.expr :: read, e.height ≤ heightLimit :=
      List.forall_mem_cons.mpr ⟨height_le_of_reads_top hfirst, hread⟩
    rcases hrest with ⟨-, rfl⟩ | ⟨l, -, rfl⟩ | ⟨l, p, rest, hc₁, hitems⟩
    · exact fun e he => hmore e (List.mem_reverse.mp he)
    · exact fun e he => hmore e (List.mem_reverse.mp he)
    · have hshort : (p :: rest).length < n := by
        have hlt := hfirst.length_lt
        rw [hc₁, hn, List.length_cons] at hlt
        omega
      exact ih _ hshort hitems hmore rfl

theorem height_le_of_parseList {es : List Expr} (h : parseList tokens = .ok es) :
    ∀ e ∈ es, e.height ≤ heightLimit := by
  unfold parseList at h
  cases hc : cursor tokens with
  | error e =>
    rw [hc] at h
    cases h
  | ok c =>
    rw [hc] at h
    exact height_le_of_itemsFrom h (List.forall_mem_nil _)

theorem keywordFree_of_parseList {es : List Expr} (h : parseList tokens = .ok es) :
    Token.KeywordFree tokens := by
  obtain ⟨pieces, hfuse, hitems⟩ := items_of_parseList h
  exact Piece.keywordFree_of_fuse hfuse hitems.not_stray

end Expr

end Lipi
