/-
Places decide nothing about expressions either.

Gluing tokens to pieces and reading pieces as an expression ask what a token or a piece
is, never where. Slices of the same kinds therefore have pieces of the same kinds, and
are read as the same expression or the same list of expressions; expressions carry no
places, so this is an equation of what is read.

A reader is `Alike` if from any cursor with the same kinds ahead it reads the same node
and leaves the same kinds. Each reader is alike if those it calls are, and the ways back
into the grammar are by recursion on the room.
-/
import Lipi.Proofs.Expr.Parsing
import Lipi.Proofs.Program.Grammar

set_option autoImplicit false

namespace Lipi

/-! ## Pieces -/

namespace Piece

/-- The kinds of a row of pieces. -/
def kinds (pieces : List Piece) : List Piece.Kind := pieces.map (·.kind)

theorem exists_of_kinds_eq_cons {pieces : List Piece} {p : Piece} {rest : List Piece}
    (h : kinds pieces = kinds (p :: rest)) :
    ∃ l rest', pieces = ⟨p.kind, l⟩ :: rest' ∧ kinds rest' = kinds rest := by
  obtain ⟨⟨k, l⟩, rest', rfl, hk, hrest⟩ := List.map_eq_cons_iff.mp h
  obtain rfl : k = p.kind := hk
  exact ⟨l, rest', rfl, hrest⟩

theorem eq_nil_of_kinds_eq {pieces : List Piece} (h : kinds pieces = kinds []) : pieces = [] :=
  List.map_eq_nil_iff.mp h

/-- A run is cut into the same signs wherever it starts. -/
theorem exists_flush {run run' : Run} {read read' pieces : List Piece}
    (hrun : run'.spelled = run.spelled) (hread : kinds read' = kinds read)
    (h : run.flush read = .ok pieces) :
    ∃ pieces', run'.flush read' = .ok pieces' ∧ kinds pieces' = kinds pieces := by
  unfold Run.flush at h ⊢
  rw [hrun]
  cases hcut : Sign.cut run.spelled.reverse [] with
  | error rest =>
    rw [hcut] at h
    cases h
  | ok signs =>
    rw [hcut] at h
    cases h
    refine ⟨_, rfl, ?_⟩
    simp only [kinds] at hread
    simp [kinds, hread]

theorem exists_fuseFrom {tokens tokens' : List Token} {run run' : Run}
    {read read' pieces : List Piece} (htokens : Token.kinds tokens' = Token.kinds tokens)
    (hrun : run'.spelled = run.spelled) (hread : kinds read' = kinds read)
    (h : fuseFrom tokens run read = .ok pieces) :
    ∃ pieces', fuseFrom tokens' run' read' = .ok pieces' ∧ kinds pieces' = kinds pieces := by
  induction tokens generalizing tokens' run run' read read' with
  | nil =>
    obtain rfl := List.map_eq_nil_iff.mp htokens
    rw [fuseFrom] at h ⊢
    cases hflush : run.flush read with
    | error e =>
      rw [hflush] at h
      cases h
    | ok flushed =>
      obtain ⟨flushed', hflush', hkinds⟩ := exists_flush hrun hread hflush
      rw [hflush] at h
      rw [hflush']
      cases h
      refine ⟨_, rfl, ?_⟩
      simp only [kinds] at hkinds
      simp [kinds, hkinds]
  | cons t tokens ih =>
    obtain ⟨⟨k, l⟩, rest', rfl, hk, hrest⟩ := List.map_eq_cons_iff.mp htokens
    obtain rfl : k = t.kind := hk
    rw [fuseFrom] at h ⊢
    cases hjoins : joins? t.kind with
    | some spelling =>
      simp only [hjoins] at h ⊢
      refine ih hrest ?_ hread h
      simp only [Run.join, hrun]
    | none =>
      simp only [hjoins] at h ⊢
      cases hflush : run.flush read with
      | error e =>
        rw [hflush] at h
        cases h
      | ok flushed =>
        obtain ⟨flushed', hflush', hkinds⟩ := exists_flush hrun hread hflush
        rw [hflush] at h
        rw [hflush']
        refine ih hrest rfl ?_ h
        simp only [kinds, List.map_cons] at hkinds ⊢
        rw [hkinds]

/-- Slices of the same kinds have pieces of the same kinds. -/
theorem exists_fuse {tokens tokens' : List Token} {pieces : List Piece}
    (htokens : Token.kinds tokens' = Token.kinds tokens) (h : fuse tokens = .ok pieces) :
    ∃ pieces', fuse tokens' = .ok pieces' ∧ kinds pieces' = kinds pieces :=
  exists_fuseFrom htokens rfl rfl h

end Piece

/-! ## Readers -/

namespace Reader

open Piece

/-- A reader that asks only for the kinds of the pieces ahead. -/
def Alike (reader : Reader) : Prop :=
  ∀ ⦃c node c'⦄, reader.Reads c node c' → ∀ ⦃d : Cursor⦄, kinds d.ahead = kinds c.ahead →
    ∃ d' : Cursor, kinds d'.ahead = kinds c'.ahead ∧ reader.Reads d node d'

theorem alike_refused : Alike refused := fun _ _ _ h => absurd h not_reads_refused

variable {limit : Nat} {inner innerOperand : Reader}

theorem alike_primary (hinner : inner.Alike) : Alike (primary inner) := by
  intro c node c' hread d hd
  obtain ⟨p, rest, hc, h⟩ := reads_primary_iff.mp hread
  rw [hc] at hd
  obtain ⟨l, rest', hd', hrest⟩ := exists_of_kinds_eq_cons hd
  rcases h with ⟨v, hk, rfl, rfl⟩ | ⟨n, hk, rfl, rfl⟩ | ⟨hk, c₁, l₁, after, hexpr, hc₁, rfl⟩
  · exact ⟨_, hrest, reads_primary_iff.mpr ⟨_, rest', hd', .inl ⟨v, hk, rfl, rfl⟩⟩⟩
  · exact ⟨_, hrest, reads_primary_iff.mpr ⟨_, rest', hd', .inr (.inl ⟨n, hk, rfl, rfl⟩)⟩⟩
  · obtain ⟨d₁, hkinds, hexpr'⟩ := hinner hexpr (d := d.past ⟨p.kind, l⟩ rest') hrest
    rw [hc₁] at hkinds
    obtain ⟨l₁', after', hd₁, hafter⟩ := exists_of_kinds_eq_cons hkinds
    exact ⟨_, hafter, reads_primary_iff.mpr ⟨_, rest', hd',
      .inr (.inr ⟨hk, d₁, l₁', after', hexpr', hd₁, rfl⟩)⟩⟩

/-- What no sign ahead is, is none among the same kinds. -/
theorem forall_sign_of_kinds {p : Sign → Prop} {a b : List Piece} (hkinds : kinds b = kinds a)
    (h : ∀ s l rest, a = ⟨.sign s, l⟩ :: rest → p s) :
    ∀ s l rest, b = ⟨.sign s, l⟩ :: rest → p s := by
  rintro s l rest rfl
  obtain ⟨l', rest', rfl, -⟩ := exists_of_kinds_eq_cons hkinds.symm
  exact h s l' rest' rfl

theorem alike_stepped (hinner : inner.Alike) : Alike (stepped inner) := by
  intro c node c' hread d hd
  obtain ⟨first, c₁, hfirst, h⟩ := reads_stepped_iff.mp hread
  obtain ⟨d₁, hkinds, hfirst'⟩ := alike_primary hinner hfirst hd
  rcases h with ⟨s, op, l, rest, name, hc₁, hop, hname, rfl, rfl⟩ | ⟨hnone, rfl, rfl⟩
  · rw [hc₁] at hkinds
    obtain ⟨l', rest', hd₁, hrest⟩ := exists_of_kinds_eq_cons hkinds
    exact ⟨_, hrest, reads_stepped_iff.mpr ⟨first, d₁, hfirst',
      .inl ⟨s, op, l', rest', name, hd₁, hop, hname, rfl, rfl⟩⟩⟩
  · exact ⟨d₁, hkinds, reads_stepped_iff.mpr ⟨node, d₁, hfirst',
      .inr ⟨forall_sign_of_kinds hkinds hnone, rfl, rfl⟩⟩⟩

theorem alike_steppedName (s : Sign) (op : UpdateOp) : Alike (steppedName s op) := by
  intro c node c' hread d hd
  obtain ⟨name, l, rest, hc, rfl, rfl⟩ := reads_steppedName_iff.mp hread
  rw [hc] at hd
  obtain ⟨l', rest', hd', hrest⟩ := exists_of_kinds_eq_cons hd
  exact ⟨_, hrest, reads_steppedName_iff.mpr ⟨name, l', rest', hd', rfl, rfl⟩⟩

theorem alike_operand (hinner : inner.Alike) (hoperand : innerOperand.Alike) :
    Alike (operand limit inner innerOperand) := by
  intro c node c' hread d hd
  rcases reads_operand_iff.mp hread with ⟨s, op, l, rest, value, hc, hop, h, hle, rfl⟩
    | ⟨s, op, l, rest, hc, hop, h⟩ | ⟨hnone, h⟩
  · rw [hc] at hd
    obtain ⟨l', rest', hd', hrest⟩ := exists_of_kinds_eq_cons hd
    obtain ⟨d₁, hkinds, h'⟩ := hoperand h (d := d.past ⟨.sign s, l'⟩ rest') hrest
    exact ⟨d₁, hkinds, reads_operand_iff.mpr
      (.inl ⟨s, op, l', rest', value, hd', hop, h', hle, rfl⟩)⟩
  · rw [hc] at hd
    obtain ⟨l', rest', hd', hrest⟩ := exists_of_kinds_eq_cons hd
    obtain ⟨d₁, hkinds, h'⟩ := alike_steppedName s op h (d := d.past ⟨.sign s, l'⟩ rest') hrest
    exact ⟨d₁, hkinds, reads_operand_iff.mpr (.inr (.inl ⟨s, op, l', rest', hd', hop, h'⟩))⟩
  · obtain ⟨d₁, hkinds, h'⟩ := alike_stepped hinner h hd
    exact ⟨d₁, hkinds, reads_operand_iff.mpr
      (.inr (.inr ⟨forall_sign_of_kinds hd hnone, h'⟩))⟩

theorem exists_chainsTo {level : Level} {tighter : Reader} (htighter : tighter.Alike)
    {left node : Node} {c c' d : Cursor} (h : ChainsTo limit level tighter left c node c')
    (hd : kinds d.ahead = kinds c.ahead) :
    ∃ d' : Cursor, kinds d'.ahead = kinds c'.ahead
      ∧ ChainsTo limit level tighter left d node d' := by
  induction hn : c.ahead.length using Nat.strongRecOn generalizing left c d with
  | ind n ih =>
    rcases chainsTo_iff.mp h with ⟨hnone, rfl, rfl⟩ | ⟨s, op, l, rest, right, c₂, hc, hop, hr, hle, hmore⟩
    · exact ⟨d, hd, chainsTo_iff.mpr (.inl ⟨forall_sign_of_kinds hd hnone, rfl, rfl⟩)⟩
    · rw [hc] at hd
      obtain ⟨l', rest', hd', hrest⟩ := exists_of_kinds_eq_cons hd
      obtain ⟨d₂, hkinds, hr'⟩ := htighter hr (d := d.past ⟨.sign s, l'⟩ rest') hrest
      have hlt : c₂.ahead.length < n := by
        have hshort : c₂.ahead.length < rest.length := hr.length_lt
        rw [← hn, hc, List.length_cons]
        omega
      obtain ⟨d', hkinds', hmore'⟩ := ih _ hlt hmore hkinds rfl
      exact ⟨d', hkinds', chainsTo_iff.mpr
        (.inr ⟨s, op, l', rest', right, d₂, hd', hop, hr', hle, hmore'⟩)⟩

theorem alike_levels {operand : Reader} (hoperand : operand.Alike) (ls : List Level) :
    Alike (levels limit operand ls) := by
  induction ls with
  | nil => exact hoperand
  | cons level tighter ih =>
    intro c node c' hread d hd
    obtain ⟨first, c₁, hfirst, hchain⟩ := reads_chain_iff.mp hread
    obtain ⟨d₁, hkinds, hfirst'⟩ := ih hfirst hd
    obtain ⟨d', hkinds', hchain'⟩ := exists_chainsTo ih hchain hkinds
    exact ⟨d', hkinds', reads_chain_iff.mpr ⟨first, d₁, hfirst', hchain'⟩⟩

theorem alike_expression (hinner : inner.Alike) (hoperand : innerOperand.Alike) :
    Alike (expression limit inner innerOperand) := by
  intro c node c' hread d hd
  rcases reads_expression_iff.mp hread with
    ⟨name, s, op, l₁, l₂, rest, value, hc, hop, h, hle, rfl⟩ | ⟨hnone, h⟩
  · rw [hc] at hd
    obtain ⟨l₁', _, hd', hrest⟩ := exists_of_kinds_eq_cons hd
    obtain ⟨l₂', rest', rfl, hafter⟩ := exists_of_kinds_eq_cons hrest
    obtain ⟨d₁, hkinds, h'⟩ := hinner h (d := d.past ⟨.sign s, l₂'⟩ rest') hafter
    exact ⟨d₁, hkinds, reads_expression_iff.mpr
      (.inl ⟨name, s, op, l₁', l₂', rest', value, hd', hop, h', hle, rfl⟩)⟩
  · obtain ⟨d₁, hkinds, h'⟩ := alike_levels (alike_operand hinner hoperand) Level.all h hd
    refine ⟨d₁, hkinds, reads_expression_iff.mpr (.inr ⟨?_, h'⟩)⟩
    intro name s l₁ l₂ rest hassign
    rw [hassign] at hd
    obtain ⟨l₁', _, hc, hrest⟩ := exists_of_kinds_eq_cons hd.symm
    obtain ⟨l₂', rest', rfl, -⟩ := exists_of_kinds_eq_cons hrest
    exact hnone name s l₁' l₂' rest' hc

theorem alike_descent (room : Nat) :
    (descent limit room).expression.Alike ∧ (descent limit room).operand.Alike := by
  induction room with
  | zero => exact ⟨alike_refused, alike_refused⟩
  | succ room ih => exact ⟨alike_expression ih.1 ih.2, alike_operand ih.1 ih.2⟩

theorem alike_top : top.Alike := (alike_descent (nestingLimit + 1)).1

end Reader

/-! ## Slices -/

namespace Expr

/-- **Slices of the same kinds** are read as the same expression. -/
theorem parse_of_kinds {tokens tokens' : List Token} {e : Expr} (h : parse tokens = .ok e)
    (htokens : Token.kinds tokens' = Token.kinds tokens) : parse tokens' = .ok e := by
  obtain ⟨pieces, node, c', hfuse, hread, hend, he⟩ := parse_eq_ok_iff_reads.mp h
  obtain ⟨pieces', hfuse', hkinds⟩ := Piece.exists_fuse htokens hfuse
  obtain ⟨d', hend', hread'⟩ :=
    Reader.alike_top hread (d := .ofPieces pieces' (sliceEnd tokens')) hkinds
  rw [hend] at hend'
  exact parse_eq_ok_iff_reads.mpr
    ⟨pieces', node, d', hfuse', hread', Piece.eq_nil_of_kinds_eq hend', he⟩

/-- A row of expressions: one, and then the end, a last comma, or a comma and others. -/
theorem itemsFrom_eq_ok_iff {c : Cursor} {read es : List Expr} :
    itemsFrom c read = .ok es ↔ ∃ node c₁, Reader.top.Reads c node c₁ ∧
      ((c₁.ahead = [] ∧ es = (node.expr :: read).reverse)
        ∨ (∃ l, c₁.ahead = [⟨.comma, l⟩] ∧ es = (node.expr :: read).reverse)
        ∨ ∃ l p rest, c₁.ahead = ⟨.comma, l⟩ :: p :: rest
          ∧ itemsFrom (c₁.past ⟨.comma, l⟩ (p :: rest)) (node.expr :: read) = .ok es) := by
  rw [itemsFrom]
  cases htop : Reader.top c with
  | error e =>
    constructor
    · intro h
      cases h
    · rintro ⟨node, c₁, ⟨_, hread⟩, -⟩
      rw [htop] at hread
      cases hread
  | ok r =>
    obtain ⟨node, ⟨ahead, behind, finish⟩, hlt⟩ := r
    have hreads : ∀ node' c₁, Reader.top.Reads c node' c₁ ↔
        node' = node ∧ c₁ = ⟨ahead, behind, finish⟩ := by
      intro node' c₁
      constructor
      · exact fun hread => hread.unique ⟨hlt, htop⟩
      · rintro ⟨rfl, rfl⟩
        exact ⟨hlt, htop⟩
    simp only [hreads]
    -- After the first expression: nothing, a last comma, a comma and more, or no comma.
    rcases ahead with _ | ⟨⟨kind, l⟩, _ | ⟨p, rest⟩⟩
    · constructor
      · intro h
        cases h
        exact ⟨node, _, ⟨rfl, rfl⟩, .inl ⟨rfl, rfl⟩⟩
      · rintro ⟨_, _, ⟨rfl, rfl⟩, ⟨-, rfl⟩ | ⟨_, h, -⟩ | ⟨_, _, _, h, -⟩⟩
        · rfl
        · cases h
        · cases h
    · cases kind with
      | comma =>
        constructor
        · intro h
          cases h
          exact ⟨node, _, ⟨rfl, rfl⟩, .inr (.inl ⟨l, rfl, rfl⟩)⟩
        · rintro ⟨_, _, ⟨rfl, rfl⟩, ⟨h, -⟩ | ⟨_, -, rfl⟩ | ⟨_, _, _, h, -⟩⟩
          · cases h
          · rfl
          · cases h
      | _ =>
        constructor
        · intro h
          cases h
        · rintro ⟨_, _, ⟨rfl, rfl⟩, ⟨h, -⟩ | ⟨_, h, -⟩ | ⟨_, _, _, h, -⟩⟩ <;> cases h
    · cases kind with
      | comma =>
        constructor
        · intro h
          exact ⟨node, _, ⟨rfl, rfl⟩, .inr (.inr ⟨l, p, rest, rfl, h⟩)⟩
        · rintro ⟨_, _, ⟨rfl, rfl⟩, ⟨h, -⟩ | ⟨_, h, -⟩ | ⟨_, _, _, h, hmore⟩⟩
          · cases h
          · cases h
          · cases h
            exact hmore
      | _ =>
        constructor
        · intro h
          cases h
        · rintro ⟨_, _, ⟨rfl, rfl⟩, ⟨h, -⟩ | ⟨_, h, -⟩ | ⟨_, _, _, h, -⟩⟩ <;> cases h

theorem itemsFrom_of_kinds {c d : Cursor} {read es : List Expr} (h : itemsFrom c read = .ok es)
    (hd : Piece.kinds d.ahead = Piece.kinds c.ahead) : itemsFrom d read = .ok es := by
  induction hn : c.ahead.length using Nat.strongRecOn generalizing c d read with
  | ind n ih =>
    obtain ⟨node, c₁, hread, hrest⟩ := itemsFrom_eq_ok_iff.mp h
    obtain ⟨d₁, hkinds, hread'⟩ := Reader.alike_top hread hd
    refine itemsFrom_eq_ok_iff.mpr ⟨node, d₁, hread', ?_⟩
    rcases hrest with ⟨hc₁, he⟩ | ⟨l, hc₁, he⟩ | ⟨l, p, rest, hc₁, hmore⟩
    · rw [hc₁] at hkinds
      exact .inl ⟨Piece.eq_nil_of_kinds_eq hkinds, he⟩
    · rw [hc₁] at hkinds
      obtain ⟨l', _, hd₁, hnil⟩ := Piece.exists_of_kinds_eq_cons hkinds
      obtain rfl := Piece.eq_nil_of_kinds_eq hnil
      exact .inr (.inl ⟨l', hd₁, he⟩)
    · rw [hc₁] at hkinds
      obtain ⟨l', _, hd₁, hmid⟩ := Piece.exists_of_kinds_eq_cons hkinds
      obtain ⟨l'', rest', rfl, hafter⟩ := Piece.exists_of_kinds_eq_cons hmid
      have hlt : (p :: rest).length < n := by
        have hshort := hread.length_lt
        rw [hc₁, hn, List.length_cons] at hshort
        omega
      exact .inr (.inr ⟨l', _, rest', hd₁, ih _ hlt hmore hmid rfl⟩)

/-- Slices of the same kinds are read as the same list of expressions. -/
theorem parseList_of_kinds {tokens tokens' : List Token} {es : List Expr}
    (h : parseList tokens = .ok es) (htokens : Token.kinds tokens' = Token.kinds tokens) :
    parseList tokens' = .ok es := by
  unfold parseList cursor at h ⊢
  cases hfuse : Piece.fuse tokens with
  | error e =>
    rw [hfuse] at h
    cases h
  | ok pieces =>
    obtain ⟨pieces', hfuse', hkinds⟩ := Piece.exists_fuse htokens hfuse
    rw [hfuse] at h
    rw [hfuse']
    exact itemsFrom_of_kinds h hkinds

end Expr

end Lipi
