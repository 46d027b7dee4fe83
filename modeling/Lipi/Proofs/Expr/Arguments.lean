/-
Argument lists are cut at commas.

The reader of an argument list glues the tokens of the whole list at once and goes through the
pieces with one cursor. It comes to the same as cutting the list at the commas that stand in no
parentheses and reading every part by itself (`parseList_iff_arguments`).

Three things make it so. A comma joins no run of operators, so the pieces of a list are those of
its parts with the commas between them (`Fused.append`, `Fused.exists_comma`). A comma stops every
phrase and nothing is left open before it, so one reading of an expression from the front of a row
of pieces is one reading of a part (`reads_top_of_parse`, `exists_parse_of_reads_top`). And an
expression holds no comma and is balanced (`Derives.marks`, `balanced_of_parse`), so the commas
where the reader stops are those that the depth of parentheses picks out. For a list that is not
balanced the depth may also be below nothing; then some part cannot be read, whichever way the
commas are counted.
-/
import Lipi.Proofs.Expr.Fusion
import Lipi.Proofs.Expr.Slices
import Lipi.Proofs.Program.WellFormed
import Mathlib.Data.List.Forall2

set_option autoImplicit false

namespace Lipi

/-! ## Cutting at commas -/

/-- What a token adds to the depth of parentheses. -/
def Token.Kind.opens : Token.Kind → Int
  | .symbol .openParen => 1
  | .symbol .closeParen => -1
  | _ => 0

namespace Token

/-- The parts of a row of tokens between the commas that stand at depth nought, counting on from
a depth. -/
def argumentsFrom : Int → List Token → List (List Token)
  | _, [] => [[]]
  | depth, t :: rest =>
    if depth = 0 ∧ t.kind = .symbol .comma then [] :: argumentsFrom 0 rest
    else (argumentsFrom (depth + t.kind.opens) rest).modifyHead (t :: ·)

/-- The parts of a row of tokens between the commas that stand in no parentheses. -/
def arguments (tokens : List Token) : List (List Token) := argumentsFrom 0 tokens

/-- How much deeper the depth is after some tokens. -/
def opens : List Token → Int
  | [] => 0
  | t :: tokens => t.kind.opens + opens tokens

/-- The depth counts the parentheses of both kinds against each other. -/
theorem opens_eq_count (tokens : List Token) :
    opens tokens = (kinds tokens).count (.symbol .openParen)
      - (kinds tokens).count (.symbol .closeParen) := by
  induction tokens with
  | nil => rfl
  | cons t tokens ih =>
    rw [opens, ih, kinds_cons, List.count_cons, List.count_cons]
    cases t.kind with
    | symbol s => cases s <;> simp [Kind.opens] <;> omega
    | _ => simp [Kind.opens]

theorem opens_of_balanced {tokens : List Token} (h : Balanced (kinds tokens)) :
    opens tokens = 0 := by
  rw [opens_eq_count, h.closed, Int.sub_self]

theorem argumentsFrom_ne_nil (depth : Int) (tokens : List Token) :
    argumentsFrom depth tokens ≠ [] := by
  induction tokens generalizing depth with
  | nil => exact List.cons_ne_nil _ _
  | cons t tokens ih =>
    rw [argumentsFrom]
    split
    · exact List.cons_ne_nil _ _
    · rw [ne_eq, List.modifyHead_eq_nil_iff]
      exact ih _

/-- A part without commas belongs whole to the part it is in. -/
theorem argumentsFrom_append {part : List Token} (h : .symbol .comma ∉ kinds part) (depth : Int)
    (rest : List Token) :
    argumentsFrom depth (part ++ rest)
      = (argumentsFrom (depth + opens part) rest).modifyHead (part ++ ·) := by
  induction part generalizing depth with
  | nil =>
    obtain ⟨first, more, hcut⟩ := List.exists_cons_of_ne_nil (argumentsFrom_ne_nil depth rest)
    simp [opens, hcut]
  | cons t part ih =>
    rw [kinds_cons, List.mem_cons, not_or] at h
    rw [List.cons_append, argumentsFrom, if_neg fun hcomma => h.1 hcomma.2.symm, ih h.2,
      List.modifyHead_modifyHead, opens, Int.add_assoc]
    rfl

/-- A balanced part without commas is cut off where a comma follows. -/
theorem arguments_comma {part : List Token} (hcomma : .symbol .comma ∉ kinds part)
    (hbalanced : Balanced (kinds part)) (l : Location) (rest : List Token) :
    arguments (part ++ ⟨.symbol .comma, l⟩ :: rest) = part :: arguments rest := by
  rw [arguments, argumentsFrom_append hcomma, opens_of_balanced hbalanced, argumentsFrom,
    if_pos ⟨rfl, rfl⟩, List.modifyHead_cons, List.append_nil, arguments]

/-- A part without commas is not cut. -/
theorem arguments_last {part : List Token} (hcomma : .symbol .comma ∉ kinds part) :
    arguments part = [part] := by
  have hwhole := argumentsFrom_append hcomma 0 []
  rwa [List.append_nil, argumentsFrom, List.modifyHead_cons, List.append_nil] at hwhole

/-- What is cut off first is all there is, or a comma stands behind it and the rest is cut by
itself. -/
theorem argumentsFrom_eq_cons {depth : Int} {tokens part : List Token} {more : List (List Token)}
    (h : argumentsFrom depth tokens = part :: more) :
    (tokens = part ∧ more = []) ∨ ∃ l rest, tokens = part ++ ⟨.symbol .comma, l⟩ :: rest
      ∧ arguments rest = more := by
  induction tokens generalizing depth part with
  | nil =>
    cases h
    exact .inl ⟨rfl, rfl⟩
  | cons t tokens ih =>
    rw [argumentsFrom] at h
    split at h
    · next hcomma =>
      obtain ⟨rfl, hmore⟩ := List.cons.inj h
      obtain ⟨kind, l⟩ := t
      obtain rfl : kind = .symbol .comma := hcomma.2
      exact .inr ⟨l, tokens, rfl, hmore⟩
    · obtain ⟨first, others, hcut⟩ :=
        List.exists_cons_of_ne_nil (argumentsFrom_ne_nil (depth + t.kind.opens) tokens)
      rw [hcut, List.modifyHead_cons] at h
      obtain ⟨rfl, rfl⟩ := List.cons.inj h
      rcases ih hcut with ⟨rfl, rfl⟩ | ⟨l, rest, rfl, hrest⟩
      · exact .inl ⟨rfl, rfl⟩
      · exact .inr ⟨l, rest, rfl, hrest⟩

theorem eq_nil_of_arguments {tokens : List Token} (h : arguments tokens = [[]]) : tokens = [] := by
  rcases argumentsFrom_eq_cons h with ⟨htokens, -⟩ | ⟨l, rest, -, hrest⟩
  · exact htokens
  · exact absurd hrest (argumentsFrom_ne_nil 0 rest)

end Token

/-! ## Parentheses and commas -/

/-- A parenthesis or a comma. -/
def Token.Kind.isMark : Token.Kind → Bool
  | .symbol .openParen => true
  | .symbol .closeParen => true
  | .symbol .comma => true
  | _ => false

/-- The parentheses and commas among some tokens. -/
def Token.marks (tokens : List Token) : List Token.Kind := (kinds tokens).filter Kind.isMark

/-- The token that a piece was, if that is a parenthesis or a comma. -/
def Piece.Kind.mark? : Piece.Kind → Option Token.Kind
  | .openParen => some (.symbol .openParen)
  | .closeParen => some (.symbol .closeParen)
  | .comma => some (.symbol .comma)
  | _ => none

/-- The parentheses and commas among some pieces. -/
def Piece.marks (pieces : List Piece) : List Token.Kind := pieces.filterMap (·.kind.mark?)

namespace Token

theorem comma_mem_marks {tokens : List Token} :
    .symbol .comma ∈ marks tokens ↔ .symbol .comma ∈ kinds tokens := by
  rw [marks, List.mem_filter]
  exact and_iff_left rfl

/-- Only parentheses count for what is open. -/
theorem balancedFrom_filter {kinds : List Token.Kind} {n : Nat} :
    Program.BalancedFrom n (kinds.filter Kind.isMark) ↔ Program.BalancedFrom n kinds := by
  induction kinds generalizing n with
  | nil => exact Iff.rfl
  | cons k kinds ih =>
    cases hmark : k.isMark with
    | true =>
      rw [List.filter_cons_of_pos hmark, Program.BalancedFrom, Program.BalancedFrom]
      simp only [ih]
    | false =>
      have hopen : k ≠ .symbol .openParen := by
        rintro rfl
        cases hmark
      have hclose : k ≠ .symbol .closeParen := by
        rintro rfl
        cases hmark
      rw [List.filter_cons_of_neg (Bool.eq_false_iff.mp hmark),
        Program.balancedFrom_cons_of_ne hopen hclose, ih]

end Token

namespace Piece

theorem marks_cons (p : Piece) (pieces : List Piece) :
    marks (p :: pieces) = p.kind.mark?.toList ++ marks pieces := by
  rw [marks, List.filterMap_cons]
  cases p.kind.mark? <;> rfl

theorem marks_append (a b : List Piece) : marks (a ++ b) = marks a ++ marks b :=
  List.filterMap_append

theorem marks_signs (signs : List Sign) (l : Location) :
    marks (signs.map fun s => ⟨.sign s, l⟩) = [] := by
  rw [marks, List.filterMap_map]
  exact List.filterMap_eq_nil_iff.mpr fun _ _ => rfl

theorem mark?_ofKind (kind : Token.Kind) :
    (ofKind kind).mark?.toList = [kind].filter Token.Kind.isMark := by
  cases kind with
  | symbol s => cases s <;> rfl
  | operator o => cases o <;> rfl
  | _ => rfl

theorem isMark_of_joining {t : Token} (h : joining t = true) : ¬ t.kind.isMark = true := by
  obtain ⟨kind, l⟩ := t
  cases kind with
  | symbol s => cases h
  | _ => exact Bool.false_ne_true

/-- **Gluing moves no parenthesis and no comma.** -/
theorem Fused.marks_eq {tokens : List Token} {pieces : List Piece} (h : Fused tokens pieces) :
    marks pieces = Token.marks tokens := by
  induction h with
  | nil => rfl
  | @other t rest pieces ht _ ih =>
    rw [marks_cons, ih, mark?_ofKind, Token.marks, Token.marks, ← List.filter_append]
    rfl
  | @run t run rest signs pieces hrun _ _ _ _ ih =>
    have hnone : Token.marks (t :: run) = [] := by
      refine List.filter_eq_nil_iff.mpr fun kind hkind => ?_
      obtain ⟨u, hu, rfl⟩ := List.mem_map.mp hkind
      exact isMark_of_joining (hrun u hu)
    rw [marks_append, marks_signs, List.nil_append, ih, ← List.cons_append, Token.marks,
      Token.marks, Token.kinds_append, List.filter_append]
    rw [Token.marks] at hnone
    rw [hnone, List.nil_append]

end Piece

/-- **An expression holds no comma and closes what it opens.** -/
theorem Phrase.Derives.marks {phrase : Phrase} {pieces : List Piece} {e : Expr} {n : Nat}
    (h : phrase.Derives pieces e n) :
    .symbol .comma ∉ Piece.marks pieces ∧ Program.BalancedFrom 0 (Piece.marks pieces) := by
  induction h with
  | assign _ _ _ _ _ ih =>
    rw [Piece.marks_cons, Piece.marks_cons]
    exact ih
  | join _ _ _ _ ihleft ihright =>
    rw [Piece.marks_append, Piece.marks_cons, List.mem_append, not_or]
    exact ⟨⟨ihleft.1, ihright.1⟩, ihleft.2.append ihright.2⟩
  | unary _ _ _ ih =>
    rw [Piece.marks_cons]
    exact ih
  | leading | value | name => exact ⟨List.not_mem_nil, rfl⟩
  | trailing _ _ _ ih =>
    rw [Piece.marks_append]
    exact (List.append_nil _).symm ▸ ih
  | group _ _ _ ih =>
    rw [Piece.marks_cons, Piece.marks_append]
    refine ⟨?_, ?_⟩
    · simpa [Piece.Kind.mark?, Piece.marks] using ih.1
    · have hclose : Program.BalancedFrom 1 [.symbol .closeParen] :=
        Program.balancedFrom_closeParen.mpr rfl
      exact Program.balancedFrom_openParen.mpr (ih.2.append hclose)
  | ofJoined _ ih => exact ih
  | ofTighter _ ih => exact ih
  | ofStepped _ ih => exact ih
  | ofPrimary _ ih => exact ih

/-! ## Pieces of parts -/

namespace Piece

/-- The pieces on the two sides of a token that joins no run are those of the two sides. -/
theorem Fused.append {a b : List Token} {pa pb : List Piece} {t : Token} (ha : Fused a pa)
    (ht : joins? t.kind = none) (hb : Fused b pb) :
    Fused (a ++ t :: b) (pa ++ ⟨ofKind t.kind, t.location⟩ :: pb) := by
  induction ha with
  | nil => exact .other ht hb
  | other hu _ ih => exact .other hu ih
  | @run u run rest signs pieces hrun hrest hspelled hgreedy _ ih =>
    have hends : ∀ v, (rest ++ t :: b).head? = some v → joining v = false := by
      rcases rest with _ | ⟨v, rest⟩
      · rintro _ ⟨⟩
        rw [joining, ht]
        rfl
      · exact hrest
    rw [List.cons_append, List.append_assoc, List.append_assoc]
    exact .run hrun hends hspelled hgreedy ih

theorem eq_comma_of_ofKind {kind : Token.Kind} (h : ofKind kind = .comma) :
    kind = .symbol .comma := by
  cases kind with
  | symbol s => cases s <;> first | rfl | cases h
  | operator o => cases o <;> cases h
  | _ => cases h

/-- **A comma among the pieces is one among the tokens**, and the pieces on its two sides are those
of the tokens there. -/
theorem Fused.exists_comma {tokens : List Token} {pieces pa pb : List Piece} {l : Location}
    (h : Fused tokens pieces) (hpieces : pieces = pa ++ ⟨.comma, l⟩ :: pb) :
    ∃ a b, tokens = a ++ ⟨.symbol .comma, l⟩ :: b ∧ Fused a pa ∧ Fused b pb := by
  induction h generalizing pa with
  | nil => simp at hpieces
  | @other t rest pieces ht hfused ih =>
    rcases pa with _ | ⟨p, pa⟩
    · obtain ⟨hpiece, rfl⟩ := List.cons.inj hpieces
      obtain ⟨hkind, rfl⟩ := Piece.mk.inj hpiece
      obtain ⟨kind, l⟩ := t
      obtain rfl : kind = .symbol .comma := eq_comma_of_ofKind hkind
      exact ⟨[], rest, rfl, .nil, hfused⟩
    · obtain ⟨rfl, hrest⟩ := List.cons.inj hpieces
      obtain ⟨a, b, rfl, ha, hb⟩ := ih hrest
      exact ⟨t :: a, b, rfl, .other ht ha, hb⟩
  | @run t run rest signs pieces hrun hrest hspelled hgreedy _ ih =>
    -- No sign is a comma, so all the signs of the run stand before it.
    obtain ⟨mid, rfl, hmid⟩ : ∃ mid, pa = signs.map (fun s => ⟨.sign s, t.location⟩) ++ mid
        ∧ pieces = mid ++ ⟨.comma, l⟩ :: pb := by
      rcases List.append_eq_append_iff.mp hpieces with h | ⟨mid, hsigns, hmid⟩
      · exact h
      · rcases mid with _ | ⟨p, mid⟩
        · exact ⟨[], by rw [hsigns, List.append_nil, List.append_nil], hmid.symm⟩
        · obtain ⟨rfl, -⟩ := List.cons.inj hmid
          have hmem : (⟨.comma, l⟩ : Piece) ∈ signs.map fun s => ⟨.sign s, t.location⟩ := by
            rw [hsigns]
            exact List.mem_append_right _ List.mem_cons_self
          obtain ⟨s, -, hs⟩ := List.mem_map.mp hmem
          cases hs
    obtain ⟨a, b, rfl, ha, hb⟩ := ih hmid
    refine ⟨t :: (run ++ a), b, by simp, .run hrun (fun u hu => hrest u ?_) hspelled hgreedy ha, hb⟩
    rw [List.head?_append, hu]
    rfl

theorem Fused.eq_nil {tokens : List Token} (h : Fused tokens []) : tokens = [] := by
  generalize hpieces : ([] : List Piece) = pieces at h
  cases h with
  | nil => rfl
  | other => cases hpieces
  | @run t run rest signs pieces hrun _ hspelled =>
    -- A run spells something, so it has a sign.
    obtain ⟨hsigns, -⟩ := List.append_eq_nil_iff.mp hpieces.symm
    rw [List.map_eq_nil_iff] at hsigns
    obtain ⟨spelling, hspelling⟩ := exists_joins (hrun t List.mem_cons_self)
    rw [hsigns, glued_cons hspelling] at hspelled
    have hempty := (List.append_eq_nil_iff.mp hspelled.symm).1
    exact absurd hempty (joins_ne_nil hspelling)

theorem Fused.fuse_eq {tokens : List Token} {pieces : List Piece} (h : Fused tokens pieces) :
    fuse tokens = .ok pieces := h.fuseFrom_eq

theorem Fused.unique {tokens : List Token} {pieces other : List Piece} (h : Fused tokens pieces)
    (hother : Fused tokens other) : pieces = other :=
  Except.ok.inj (h.fuse_eq.symm.trans hother.fuse_eq)

end Piece

/-! ## Parts that are read -/

namespace Phrase

theorem stops_comma (phrase : Phrase) (l : Location) (rest : List Piece) :
    phrase.Stops (⟨.comma, l⟩ :: rest) := by
  intro s l' more h
  cases h

end Phrase

namespace Expr

open Phrase Piece Reader

variable {tokens slice : List Token} {e : Expr}

/-- The pieces of a slice that is read are an expression within the ceilings. -/
theorem derives_of_fused (h : parse slice = .ok e) {pieces : List Piece}
    (hfused : Fused slice pieces) :
    ∃ nesting, expression.Derives pieces e nesting ∧ nesting ≤ nestingLimit
      ∧ e.height ≤ heightLimit := by
  obtain ⟨pieces', nesting, hfuse, hderives, hwithin⟩ := derives_of_parse h
  obtain rfl : pieces = pieces' := Except.ok.inj (hfused.fuse_eq.symm.trans hfuse)
  exact ⟨nesting, hderives, hwithin⟩

/-- **A slice that is read holds no comma and closes what it opens.** -/
theorem marks_of_parse (h : parse slice = .ok e) :
    .symbol .comma ∉ Token.kinds slice ∧ Token.Balanced (Token.kinds slice) := by
  obtain ⟨pieces, hfused⟩ := exists_fused slice
  obtain ⟨nesting, hderives, -⟩ := derives_of_fused h hfused
  have hmarks := hderives.marks
  rw [hfused.marks_eq, Token.comma_mem_marks, Token.marks, Token.balancedFrom_filter,
    Program.balancedFrom_zero_iff] at hmarks
  exact hmarks

theorem ne_nil_of_parse (h : parse slice = .ok e) : slice ≠ [] := by
  rintro rfl
  obtain ⟨nesting, hderives, -⟩ := derives_of_fused h .nil
  exact hderives.ne_nil rfl

/-- A slice that is read is read from the front of a row of pieces, up to what stops it. -/
theorem reads_top_of_parse (h : parse slice = .ok e) {pieces rest : List Piece} {c : Cursor}
    (hfused : Fused slice pieces) (hc : c.ahead = pieces ++ rest) (hrest : expression.Stops rest) :
    ∃ node c', top.Reads c node c' ∧ c'.ahead = rest ∧ node.expr = e := by
  obtain ⟨nesting, hderives, hnesting, hheight⟩ := derives_of_fused h hfused
  have haccepts : expression.Accepts heightLimit nestingLimit pieces e :=
    hderives.accepts hnesting hheight trivial
  obtain ⟨c', hc', hreads⟩ := haccepts.reads hc hrest
  exact ⟨_, c', hreads, hc', rfl⟩

/-- What is read from the front of a row of pieces is read from the slice of these pieces. -/
theorem exists_parse_of_reads_top {c c' : Cursor} {node : Node} (h : top.Reads c node c') :
    ∃ pieces, c.ahead = pieces ++ c'.ahead
      ∧ ∀ slice, Fused slice pieces → parse slice = .ok node.expr := by
  have hsound : Sound heightLimit (nestingLimit + 1) .expression top :=
    (sound_descent (by decide) (nestingLimit + 1)).1
  obtain ⟨pieces, nesting, hahead, hderives, hlt, hmeasured⟩ := hsound h
  exact ⟨pieces, hahead, fun slice hfused =>
    parse_of_derives hfused.fuse_eq hderives (Nat.le_of_lt_succ hlt) hmeasured.height_le⟩

/-! ## Lists -/

/-- The parts of a list, but for an empty one behind a last comma. -/
def Cut (tokens : List Token) (slices : List (List Token)) : Prop :=
  slices ≠ [] ∧ (Token.arguments tokens = slices ∨ Token.arguments tokens = slices ++ [[]])

/-- What is read as a list is cut into parts that are read one by one. -/
theorem exists_cut_of_itemsFrom {c : Cursor} {read es : List Expr} (h : itemsFrom c read = .ok es)
    (hfused : Fused tokens c.ahead) :
    ∃ slices more, es = read.reverse ++ more ∧ Cut tokens slices
      ∧ List.Forall₂ (fun slice e => parse slice = .ok e) slices more := by
  induction hn : c.ahead.length using Nat.strongRecOn generalizing c read tokens with
  | ind n ih =>
    obtain ⟨node, c₁, hreads, hrest⟩ := itemsFrom_eq_ok_iff.mp h
    obtain ⟨pieces, hahead, hparse⟩ := exists_parse_of_reads_top hreads
    rcases hrest with ⟨hend, rfl⟩ | ⟨l, hend, rfl⟩ | ⟨l, p, rest, hend, hmore⟩
    · rw [hend, List.append_nil] at hahead
      have hread := hparse tokens (hahead ▸ hfused)
      refine ⟨[tokens], [node.expr], List.reverse_cons, ⟨List.cons_ne_nil _ _, .inl ?_⟩,
        .cons hread .nil⟩
      exact Token.arguments_last (marks_of_parse hread).1
    · rw [hend] at hahead
      obtain ⟨a, b, rfl, ha, hb⟩ := hfused.exists_comma hahead
      obtain rfl := hb.eq_nil
      have hread := hparse a ha
      refine ⟨[a], [node.expr], List.reverse_cons, ⟨List.cons_ne_nil _ _, .inr ?_⟩,
        .cons hread .nil⟩
      rw [Token.arguments_comma (marks_of_parse hread).1 (marks_of_parse hread).2]
      rfl
    · rw [hend] at hahead
      obtain ⟨a, b, rfl, ha, hb⟩ := hfused.exists_comma hahead
      have hread := hparse a ha
      have hlt : (p :: rest).length < n := by
        have hshort := hreads.length_lt
        rw [hend, hn, List.length_cons] at hshort
        omega
      obtain ⟨slices, more, rfl, ⟨hne, hcut⟩, hall⟩ := ih _ hlt hmore hb rfl
      refine ⟨a :: slices, node.expr :: more, by simp, ⟨List.cons_ne_nil _ _, ?_⟩, .cons hread hall⟩
      rw [Token.arguments_comma (marks_of_parse hread).1 (marks_of_parse hread).2, List.cons_append,
        List.cons.injEq, List.cons.injEq]
      exact hcut.imp (⟨rfl, ·⟩) (⟨rfl, ·⟩)

/-- Parts that are read one by one are read as a list. -/
theorem itemsFrom_of_cut {slices : List (List Token)} {more : List Expr}
    (hall : List.Forall₂ (fun slice e => parse slice = .ok e) slices more)
    (hcut : Cut tokens slices) {c : Cursor} (hfused : Fused tokens c.ahead) (read : List Expr) :
    itemsFrom c read = .ok (read.reverse ++ more) := by
  induction hall generalizing tokens c read with
  | nil => exact absurd rfl hcut.1
  | @cons slice e slices more hread hall ih =>
    obtain ⟨tail, hcut, htail⟩ : ∃ tail, Token.arguments tokens = slice :: tail
        ∧ (tail = slices ∨ tail = slices ++ [[]]) := by
      rcases hcut.2 with h | h
      · exact ⟨slices, h, .inl rfl⟩
      · exact ⟨slices ++ [[]], h.trans (List.cons_append ..), .inr rfl⟩
    rcases Token.argumentsFrom_eq_cons hcut with ⟨rfl, rfl⟩ | ⟨l, rest, rfl, hrest⟩
    · -- No comma is left, and this was the last part.
      obtain rfl : slices = [] := by simpa using htail
      cases hall
      obtain ⟨node, c', hreads, hend, rfl⟩ :=
        reads_top_of_parse hread hfused (List.append_nil _).symm (stops_nil _)
      exact itemsFrom_eq_ok_iff.mpr ⟨node, c', hreads, .inl ⟨hend, List.reverse_cons.symm⟩⟩
    · obtain ⟨pa, ha⟩ := exists_fused slice
      obtain ⟨pb, hb⟩ := exists_fused rest
      have hahead : c.ahead = pa ++ ⟨.comma, l⟩ :: pb :=
        hfused.unique (ha.append (t := ⟨.symbol .comma, l⟩) rfl hb)
      obtain ⟨node, c', hreads, hend, rfl⟩ :=
        reads_top_of_parse hread ha hahead (stops_comma _ l pb)
      refine itemsFrom_eq_ok_iff.mpr ⟨node, c', hreads, .inr ?_⟩
      cases hall with
      | nil =>
        -- The comma was the last token.
        obtain rfl : tail = [[]] := by
          rcases htail with rfl | rfl
          · exact absurd hrest (Token.argumentsFrom_ne_nil 0 rest)
          · rfl
        obtain rfl := Token.eq_nil_of_arguments hrest
        obtain rfl := hb.unique .nil
        exact .inl ⟨l, hend, List.reverse_cons.symm⟩
      | @cons next _ others more hnext _ =>
        cases pb with
        | nil =>
          -- Behind the comma there would be an empty part only, and the next part is not empty.
          obtain rfl := hb.eq_nil
          have hempty : next = [] := by
            rcases htail with rfl | rfl
            · exact (List.cons.inj hrest).1.symm
            · exact (List.cons.inj hrest).1.symm
          exact absurd hempty (ne_nil_of_parse hnext)
        | cons p pb =>
          have hmore := ih ⟨List.cons_ne_nil _ _, hrest ▸ htail⟩
            (c := c'.past ⟨.comma, l⟩ (p :: pb)) hb (node.expr :: read)
          rw [List.reverse_cons, List.append_assoc] at hmore
          exact .inr ⟨l, p, pb, hend, hmore⟩

/-- **An argument list is cut at its commas.** A slice is read as a list of expressions exactly if
the commas outside parentheses cut it into parts, at least one and none of them empty, but for an
empty part behind a last comma, that are read as these expressions one by one. -/
theorem parseList_iff_arguments (tokens : List Token) (es : List Expr) :
    parseList tokens = .ok es ↔ ∃ slices, slices ≠ [] ∧ (∀ slice ∈ slices, slice ≠ [])
      ∧ (Token.arguments tokens = slices ∨ Token.arguments tokens = slices ++ [[]])
      ∧ List.Forall₂ (fun slice e => parse slice = .ok e) slices es := by
  obtain ⟨pieces, hfused⟩ := exists_fused tokens
  have hlist : parseList tokens = itemsFrom (.ofPieces pieces (sliceEnd tokens)) [] := by
    rw [parseList, cursor, hfused.fuse_eq]
    rfl
  rw [hlist]
  constructor
  · intro h
    obtain ⟨slices, more, rfl, ⟨hne, hcut⟩, hall⟩ := exists_cut_of_itemsFrom h hfused
    obtain ⟨hnonempty, hall⟩ := (List.forall₂_and_left slices _).mp
      (hall.imp fun slice e hread => ⟨ne_nil_of_parse hread, hread⟩)
    exact ⟨slices, hne, hnonempty, hcut, hall⟩
  · rintro ⟨slices, hne, -, hcut, hall⟩
    exact itemsFrom_of_cut hall ⟨hne, hcut⟩ hfused []

end Expr

end Lipi
