/-
Reading an expression is deriving it.

The readers of expressions accept exactly what the grammar derives within the two
ceilings, and answer with the expression that it derives.

Soundness goes along the readers: each answer consumes pieces that are a phrase, and
the node it carries knows its height. The room of a reader is one more than the
nesting of what it can read, so a reader with no room reads nothing.

Completeness goes along the derivations, and two things shape it. What follows a
phrase decides whether a reader stops where the phrase ends, so the pieces after it
have to be ones that `Phrase.Stops` allows. And the rule for operators is
left-recursive where the reader is a loop, so the statement carried through the
induction says of a level's phrase not that the reader answers with it, but that
the loop comes to have it on its left (`Accepts`); only the pieces after it decide
whether that is the end.

Since the ceilings are parameters of the readers, completeness also settles that
the grammar is unambiguous: two derivations from the same pieces fit under a common
pair of ceilings, and there one reader answers with both.
-/
import Lipi.Proofs.Expr.Grammar
import Lipi.Proofs.Expr.Reading
import Mathlib.Tactic.ByContra

set_option autoImplicit false

namespace Lipi

namespace Phrase

/-- The reader of a phrase, when `room` groups, operators before an operand and
assignments may still be opened and no tree may be higher than `limit`. -/
def reader (limit room : Nat) : Phrase → Reader
  | expression =>
    .expression limit (Reader.descent limit room).expression (Reader.descent limit room).operand
  | joined levels =>
    .levels limit
      (.operand limit (Reader.descent limit room).expression (Reader.descent limit room).operand)
      levels
  | stepped => .stepped (Reader.descent limit room).expression
  | primary => .primary (Reader.descent limit room).expression

end Phrase

/-- A node knows the height of its expression, and the height is within a limit. -/
structure Node.Measured (limit : Nat) (node : Node) : Prop where
  depth_eq : node.depth = node.expr.height
  height_le : node.expr.height ≤ limit

namespace Reader

open Phrase

/-! ## Soundness -/

/-- What a reader takes is a phrase nested less deep than its room. -/
def Sound (limit room : Nat) (phrase : Phrase) (reader : Reader) : Prop :=
  ∀ ⦃c node c'⦄, reader.Reads c node c' → ∃ pieces nesting, c.ahead = pieces ++ c'.ahead
    ∧ phrase.Derives pieces node.expr nesting ∧ nesting < room ∧ node.Measured limit

theorem sound_refused (limit : Nat) (phrase : Phrase) : Sound limit 0 phrase refused :=
  fun _ _ _ h => absurd h not_reads_refused

theorem measured_leaf {limit : Nat} (hlimit : 0 < limit) {e : Expr} (h : e.height = 1) :
    (Node.leaf e).Measured limit :=
  ⟨h.symm, by rw [Node.leaf, h]; exact hlimit⟩

variable {limit room : Nat} {inner innerOperand : Reader}

theorem sound_primary (hlimit : 0 < limit) (hinner : Sound limit room .expression inner) :
    Sound limit (room + 1) .primary (primary inner) := by
  intro c node c' hread
  obtain ⟨⟨kind, l⟩, rest, hc, h⟩ := reads_primary_iff.mp hread
  rcases h with ⟨v, rfl, rfl, rfl⟩ | ⟨n, rfl, rfl, rfl⟩ | ⟨rfl, c₁, l₁, after, h, hc₁, rfl⟩
  · exact ⟨_, 0, hc, .value v l, Nat.succ_pos _, measured_leaf hlimit rfl⟩
  · exact ⟨_, 0, hc, .name n l, Nat.succ_pos _, measured_leaf hlimit rfl⟩
  · obtain ⟨pieces, nesting, hp, hd, hlt, hm⟩ := hinner h
    refine ⟨_, nesting + 1, ?_, .group l l₁ hd, Nat.succ_lt_succ hlt, hm⟩
    rw [hc₁] at hp
    simp only [Cursor.past] at hp ⊢
    rw [hc, hp, List.cons_append, List.append_assoc, List.singleton_append]

theorem sound_stepped (hlimit : 0 < limit) (hinner : Sound limit room .expression inner) :
    Sound limit (room + 1) .stepped (stepped inner) := by
  intro c node c' hread
  obtain ⟨first, c₁, hfirst, h⟩ := reads_stepped_iff.mp hread
  obtain ⟨pieces, nesting, hp, hd, hlt, hm⟩ := sound_primary hlimit hinner hfirst
  rcases h with ⟨s, op, l, rest, name, hc₁, hop, hname, rfl, rfl⟩ | ⟨-, rfl, rfl⟩
  · rw [hname] at hd
    refine ⟨_, nesting, ?_, .trailing l hop hd, hlt, measured_leaf hlimit rfl⟩
    rw [hp, hc₁, Cursor.past, List.append_assoc]
    rfl
  · exact ⟨pieces, nesting, hp, .ofPrimary hd, hlt, hm⟩

theorem sound_operand (hlimit : 0 < limit) (hinner : Sound limit room .expression inner)
    (hoperand : Sound limit room (.joined []) innerOperand) :
    Sound limit (room + 1) (.joined []) (operand limit inner innerOperand) := by
  intro c node c' hread
  rcases reads_operand_iff.mp hread with ⟨s, op, l, rest, value, hc, hop, h, hle, rfl⟩
    | ⟨s, op, l, rest, hc, hop, h⟩ | ⟨-, h⟩
  · obtain ⟨pieces, nesting, hp, hd, hlt, hm⟩ := hoperand h
    refine ⟨_, nesting + 1, ?_, .unary l hop hd, Nat.succ_lt_succ hlt, ?_⟩
    · simp only [Cursor.past] at hp
      rw [hc, hp, List.cons_append]
    · rw [hm.depth_eq] at hle ⊢
      exact ⟨rfl, hle⟩
  · obtain ⟨name, l₂, rest₂, hc₂, rfl, rfl⟩ := reads_steppedName_iff.mp h
    simp only [Cursor.past] at hc₂
    exact ⟨_, 0, by rw [hc, hc₂]; rfl, .leading name l l₂ hop, Nat.succ_pos _,
      measured_leaf hlimit rfl⟩
  · obtain ⟨pieces, nesting, hp, hd, hlt, hm⟩ := sound_stepped hlimit hinner h
    exact ⟨pieces, nesting, hp, .ofStepped hd, hlt, hm⟩

/-- The loop of a level keeps what it has on its left a phrase of the level. The
induction is on the pieces ahead, as the loop's own recursion is. -/
theorem sound_chainsTo {level : Level} {tighter : List Level} {reader : Reader}
    (hreader : Sound limit room (.joined tighter) reader) {left node : Node} {c c' : Cursor}
    {before : List Piece} {nesting : Nat} (h : ChainsTo limit level reader left c node c')
    (hd : (joined (level :: tighter)).Derives before left.expr nesting) (hlt : nesting < room)
    (hm : left.Measured limit) :
    ∃ pieces nesting', before ++ c.ahead = pieces ++ c'.ahead
      ∧ (joined (level :: tighter)).Derives pieces node.expr nesting' ∧ nesting' < room
      ∧ node.Measured limit := by
  induction hn : c.ahead.length using Nat.strongRecOn generalizing left c before nesting with
  | ind n ih =>
    rcases chainsTo_iff.mp h with ⟨-, rfl, rfl⟩ | ⟨s, op, l, rest, right, c₂, hc, hop, hr, hle, h⟩
    · exact ⟨before, nesting, rfl, hd, hlt, hm⟩
    · obtain ⟨after, m, hp, hd₂, hlt₂, hm₂⟩ := hreader hr
      have hshort : c₂.ahead.length < n := by
        have := hr.length_lt
        simp only [Cursor.past] at this
        rw [← hn, hc, List.length_cons]
        omega
      rw [hm.depth_eq, hm₂.depth_eq] at hle h
      obtain ⟨pieces, nesting', hp', hd', hlt', hm'⟩ :=
        ih _ hshort h (.join l hop hd hd₂) (Nat.max_lt.mpr ⟨hlt, hlt₂⟩) ⟨rfl, hle⟩ rfl
      refine ⟨pieces, nesting', ?_, hd', hlt', hm'⟩
      simp only [Cursor.past] at hp
      rw [← hp', hc, hp, List.append_assoc, List.cons_append]

theorem sound_levels {operand : Reader} (hoperand : Sound limit room (.joined []) operand)
    (ls : List Level) : Sound limit room (.joined ls) (levels limit operand ls) := by
  induction ls with
  | nil => exact hoperand
  | cons level tighter ih =>
    intro c node c' h
    obtain ⟨first, c₁, hfirst, h⟩ := reads_chain_iff.mp h
    obtain ⟨before, nesting, hp, hd, hlt, hm⟩ := ih hfirst
    rw [hp]
    exact sound_chainsTo ih h (.ofTighter hd) hlt hm

theorem sound_expression (hlimit : 0 < limit) (hinner : Sound limit room .expression inner)
    (hoperand : Sound limit room (.joined []) innerOperand) :
    Sound limit (room + 1) .expression (expression limit inner innerOperand) := by
  intro c node c' hread
  rcases reads_expression_iff.mp hread with
    ⟨name, s, op, l₁, l₂, rest, value, hc, hop, h, hle, rfl⟩ | ⟨-, h⟩
  · obtain ⟨pieces, nesting, hp, hd, hlt, hm⟩ := hinner h
    refine ⟨_, nesting + 1, ?_, .assign name l₁ l₂ hop hd, Nat.succ_lt_succ hlt, ?_⟩
    · simp only [Cursor.past] at hp
      rw [hc, hp, List.cons_append, List.cons_append]
    · rw [hm.depth_eq] at hle ⊢
      exact ⟨rfl, hle⟩
  · obtain ⟨pieces, nesting, hp, hd, hlt, hm⟩ :=
      sound_levels (sound_operand hlimit hinner hoperand) Level.all h
    exact ⟨pieces, nesting, hp, .ofJoined hd, hlt, hm⟩

/-- The two ways back into the grammar are sound, by recursion on the room. -/
theorem sound_descent (hlimit : 0 < limit) (room : Nat) :
    Sound limit room .expression (descent limit room).expression
      ∧ Sound limit room (.joined []) (descent limit room).operand := by
  induction room with
  | zero => exact ⟨sound_refused limit _, sound_refused limit _⟩
  | succ room ih =>
    exact ⟨sound_expression hlimit ih.1 ih.2, sound_operand hlimit ih.1 ih.2⟩

end Reader

/-! ## Completeness -/

namespace Phrase

open Reader

/-- The phrases that the grammar uses have no level twice. -/
def Proper : Phrase → Prop
  | joined levels => levels.Nodup
  | _ => True

/-- The reader of a phrase takes the given pieces as the given expression. Of a level
it is said that the loop comes to have the expression on its left, whatever the loop
then makes of it. -/
def Accepts (limit room : Nat) : Phrase → List Piece → Expr → Prop
  | joined (level :: tighter), pieces, e => ∀ ⦃c rest⦄, c.ahead = pieces ++ rest →
      (joined tighter).Stops rest → ∃ c₁, c₁.ahead = rest
        ∧ ∀ ⦃node c'⦄, ChainsTo limit level ((joined tighter).reader limit room)
            ⟨e, e.height⟩ c₁ node c' →
          ((joined (level :: tighter)).reader limit room).Reads c node c'
  | phrase, pieces, e => ∀ ⦃c rest⦄, c.ahead = pieces ++ rest → phrase.Stops rest →
      ∃ c', c'.ahead = rest ∧ (phrase.reader limit room).Reads c ⟨e, e.height⟩ c'

variable {limit room : Nat} {phrase : Phrase} {pieces : List Piece} {e : Expr} {n : Nat}

/-- Before pieces that stop the whole phrase the loop ends. -/
theorem Accepts.reads (h : phrase.Accepts limit room pieces e) {c : Cursor} {rest : List Piece}
    (hc : c.ahead = pieces ++ rest) (hstop : phrase.Stops rest) :
    ∃ c', c'.ahead = rest ∧ (phrase.reader limit room).Reads c ⟨e, e.height⟩ c' := by
  match phrase with
  | joined (level :: tighter) =>
    have htight : (joined tighter).Stops rest :=
      hstop.mono fun s => Or.imp_right fun ⟨other, hmem, hs⟩ =>
        ⟨other, List.mem_cons_of_mem level hmem, hs⟩
    obtain ⟨c₁, hc₁, hchain⟩ := h hc htight
    refine ⟨c₁, hc₁, hchain (chainsTo_iff.mpr (.inl ⟨?_, rfl, rfl⟩))⟩
    intro s l more hsign
    rw [hc₁] at hsign
    by_contra hs
    exact hstop s l more hsign (.inr ⟨level, List.mem_cons_self, hs⟩)
  | joined [] => exact h hc hstop
  | expression => exact h hc hstop
  | stepped => exact h hc hstop
  | primary => exact h hc hstop

/-- **Completeness**, for whatever may follow the phrase. By induction on the
derivation; the room goes down where the derivation opens something. -/
theorem Derives.accepts (h : phrase.Derives pieces e n) {limit room : Nat} (hroom : n ≤ room)
    (hlimit : e.height ≤ limit) (hproper : phrase.Proper) :
    phrase.Accepts limit room pieces e := by
  induction h generalizing room with
  | @assign s op pieces value n name l₁ l₂ hop _ ih =>
    intro c rest hc hstop
    -- One more is open from here on, and the reader of the value has room for one less.
    obtain ⟨room, rfl⟩ : ∃ r, room = r + 1 := ⟨room - 1, by omega⟩
    have hheight : value.height + 1 ≤ limit := hlimit
    obtain ⟨c', hc', hread⟩ := (@ih room (by omega) (by omega) trivial).reads
      (c := c.past ⟨.sign s, l₂⟩ (pieces ++ rest)) rfl hstop
    exact ⟨c', hc', reads_expression_iff.mpr
      (.inl ⟨name, s, op, l₁, l₂, _, _, hc, hop, hread, hheight, rfl⟩)⟩
  | @ofJoined pieces e n hd ih =>
    intro c rest hc hstop
    obtain ⟨c', hc', hread⟩ := (ih hroom hlimit (by decide : Level.all.Nodup)).reads hc
      (hstop.mono fun s hs => .inr hs)
    refine ⟨c', hc', reads_expression_iff.mpr (.inr ⟨?_, hread⟩)⟩
    intro name s l₁ l₂ more hassign
    rw [hc] at hassign
    match pieces, hd.ne_nil with
    | [p], _ =>
      -- The sign comes after the phrase, which does not stop at an assignment's.
      by_contra hs
      exact hstop s l₂ more (List.cons.inj hassign).2 (.inl hs)
    | p :: q :: tail, _ =>
      simp only [List.cons_append, List.cons.injEq] at hassign
      exact hd.assignOp?_second (by simp) (by rw [hassign.1, hassign.2.1])
  | @join level tighter s op before after left right n m l hop _ _ ihl ihr =>
    intro c rest hc hstop
    have hheight : max left.height right.height + 1 ≤ limit := hlimit
    obtain ⟨hnotin, hnodup⟩ := List.nodup_cons.mp hproper
    rw [List.append_assoc, List.cons_append] at hc
    -- The loop comes to have the left operand, and then the operator does not stop it.
    obtain ⟨c₁, hc₁, hchain⟩ := @ihl room (by omega) (by omega) hproper _ _ hc
      (stops_operator hop hnotin l (after ++ rest))
    obtain ⟨c₂, hc₂, hread⟩ := (@ihr room (by omega) (by omega) hnodup).reads
      (c := c₁.past ⟨.sign s, l⟩ (after ++ rest)) rfl hstop
    refine ⟨c₂, hc₂, fun node c' h => hchain (chainsTo_iff.mpr (.inr ?_))⟩
    exact ⟨s, op, l, _, _, c₂, hc₁, hop, hread, hheight, h⟩
  | ofTighter _ ih =>
    intro c rest hc hstop
    obtain ⟨c₁, hc₁, hread⟩ := (ih hroom hlimit (List.nodup_cons.mp hproper).2).reads hc hstop
    exact ⟨c₁, hc₁, fun node c' h => reads_chain_iff.mpr ⟨_, c₁, hread, h⟩⟩
  | @unary s op pieces operand n l hop _ ih =>
    intro c rest hc hstop
    obtain ⟨room, rfl⟩ : ∃ r, room = r + 1 := ⟨room - 1, by omega⟩
    have hheight : operand.height + 1 ≤ limit := hlimit
    obtain ⟨c', hc', hread⟩ := (@ih room (by omega) (by omega) List.nodup_nil).reads
      (c := c.past ⟨.sign s, l⟩ (pieces ++ rest)) rfl hstop
    exact ⟨c', hc', reads_operand_iff.mpr
      (.inl ⟨s, op, l, _, _, hc, hop, hread, hheight, rfl⟩)⟩
  | leading name l₁ l₂ hop =>
    intro c rest hc _
    exact ⟨_, rfl, reads_operand_iff.mpr (.inr (.inl ⟨_, _, l₁, _, hc, hop,
      reads_steppedName_iff.mpr ⟨name, l₂, rest, rfl, rfl, rfl⟩⟩))⟩
  | ofStepped hd ih =>
    intro c rest hc hstop
    obtain ⟨c', hc', hread⟩ := (ih hroom hlimit trivial).reads hc (hstop.mono fun s => .inl)
    refine ⟨c', hc', reads_operand_iff.mpr (.inr (.inr ⟨?_, hread⟩))⟩
    intro s l more hsign
    exact absurd (hc ▸ hsign) (hd.not_sign_head (.inr rfl))
  | @trailing s op pieces name n l hop _ ih =>
    intro c rest hc _
    rw [List.append_assoc, List.singleton_append] at hc
    obtain ⟨c₁, hc₁, hread⟩ := (ih hroom hlimit trivial).reads hc fun _ _ _ _ => id
    exact ⟨_, rfl, reads_stepped_iff.mpr ⟨_, c₁, hread,
      .inl ⟨s, op, l, rest, name, hc₁, hop, rfl, rfl, rfl⟩⟩⟩
  | ofPrimary _ ih =>
    intro c rest hc hstop
    obtain ⟨c', hc', hread⟩ := (ih hroom hlimit trivial).reads hc fun _ _ _ _ => id
    refine ⟨c', hc', reads_stepped_iff.mpr ⟨_, c', hread, .inr ⟨?_, rfl, rfl⟩⟩⟩
    intro s l more hsign
    by_contra hs
    exact hstop s l more (hc' ▸ hsign) hs
  | value v l =>
    intro c rest hc _
    exact ⟨_, rfl, reads_primary_iff.mpr ⟨_, rest, hc, .inl ⟨v, rfl, rfl, rfl⟩⟩⟩
  | name name l =>
    intro c rest hc _
    exact ⟨_, rfl, reads_primary_iff.mpr ⟨_, rest, hc, .inr (.inl ⟨name, rfl, rfl, rfl⟩)⟩⟩
  | @group pieces e n l₁ l₂ _ ih =>
    intro c rest hc _
    obtain ⟨room, rfl⟩ : ∃ r, room = r + 1 := ⟨room - 1, by omega⟩
    rw [List.cons_append, List.append_assoc, List.singleton_append] at hc
    obtain ⟨c₁, hc₁, hread⟩ := (@ih room (by omega) hlimit trivial).reads
      (c := c.past ⟨.openParen, l₁⟩ (pieces ++ ⟨.closeParen, l₂⟩ :: rest)) rfl
      (stops_closeParen _ l₂ rest)
    exact ⟨_, rfl, reads_primary_iff.mpr ⟨_, _, hc,
      .inr (.inr ⟨rfl, c₁, l₂, rest, hread, hc₁, rfl⟩)⟩⟩

/-- **The grammar is unambiguous**, without any ceiling: two derivations from the
same pieces fit under a common pair of ceilings, and there one reader answers with
both. -/
theorem Derives.unique {e₁ e₂ : Expr} {n₁ n₂ : Nat} (h₁ : expression.Derives pieces e₁ n₁)
    (h₂ : expression.Derives pieces e₂ n₂) : e₁ = e₂ := by
  have hc : (Cursor.ofPieces pieces .nowhere).ahead = pieces ++ [] := (List.append_nil _).symm
  have ha₁ : expression.Accepts (max e₁.height e₂.height) (max n₁ n₂) pieces e₁ :=
    h₁.accepts (Nat.le_max_left _ _) (Nat.le_max_left _ _) trivial
  have ha₂ : expression.Accepts (max e₁.height e₂.height) (max n₁ n₂) pieces e₂ :=
    h₂.accepts (Nat.le_max_right _ _) (Nat.le_max_right _ _) trivial
  obtain ⟨c₁, -, hread₁⟩ := ha₁.reads hc (stops_nil _)
  obtain ⟨c₂, -, hread₂⟩ := ha₂.reads hc (stops_nil _)
  exact congrArg Node.expr (hread₁.unique hread₂).1

end Phrase

/-! ## Whole slices -/

namespace Expr

open Phrase Reader

theorem parse_eq_ok_iff_reads {tokens : List Token} {e : Expr} :
    parse tokens = .ok e ↔ ∃ pieces node c', Piece.fuse tokens = .ok pieces
      ∧ top.Reads (.ofPieces pieces (sliceEnd tokens)) node c' ∧ c'.ahead = []
      ∧ node.expr = e := by
  unfold parse cursor
  cases hfuse : Piece.fuse tokens with
  | error err =>
    constructor
    · intro h
      cases h
    · rintro ⟨_, _, _, h, -⟩
      cases h
  | ok pieces =>
    cases hread : top (.ofPieces pieces (sliceEnd tokens)) with
    | error err =>
      simp only [Except.map, bind, Except.bind, hread]
      constructor
      · intro h
        cases h
      · rintro ⟨_, node, c', h, ⟨_, hr⟩, -⟩
        cases h
        rw [hread] at hr
        cases hr
    | ok r =>
      obtain ⟨node, ⟨ahead, behind, finish⟩, hlt⟩ := r
      simp only [Except.map, bind, Except.bind, hread]
      constructor
      · intro h
        cases ahead with
        | nil =>
          cases h
          exact ⟨pieces, node, _, rfl, ⟨hlt, hread⟩, rfl, rfl⟩
        | cons p rest => cases h
      · rintro ⟨_, node', c', h, ⟨_, hr⟩, hc', rfl⟩
        cases h
        rw [hread] at hr
        cases hr
        cases hc'
        rfl

/-- Whatever a slice is read as, the grammar derives from its pieces. -/
theorem derives_of_parse {tokens : List Token} {e : Expr} (h : parse tokens = .ok e) :
    ∃ pieces nesting, Piece.fuse tokens = .ok pieces
      ∧ expression.Derives pieces e nesting ∧ nesting ≤ nestingLimit ∧ e.height ≤ heightLimit := by
  obtain ⟨pieces, node, c', hfuse, hread, hc', rfl⟩ := parse_eq_ok_iff_reads.mp h
  have hsound : Sound heightLimit (nestingLimit + 1) .expression top :=
    (sound_descent (by decide) (nestingLimit + 1)).1
  obtain ⟨taken, nesting, hp, hd, hlt, hm⟩ := hsound hread
  rw [hc', List.append_nil] at hp
  obtain rfl : pieces = taken := hp
  exact ⟨pieces, nesting, hfuse, hd, Nat.le_of_lt_succ hlt, hm.height_le⟩

/-- Whatever the grammar derives within the ceilings is read. -/
theorem parse_of_derives {tokens : List Token} {pieces : List Piece} {e : Expr} {nesting : Nat}
    (hfuse : Piece.fuse tokens = .ok pieces) (hd : expression.Derives pieces e nesting)
    (hnesting : nesting ≤ nestingLimit) (hheight : e.height ≤ heightLimit) :
    parse tokens = .ok e := by
  have ha : expression.Accepts heightLimit nestingLimit pieces e :=
    hd.accepts hnesting hheight trivial
  obtain ⟨c', hc', hread⟩ := ha.reads (c := .ofPieces pieces (sliceEnd tokens))
    (List.append_nil pieces).symm (stops_nil _)
  exact parse_eq_ok_iff_reads.mpr ⟨pieces, _, c', hfuse, hread, hc', rfl⟩

end Expr

end Lipi
