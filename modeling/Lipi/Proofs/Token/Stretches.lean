/-
What a scanner passes, stretch by stretch.

A source that can be read is a row of blanks, comments and spans of tokens, and the scanner
takes them one by one: a line comment with everything up to the end of its line, a block comment
with its closing signs, a token with the span that spells it. `Stretched` is this row, each
stretch with the condition on what follows it that makes the scanner stop there. In contrast to
tiles, the layout between two tokens is taken apart as well, so it can be said of a character
that it stands in a comment.

Scanning reads a row of stretches as its tokens (`tokensFrom_of_stretched`), and whatever is read
is such a row (`exists_stretched_of_tiled`). A character stands in one stretch only
(`Stretch.eq_of_mem_placed`).
-/
import Lipi.Proofs.Token.Tiling

set_option autoImplicit false

namespace Lipi

/-! ## Stretches -/

/-- What a scanner takes at once. -/
inductive Stretch where
  | blank (c : Char)
  /-- A line comment, without the line feed that ends it. -/
  | line (body : List Char)
  | block (body : List Char)
  | token (span : List Char) (kind : Token.Kind)
deriving DecidableEq, Repr

namespace Stretch

/-- The characters of a stretch. -/
def text : Stretch → List Char
  | blank c => [c]
  | line body => '/' :: '/' :: body
  | block body => '/' :: '*' :: (body ++ ['*', '/'])
  | token span _ => span

/-- Whether a stretch is a comment. -/
def isComment : Stretch → Bool
  | line _ => true
  | block _ => true
  | blank _ => false
  | token _ _ => false

/-- Whether a stretch is a block comment. -/
def isBlock : Stretch → Bool
  | block _ => true
  | line _ => false
  | blank _ => false
  | token _ _ => false

/-- The tokens of a row of stretches. -/
def tokens (l : Location) : List Stretch → List Token
  | [] => []
  | token span kind :: rest => ⟨kind, l⟩ :: tokens (l.past span) rest
  | s :: rest => tokens (l.past s.text) rest

/-- The stretches of a row with the offsets at which they begin. -/
def placed (offset : Nat) : List Stretch → List (Nat × Stretch)
  | [] => []
  | s :: rest => (offset, s) :: placed (offset + s.text.length) rest

/-- A stretch can be taken in front of what follows it. -/
inductive Stands : Stretch → List Char → Prop where
  | blank {c : Char} {after : List Char} (h : Text.isBlank c = true) : Stands (.blank c) after
  | line {body after : List Char} (hbody : '\n' ∉ body)
      (hafter : ∀ c, after.head? = some c → c = '\n') : Stands (.line body) after
  | block {body after : List Char} (h : ¬ ['*', '/'] <:+: body) : Stands (.block body) after
  | token {span after : List Char} {kind : Token.Kind} (hspan : Lexeme.Spells span kind)
      (hstops : Lexeme.Stops kind after) : Stands (.token span kind) after

end Stretch

/-- A text is a row of stretches, each of which can be taken in front of the others. -/
inductive Stretched : List Char → List Stretch → Prop where
  | nil : Stretched [] []
  | cons {s : Stretch} {rest : List Char} {stretches : List Stretch} (h : s.Stands rest)
      (hrest : Stretched rest stretches) : Stretched (s.text ++ rest) (s :: stretches)

namespace Stretch

variable {s s' : Stretch} {after : List Char} {stretches : List Stretch} {o o' k x : Nat}

/-- No stretch is empty. -/
theorem Stands.length_pos (h : s.Stands after) : 0 < s.text.length := by
  cases h with
  | token hspan _ => exact hspan.length_pos
  | _ => exact Nat.succ_pos _

theorem le_of_mem_placed (h : (o, s) ∈ placed k stretches) : k ≤ o := by
  induction stretches generalizing k with
  | nil => cases h
  | cons t rest ih =>
    rw [placed] at h
    rcases List.mem_cons.mp h with heq | h
    · cases heq
      exact Nat.le_refl _
    · have hle := ih h
      omega

/-- **A character stands in one stretch.** -/
theorem eq_of_mem_placed (h : (o, s) ∈ placed k stretches) (h' : (o', s') ∈ placed k stretches)
    (ho : o ≤ x) (hx : x < o + s.text.length) (ho' : o' ≤ x) (hx' : x < o' + s'.text.length) :
    o = o' ∧ s = s' := by
  induction stretches generalizing k with
  | nil => cases h
  | cons t rest ih =>
    rw [placed] at h h'
    rcases List.mem_cons.mp h with heq | h
    · cases heq
      rcases List.mem_cons.mp h' with heq' | h'
      · cases heq'
        exact ⟨rfl, rfl⟩
      · -- The second begins where the first has ended.
        have hle := le_of_mem_placed h'
        omega
    · rcases List.mem_cons.mp h' with heq' | h'
      · cases heq'
        have hle := le_of_mem_placed h
        omega
      · exact ih h h'

end Stretch

/-! ## Scanning -/

namespace Scanner

open Stretch

/-- Layout in front of a text is passed. -/
theorem front_of_stands {s : Stretch} {rest : List Char} (h : s.Stands rest)
    (hlayout : ∀ span kind, s ≠ .token span kind) :
    Layout.front (s.text ++ rest) = (Layout.front rest).after s.text.length := by
  unfold Layout.front
  cases h with
  | blank hblank =>
    show Layout.measure (_ :: rest) 0 = _
    rw [Layout.measure_blank hblank, Nat.zero_add, ← Layout.measure_add]
    rfl
  | @line body _ hbody hafter =>
    have htake : (body ++ rest).takeWhile (· != '\n') = body := by
      apply takeWhile_stretch (Layout.forall_ne_lineFeed hbody)
      intro c hc
      rw [hafter c hc]
      rfl
    show Layout.measure ('/' :: '/' :: (body ++ rest)) 0 = _
    rw [Layout.measure_lineComment, htake, List.drop_left, ← Layout.measure_add]
    congr 1
    simp only [Stretch.text, List.length_cons]
    omega
  | @block body _ hbody =>
    have hclosed := Layout.commentLength?_of_body hbody rest 0
    have htext : (Stretch.block body).text ++ rest
        = '/' :: '*' :: (body ++ '*' :: '/' :: rest) := by
      simp only [Stretch.text, List.cons_append, List.append_assoc, List.nil_append]
    rw [htext, Layout.measure_blockComment hclosed, Layout.drop_closed, ← Layout.measure_add]
    congr 1
    simp only [Stretch.text, List.length_cons, List.length_append, List.length_nil]
    omega
  | token hspan hstops => exact absurd rfl (hlayout _ _)

/-- **A row of stretches is read as its tokens.** -/
theorem tokensFrom_of_stretched {text : List Char} {stretches : List Stretch}
    (h : Stretched text stretches) (l : Location) :
    ((Scanner.mk l text).tokensFrom []).1 = .ok (Stretch.tokens l stretches) := by
  induction h generalizing l with
  | nil =>
    have hfront : Layout.front (Scanner.mk l []).ahead = .ends 0 := Layout.measure_nil 0
    rw [tokensFrom_end hfront rfl]
    rfl
  | @cons s rest stretches hstands _ ih =>
    cases s with
    | token span kind =>
      cases hstands with
      | token hspan hstops =>
        obtain ⟨hpos, hlex⟩ := Lexeme.front_of_spells hspan hstops
        have hfront : Layout.front (span ++ rest) = .ends 0 := (hspan.clear hstops).measure 0
        have hskip : (Scanner.mk l (span ++ rest)).skip 0 = ⟨l, span ++ rest⟩ := rfl
        show ((Scanner.mk l (span ++ rest)).tokensFrom []).1 = _
        rw [tokensFrom_eq hfront, hskip, hlex]
        dsimp only
        rw [skip_left, tokensFrom_read, ih]
        rfl
    | _ =>
      -- Layout is passed, and the tokens are those of the rest.
      have hfront := front_of_stands hstands fun _ _ => Stretch.noConfusion
      rw [tokensFrom_append l _ rest [] hfront, ih]
      rfl

/-- Layout in front of a row of stretches makes the row longer. -/
theorem exists_stretched_of_complete {gap text : List Char} {stretches : List Stretch}
    (hgap : Layout.Complete gap) (h : Stretched text stretches) :
    ∃ more, Stretched (gap ++ text) more := by
  induction hgap with
  | nil => exact ⟨stretches, h⟩
  | blank hblank _ ih =>
    obtain ⟨more, hmore⟩ := ih
    exact ⟨_, .cons (.blank hblank) hmore⟩
  | @line body rest hbody _ ih =>
    obtain ⟨more, hmore⟩ := ih
    have hline : Stretched ((Stretch.line body).text ++ ('\n' :: rest ++ text))
        (.line body :: more) := by
      refine .cons (.line hbody ?_) hmore
      intro c hc
      cases hc
      rfl
    refine ⟨.line body :: more, ?_⟩
    rw [List.cons_append, List.cons_append, List.append_assoc]
    exact hline
  | @block body rest hbody _ ih =>
    obtain ⟨more, hmore⟩ := ih
    have hblock : Stretched ((Stretch.block body).text ++ (rest ++ text))
        (.block body :: more) := .cons (.block hbody) hmore
    refine ⟨.block body :: more, ?_⟩
    simp only [Stretch.text, List.cons_append, List.append_assoc, List.nil_append] at hblock ⊢
    exact hblock

/-- Layout to the end of a source is a row of stretches. -/
theorem exists_stretched_of_trailing {text : List Char} (h : Layout.Trailing text) :
    ∃ stretches, Stretched text stretches := by
  rcases h with h | ⟨before, body, hbefore, hbody, rfl⟩
  · obtain ⟨stretches, hstretches⟩ := exists_stretched_of_complete h .nil
    rw [List.append_nil] at hstretches
    exact ⟨stretches, hstretches⟩
  · have hline : Stretched ((Stretch.line body).text ++ []) [.line body] :=
      .cons (.line hbody fun c hc => by cases hc) .nil
    rw [List.append_nil] at hline
    exact exists_stretched_of_complete hbefore hline

/-- **What is read is a row of stretches.** -/
theorem exists_stretched_of_tiled {text : List Char} {tiles : List Tile} (h : Tiled text tiles) :
    ∃ stretches, Stretched text stretches := by
  induction h with
  | last htrailing => exact exists_stretched_of_trailing htrailing
  | @next tile rest tiles hgap hspan hstops _ ih =>
    obtain ⟨stretches, hstretches⟩ := ih
    have htoken : Stretched (tile.span ++ rest) (.token tile.span tile.kind :: stretches) :=
      .cons (.token hspan hstops) hstretches
    rw [Tile.text, List.append_assoc]
    exact exists_stretched_of_complete hgap htoken

end Scanner

/-- **The stretches of a source.** What can be read is a row of stretches, and whatever row of
stretches it is, it is read as the tokens of the row. -/
theorem stretched_of_tokenize {source : String} {tokens : List Token}
    (h : tokenize source = .ok tokens) :
    (∃ stretches, Stretched source.toList stretches)
      ∧ ∀ stretches, Stretched source.toList stretches →
        Stretch.tokens .start stretches = tokens := by
  constructor
  · obtain ⟨tiles, htiled, -⟩ := Scanner.exists_tiled h
    exact Scanner.exists_stretched_of_tiled htiled
  · intro stretches hstretches
    have hread : tokenize source = .ok (Stretch.tokens .start stretches) :=
      Scanner.tokensFrom_of_stretched hstretches .start
    rw [hread] at h
    cases h
    rfl

end Lipi
