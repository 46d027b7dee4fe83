/-
Gluing operators cannot fail.

The signs of expressions are cut out of rows of operator characters by trying the longest
first, and a row that no sign begins would be an error. There is no such row: every
character that an operator brings is a sign by itself, except for the ampersand and the
bar, and these come in pairs (`Glued`). Cutting a sign off the front leaves a row of the
same kind, because a sign made of single characters cannot end inside a pair
(`Glued.of_sign`). The lexicon is ordered by length, so the sign that is found is the longest
that fits (`Sign.front?_longest`), and a row is cut into the signs that take as much as they
can at each place (`Sign.Greedy`, `Glued.exists_greedy`).
-/
import Lipi.Expr.Piece

set_option autoImplicit false

namespace Lipi

/-! ## The lexicon -/

namespace Sign

theorem mem_lexicon (s : Sign) : s ∈ lexicon := by
  cases s <;> decide

/-- The signs are tried by their lengths, the longest first. -/
theorem lexicon_descending :
    lexicon.Pairwise fun a b => b.spelling.toList.length ≤ a.spelling.toList.length := by
  decide

/-- No two signs are spelled alike. -/
theorem spelling_injective {a b : Sign} (h : a.spelling.toList = b.spelling.toList) : a = b := by
  have hlexicon : ∀ a ∈ lexicon, ∀ b ∈ lexicon,
      a.spelling.toList = b.spelling.toList → a = b := by decide
  exact hlexicon a a.mem_lexicon b b.mem_lexicon h

/-- The sign at the front of a row is the longest that the row begins with. -/
theorem front?_longest {row : List Char} {s : Sign} (h : front? row = some s) :
    s.spelling.toList <+: row ∧ ∀ other : Sign, other.spelling.toList <+: row →
      other.spelling.toList.length ≤ s.spelling.toList.length := by
  obtain ⟨hs, before, after, hsplit, hbefore⟩ := List.find?_eq_some_iff_append.mp h
  refine ⟨List.isPrefixOf_iff_prefix.mp hs, fun other hother => ?_⟩
  have hmem : other ∈ before ++ s :: after := hsplit ▸ other.mem_lexicon
  rcases List.mem_append.mp hmem with hmem | hmem
  · -- What is tried before it does not fit.
    have hrefused := hbefore other hmem
    rw [List.isPrefixOf_iff_prefix.mpr hother] at hrefused
    cases hrefused
  · rcases List.mem_cons.mp hmem with rfl | hmem
    · exact Nat.le_refl _
    · have hdescending := lexicon_descending
      rw [hsplit] at hdescending
      exact (List.pairwise_cons.mp (List.pairwise_append.mp hdescending).2.1).1 other hmem

/-- The longest sign that a row begins with is the one at its front. -/
theorem front?_of_longest {row : List Char} {s : Sign} (hs : s.spelling.toList <+: row)
    (hlongest : ∀ other : Sign, other.spelling.toList <+: row →
      other.spelling.toList.length ≤ s.spelling.toList.length) : front? row = some s := by
  cases hfront : front? row with
  | none =>
    exact absurd (List.isPrefixOf_iff_prefix.mpr hs) (List.find?_eq_none.mp hfront s s.mem_lexicon)
  | some s' =>
    obtain ⟨hs', hlongest'⟩ := front?_longest hfront
    have hlength := Nat.le_antisymm (hlongest s' hs') (hlongest' s hs)
    have hbegins := List.prefix_of_prefix_length_le hs' hs (Nat.le_of_eq hlength)
    rw [spelling_injective (hbegins.eq_of_length hlength)]

/-! ## Greedy rows -/

/-- The characters of some signs next to each other. -/
def spelled (signs : List Sign) : List Char :=
  signs.flatMap fun s => s.spelling.toList

theorem spelled_cons (s : Sign) (rest : List Sign) :
    spelled (s :: rest) = s.spelling.toList ++ spelled rest :=
  List.flatMap_cons

/-- Each sign is the longest that its own characters and all that follow them begin with. -/
def Greedy : List Sign → Prop
  | [] => True
  | s :: rest => (∀ other : Sign, other.spelling.toList <+: spelled (s :: rest) →
      other.spelling.toList.length ≤ s.spelling.toList.length) ∧ Greedy rest

/-- What is spelled by greedy signs is cut into these signs. -/
theorem cut_spelled {signs : List Sign} (h : Greedy signs) (read : List Sign) :
    cut (spelled signs) read = .ok (read.reverse ++ signs) := by
  induction signs generalizing read with
  | nil => rw [spelled, List.flatMap_nil, cut, List.append_nil]
  | cons s rest ih =>
    obtain ⟨hlongest, hrest⟩ := h
    have hspelled := spelled_cons s rest
    have hfront := front?_of_longest (hspelled ▸ List.prefix_append _ _) hlongest
    have hdrop : (spelled (s :: rest)).drop s.spelling.toList.length = spelled rest := by
      rw [hspelled, List.drop_left]
    have hne : spelled (s :: rest) ≠ [] := by
      rw [hspelled]
      exact List.append_ne_nil_of_left_ne_nil (List.ne_nil_of_length_pos s.spelling_length_pos) _
    obtain ⟨c, row, hrow⟩ := List.exists_cons_of_ne_nil hne
    rw [hrow] at hfront hdrop ⊢
    rw [cut, hfront]
    dsimp only
    rw [hdrop, ih hrest, List.reverse_cons, List.append_assoc, List.singleton_append]

end Sign

/-! ## Runs -/

/-- The characters that are signs by themselves. -/
def Sign.single : List Char := ['=', '<', '>', '+', '-', '*', '/', '%', '!']

/-- What operators next to each other are glued to. -/
inductive Glued : List Char → Prop where
  | nil : Glued []
  | single {c : Char} {run : List Char} (hc : c ∈ Sign.single) (h : Glued run) : Glued (c :: run)
  | pair {c : Char} {run : List Char} (hc : c = '&' ∨ c = '|') (h : Glued run) :
      Glued (c :: c :: run)

namespace Glued

theorem append {a b : List Char} (ha : Glued a) (hb : Glued b) : Glued (a ++ b) := by
  induction ha with
  | nil => exact hb
  | single hc _ ih => exact .single hc ih
  | pair hc _ ih => exact .pair hc ih

theorem of_singles {run : List Char} (h : run ⊆ Sign.single) : Glued run := by
  induction run with
  | nil => exact .nil
  | cons c run ih =>
    obtain ⟨hc, hrun⟩ := List.cons_subset.mp h
    exact .single hc (ih hrun)

/-- Every operator that joins a run joins it whole. -/
theorem of_runSpelling? {o : Operator} {spelling : String}
    (h : Piece.runSpelling? o = some spelling) : Glued spelling.toList := by
  cases o with
  | wordTrue | wordFalse | wordNull => cases h
  | andAnd | wordAnd =>
    cases h
    exact .pair (.inl rfl) .nil
  | orOr | wordOr =>
    cases h
    exact .pair (.inr rfl) .nil
  | _ =>
    cases h
    exact of_singles (by decide)

/-! ## Cutting -/

theorem of_singles_append {cs run : List Char} (hcs : cs ⊆ Sign.single)
    (h : Glued (cs ++ run)) : Glued run := by
  induction cs with
  | nil => exact h
  | cons c cs ih =>
    obtain ⟨hc, hcs⟩ := List.cons_subset.mp hcs
    rw [List.cons_append] at h
    generalize cs ++ run = tail at h ih
    cases h with
    | single _ h => exact ih hcs h
    | pair hpair _ => rcases hpair with rfl | rfl <;> exact absurd hc (by decide)

theorem of_pair {c : Char} {run : List Char} (hc : c = '&' ∨ c = '|')
    (h : Glued (c :: c :: run)) : Glued run := by
  cases h with
  | single hsingle _ => rcases hc with rfl | rfl <;> exact absurd hsingle (by decide)
  | pair _ h => exact h

/-- What is left behind a sign is glued again. -/
theorem of_sign {s : Sign} {run : List Char} (h : Glued (s.spelling.toList ++ run)) :
    Glued run := by
  cases s with
  | andAnd => exact of_pair (.inl rfl) h
  | orOr => exact of_pair (.inr rfl) h
  | _ => exact of_singles_append (by decide) h

theorem exists_single {c : Char} (h : c ∈ Sign.single) :
    ∃ s : Sign, s.spelling.toList = [c] := by
  simp only [Sign.single, List.mem_cons, List.not_mem_nil, or_false] at h
  rcases h with rfl | rfl | rfl | rfl | rfl | rfl | rfl | rfl | rfl
  · exact ⟨.assign, rfl⟩
  · exact ⟨.lt, rfl⟩
  · exact ⟨.gt, rfl⟩
  · exact ⟨.plus, rfl⟩
  · exact ⟨.minus, rfl⟩
  · exact ⟨.star, rfl⟩
  · exact ⟨.slash, rfl⟩
  · exact ⟨.percent, rfl⟩
  · exact ⟨.bang, rfl⟩

/-- A sign begins every run that is not empty. -/
theorem exists_sign {c : Char} {run : List Char} (h : Glued (c :: run)) :
    ∃ s : Sign, s.spelling.toList <+: c :: run := by
  cases h with
  | single hc _ =>
    obtain ⟨s, hs⟩ := exists_single hc
    exact ⟨s, by rw [hs]; exact ⟨run, rfl⟩⟩
  | @pair _ run hc _ =>
    rcases hc with rfl | rfl
    · exact ⟨.andAnd, run, rfl⟩
    · exact ⟨.orOr, run, rfl⟩

/-- **Every run is spelled by greedy signs.** -/
theorem exists_greedy {run : List Char} (h : Glued run) :
    ∃ signs, Sign.spelled signs = run ∧ Sign.Greedy signs := by
  induction hlength : run.length using Nat.strongRecOn generalizing run with
  | _ length ih =>
  rcases run with _ | ⟨c, rest⟩
  · exact ⟨[], rfl, trivial⟩
  · cases hfront : Sign.front? (c :: rest) with
    | none =>
      obtain ⟨s, hs⟩ := exists_sign h
      exact absurd (List.isPrefixOf_iff_prefix.mpr hs)
        (List.find?_eq_none.mp hfront s s.mem_lexicon)
    | some s =>
      obtain ⟨⟨more, hmore⟩, hlongest⟩ := Sign.front?_longest hfront
      rw [← hmore] at h hlongest hlength ⊢
      have hshorter : more.length < length := by
        have := s.spelling_length_pos
        rw [List.length_append] at hlength
        omega
      obtain ⟨signs, rfl, hsigns⟩ := ih _ hshorter (of_sign h) rfl
      exact ⟨s :: signs, Sign.spelled_cons s signs, Sign.spelled_cons s signs ▸ hlongest, hsigns⟩

end Glued

end Lipi
