/-
Stretches of characters, and of whatever else stands in a row.

A stretch is a row of characters that pass a test, where the text ends or a character follows
that does not. Every text begins with one and only one, so where a stretch is known to end, the
text is taken apart there in one way (`stretch_unique`).
-/
set_option autoImplicit false

namespace Lipi

variable {α : Type} {p : α → Bool} {a b : List α}

/-- A stretch of characters that pass a test, where none or another kind follows. -/
theorem takeWhile_stretch (ha : ∀ c ∈ a, p c = true)
    (hb : ∀ c, b.head? = some c → p c = false) : (a ++ b).takeWhile p = a := by
  rw [List.takeWhile_append_of_pos ha]
  rcases b with _ | ⟨c, b⟩
  · rw [List.takeWhile_nil, List.append_nil]
  · have hc : ¬ p c = true := by
      rw [hb c rfl]
      exact Bool.false_ne_true
    rw [List.takeWhile_cons_of_neg hc, List.append_nil]

/-- What such a stretch leaves. -/
theorem dropWhile_stretch (ha : ∀ c ∈ a, p c = true)
    (hb : ∀ c, b.head? = some c → p c = false) : (a ++ b).dropWhile p = b := by
  have happend := List.takeWhile_append_dropWhile (p := p) (l := a ++ b)
  rw [takeWhile_stretch ha hb] at happend
  exact List.append_cancel_left happend

/-- Every text begins with such a stretch, which may be empty. -/
theorem exists_stretch (p : α → Bool) (text : List α) :
    ∃ a b, text = a ++ b ∧ text.takeWhile p = a ∧ (∀ c ∈ a, p c = true)
      ∧ ∀ c, b.head? = some c → p c = false := by
  induction text with
  | nil => exact ⟨[], [], rfl, rfl, nofun, nofun⟩
  | cons c text ih =>
    by_cases hc : p c = true
    · obtain ⟨a, b, rfl, htake, ha, hb⟩ := ih
      refine ⟨c :: a, b, rfl, ?_, ?_, hb⟩
      · rw [List.takeWhile_cons_of_pos hc, htake]
      · exact List.forall_mem_cons.mpr ⟨hc, ha⟩
    · refine ⟨[], c :: text, rfl, List.takeWhile_cons_of_neg hc, nofun, ?_⟩
      rintro d ⟨⟩
      exact Bool.eq_false_iff.mpr hc

/-- **A text begins with one stretch.** -/
theorem stretch_unique {a' b' : List α} (ha : ∀ c ∈ a, p c = true)
    (ha' : ∀ c ∈ a', p c = true) (hb : ∀ c, b.head? = some c → p c = false)
    (hb' : ∀ c, b'.head? = some c → p c = false) (h : a ++ b = a' ++ b') : a = a' ∧ b = b' := by
  have htake := takeWhile_stretch ha hb
  have hdrop := dropWhile_stretch ha hb
  rw [h] at htake hdrop
  exact ⟨htake.symm.trans (takeWhile_stretch ha' hb'),
    hdrop.symm.trans (dropWhile_stretch ha' hb')⟩

end Lipi
