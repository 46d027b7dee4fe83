/-
Tables of characters.

A property of characters is kept as the closed ranges of code points that have it,
in ascending order. The first range that does not end before a character decides.
-/

set_option autoImplicit false

namespace Lipi.Text

/-- Whether a code point lies in one of some closed ranges in ascending order. -/
def covers : List (Nat × Nat) → Nat → Bool
  | [], _ => false
  | (first, last) :: rest, n => if n ≤ last then decide (first ≤ n) else covers rest n

/-- Membership in a table of closed ranges in ascending order. -/
def inRanges (ranges : List (Nat × Nat)) (c : Char) : Bool := covers ranges c.toNat

/-- What a table covers lies in one of its ranges. -/
theorem exists_of_covers {ranges : List (Nat × Nat)} {n : Nat} (h : covers ranges n = true) :
    ∃ r ∈ ranges, r.1 ≤ n ∧ n ≤ r.2 := by
  induction ranges with
  | nil => exact absurd h Bool.false_ne_true
  | cons r rest ih =>
    rw [covers] at h
    split at h
    case isTrue inside => exact ⟨r, List.mem_cons_self, of_decide_eq_true h, inside⟩
    case isFalse =>
      obtain ⟨s, mem, bounds⟩ := ih h
      exact ⟨s, List.mem_cons_of_mem r mem, bounds⟩

end Lipi.Text
