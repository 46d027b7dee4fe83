/-
What a number is written with.

Both ways of writing a decimal begin with a digit and use digits, a point, signs and the
letter of a power and nothing else (`isNumeric`). So a number that is written down ends where
anything else begins, be it a blank, a bracket or the end of the line.
-/
import Lipi.Decimal.Layout
import Lipi.Value.Written

set_option autoImplicit false

namespace Lipi

/-- The characters that numbers are written with. -/
def isNumeric (c : Char) : Bool := c.isDigit || ['.', 'e', '+', '-'].contains c

theorem isNumeric_of_isDigit {c : Char} (h : c.isDigit = true) : isNumeric c = true := by
  rw [isNumeric, h, Bool.true_or]

/-- A text of a number: a digit, and what numbers are written with behind it. -/
def IsNumberText (text : List Char) : Prop :=
  ∃ c rest, text = c :: rest ∧ c.isDigit = true ∧ ∀ d ∈ rest, isNumeric d = true

theorem IsNumberText.forall_isNumeric {text : List Char} (h : IsNumberText text) :
    ∀ c ∈ text, isNumeric c = true := by
  obtain ⟨c, rest, rfl, hc, hrest⟩ := h
  exact List.forall_mem_cons.mpr ⟨isNumeric_of_isDigit hc, hrest⟩

/-- A text that begins with digits and goes on in any way a number can. -/
theorem isNumberText_append {digits rest : List Char} (hne : digits ≠ [])
    (hdigits : ∀ c ∈ digits, c.isDigit = true) (hrest : ∀ c ∈ rest, isNumeric c = true) :
    IsNumberText (digits ++ rest) := by
  cases digits with
  | nil => exact absurd rfl hne
  | cons c digits =>
    obtain ⟨hc, hdigits⟩ := List.forall_mem_cons.mp hdigits
    refine ⟨c, digits ++ rest, rfl, hc, List.forall_mem_append.mpr ⟨?_, hrest⟩⟩
    exact fun d hd => isNumeric_of_isDigit (hdigits d hd)

namespace Decimal

variable {d : Decimal}

theorem isDigit_of_mem_toDigits (n : Nat) : ∀ c ∈ Nat.toDigits 10 n, c.isDigit = true :=
  fun _ => Nat.isDigit_of_mem_toDigits (by decide) (by decide)

theorem isDigit_of_mem_digits : ∀ c ∈ d.digits, c.isDigit = true :=
  isDigit_of_mem_toDigits d.coefficient

theorem digits_ne_nil (d : Decimal) : d.digits ≠ [] := Nat.toDigits_ne_nil

theorem isDigit_of_mem_zeros (n : Nat) : ∀ c ∈ List.replicate n '0', c.isDigit = true := by
  intro c hc
  rw [List.eq_of_mem_replicate hc]
  rfl

theorem isNumberText_positional (d : Decimal) : IsNumberText d.positional := by
  have hdigits := isDigit_of_mem_digits (d := d)
  have hlength := List.length_pos_iff.mpr d.digits_ne_nil
  unfold positional
  dsimp only
  split
  · exact isNumberText_append d.digits_ne_nil hdigits fun c hc =>
      isNumeric_of_isDigit (isDigit_of_mem_zeros _ c hc)
  · split
    · next hpoint =>
      refine isNumberText_append ?_ (fun c hc => hdigits c (List.mem_of_mem_take hc)) ?_
      · rw [← List.length_pos_iff, List.length_take]
        omega
      · refine List.forall_mem_cons.mpr ⟨by decide, fun c hc => ?_⟩
        exact isNumeric_of_isDigit (hdigits c (List.mem_of_mem_drop hc))
    · refine ⟨_, _, rfl, by decide, List.forall_mem_cons.mpr ⟨by decide, fun c hc => ?_⟩⟩
      exact isNumeric_of_isDigit (List.forall_mem_append.mpr
        ⟨isDigit_of_mem_zeros _, hdigits⟩ c hc)

theorem isNumberText_scientific (d : Decimal) : IsNumberText d.scientific := by
  have hdigits := isDigit_of_mem_digits (d := d)
  have hpower : ∀ c ∈ 'e' :: signedDigits (d.pointPosition - 1), isNumeric c = true := by
    refine List.forall_mem_cons.mpr ⟨by decide, List.forall_mem_cons.mpr ⟨?_, fun c hc => ?_⟩⟩
    · split <;> decide
    · exact isNumeric_of_isDigit (isDigit_of_mem_toDigits _ c hc)
  unfold scientific
  dsimp only
  cases hcases : d.digits with
  | nil => exact absurd hcases d.digits_ne_nil
  | cons c cs =>
    rw [hcases] at hdigits
    obtain ⟨hc, hcs⟩ := List.forall_mem_cons.mp hdigits
    cases cs with
    | nil => exact ⟨c, _, rfl, hc, hpower⟩
    | cons c' cs =>
      refine ⟨c, _, rfl, hc, List.forall_mem_cons.mpr ⟨by decide, ?_⟩⟩
      rw [← List.cons_append]
      exact List.forall_mem_append.mpr ⟨fun d hd => isNumeric_of_isDigit (hcs d hd), hpower⟩

end Decimal

namespace Value

theorem isNumberText_magnitudeText (bits : Nat) : IsNumberText (magnitudeText bits) := by
  unfold magnitudeText
  dsimp only
  split
  · exact Decimal.isNumberText_positional _
  · exact Decimal.isNumberText_scientific _

end Value

end Lipi
