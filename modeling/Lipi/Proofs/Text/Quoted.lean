/-
Quoting loses nothing.

Between quotes a character is written in one of three ways (`escaped_cases`): as it stands, by
a letter behind a backslash, or by its code point. None of these begins another, and none
begins with a quote, so what stands between quotes can be taken apart in one way and the first
bare quote is its end. A quoted text is therefore known from any text that begins with it, and
so is what follows (`quoted_unique`).
-/
import Lipi.Proofs.Text.OneLine
import Lipi.Proofs.Text.Stretch

set_option autoImplicit false

namespace Lipi.Text

/-! ## Code points -/

theorem digitChar_inj {m n : Nat} (hm : m < 16) (hn : n < 16) (h : m.digitChar = n.digitChar) :
    m = n := by
  have hall : ∀ m < 16, ∀ n < 16, Nat.digitChar m = Nat.digitChar n → m = n := by decide
  exact hall m hm n hn h

/-- Different code points have different digits. -/
theorem hexDigits_inj {m n : Nat} (h : hexDigits m = hexDigits n) : m = n := by
  unfold hexDigits at h
  -- The last digits are compared, and what is left is smaller.
  induction m using Nat.strongRecOn generalizing n with
  | ind m ih =>
    rw [Nat.toDigits_eq_if (by decide), Nat.toDigits_eq_if (b := 16) (n := n) (by decide)] at h
    have hlast : ∀ k, k % 16 < 16 := fun k => Nat.mod_lt k (by decide)
    split at h
    · next hm =>
      split at h
      · next hn => exact digitChar_inj hm hn (List.cons.inj h).1
      · exact absurd (List.append_eq_singleton_iff.mp h.symm) (by simp [Nat.toDigits_ne_nil])
    · next hm =>
      split at h
      · exact absurd (List.append_eq_singleton_iff.mp h) (by simp [Nat.toDigits_ne_nil])
      · obtain ⟨hrest, hdigit⟩ := List.append_inj' h rfl
        have hquotient := ih (m / 16) (Nat.div_lt_self (by omega) (by decide)) hrest
        have hremainder := digitChar_inj (hlast m) (hlast n) (List.cons.inj hdigit).1
        omega

theorem brace_not_mem_hexDigits (n : Nat) : '\x7d' ∉ hexDigits n :=
  not_mem_toDigits (fun d => Nat.digitChar_ne '\x7d' (by decide)) (by decide) n

/-! ## Characters between quotes -/

/-- What a letter behind a backslash stands for. -/
def meant : Char → Char
  | '0' => '\x00'
  | 't' => '\t'
  | 'r' => '\r'
  | 'n' => '\n'
  | c => c

/-- **A character between quotes** stands as it is, as a letter, or as its code point. -/
theorem escaped_cases (c : Char) :
    (escaped c = [c] ∧ c ≠ '\\' ∧ c ≠ '"')
      ∨ (∃ letter, escaped c = ['\\', letter] ∧ letter ≠ 'u' ∧ c = meant letter)
      ∨ escaped c = '\\' :: 'u' :: '\x7b' :: (hexDigits c.toNat ++ ['\x7d']) := by
  unfold escaped
  by_cases hnull : c = '\x00'
  · exact .inr (.inl ⟨'0', if_pos hnull, by decide, hnull⟩)
  rw [if_neg hnull]
  by_cases htab : c = '\t'
  · exact .inr (.inl ⟨'t', if_pos htab, by decide, htab⟩)
  rw [if_neg htab]
  by_cases hreturn : c = '\r'
  · exact .inr (.inl ⟨'r', if_pos hreturn, by decide, hreturn⟩)
  rw [if_neg hreturn]
  by_cases hfeed : c = '\n'
  · exact .inr (.inl ⟨'n', if_pos hfeed, by decide, hfeed⟩)
  rw [if_neg hfeed]
  by_cases hquote : c = '"'
  · exact .inr (.inl ⟨'"', if_pos hquote, by decide, hquote⟩)
  rw [if_neg hquote]
  by_cases hslash : c = '\\'
  · exact .inr (.inl ⟨'\\', if_pos hslash, by decide, hslash⟩)
  rw [if_neg hslash]
  split
  · exact .inr (.inr rfl)
  · exact .inl ⟨rfl, hslash, hquote⟩

/-- A character is known from what begins with it as it is written between quotes. -/
theorem escaped_unique {c d : Char} {a b : List Char} (h : escaped c ++ a = escaped d ++ b) :
    c = d ∧ a = b := by
  rcases escaped_cases c with ⟨hc, hcslash, -⟩ | ⟨letter, hc, hcu, rfl⟩ | hc <;>
    rcases escaped_cases d with ⟨hd, hdslash, -⟩ | ⟨letter', hd, hdu, rfl⟩ | hd <;>
    rw [hc, hd] at h
  · exact List.cons.inj h
  · exact absurd (List.cons.inj h).1 hcslash
  · exact absurd (List.cons.inj h).1 hcslash
  · exact absurd (List.cons.inj h).1.symm hdslash
  · obtain ⟨hletter, hrest⟩ := List.cons.inj (List.cons.inj h).2
    exact ⟨congrArg meant hletter, hrest⟩
  · exact absurd (List.cons.inj (List.cons.inj h).2).1 hcu
  · exact absurd (List.cons.inj h).1.symm hdslash
  · exact absurd (List.cons.inj (List.cons.inj h).2).1.symm hdu
  · -- The digits end at the brace.
    have hdigits : hexDigits c.toNat ++ '\x7d' :: a = hexDigits d.toNat ++ '\x7d' :: b := by
      simpa using h
    have hinside : ∀ n, ∀ x ∈ hexDigits n, (x != '\x7d') = true := by
      intro n x hx
      rw [bne_iff_ne]
      rintro rfl
      exact brace_not_mem_hexDigits n hx
    have hend : ∀ rest : List Char, ∀ x, ('\x7d' :: rest).head? = some x → (x != '\x7d') = false := by
      rintro rest _ ⟨⟩
      rfl
    obtain ⟨hhex, hrest⟩ := stretch_unique (hinside _) (hinside _) (hend a) (hend b) hdigits
    exact ⟨Char.toNat_inj.mp (hexDigits_inj hhex), (List.cons.inj hrest).2⟩

theorem escaped_head (c : Char) : ∃ x rest, escaped c = x :: rest ∧ x ≠ '"' := by
  rcases escaped_cases c with ⟨hc, -, hquote⟩ | ⟨letter, hc, -, -⟩ | hc
  · exact ⟨c, [], hc, hquote⟩
  · exact ⟨_, _, hc, by decide⟩
  · exact ⟨_, _, hc, by decide⟩

/-! ## Texts in quotes -/

theorem flatMap_escaped_unique {s t a b : List Char}
    (h : s.flatMap escaped ++ '"' :: a = t.flatMap escaped ++ '"' :: b) : s = t ∧ a = b := by
  -- The closing quote begins no character.
  have hends : ∀ (d : Char) (rest a : List Char), '"' :: a ≠ escaped d ++ rest := by
    intro d rest a h
    obtain ⟨x, tail, hd, hx⟩ := escaped_head d
    rw [hd] at h
    exact hx (List.cons.inj h).1.symm
  induction s generalizing t with
  | nil =>
    cases t with
    | nil => exact ⟨rfl, (List.cons.inj h).2⟩
    | cons d t =>
      rw [List.flatMap_cons, List.append_assoc] at h
      exact absurd h (hends d _ a)
  | cons c s ih =>
    rw [List.flatMap_cons, List.append_assoc] at h
    cases t with
    | nil => exact absurd h.symm (hends c _ b)
    | cons d t =>
      rw [List.flatMap_cons, List.append_assoc] at h
      obtain ⟨rfl, hrest⟩ := escaped_unique h
      obtain ⟨rfl, hab⟩ := ih hrest
      exact ⟨rfl, hab⟩

/-- **A quoted text is known from what begins with it**, and so is what follows. -/
theorem quoted_unique {s t : String} {a b : List Char}
    (h : (quoted s).toList ++ a = (quoted t).toList ++ b) : s = t ∧ a = b := by
  simp only [quoted, String.toList_ofList, List.cons_append, List.append_assoc, List.nil_append,
    List.cons.injEq, true_and] at h
  obtain ⟨hst, hab⟩ := flatMap_escaped_unique h
  exact ⟨String.toList_inj.mp hst, hab⟩

end Lipi.Text
