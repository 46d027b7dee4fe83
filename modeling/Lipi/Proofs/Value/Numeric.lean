/-
The texts that stand for a number.

Reading a text as a number never fails; where nothing can be made of it the answer is the number
that is none, and so the texts that are accepted are those with another answer. Without the
blanks at their ends these are the empty text, the word for infinity, hexadecimal numbers behind
a mark and decimal literals (`IsNumeric`), each with an answer that is a number for certain: a
double nearest to a decimal always is one, even if it is infinite.

Two readers stand behind this, and both take more than is wanted. What is read as a double may
also be a word, in letters of either case; a text that is looked through first has only
characters of decimal numbers, every word has a letter that is none of them, and so what is left
are the decimal literals (`isNaN_numberOfDecimal_iff`). What is read behind the mark may also
begin with a plus sign (`isSome_readHex?_iff`). Nothing is looked through there, and that is the
one thing that makes more texts stand for numbers than are numeric (`isNaN_toNumber_text`,
`isNaN_toNumber_plus`).
-/
import Lipi.Value.Numeric
import Lipi.Proofs.Decimal.Literal

set_option autoImplicit false

namespace Lipi.Value

open Numeral (IsSign IsLiteral IsDouble IsDoubleWord)

/-! ## Hexadecimal digits -/

/-- A hexadecimal digit of either case, and its value. -/
def IsHexDigit (c : Char) (v : ℕ) : Prop :=
  "0123456789abcdef".toList[v]? = some c ∨ "0123456789ABCDEF".toList[v]? = some c

instance (c : Char) (v : ℕ) : Decidable (IsHexDigit c v) :=
  inferInstanceAs (Decidable (_ ∨ _))

theorem IsHexDigit.lt {c : Char} {v : ℕ} (h : IsHexDigit c v) : v < 16 := by
  rcases h with h | h <;> exact (List.getElem?_eq_some_iff.mp h).1

theorem toNat_lt_of_hexDigit? {c : Char} {v : ℕ} (h : hexDigit? c = some v) : c.toNat < 128 := by
  have hle : ∀ d : Char, c ≤ d → d.toNat < 128 → c.toNat < 128 := fun d hd hlt =>
    Nat.lt_of_le_of_lt (UInt32.le_iff_toNat_le.mp hd) hlt
  unfold hexDigit? at h
  split at h
  · next hdigit =>
    exact hle '9' (of_decide_eq_true ((Bool.and_eq_true _ _).mp hdigit).2) (by decide)
  · split at h
    · next hlower => exact hle 'f' hlower.2 (by decide)
    · split at h
      · next hupper => exact hle 'F' hupper.2 (by decide)
      · cases h

theorem hexDigit?_eq_some_iff {c : Char} {v : ℕ} : hexDigit? c = some v ↔ IsHexDigit c v := by
  constructor
  · intro h
    -- There are few characters to try.
    have hall : ∀ n < 128, (hexDigit? (Char.ofNat n)).all
        (fun v => decide (IsHexDigit (Char.ofNat n) v)) = true := by decide
    have hc := hall c.toNat (toNat_lt_of_hexDigit? h)
    rw [Char.ofNat_toNat, h] at hc
    exact of_decide_eq_true hc
  · intro h
    have hlt := h.lt
    interval_cases v <;> rcases h with h | h <;> cases h <;> rfl

/-! ## Rows of hexadecimal digits -/

/-- The number that a row of hexadecimal digits spells. -/
def SpellsHex (digits : List Char) (n : ℕ) : Prop :=
  ∃ vs, List.Forall₂ IsHexDigit digits.reverse vs ∧ n = Nat.ofDigits 16 vs

variable {digits : List Char} {c : Char} {n : ℕ}

theorem spellsHex_nil_iff : SpellsHex [] n ↔ n = 0 := by
  constructor
  · rintro ⟨vs, h, rfl⟩
    cases h
    rfl
  · rintro rfl
    exact ⟨[], .nil, rfl⟩

/-- A last digit counts once, and all before it sixteen times. -/
theorem spellsHex_append_iff :
    SpellsHex (digits ++ [c]) n
      ↔ ∃ m v, SpellsHex digits m ∧ IsHexDigit c v ∧ n = m * 16 + v := by
  rw [SpellsHex, List.reverse_append, List.reverse_singleton, List.singleton_append]
  constructor
  · rintro ⟨vs, h, rfl⟩
    cases h with
    | @cons _ v _ vs hc hdigits =>
      refine ⟨_, v, ⟨vs, hdigits, rfl⟩, hc, ?_⟩
      rw [Nat.ofDigits_cons]
      ring
  · rintro ⟨_, v, ⟨vs, hdigits, rfl⟩, hc, rfl⟩
    refine ⟨v :: vs, .cons hc hdigits, ?_⟩
    rw [Nat.ofDigits_cons]
    ring

theorem ofHexDigits?_append (digits : List Char) (c : Char) :
    ofHexDigits? (digits ++ [c])
      = (ofHexDigits? digits).bind fun sum => (hexDigit? c).map fun v => sum * 16 + v := by
  rw [ofHexDigits?, List.foldl_append, ← ofHexDigits?]
  cases ofHexDigits? digits <;> cases h : hexDigit? c <;> simp [h]

/-- Digits are read as what they spell. -/
theorem ofHexDigits?_eq_some_iff : ofHexDigits? digits = some n ↔ SpellsHex digits n := by
  induction digits using List.reverseRecOn generalizing n with
  | nil =>
    rw [spellsHex_nil_iff, ofHexDigits?, List.foldl_nil, Option.some.injEq, eq_comm]
  | append_singleton digits c ih =>
    simp only [ofHexDigits?_append, spellsHex_append_iff, Option.bind_eq_some_iff,
      Option.map_eq_some_iff, ih, hexDigit?_eq_some_iff]
    constructor
    · rintro ⟨m, hm, v, hv, rfl⟩
      exact ⟨m, v, hm, hv, rfl⟩
    · rintro ⟨m, v, hm, hv, rfl⟩
      exact ⟨m, hm, v, hv, rfl⟩

theorem SpellsHex.exists_isHexDigit (h : SpellsHex digits n) :
    ∀ c ∈ digits, ∃ v, IsHexDigit c v := by
  induction digits using List.reverseRecOn generalizing n with
  | nil => nofun
  | append_singleton digits d ih =>
    obtain ⟨m, v, hm, hv, -⟩ := spellsHex_append_iff.mp h
    exact List.forall_mem_append.mpr ⟨ih hm, List.forall_mem_singleton.mpr ⟨v, hv⟩⟩

/-! ## Hexadecimal numbers -/

/-- At least one hexadecimal digit, for a number of at most 64 bits. -/
def IsHexadecimal (digits : List Char) : Prop :=
  digits ≠ [] ∧ ∃ n, SpellsHex digits n ∧ n < 2 ^ 64

/-- A sign is no digit. -/
theorem not_isHexadecimal_plus (digits : List Char) : ¬ IsHexadecimal ('+' :: digits) := by
  rintro ⟨-, n, hspells, -⟩
  obtain ⟨v, hv⟩ := hspells.exists_isHexDigit '+' List.mem_cons_self
  rw [← hexDigit?_eq_some_iff] at hv
  cases hv

/-- Digits are read if there are some and 64 bits hold what they spell. -/
theorem isSome_filter_ofHexDigits?_iff (digits : List Char) :
    (if digits = [] then none else (ofHexDigits? digits).filter (· < UInt64.size)).isSome = true
      ↔ IsHexadecimal digits := by
  have hsize : UInt64.size = 2 ^ 64 := rfl
  unfold IsHexadecimal
  rw [← hsize]
  by_cases hne : digits = []
  · rw [if_pos hne]
    exact iff_of_false Bool.false_ne_true fun h => h.1 hne
  · rw [if_neg hne, Option.isSome_filter, Option.any_eq_true]
    simp only [ofHexDigits?_eq_some_iff, decide_eq_true_eq]
    exact (and_iff_right hne).symm

/-- What is read behind a mark: digits, and a plus sign in front of them if there is one. -/
theorem isSome_readHex?_iff {text : List Char} :
    (readHex? text).isSome = true
      ↔ IsHexadecimal text ∨ ∃ digits, text = '+' :: digits ∧ IsHexadecimal digits := by
  unfold readHex?
  dsimp only
  rw [isSome_filter_ofHexDigits?_iff]
  split
  · next digits =>
    constructor
    · exact fun h => .inr ⟨digits, rfl, h⟩
    · rintro (h | ⟨_, he, h⟩)
      · exact absurd h (not_isHexadecimal_plus digits)
      · rwa [(List.cons.inj he).2]
  · next hplus =>
    exact ⟨.inl, fun h => h.resolve_right fun ⟨digits, he, _⟩ => hplus digits he⟩

theorem isNaN_toFloat (negative : Bool) (d : Decimal) : (d.toFloat negative).isNaN = false :=
  Binary64.isNaN_ofMagnitude negative d.nearest_le_infinity

theorem isNaN_numberOfHex_iff {text : List Char} :
    (numberOfHex text).isNaN = false ↔ (readHex? text).isSome = true := by
  unfold numberOfHex
  cases readHex? text with
  | none => decide
  | some n => exact iff_of_true (isNaN_toFloat false ⟨n, 0⟩) rfl

/-! ## Decimal numbers -/

theorem isNumericChar_of_isDigit {c : Char} (h : c.isDigit = true) : isNumericChar c = true := by
  simp [isNumericChar, h]

theorem forall_isNumericChar_sign {sign : List Char} (h : IsSign sign) :
    ∀ c ∈ sign, isNumericChar c = true := by
  rcases h with rfl | rfl | rfl
  · nofun
  · exact List.forall_mem_singleton.mpr rfl
  · exact List.forall_mem_singleton.mpr rfl

/-- Every character of a literal is one of a decimal number. -/
theorem forall_isNumericChar_literal {text : List Char} (h : IsLiteral text) :
    ∀ c ∈ text, isNumericChar c = true := by
  have hdigits : ∀ ds : List Char, (∀ c ∈ ds, c.isDigit = true) →
      ∀ c ∈ ds, isNumericChar c = true := fun _ hds c hc => isNumericChar_of_isDigit (hds c hc)
  obtain ⟨sign, mantissa, exponent, rfl, hsign, hmantissa, hexponent⟩ := h
  have hmiddle : ∀ c ∈ mantissa, isNumericChar c = true := by
    cases hmantissa with
    | whole _ hwhole => exact hdigits _ hwhole
    | point hwhole hfraction _ =>
      exact List.forall_mem_append.mpr
        ⟨hdigits _ hwhole, List.forall_mem_cons.mpr ⟨by decide, hdigits _ hfraction⟩⟩
  have hend : ∀ c ∈ exponent, isNumericChar c = true := by
    cases hexponent with
    | none => nofun
    | power hc hsign _ hpower =>
      refine List.forall_mem_cons.mpr ⟨by rcases hc with rfl | rfl <;> decide, ?_⟩
      exact List.forall_mem_append.mpr ⟨forall_isNumericChar_sign hsign, hdigits _ hpower⟩
  exact List.forall_mem_append.mpr
    ⟨forall_isNumericChar_sign hsign, List.forall_mem_append.mpr ⟨hmiddle, hend⟩⟩

theorem toNat_lt_of_isNumericChar {c : Char} (h : isNumericChar c = true) : c.toNat < 128 := by
  simp only [isNumericChar, Bool.or_eq_true, beq_iff_eq] at h
  rcases h with ((((h | rfl) | rfl) | rfl) | rfl) | rfl
  · have hle : c.toNat ≤ '9'.toNat :=
      UInt32.le_iff_toNat_le.mp (of_decide_eq_true ((Bool.and_eq_true _ _).mp h).2)
    exact hle.trans_lt (by decide)
  all_goals decide

/-- Every word that is read as a double has this letter. -/
theorem toLower_ne_of_isNumericChar {c : Char} (h : isNumericChar c = true) : c.toLower ≠ 'n' := by
  have hall : ∀ n < 128, isNumericChar (Char.ofNat n) = true → (Char.ofNat n).toLower ≠ 'n' := by
    decide +kernel
  have hc := hall c.toNat (toNat_lt_of_isNumericChar h)
  rw [Char.ofNat_toNat] at hc
  exact hc h

/-- No word gets past the characters of decimal numbers. -/
theorem not_isDoubleWord {letters : List Char} (h : ∀ c ∈ letters, isNumericChar c = true) :
    ¬ IsDoubleWord (letters.map Char.toLower) := by
  intro hword
  have hmem : 'n' ∈ letters.map Char.toLower := by
    rcases hword with hword | hword | hword <;> rw [hword] <;> decide
  obtain ⟨c, hc, hlower⟩ := List.mem_map.mp hmem
  exact toLower_ne_of_isNumericChar (h c hc) hlower

/-- **Decimal literals**: of the texts that are read as doubles they alone get past the
characters of decimal numbers. -/
theorem isDouble_and_numeric_iff {text : List Char} :
    (IsDouble text ∧ ∀ c ∈ text, isNumericChar c = true) ↔ IsLiteral text := by
  constructor
  · rintro ⟨hdouble, hchars⟩
    cases hdouble with
    | number h => exact h
    | word _ h => exact absurd h (not_isDoubleWord (List.forall_mem_append.mp hchars).2)
  · exact fun h => ⟨.number h, forall_isNumericChar_literal h⟩

/-- What is read as a numeral is the number that the text spells in decimal. -/
theorem numberOfDecimal_of_read? {text : List Char} {n : Numeral}
    (h : Numeral.read? text = some n) : numberOfDecimal text = n.toFloat := by
  have hliteral : IsLiteral text :=
    Numeral.isSome_read?_iff.mp (Option.isSome_iff_exists.mpr ⟨n, h⟩)
  have hchars := forall_isNumericChar_literal hliteral
  obtain ⟨sign, negative, body, htext, -, hsign⟩ := Numeral.exists_sign text
  have hword : ¬ IsDoubleWord (body.map Char.toLower) :=
    not_isDoubleWord fun c hc => hchars c (htext ▸ List.mem_append_right sign hc)
  unfold IsDoubleWord at hword
  rw [not_or, not_or] at hword
  rw [numberOfDecimal, if_pos (List.all_eq_true.mpr hchars), Numeral.readDouble?, hsign]
  dsimp only
  rw [if_neg (not_or.mpr ⟨hword.1, hword.2.1⟩), if_neg hword.2.2, h]
  rfl

/-- **The texts that spell a number in decimal** are the decimal literals. -/
theorem isNaN_numberOfDecimal_iff {text : List Char} :
    (numberOfDecimal text).isNaN = false ↔ IsLiteral text := by
  constructor
  · intro h
    unfold numberOfDecimal at h
    split at h
    · next hchars =>
      refine isDouble_and_numeric_iff.mp ⟨?_, List.all_eq_true.mp hchars⟩
      cases hread : Numeral.readDouble? text with
      | none =>
        rw [hread] at h
        exact absurd h (by decide)
      | some x => exact Numeral.isSome_readDouble?_iff.mp (Option.isSome_iff_exists.mpr ⟨x, hread⟩)
    · exact absurd h (by decide)
  · intro h
    obtain ⟨n, hread⟩ := Option.isSome_iff_exists.mp h.isSome_read?
    rw [numberOfDecimal_of_read? hread]
    exact isNaN_toFloat _ _

/-! ## Trimmed texts -/

/-- The marks of a hexadecimal number. -/
def IsHexMark (mark : List Char) : Prop := mark = ['0', 'x'] ∨ mark = ['0', 'X']

/-- The words that are read as infinite numbers. -/
def IsInfinityWord (text : List Char) : Prop :=
  text = "Infinity".toList ∨ text = "+Infinity".toList ∨ text = "-Infinity".toList

theorem isNaN_infinite (negative : Bool) :
    (Binary64.ofMagnitude negative Binary64.infinity).isNaN = false :=
  Binary64.isNaN_ofMagnitude negative le_rfl

theorem isNaN_numberOfTrimmed_infinity {text : List Char} (h : IsInfinityWord text) :
    (numberOfTrimmed text).isNaN = false := by
  rcases h with rfl | rfl | rfl
  · exact isNaN_infinite false
  · exact isNaN_infinite false
  · exact isNaN_infinite true

theorem behindMark?_mark {mark : List Char} (hmark : IsHexMark mark) (rest : List Char) :
    behindMark? (mark ++ rest) = some rest := by
  rcases hmark with rfl | rfl <;> rfl

theorem behindMark?_eq_none {text : List Char}
    (hmark : ∀ mark rest, IsHexMark mark → text ≠ mark ++ rest) : behindMark? text = none := by
  unfold behindMark?
  split
  · exact absurd rfl (hmark ['0', 'x'] _ (.inl rfl))
  · exact absurd rfl (hmark ['0', 'X'] _ (.inr rfl))
  · rfl

/-- A text with a mark is neither empty nor a word. -/
theorem not_isInfinityWord_mark {mark : List Char} (hmark : IsHexMark mark) (rest : List Char) :
    mark ++ rest ≠ [] ∧ ¬ IsInfinityWord (mark ++ rest) := by
  rcases hmark with rfl | rfl <;> exact ⟨nofun, by rintro (h | h | h) <;> cases h⟩

/-- Behind its mark, a hexadecimal number is read to the end. -/
theorem numberOfTrimmed_mark {mark : List Char} (hmark : IsHexMark mark) (rest : List Char) :
    numberOfTrimmed (mark ++ rest) = numberOfHex rest := by
  obtain ⟨hne, hword⟩ := not_isInfinityWord_mark hmark rest
  unfold IsInfinityWord at hword
  rw [not_or, not_or] at hword
  rw [numberOfTrimmed, if_neg hne, if_neg (not_or.mpr ⟨hword.1, hword.2.1⟩), if_neg hword.2.2,
    behindMark?_mark hmark]

/-- A text that is not empty, has no mark and is no word for infinity is read in decimal. -/
theorem numberOfTrimmed_decimal {text : List Char} (hne : text ≠ [])
    (hword : ¬ IsInfinityWord text)
    (hmark : ∀ mark rest, IsHexMark mark → text ≠ mark ++ rest) :
    numberOfTrimmed text = numberOfDecimal text := by
  unfold IsInfinityWord at hword
  rw [not_or, not_or] at hword
  rw [numberOfTrimmed, if_neg hne, if_neg (not_or.mpr ⟨hword.1, hword.2.1⟩), if_neg hword.2.2,
    behindMark?_eq_none hmark]

/-- A literal is neither empty nor marked nor a word. -/
theorem numberOfTrimmed_literal {text : List Char} (h : IsLiteral text) :
    numberOfTrimmed text = numberOfDecimal text := by
  have hchars := forall_isNumericChar_literal h
  refine numberOfTrimmed_decimal ?_ ?_ ?_
  · rintro rfl
    exact absurd h.isSome_read? (by decide)
  · rintro (rfl | rfl | rfl) <;> exact absurd (hchars 'I' (by decide)) (by decide)
  · rintro mark rest (rfl | rfl) rfl
    · exact absurd (hchars 'x' (by simp)) (by decide)
    · exact absurd (hchars 'X' (by simp)) (by decide)

/-- What is read as a numeral is read as its value. -/
theorem numberOfTrimmed_of_read? {text : List Char} {n : Numeral}
    (h : Numeral.read? text = some n) : numberOfTrimmed text = n.toFloat := by
  rw [numberOfTrimmed_literal (Numeral.isSome_read?_iff.mp (Option.isSome_iff_exists.mpr ⟨n, h⟩)),
    numberOfDecimal_of_read? h]

/-- The texts that are numeric: nothing at all, the word for infinity with an optional sign, a
marked hexadecimal number of at most 64 bits, and a decimal literal. -/
inductive IsNumeric : List Char → Prop where
  | empty : IsNumeric []
  | infinity {sign : List Char} (hsign : IsSign sign) : IsNumeric (sign ++ "Infinity".toList)
  | hexadecimal {mark digits : List Char} (hmark : IsHexMark mark) (h : IsHexadecimal digits) :
      IsNumeric (mark ++ digits)
  | decimal {text : List Char} (h : IsLiteral text) : IsNumeric text

/-- A hexadecimal number with a plus sign between its mark and its digits. -/
def IsSignedHexadecimal (text : List Char) : Prop :=
  ∃ mark digits, text = mark ++ '+' :: digits ∧ IsHexMark mark ∧ IsHexadecimal digits

theorem IsNumeric.isNaN_eq_false {text : List Char} (h : IsNumeric text) :
    (numberOfTrimmed text).isNaN = false := by
  cases h with
  | empty => decide
  | infinity hsign =>
    refine isNaN_numberOfTrimmed_infinity ?_
    rcases hsign with rfl | rfl | rfl
    · exact .inl rfl
    · exact .inr (.inl rfl)
    · exact .inr (.inr rfl)
  | hexadecimal hmark h =>
    rw [numberOfTrimmed_mark hmark]
    exact isNaN_numberOfHex_iff.mpr (isSome_readHex?_iff.mpr (.inl h))
  | decimal h =>
    rw [numberOfTrimmed_literal h]
    exact isNaN_numberOfDecimal_iff.mpr h

/-- What stands behind a mark and is read makes a number of the two. -/
theorem isNumeric_of_mark {mark rest : List Char} (hmark : IsHexMark mark)
    (h : (numberOfTrimmed (mark ++ rest)).isNaN = false) :
    IsNumeric (mark ++ rest) ∨ IsSignedHexadecimal (mark ++ rest) := by
  rw [numberOfTrimmed_mark hmark, isNaN_numberOfHex_iff, isSome_readHex?_iff] at h
  rcases h with hdigits | ⟨digits, rfl, hdigits⟩
  · exact .inl (.hexadecimal hmark hdigits)
  · exact .inr ⟨mark, digits, rfl, hmark, hdigits⟩

/-- What is read without a mark is numeric. -/
theorem isNumeric_of_not_mark {text : List Char}
    (hmark : ∀ mark rest, IsHexMark mark → text ≠ mark ++ rest)
    (h : (numberOfTrimmed text).isNaN = false) : IsNumeric text := by
  by_cases hne : text = []
  · rw [hne]
    exact .empty
  · by_cases hword : IsInfinityWord text
    · rcases hword with rfl | rfl | rfl
      · exact .infinity (.inl rfl)
      · exact .infinity (.inr (.inl rfl))
      · exact .infinity (.inr (.inr rfl))
    · rw [numberOfTrimmed_decimal hne hword hmark, isNaN_numberOfDecimal_iff] at h
      exact .decimal h

/-- **The texts that stand for a number.** A text stands for one exactly if it is numeric once
the blanks at its ends are taken off, or then is a hexadecimal number with a plus sign behind
its mark. -/
theorem isNaN_toNumber_text (s : String) :
    (Value.text s).toNumber.isNaN = false
      ↔ IsNumeric (Text.trim s.toList) ∨ IsSignedHexadecimal (Text.trim s.toList) := by
  show (numberOfTrimmed (Text.trim s.toList)).isNaN = false ↔ _
  generalize Text.trim s.toList = text
  constructor
  · intro h
    -- A mark decides: behind it nothing is read in decimal, however that ends.
    by_cases hmark : ∃ mark rest, IsHexMark mark ∧ text = mark ++ rest
    · obtain ⟨mark, rest, hmark, rfl⟩ := hmark
      exact isNumeric_of_mark hmark h
    · push Not at hmark
      exact .inl (isNumeric_of_not_mark hmark h)
  · rintro (h | ⟨mark, digits, rfl, hmark, hdigits⟩)
    · exact h.isNaN_eq_false
    · rw [numberOfTrimmed_mark hmark]
      exact isNaN_numberOfHex_iff.mpr (isSome_readHex?_iff.mpr (.inr ⟨digits, rfl, hdigits⟩))

/-- The plus sign is taken though the text is not numeric. -/
theorem isNaN_toNumber_plus :
    (Value.text "0x+10").toNumber.isNaN = false
      ∧ ¬ IsNumeric (Text.trim "0x+10".toList) := by
  have htrim : Text.trim "0x+10".toList = ['0', 'x'] ++ ['+', '1', '0'] := by decide
  rw [htrim]
  refine ⟨by decide, fun h => ?_⟩
  generalize htext : ['0', 'x'] ++ ['+', '1', '0'] = text at h
  cases h with
  | empty => cases htext
  | infinity hsign => rcases hsign with rfl | rfl | rfl <;> cases htext
  | @hexadecimal mark digits hmark h =>
    have hdigits : digits = '+' :: ['1', '0'] := by
      rcases hmark with rfl | rfl <;> cases htext
      rfl
    exact not_isHexadecimal_plus _ (hdigits ▸ h)
  | decimal h =>
    subst htext
    have hread := h.isSome_read?
    cases hread

end Lipi.Value
