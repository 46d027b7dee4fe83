/-
Decimal literals, said without reading them.

A literal is an optional sign, digits with at most one point among them, and optionally a power
of ten with a sign of its own (`Numeral.IsLiteral`). Reading a numeral takes a text apart in
this order: the sign, the digits up to what is none, a point with the digits behind it, and what
is left must be a power. Each part is where the text has another character than the part before
could take, so a text can be taken apart in one way only, and the texts that are read are the
literals (`Numeral.isSome_read?_iff`).

More texts than these are read as doubles: the words for infinity and for the number that is no
number, with an optional sign and in letters of either case (`Numeral.isSome_readDouble?_iff`).
-/
import Lipi.Proofs.Decimal.Numeral

set_option autoImplicit false

namespace Lipi.Numeral

/-! ## The grammar -/

/-- Nothing, or a sign. -/
def IsSign (sign : List Char) : Prop := sign = [] ∨ sign = ['+'] ∨ sign = ['-']

/-- Digits with at most one point before, among or behind them, but at least one digit. -/
inductive IsMantissa : List Char → Prop where
  | whole {digits : List Char} (hne : digits ≠ []) (hdigits : ∀ c ∈ digits, c.isDigit = true) :
      IsMantissa digits
  | point {whole fraction : List Char} (hwhole : ∀ c ∈ whole, c.isDigit = true)
      (hfraction : ∀ c ∈ fraction, c.isDigit = true) (hne : whole ≠ [] ∨ fraction ≠ []) :
      IsMantissa (whole ++ '.' :: fraction)

/-- Nothing, or a power of ten: its letter, an optional sign and at least one digit. -/
inductive IsExponent : List Char → Prop where
  | none : IsExponent []
  | power {c : Char} {sign digits : List Char} (hc : c = 'e' ∨ c = 'E') (hsign : IsSign sign)
      (hne : digits ≠ []) (hdigits : ∀ c ∈ digits, c.isDigit = true) :
      IsExponent (c :: (sign ++ digits))

/-- A decimal literal. -/
def IsLiteral (text : List Char) : Prop :=
  ∃ sign mantissa exponent, text = sign ++ (mantissa ++ exponent)
    ∧ IsSign sign ∧ IsMantissa mantissa ∧ IsExponent exponent

/-! ## Signs -/

/-- A text that begins with no sign. -/
def Unsigned (body : List Char) : Prop := ∀ c, body.head? = some c → c ≠ '+' ∧ c ≠ '-'

/-- A sign is taken off the front, and no other is left there to be taken with it. -/
theorem readSign_sign {sign body : List Char} (hsign : IsSign sign) (hbody : Unsigned body) :
    ∃ negative, readSign (sign ++ body) = (negative, body) := by
  rcases hsign with rfl | rfl | rfl
  · rw [List.nil_append]
    unfold readSign
    split
    · exact absurd rfl (hbody '-' rfl).2
    · exact absurd rfl (hbody '+' rfl).1
    · exact ⟨_, rfl⟩
  · exact ⟨false, rfl⟩
  · exact ⟨true, rfl⟩

/-- Every text is an optional sign and what is left when it has been taken off. -/
theorem exists_sign (text : List Char) :
    ∃ sign negative body, text = sign ++ body ∧ IsSign sign ∧ readSign text = (negative, body) := by
  unfold readSign
  split
  · exact ⟨['-'], true, _, rfl, .inr (.inr rfl), rfl⟩
  · exact ⟨['+'], false, _, rfl, .inr (.inl rfl), rfl⟩
  · exact ⟨[], false, _, rfl, .inl rfl, rfl⟩

theorem unsigned_cons {c : Char} (h : c.isDigit = true ∨ c = '.') (rest : List Char) :
    Unsigned (c :: rest) := by
  rintro _ ⟨⟩
  rcases h with h | rfl
  · constructor <;> · rintro rfl; cases h
  · decide

theorem unsigned_of_digits {digits rest : List Char} (hne : digits ≠ [])
    (hdigits : ∀ c ∈ digits, c.isDigit = true) : Unsigned (digits ++ rest) := by
  obtain ⟨c, digits, rfl⟩ := List.exists_cons_of_ne_nil hne
  exact unsigned_cons (.inl (hdigits c List.mem_cons_self)) _

theorem IsMantissa.unsigned {mantissa : List Char} (h : IsMantissa mantissa) (rest : List Char) :
    Unsigned (mantissa ++ rest) := by
  cases h with
  | whole hne hdigits => exact unsigned_of_digits hne hdigits
  | @point whole fraction hwhole _ _ =>
    cases whole with
    | nil => exact unsigned_cons (.inr rfl) _
    | cons c whole => exact unsigned_cons (.inl (hwhole c List.mem_cons_self)) _

/-! ## Powers -/

theorem isSome_readPower?_iff {text : List Char} :
    (readPower? text).isSome = true ↔ ∃ sign digits, text = sign ++ digits ∧ IsSign sign
      ∧ digits ≠ [] ∧ ∀ c ∈ digits, c.isDigit = true := by
  unfold readPower?
  constructor
  · obtain ⟨sign, negative, digits, rfl, hsign, hread⟩ := exists_sign text
    rw [hread]
    dsimp only
    split
    · next h => exact fun _ => ⟨sign, digits, rfl, hsign, h.1, List.all_eq_true.mp h.2⟩
    · exact nofun
  · rintro ⟨sign, digits, rfl, hsign, hne, hdigits⟩
    have hunsigned : Unsigned (digits ++ []) := unsigned_of_digits hne hdigits
    rw [List.append_nil] at hunsigned
    obtain ⟨negative, hread⟩ := readSign_sign hsign hunsigned
    rw [hread]
    dsimp only
    rw [if_pos ⟨hne, List.all_eq_true.mpr hdigits⟩]
    rfl

theorem isSome_readEnd?_iff {text : List Char} :
    (readEnd? text).isSome = true ↔ IsExponent text := by
  constructor
  · intro h
    cases text with
    | nil => exact .none
    | cons c rest =>
      rw [readEnd?] at h
      split at h
      · next hc =>
        obtain ⟨sign, digits, rfl, hsign, hne, hdigits⟩ := isSome_readPower?_iff.mp h
        exact .power hc hsign hne hdigits
      · cases h
  · intro h
    cases h with
    | none => rfl
    | power hc hsign hne hdigits =>
      rw [readEnd?, if_pos hc]
      exact isSome_readPower?_iff.mpr ⟨_, _, rfl, hsign, hne, hdigits⟩

/-- A power begins with its letter. -/
theorem IsExponent.head {exponent : List Char} (h : IsExponent exponent) :
    EndsDigits exponent ∧ exponent.head? ≠ some '.' := by
  cases h with
  | none => exact ⟨endsDigits_nil, nofun⟩
  | power hc =>
    rcases hc with rfl | rfl <;> exact ⟨by rintro c ⟨⟩; rfl, nofun⟩

/-! ## Numerals -/

/-- A literal is read. -/
theorem IsLiteral.isSome_read? {text : List Char} (h : IsLiteral text) :
    (read? text).isSome = true := by
  obtain ⟨sign, mantissa, exponent, rfl, hsign, hmantissa, hexponent⟩ := h
  obtain ⟨negative, hread⟩ := readSign_sign hsign (hmantissa.unsigned exponent)
  obtain ⟨hends, hpoint⟩ := hexponent.head
  cases hmantissa with
  | whole hne hdigits =>
    rw [read?_digits hread hdigits hends hpoint, if_neg hne, Option.isSome_map]
    exact isSome_readEnd?_iff.mpr hexponent
  | point hwhole hfraction hne =>
    rw [List.append_assoc, List.cons_append] at hread ⊢
    rw [read?_point hread hwhole hfraction hends, if_neg (not_and_or.mpr hne), Option.isSome_map]
    exact isSome_readEnd?_iff.mpr hexponent

/-- **The texts that are read as numerals are the decimal literals.** -/
theorem isSome_read?_iff {text : List Char} : (read? text).isSome = true ↔ IsLiteral text := by
  refine ⟨fun h => ?_, IsLiteral.isSome_read?⟩
  obtain ⟨sign, negative, body, rfl, hsign, hread⟩ := exists_sign text
  obtain ⟨whole, tail, rfl, -, hwhole, htail⟩ := exists_stretch Char.isDigit body
  by_cases hpoint : tail.head? = some '.'
  · -- Digits go on behind the point, and may be missing on one side of it.
    obtain ⟨after, rfl⟩ := List.head?_eq_some_iff.mp hpoint
    obtain ⟨fraction, rest, rfl, -, hfraction, hrest⟩ := exists_stretch Char.isDigit after
    rw [read?_point hread hwhole hfraction hrest] at h
    split at h
    · cases h
    · next hne =>
      rw [Option.isSome_map] at h
      refine ⟨sign, whole ++ '.' :: fraction, rest, ?_, hsign,
        .point hwhole hfraction (not_and_or.mp hne), isSome_readEnd?_iff.mp h⟩
      rw [List.append_assoc, List.cons_append]
  · rw [read?_digits hread hwhole htail hpoint] at h
    split at h
    · cases h
    · next hne =>
      rw [Option.isSome_map] at h
      exact ⟨sign, whole, tail, rfl, hsign, .whole hne hwhole, isSome_readEnd?_iff.mp h⟩

/-! ## Doubles -/

/-- The words that are read as doubles, in small letters. -/
def IsDoubleWord (word : List Char) : Prop :=
  word = "inf".toList ∨ word = "infinity".toList ∨ word = "nan".toList

/-- The texts that are read as doubles: an optional sign, and a number or a word. -/
inductive IsDouble : List Char → Prop where
  | number {text : List Char} (h : IsLiteral text) : IsDouble text
  | word {sign letters : List Char} (hsign : IsSign sign)
      (h : IsDoubleWord (letters.map Char.toLower)) : IsDouble (sign ++ letters)

/-- No word begins with a sign. -/
theorem IsDoubleWord.unsigned {letters : List Char} (h : IsDoubleWord (letters.map Char.toLower)) :
    Unsigned letters := by
  intro c hc
  have hlower : (letters.map Char.toLower).head? = some c.toLower := by
    rw [List.head?_map, hc, Option.map_some]
  constructor
  · rintro rfl
    rcases h with h | h | h <;> · rw [h] at hlower; exact absurd hlower (by decide)
  · rintro rfl
    rcases h with h | h | h <;> · rw [h] at hlower; exact absurd hlower (by decide)

/-- Whether the letters behind a sign are a word decides how they are read. -/
theorem isSome_readDouble?_of_readSign {text body : List Char} {negative : Bool}
    (h : readSign text = (negative, body)) :
    (readDouble? text).isSome = true
      ↔ IsDoubleWord (body.map Char.toLower) ∨ (read? text).isSome = true := by
  unfold readDouble? IsDoubleWord
  rw [h]
  dsimp only
  split
  · next hinfinity => exact iff_of_true rfl (.inl (hinfinity.imp_right .inl))
  · next hinfinity =>
    split
    · next hnan => exact iff_of_true rfl (.inl (.inr (.inr hnan)))
    · next hnan =>
      rw [Option.isSome_map]
      refine ⟨.inr, fun hread => hread.resolve_left ?_⟩
      rintro (hword | hword | hword)
      · exact hinfinity (.inl hword)
      · exact hinfinity (.inr hword)
      · exact hnan hword

/-- **The texts that are read as doubles** are the decimal literals and the words. -/
theorem isSome_readDouble?_iff {text : List Char} :
    (readDouble? text).isSome = true ↔ IsDouble text := by
  constructor
  · intro h
    obtain ⟨sign, negative, body, rfl, hsign, hread⟩ := exists_sign text
    rcases (isSome_readDouble?_of_readSign hread).mp h with hword | hnumber
    · exact .word hsign hword
    · exact .number (isSome_read?_iff.mp hnumber)
  · intro h
    cases h with
    | number h =>
      obtain ⟨sign, negative, body, -, -, hread⟩ := exists_sign text
      exact (isSome_readDouble?_of_readSign hread).mpr (.inr h.isSome_read?)
    | word hsign h =>
      obtain ⟨negative, hread⟩ := readSign_sign hsign h.unsigned
      exact (isSome_readDouble?_of_readSign hread).mpr (.inl h)

end Lipi.Numeral
