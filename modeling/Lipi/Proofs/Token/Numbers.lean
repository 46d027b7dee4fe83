/-
How rows of digits and points are read.

A row of digits and points is read to its end or not at all, and its points decide which. If
there is none, the digits are a whole number, which must not be too great. A point that other
digits stand in front of must have a digit behind it, or it is reported where it stands. A
second point is reported at the front of the row. With one point in its place the row is a
number of its own, the double nearest to what the digits spell.

The reader measures digits, looks for one point and measures digits again. Each of the five
ways it can end is one lemma about such stretches (`ofNumber_integer` and `ofNumber_decimal`
for the numbers, `ofNumber_outOfRange`, `ofNumber_barePoint` and `ofNumber_secondPoint` for
the failures). A row is cut into stretches at its first point (`exists_cut`), and that settles
every row (`tokensFrom_number`).
-/
import Lipi.Proofs.Decimal.Numeral
import Lipi.Proofs.Token.Tiling

set_option autoImplicit false

namespace Lipi

/-! ## What can be read from a place -/

namespace Scanner

/-- A text ahead is read as one token of a kind: scanning goes on right behind the text, with
the token at its front. -/
def ReadsAs (l : Location) (span after : List Char) (kind : Token.Kind) : Prop :=
  ∀ read, (Scanner.mk l (span ++ after)).tokensFrom read
    = (Scanner.mk (l.past span) after).tokensFrom (⟨kind, l⟩ :: read)

/-- A text ahead is refused: scanning ends in an error of a class that is reported at a place. -/
def Refuses (l : Location) (text : List Char) (tag : String) (place : Location) : Prop :=
  ∀ read, ∃ e s, (Scanner.mk l text).tokensFrom read = (.error e, s)
    ∧ e.tag = tag ∧ e.location = place

/-- A span that is stopped is read as its token. -/
theorem readsAs_of_spells {span after : List Char} {kind : Token.Kind}
    (h : Lexeme.Spells span kind) (hstops : Lexeme.Stops kind after) (l : Location) :
    ReadsAs l span after kind := by
  intro read
  obtain ⟨hpos, hlex⟩ := Lexeme.front_of_spells h hstops
  have hfront : Layout.front (span ++ after) = .ends 0 := (h.clear hstops).measure 0
  have hskip : (Scanner.mk l (span ++ after)).skip 0 = ⟨l, span ++ after⟩ := rfl
  rw [tokensFrom_eq hfront, hskip, hlex]
  dsimp only
  rw [skip_left]

/-- What cannot be read is refused at the place that the failure names. -/
theorem refuses_of_front {text : List Char} {e : Lexeme.Failure} (hclear : Layout.Clear text)
    (h : Lexeme.front text = some (.error e)) (l : Location) :
    Refuses l text e.cause.tag (l.past (text.take e.place)) := by
  intro read
  have hfront : Layout.front text = .ends 0 := hclear.measure 0
  have hskip : (Scanner.mk l text).skip 0 = ⟨l, text⟩ := rfl
  rw [tokensFrom_eq hfront, hskip, h]
  exact ⟨_, _, rfl, rfl, rfl⟩

end Scanner

/-! ## Failures -/

namespace Lexeme

variable {whole fraction rest : List Char}

/-- Digits of a number that is too great. -/
theorem ofNumber_outOfRange (hwhole : ∀ c ∈ whole, c.isDigit = true)
    (hrest : ∀ c, rest.head? = some c → c.isDigit = false) (hpoint : rest.head? ≠ some '.')
    (hlimit : integerLimit < Decimal.ofDigits whole) :
    ofNumber (whole ++ rest)
      = .error ⟨.outOfRange (String.ofList whole), 0, whole.length⟩ := by
  unfold ofNumber
  simp only [takeWhile_stretch hwhole hrest, List.drop_left]
  split
  · exact absurd rfl hpoint
  · rw [dif_neg fun h => Nat.not_lt.mpr h.2 hlimit]

/-- A point that no digit follows. -/
theorem ofNumber_barePoint (hwhole : ∀ c ∈ whole, c.isDigit = true)
    (hrest : ∀ c, rest.head? = some c → c.isDigit = false) :
    ofNumber (whole ++ '.' :: rest)
      = .error ⟨.barePoint (String.ofList whole), whole.length, whole.length⟩ := by
  have htake : (whole ++ '.' :: rest).takeWhile Char.isDigit = whole :=
    takeWhile_stretch hwhole (by rintro c ⟨⟩; rfl)
  have hnone : rest.takeWhile Char.isDigit = [] := takeWhile_stretch (a := []) nofun hrest
  unfold ofNumber
  simp only [htake, List.drop_left, hnone, if_true]

/-- A second point behind digits. -/
theorem ofNumber_secondPoint (hwhole : ∀ c ∈ whole, c.isDigit = true)
    (hfraction : ∀ c ∈ fraction, c.isDigit = true) (hne : fraction ≠ []) :
    ofNumber (whole ++ '.' :: (fraction ++ '.' :: rest))
      = .error ⟨.secondPoint (String.ofList (whole ++ '.' :: fraction)), 0,
          whole.length + 1 + fraction.length⟩ := by
  have hpoint : ∀ tail c, ('.' :: tail).head? = some c → c.isDigit = false := by
    rintro tail c ⟨⟩
    rfl
  have htake := takeWhile_stretch hwhole (hpoint (fraction ++ '.' :: rest))
  have htake' := takeWhile_stretch hfraction (hpoint rest)
  unfold ofNumber
  simp only [htake, List.drop_left, htake', if_neg hne, List.head?_cons, if_true]

/-! ## Rows of digits and points -/

/-- Digits and points. -/
def IsNumberRow (row : List Char) : Prop := ∀ c ∈ row, c.isDigit = true ∨ c = '.'

/-- A number begins here: a digit, or a point with a digit behind it. -/
def BeginsNumber (text : List Char) : Prop :=
  startsWithDigit text = true ∨ ∃ rest, text = '.' :: rest ∧ startsWithDigit rest = true

/-- Neither a digit nor a point comes next. -/
def EndsNumber (after : List Char) : Prop :=
  ∀ c, after.head? = some c → c.isDigit = false ∧ c ≠ '.'

theorem EndsNumber.stops_integer {after : List Char} (h : EndsNumber after) (n : Nat) :
    Stops (.integer n) after := by
  intro c hc
  simp [goesOn, h c hc]

theorem EndsNumber.stops_decimal {after : List Char} (h : EndsNumber after) (x : Float) :
    Stops (.decimal x) after := by
  intro c hc
  simp [goesOn, h c hc]

namespace IsNumberRow

variable {row tail after : List Char}

/-- Without a point there are digits only. -/
theorem forall_isDigit (h : IsNumberRow row) (hpoint : '.' ∉ row) :
    ∀ c ∈ row, c.isDigit = true :=
  fun c hc => (h c hc).resolve_right fun he => hpoint (he ▸ hc)

theorem of_append_left (h : IsNumberRow (whole ++ tail)) : IsNumberRow whole :=
  fun c hc => h c (List.mem_append_left _ hc)

theorem of_cons (h : IsNumberRow (whole ++ '.' :: tail)) : IsNumberRow tail :=
  fun c hc => h c (List.mem_append_right _ (List.mem_cons_of_mem _ hc))

/-- A row is cut at its first point. -/
theorem exists_cut (h : IsNumberRow row) (hpoint : '.' ∈ row) :
    ∃ whole tail, row = whole ++ '.' :: tail ∧ ∀ c ∈ whole, c.isDigit = true := by
  obtain ⟨whole, tail, rfl, hwhole⟩ := List.eq_append_cons_of_mem hpoint
  exact ⟨whole, tail, rfl, h.of_append_left.forall_isDigit hwhole⟩

end IsNumberRow

theorem startsWithDigit_eq_false_iff {text : List Char} :
    startsWithDigit text = false ↔ ∀ c, text.head? = some c → c.isDigit = false := by
  cases text with
  | nil => exact ⟨fun _ => nofun, fun _ => rfl⟩
  | cons c text => exact ⟨fun h d hd => Option.some.inj hd ▸ h, fun h => h c rfl⟩

/-- The first character of a number has none of layout in it. -/
theorem BeginsNumber.clear {text : List Char} (h : BeginsNumber text) : Layout.Clear text := by
  rcases h with h | ⟨rest, rfl, -⟩
  · cases text with
    | nil => cases h
    | cons c text => exact clear_of_isWordChar (isWordChar_of_isDigit h)
  · exact clear_of_ne (by decide) (by decide)

/-- Where a number begins, a number is read. -/
theorem BeginsNumber.front_eq {text : List Char} (h : BeginsNumber text) :
    front text = some (ofNumber text) := by
  rcases h with h | ⟨rest, rfl, h⟩
  · cases text with
    | nil => cases h
    | cons c text => exact front_number (.inl h)
  · exact front_number (.inr ⟨rfl, h⟩)

theorem BeginsNumber.ne_nil {text : List Char} (h : BeginsNumber text) : text ≠ [] := by
  rintro rfl
  rcases h with h | ⟨rest, h, -⟩ <;> cases h

theorem startsWithDigit_append {row : List Char} (h : startsWithDigit row = true)
    (after : List Char) : startsWithDigit (row ++ after) = true := by
  cases row with
  | nil => cases h
  | cons c row => exact h

theorem BeginsNumber.append {row : List Char} (h : BeginsNumber row) (after : List Char) :
    BeginsNumber (row ++ after) := by
  rcases h with h | ⟨rest, rfl, h⟩
  · exact .inl (startsWithDigit_append h after)
  · exact .inr ⟨rest ++ after, rfl, startsWithDigit_append h after⟩

end Lexeme

/-! ## The value of a number with a point -/

/-- The double nearest to what digits on the two sides of a point spell: all of them together,
over a power of ten. -/
def Numeral.nearestTo (whole fraction : List Char) : Float :=
  Binary64.ofMagnitude false (Binary64.nearest
    ⟨Nat.ofDigitChars 10 (whole ++ fraction) 0, 10 ^ fraction.length, Nat.pow_pos (by decide)⟩)

/-- The value that a number with a point is read with. -/
theorem Numeral.toFloat_fraction (whole fraction : List Char) :
    toFloat ⟨false, whole, fraction, 0⟩ = nearestTo whole fraction := by
  rw [toFloat, Decimal.toFloat, Decimal.nearest_eq, nearestTo]
  congr 1
  refine Binary64.nearest_congr ?_
  rw [Decimal.toRat_value, Decimal.toRat, decimal, Ratio.toRat, Decimal.ofDigits_eq_ofDigitChars,
    zero_sub, zpow_neg, zpow_natCast, ← div_eq_mul_inv]
  push_cast
  rfl

/-! ## All rows -/

namespace Scanner

open Lexeme

variable {row whole tail after : List Char}

/-- A row that cannot be read as a number is refused. -/
theorem refuses_of_ofNumber {e : Failure} (hfront : BeginsNumber row)
    (h : ofNumber (row ++ after) = .error e) (l : Location) :
    Refuses l (row ++ after) e.cause.tag (l.past ((row ++ after).take e.place)) := by
  have hbegins := hfront.append after
  exact refuses_of_front hbegins.clear (hbegins.front_eq.trans (congrArg some h)) l

/-- A row without a point. -/
theorem reads_whole (hrow : IsNumberRow row) (hfront : BeginsNumber row)
    (hafter : EndsNumber after) (hpoint : '.' ∉ row) (l : Location) :
    if Nat.ofDigitChars 10 row 0 ≤ 2 ^ 63 - 1 then
      ReadsAs l row after (.integer (Nat.ofDigitChars 10 row 0))
    else Refuses l (row ++ after) "INVALID_NUMBER_FORMAT" l := by
  have hdigits := hrow.forall_isDigit hpoint
  have hlimit : 2 ^ 63 - 1 = integerLimit := rfl
  rw [← Decimal.ofDigits_eq_ofDigitChars, hlimit]
  split
  · next hle =>
    have hspells := Spells.integer hfront.ne_nil hdigits hle
    exact readsAs_of_spells hspells (hafter.stops_integer _) l
  · next hgt =>
    have herror := ofNumber_outOfRange hdigits (fun c hc => (hafter c hc).1)
      (fun hc => (hafter '.' hc).2 rfl) (Nat.not_le.mp hgt)
    exact refuses_of_ofNumber hfront herror l

/-- A row with a point that a digit follows. -/
theorem reads_fraction (hrow : IsNumberRow (whole ++ '.' :: tail))
    (hfront : BeginsNumber (whole ++ '.' :: tail)) (hafter : EndsNumber after)
    (hwhole : '.' ∉ whole) (hdigit : startsWithDigit tail = true) (l : Location) :
    if '.' ∈ tail then Refuses l (whole ++ '.' :: tail ++ after) "INVALID_NUMBER_FORMAT" l
    else ReadsAs l (whole ++ '.' :: tail) after (.decimal (Numeral.nearestTo whole tail)) := by
  have hdigits := hrow.of_append_left.forall_isDigit hwhole
  split
  · next hpoint =>
    -- Digits stand between the two points, since there is one behind the first.
    obtain ⟨fraction, more, rfl, hfraction⟩ := hrow.of_cons.exists_cut hpoint
    have hne : fraction ≠ [] := by
      rintro rfl
      cases hdigit
    have htext : whole ++ '.' :: (fraction ++ '.' :: more) ++ after
        = whole ++ '.' :: (fraction ++ '.' :: (more ++ after)) := by simp
    exact refuses_of_ofNumber hfront
      (htext ▸ ofNumber_secondPoint hdigits hfraction hne) l
  · next hpoint =>
    have hne : tail ≠ [] := by
      rintro rfl
      cases hdigit
    have hspells := Spells.decimal hdigits (hrow.of_cons.forall_isDigit hpoint) hne
    rw [Numeral.toFloat_fraction] at hspells
    exact readsAs_of_spells hspells (hafter.stops_decimal _) l

/-- A row whose first point no digit follows. -/
theorem refuses_barePoint (hrow : IsNumberRow (whole ++ '.' :: tail))
    (hfront : BeginsNumber (whole ++ '.' :: tail)) (hafter : EndsNumber after)
    (hwhole : '.' ∉ whole) (hdigit : startsWithDigit tail = false) (l : Location) :
    Refuses l (whole ++ '.' :: tail ++ after) "INVALID_DECIMAL_FORMAT" (l.past whole) := by
  have hnext : ∀ c, (tail ++ after).head? = some c → c.isDigit = false := by
    cases tail with
    | nil => exact fun c hc => (hafter c hc).1
    | cons d tail => exact startsWithDigit_eq_false_iff.mp hdigit
  have herror := ofNumber_barePoint (hrow.of_append_left.forall_isDigit hwhole) hnext
  have htext : whole ++ '.' :: (tail ++ after) = whole ++ '.' :: tail ++ after := by simp
  rw [htext] at herror
  have hrefuses := refuses_of_ofNumber hfront herror l
  rw [List.append_assoc, List.take_left] at hrefuses
  rw [List.append_assoc]
  exact hrefuses

/-- **How a row of digits and points is read.** Without a point it is a whole number of at most
63 bits, or refused at its front. Behind a leading point no second one may stand. Elsewhere a
digit must follow the first point, which is refused itself if none does; then again no second
point may stand, and the row is refused at its front if one does. A row that is not refused is
one token, to its last character. -/
theorem tokensFrom_number (hrow : IsNumberRow row) (hfront : BeginsNumber row)
    (hafter : EndsNumber after) (l : Location) :
    ('.' ∉ row →
      if Nat.ofDigitChars 10 row 0 ≤ 2 ^ 63 - 1 then
        ReadsAs l row after (.integer (Nat.ofDigitChars 10 row 0))
      else Refuses l (row ++ after) "INVALID_NUMBER_FORMAT" l)
    ∧ (∀ tail, row = '.' :: tail →
      if '.' ∈ tail then Refuses l (row ++ after) "INVALID_NUMBER_FORMAT" l
      else ReadsAs l row after (.decimal (Numeral.nearestTo [] tail)))
    ∧ (∀ whole tail, row = whole ++ '.' :: tail → whole ≠ [] → '.' ∉ whole →
      if startsWithDigit tail = false then
        Refuses l (row ++ after) "INVALID_DECIMAL_FORMAT" (l.past whole)
      else if '.' ∈ tail then Refuses l (row ++ after) "INVALID_NUMBER_FORMAT" l
      else ReadsAs l row after (.decimal (Numeral.nearestTo whole tail))) := by
  refine ⟨fun hpoint => reads_whole hrow hfront hafter hpoint l, ?_, ?_⟩
  · rintro tail rfl
    -- A number begins at the point, so there is a digit behind it.
    have hdigit : startsWithDigit tail = true := by
      rcases hfront with h | ⟨rest, heq, h⟩
      · cases h
      · rwa [(List.cons.inj heq).2]
    have hnone : '.' ∉ ([] : List Char) := List.not_mem_nil
    exact reads_fraction hrow hfront hafter hnone hdigit l
  · rintro whole tail rfl - hwhole
    split
    · next hdigit => exact refuses_barePoint hrow hfront hafter hwhole hdigit l
    · next hdigit =>
      exact reads_fraction hrow hfront hafter hwhole (Bool.eq_true_of_not_eq_false hdigit) l

/-- With one point and a digit behind it, a row is read to where a semicolon ends it. -/
theorem tokensFrom_number_quarter :
    IsNumberRow "7.25".toList ∧ BeginsNumber "7.25".toList ∧ EndsNumber [';']
      ∧ ReadsAs .start "7.25".toList [';'] (.decimal 7.25) := by
  have hrow : IsNumberRow "7.25".toList := by simp [IsNumberRow]
  have hfront : BeginsNumber "7.25".toList := .inl rfl
  have hafter : EndsNumber [';'] := by
    rintro c ⟨⟩
    decide
  have hvalue : Numeral.nearestTo ['7'] ['2', '5'] = 7.25 := by decide
  have hread := (tokensFrom_number hrow hfront hafter .start).2.2 ['7'] ['2', '5'] rfl
    (List.cons_ne_nil _ _) (by decide)
  rw [if_neg (by decide), if_neg (by decide), hvalue] at hread
  exact ⟨hrow, hfront, hafter, hread⟩

end Scanner

end Lipi
