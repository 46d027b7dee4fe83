/-
The fewest digits that read back.

A double is printed with as few significant digits as still determine it. For
one digit, then two, and so on, the two decimals with that many digits that
enclose the exact value are tried; the first count with one that reads back wins,
and of two that read back the nearer, a value half-way between them taking the
upper. Seventeen digits always suffice, but the search does not rest on that: if
it found nothing it would end with the exact decimal expansion, which every
double has. So whatever `shortest` answers reads back, by the way it is found.
-/
import Lipi.Decimal

set_option autoImplicit false

namespace Lipi.Decimal

/-- The greatest `e` with `10 ^ e` at most the quotient, found from the power of
two and corrected by one step either way; the quotient must not be zero. -/
def log10 (r : Ratio) : Int :=
  let guess : Int := r.log2 * 1233 / 4096
  if (Ratio.scaled 1 10 (guess + 1) base_pos).num * r.den
      ≤ r.num * (Ratio.scaled 1 10 (guess + 1) base_pos).den then guess + 1
  else if (Ratio.scaled 1 10 guess base_pos).num * r.den
      ≤ r.num * (Ratio.scaled 1 10 guess base_pos).den then guess
  else guess - 1

/-- The two multiples of `10 ^ unit` that enclose a quotient, the nearer first
and of two equally near the upper first. -/
def enclosing (r : Ratio) (unit : Int) : Decimal × Decimal :=
  let num := r.num * Nat.pow 10 (-unit).toNat
  let den := r.den * Nat.pow 10 unit.toNat
  let low : Decimal := ⟨num / den, unit⟩
  let high : Decimal := ⟨num / den + 1, unit⟩
  if 2 * (num % den) < den then (low, high) else (high, low)

/-- The first of the enclosing decimals that reads back as the given pattern. -/
def readingBack (bits : Nat) (unit : Int) : Option Decimal :=
  let (near, far) := enclosing (Binary64.value bits) unit
  if near.nearest = bits then some near
  else if far.nearest = bits then some far
  else none

/-- Tries ever finer units, `tries` of them. -/
def search (bits : Nat) (unit : Int) : Nat → Option Decimal
  | 0 => none
  | tries + 1 =>
    match readingBack bits unit with
    | some d => some d
    | none => search bits (unit - 1) tries

/-- The exact decimal expansion of a finite magnitude pattern. -/
def exact (bits : Nat) : Decimal :=
  let (m, e) := Binary64.decode bits
  ⟨m * Nat.pow 2 e.toNat * Nat.pow 5 (-e).toNat, min e 0⟩

/-- The fewest digits that read back as a finite magnitude pattern, without zeros
at the end. -/
def shortest (bits : Nat) : Decimal :=
  if bits = 0 then ⟨0, 0⟩
  else
    let found := (search bits (log10 (Binary64.value bits)) 17).getD (exact bits)
    trimmed found.coefficient found.exponent

end Lipi.Decimal
