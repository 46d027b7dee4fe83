/-
Doubles as exact numbers.

A finite double is a whole number times a power of two, so everything that must
be exact about doubles (which one is nearest to a quotient, what remains after a
division) is a computation on natural numbers. This file holds the two
directions. `decode` reads a magnitude's bit pattern as `mantissa * 2 ^ exponent`;
`nearest` finds the bit pattern of the double nearest to a quotient, a tie going
to the even pattern.

The patterns of non-negative doubles are in the order of their values, and
consecutive doubles have consecutive patterns, across the border from subnormal
to normal numbers and from one power of two to the next. `nearest` relies on
that: a mantissa that rounds up to `2 ^ 53` carries into the exponent field by
plain addition, and the carry past the largest double lands on the pattern of
infinity.
-/

set_option autoImplicit false

namespace Lipi

/-- A non-negative quotient of two natural numbers. -/
structure Ratio where
  num : Nat
  den : Nat
  den_pos : 0 < den

namespace Ratio

/-- `n * b ^ e` as a quotient, for a positive base. -/
def scaled (n b : Nat) (e : Int) (hb : 0 < b) : Ratio :=
  ⟨n * Nat.pow b e.toNat, Nat.pow b (-e).toNat, Nat.pow_pos hb⟩

/-- The whole number nearest to a quotient; of two equally near the even one. -/
def round (r : Ratio) : Nat :=
  let whole := r.num / r.den
  let rest := r.num % r.den
  if 2 * rest < r.den then whole
  else if 2 * rest = r.den then whole + whole % 2
  else whole + 1

/-- A quotient times a power of two. -/
def shift (r : Ratio) (e : Int) : Ratio :=
  ⟨r.num * Nat.pow 2 e.toNat, r.den * Nat.pow 2 (-e).toNat,
    Nat.mul_pos r.den_pos (Nat.two_pow_pos _)⟩

/-- The greatest `e` with `2 ^ e` at most the quotient, which must not be zero. -/
def log2 (r : Ratio) : Int :=
  let guess : Int := (r.num.log2 : Int) - (r.den.log2 : Int)
  let lowered := r.shift (-guess)
  if lowered.den ≤ lowered.num then guess else guess - 1

end Ratio

namespace Binary64

/-- The exponent of the smallest steps between doubles. -/
def lowestExponent : Int := -1074

/-- The bit above the fraction of a pattern, `2 ^ 52`: what a normal mantissa has
and its pattern leaves out. -/
def hiddenBit : Nat := 0x10000000000000

/-- The sign of a pattern, `2 ^ 63`. -/
def signBit : Nat := 0x8000000000000000

/-- The bit pattern of infinity; greater magnitudes are not numbers. -/
def infinity : Nat := 2047 * hiddenBit

/-- The pattern of a number's magnitude: its bits without the sign. -/
def magnitude (x : Float) : Nat := x.toBits.toNat % signBit

/-- Whether the sign bit is set, as it is for negative zero. -/
def isNegative (x : Float) : Bool := decide (signBit ≤ x.toBits.toNat)

/-- The number with a given sign and magnitude pattern. -/
def ofMagnitude (negative : Bool) (bits : Nat) : Float :=
  Float.ofBits (UInt64.ofNat (if negative then bits + signBit else bits))

/-- What `0 / 0` is. -/
def nan : Float := Float.ofBits 0x7FF8000000000000

/-- A finite magnitude pattern as mantissa and exponent of two. -/
def decode (bits : Nat) : Nat × Int :=
  let field := bits / hiddenBit
  let fraction := bits % hiddenBit
  if field = 0 then (fraction, lowestExponent)
  else (hiddenBit + fraction, lowestExponent + (field - 1 : Nat))

/-- The exact value of a finite magnitude pattern. -/
def value (bits : Nat) : Ratio :=
  Ratio.scaled (decode bits).1 2 (decode bits).2 (by decide)

/-- The magnitude pattern of the double nearest to a quotient, ties to even. -/
def nearest (r : Ratio) : Nat :=
  if r.num = 0 then 0
  else
    let exponent := max (r.log2 - 52) lowestExponent
    let mantissa := (r.shift (-exponent)).round
    min ((exponent - lowestExponent).toNat * hiddenBit + mantissa) infinity

/-- What remains of `x` after taking away as many whole `y` as fit, with the sign
of `x`. The result is always exact. Nothing is left to divide by when `y` is
zero, and an infinite `x` has no remainder. -/
def remainder (x y : Float) : Float :=
  if x.isNaN || y.isNaN || x.isInf || magnitude y == 0 then nan
  else if y.isInf then x
  else
    let (m, p) := decode (magnitude x)
    let (n, q) := decode (magnitude y)
    let unit := min p q
    let rest := (m * Nat.pow 2 (p - unit).toNat) % (n * Nat.pow 2 (q - unit).toNat)
    ofMagnitude (isNegative x) (nearest (Ratio.scaled rest 2 unit (by decide)))

end Binary64

end Lipi
