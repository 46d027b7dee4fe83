/-
Rows of decimal digits as numbers.

What a row spells is the usual fold from the left, a tenfold and a digit more at a
time, and `ofDigits_eq_foldl` says so. A row can have a million digits, though, and
the fold then multiplies a long number a million times. So neighbours are joined
instead: two digits become one digit in base a hundred, two of those one in base ten
thousand, and the last one left is the number. Joining neighbours does not change
what a row spells, and the long multiplications are few.
-/

set_option autoImplicit false

namespace Lipi.Decimal

/-- The value of a decimal digit. -/
def digitValue (c : Char) : Nat := c.toNat - '0'.toNat

/-- What digits of a base spell, the least significant first. -/
def spelled (base : Nat) : List Nat → Nat
  | [] => 0
  | d :: rest => d + base * spelled base rest

/-- Every two neighbours as one digit of the squared base. -/
def joinPairs (base : Nat) : List Nat → List Nat
  | low :: high :: rest => (low + base * high) :: joinPairs base rest
  | rest => rest

/-- Neighbours joined, round after round, until one digit is left. -/
def joined : (rounds base : Nat) → List Nat → Nat
  | _, _, [] => 0
  | _, _, [n] => n
  | 0, base, ds => spelled base ds
  | rounds + 1, base, ds => joined rounds (base * base) (joinPairs base ds)

/-- The number that a row of decimal digits spells; zero when there is none. -/
def ofDigits (digits : List Char) : Nat :=
  joined digits.length 10 (digits.reverse.map digitValue)

/-- Joining neighbours keeps what is spelled. -/
theorem spelled_joinPairs (base : Nat) (ds : List Nat) :
    spelled (base * base) (joinPairs base ds) = spelled base ds := by
  fun_induction joinPairs base ds with
  | case1 low high rest ih =>
    simp only [spelled, ih, Nat.mul_add, Nat.mul_assoc, Nat.add_assoc]
  | case2 ds short =>
    match ds, short with
    | [], _ => rfl
    | [_], _ => rfl
    | low :: high :: rest, short => exact absurd rfl (short low high rest)

theorem joined_eq_spelled (rounds base : Nat) (ds : List Nat) :
    joined rounds base ds = spelled base ds := by
  fun_induction joined rounds base ds with
  | case1 => rfl
  | case2 => rfl
  | case3 => rfl
  | case4 _ _ _ _ _ ih => rw [ih, spelled_joinPairs]

/-- A last digit counts once, and all before it ten times. -/
theorem ofDigits_append (digits : List Char) (c : Char) :
    ofDigits (digits ++ [c]) = ofDigits digits * 10 + digitValue c := by
  simp only [ofDigits, joined_eq_spelled, List.reverse_append, List.reverse_singleton,
    List.singleton_append, List.map_cons, spelled]
  omega

/-- The number is the fold of its digits from the left. -/
theorem ofDigits_eq_foldl (digits : List Char) :
    ofDigits digits = digits.foldl (fun n c => n * 10 + digitValue c) 0 := by
  have folded (ds : List Char) :
      ofDigits ds.reverse = ds.foldr (fun c n => n * 10 + digitValue c) 0 := by
    induction ds with
    | nil => rfl
    | cons c ds ih => rw [List.reverse_cons, ofDigits_append, ih, List.foldr_cons]
  rw [← List.reverse_reverse digits, folded, List.reverse_reverse, List.foldr_reverse]

end Lipi.Decimal
