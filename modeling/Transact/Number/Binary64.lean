namespace Transact

namespace Binary64

/-- A magnitude is stored with 53 bits of mantissa, or with fewer at the least exponent. -/
def Stored (mantissa : Nat) (exponent : Int) : Prop :=
  mantissa < Nat.pow 2 53 ∧ -1074 ≤ exponent ∧ exponent ≤ 971 ∧
    (Nat.pow 2 52 ≤ mantissa ∨ exponent = -1074)

instance (mantissa : Nat) (exponent : Int) : Decidable (Stored mantissa exponent) :=
  inferInstanceAs (Decidable (_ ∧ _))

structure Magnitude where
  mantissa : Nat
  exponent : Int
  stored : Stored mantissa exponent
  deriving DecidableEq

end Binary64

inductive Binary64 where
  | finite (negative : Bool) (magnitude : Binary64.Magnitude)
  | infinite (negative : Bool)
  | nan
  deriving DecidableEq

namespace Binary64

namespace Magnitude

def zero : Magnitude := ⟨0, -1074, by decide⟩

def ratio (m : Magnitude) : Nat × Nat :=
  if 0 ≤ m.exponent then (m.mantissa * Nat.pow 2 m.exponent.toNat, 1)
  else (m.mantissa, Nat.pow 2 (-m.exponent).toNat)

/-- The quotient rounded to the nearest natural number, a tie to the even one. -/
def roundDiv (a b : Nat) : Nat :=
  let q := a / b
  let r := a % b
  if 2 * r < b || (2 * r == b && q % 2 == 0) then q else q + 1

def scaled (a b : Nat) (exponent : Int) : Nat × Nat :=
  if 0 ≤ exponent then (a, b * Nat.pow 2 exponent.toNat)
  else (a * Nat.pow 2 (-exponent).toNat, b)

def exponentOf (a b : Nat) : Int :=
  let guess : Int := (a.log2 : Int) - b.log2 - 53
  let (c, d) := scaled a b guess
  max (-1074) (if c / d < Nat.pow 2 53 then guess else guess + 1)

/-- The magnitude nearest to `a / b`; `none` when that is beyond the greatest. -/
def nearest? (a b : Nat) : Option Magnitude :=
  let exponent := exponentOf a b
  let (c, d) := scaled a b exponent
  let mantissa := roundDiv c d
  if h : Stored mantissa exponent then some ⟨mantissa, exponent, h⟩
  else if h : mantissa = Nat.pow 2 53 ∧ Stored (Nat.pow 2 52) (exponent + 1) then
    some ⟨Nat.pow 2 52, exponent + 1, h.2⟩
  else none

/-- The magnitude nearest to `coefficient * 10 ^ exponent`. Sizes that are beyond the greatest or
vanish beside the least magnitude are settled without computing the power. -/
def ofScientific? (coefficient : Nat) (exponent : Int) : Option Magnitude :=
  let size := (Nat.toDigits 10 coefficient).length + exponent
  if coefficient = 0 || size < -330 then some zero
  else if 330 < size then none
  else if 0 ≤ exponent then nearest? (coefficient * Nat.pow 10 exponent.toNat) 1
  else nearest? coefficient (Nat.pow 10 (-exponent).toNat)

end Magnitude

/-- Equality of values: the two zeros are equal, and what is not a number equals nothing. -/
def sameValue : Binary64 → Binary64 → Bool
  | finite a m, finite b n => m == n && (a == b || m == Magnitude.zero)
  | infinite a, infinite b => a == b
  | _, _ => false

end Binary64

end Transact
