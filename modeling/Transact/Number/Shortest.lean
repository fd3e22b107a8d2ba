import Transact.Number.Binary64

namespace Transact.Binary64

/-- A decimal by its digits: `0.d₁d₂… * 10 ^ point`. -/
structure Digits where
  digits : List Char
  point : Int

namespace Digits

def ofScientific (coefficient : Nat) (exponent : Int) : Digits :=
  let written := Nat.toDigits 10 coefficient
  ⟨(written.reverse.dropWhile (· == '0')).reverse, written.length + exponent⟩

def zero : Digits := ⟨['0'], 1⟩

def exponential (d : Digits) : List Char :=
  let mantissa := match d.digits with
    | first :: second :: rest => first :: '.' :: second :: rest
    | short => short
  mantissa ++ 'e' :: (toString (d.point - 1)).toList

def positional (d : Digits) : List Char :=
  if d.point ≤ 0 then '0' :: '.' :: List.replicate (-d.point).toNat '0' ++ d.digits
  else
    let whole := d.point.toNat
    if d.digits.length ≤ whole then d.digits ++ List.replicate (whole - d.digits.length) '0'
    else d.digits.take whole ++ '.' :: d.digits.drop whole

end Digits

namespace Magnitude

/-- The `p` with `10 ^ p ≤ a / b < 10 ^ (p + 1)`, for a positive ratio. -/
def decimalOrder (a b : Nat) : Int :=
  if b ≤ a then (Nat.toDigits 10 (a / b)).length - 1
  else -(Nat.toDigits 10 ((b - 1) / a)).length

/-- Of the two decimals of `length` digits around the magnitude, the one that reads back; when both
do, the nearer, and the greater of two that are equally near. -/
def shortestOfLength (m : Magnitude) (length : Nat) : Option Digits :=
  let (a, b) := m.ratio
  let exponent := decimalOrder a b - length + 1
  let (c, d) := if 0 ≤ exponent then (a, b * Nat.pow 10 exponent.toNat)
    else (a * Nat.pow 10 (-exponent).toNat, b)
  let low := c / d
  let readsBack (n : Nat) := ofScientific? n exponent == some m
  let upper := 2 * (c % d) ≥ d
  if readsBack low && !(upper && readsBack (low + 1)) then some (.ofScientific low exponent)
  else if readsBack (low + 1) then some (.ofScientific (low + 1) exponent)
  else none

def exact (m : Magnitude) : Digits :=
  if 0 ≤ m.exponent then .ofScientific (m.mantissa * Nat.pow 2 m.exponent.toNat) 0
  else .ofScientific (m.mantissa * Nat.pow 5 (-m.exponent).toNat) m.exponent

/-- The fewest digits that read back as the magnitude. Seventeen are always enough. -/
def shortest (m : Magnitude) : Digits :=
  if m.mantissa = 0 then .zero
  else ((List.range 17).findSome? fun n => m.shortestOfLength (n + 1)).getD m.exact

end Magnitude

def write (form : Digits → List Char) : Binary64 → String
  | finite negative m => String.ofList ((if negative then ['-'] else []) ++ form m.shortest)
  | infinite negative => if negative then "-inf" else "inf"
  | nan => "NaN"

def exponential : Binary64 → String := write Digits.exponential

def positional : Binary64 → String := write Digits.positional

end Transact.Binary64
