namespace Transact

structure Decimal where
  negative : Bool
  coefficient : Nat
  scale : Nat
  coefficient_lt : coefficient < Nat.pow 2 96
  scale_le : scale ≤ 28
  deriving DecidableEq

namespace Decimal

def ofParts? (negative : Bool) (coefficient scale : Nat) : Option Decimal :=
  if h : coefficient < Nat.pow 2 96 ∧ scale ≤ 28 then
    some ⟨negative && coefficient != 0, coefficient, scale, h.1, h.2⟩
  else none

/-- The number written with these digits before and after the point. It is never rounded. -/
def ofDigits? (negative : Bool) (whole fraction : List Char) : Option Decimal :=
  ofParts? negative (Nat.ofDigitChars 10 (whole ++ fraction) 0) fraction.length

def digits (d : Decimal) : List Char :=
  let written := Nat.toDigits 10 d.coefficient
  List.replicate (d.scale + 1 - written.length) '0' ++ written

def chars (d : Decimal) : List Char :=
  let sign := if d.negative then ['-'] else []
  let whole := d.digits.take (d.digits.length - d.scale)
  let fraction := d.digits.drop (d.digits.length - d.scale)
  sign ++ whole ++ (if d.scale = 0 then [] else '.' :: fraction)

def toText (d : Decimal) : String := String.ofList d.chars

def signed (d : Decimal) : Int := if d.negative then -d.coefficient else d.coefficient

/-- Equality of values, whatever the scales. -/
def sameValue (a b : Decimal) : Bool :=
  a.signed * Nat.pow 10 b.scale == b.signed * Nat.pow 10 a.scale

theorem sameValue_refl (a : Decimal) : a.sameValue a = true := by simp [sameValue]

theorem le_length_digits (d : Decimal) : d.scale + 1 ≤ d.digits.length := by
  simp only [digits, List.length_append, List.length_replicate]
  omega

end Decimal

end Transact
