import Transact.Token.Basic

namespace Transact

structure Exponent where
  letter : Char
  sign : List Char
  digits : List Char

structure Numeral where
  whole : List Char
  fraction : Option (List Char)
  exponent : Option Exponent

namespace Exponent

def chars (e : Exponent) : List Char := e.letter :: e.sign ++ e.digits

/-- The exponent at the start of a text, with what follows it. A letter alone is taken too. -/
def read : List Char → Option Exponent × List Char
  | letter :: rest =>
    if letter = 'e' ∨ letter = 'E' then
      let sign := (rest.take 1).filter fun c => c = '+' ∨ c = '-'
      let rest := rest.drop sign.length
      (some ⟨letter, sign, rest.takeWhile Char.isDigit⟩, rest.dropWhile Char.isDigit)
    else (none, letter :: rest)
  | [] => (none, [])

def value (e : Exponent) : Int :=
  let size : Int := Nat.ofDigitChars 10 e.digits 0
  if e.sign = ['-'] then -size else size

end Exponent

namespace Numeral

def fractionChars : Option (List Char) → List Char
  | some digits => '.' :: digits
  | none => []

def exponentChars : Option Exponent → List Char
  | some e => e.chars
  | none => []

def chars (n : Numeral) : List Char :=
  n.whole ++ fractionChars n.fraction ++ exponentChars n.exponent

def readFraction : List Char → Option (List Char) × List Char
  | '.' :: rest => (some (rest.takeWhile Char.isDigit), rest.dropWhile Char.isDigit)
  | rest => (none, rest)

/-- The longest literal at the start of a text, with what follows it. -/
def read (source : List Char) : Numeral × List Char :=
  let (fraction, rest) := readFraction (source.dropWhile Char.isDigit)
  let (exponent, rest) := Exponent.read rest
  (⟨source.takeWhile Char.isDigit, fraction, exponent⟩, rest)

/-- The literal with a digit on either side of the point, as messages quote it. With an exponent
nothing is added after the point. -/
def completed (n : Numeral) : List Char :=
  let head := if n.whole.isEmpty then '0' :: n.chars else n.chars
  match n.fraction, n.exponent with
  | some [], none => head ++ ['0']
  | _, _ => head

/-- A whole number has the narrowest type that holds it. -/
def wholeValue? (digits : List Char) : Option (ConstantType × Value) :=
  let n := Nat.ofDigitChars 10 digits 0
  if n < Nat.pow 2 31 then some (.int, .int (Int32.ofNat n))
  else if n < Nat.pow 2 63 then some (.bigInt, .bigInt (Int64.ofNat n))
  else (Decimal.ofDigits? false digits []).map fun d => (.numeric, .numeric d)

/-- The type and the value of a literal; `none` when it is out of range or its exponent has no
digits. Only floating-point numbers are rounded. -/
def value? (n : Numeral) : Option (ConstantType × Value) :=
  match n.exponent, n.fraction with
  | some e, fraction =>
    let fraction := fraction.getD []
    if e.digits.isEmpty then none
    else
      let coefficient := Nat.ofDigitChars 10 (n.whole ++ fraction) 0
      (Binary64.Magnitude.ofScientific? coefficient (e.value - fraction.length)).map fun m =>
        (.real, .real (.finite false m))
  | none, some fraction =>
    let places := if fraction.isEmpty then ['0'] else fraction
    (Decimal.ofDigits? false n.whole places).map fun d => (.numeric, .numeric d)
  | none, none => wholeValue? n.whole

theorem fractionChars_readFraction (source : List Char) :
    fractionChars (readFraction source).1 ++ (readFraction source).2 = source := by
  unfold readFraction
  split
  · simp [fractionChars, List.takeWhile_append_dropWhile]
  · rfl

theorem exponentChars_read (source : List Char) :
    exponentChars (Exponent.read source).1 ++ (Exponent.read source).2 = source := by
  unfold Exponent.read
  split
  · split
    · rename_i letter rest _
      have hs : (rest.take 1).filter (fun c => c = '+' ∨ c = '-') ++
          rest.drop ((rest.take 1).filter fun c => c = '+' ∨ c = '-').length = rest := by
        cases rest with
        | nil => rfl
        | cons c rest => by_cases hc : c = '+' ∨ c = '-' <;> simp [hc]
      simp only [exponentChars, Exponent.chars, List.cons_append, List.append_assoc,
        List.takeWhile_append_dropWhile, hs]
    · rfl
  · rfl

/-- Reading splits the source. -/
theorem chars_read (source : List Char) : (read source).1.chars ++ (read source).2 = source := by
  simp only [read, chars, List.append_assoc]
  rw [exponentChars_read, fractionChars_readFraction, List.takeWhile_append_dropWhile]

end Numeral

end Transact
