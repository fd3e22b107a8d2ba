namespace Transact.Text.Utf8

/-- Bytes that are no text: the index of the first of them and their number. There is no number
when the input ends inside a character. -/
structure Fault where
  index : Nat
  length : Option Nat
  deriving DecidableEq

/-- A character of which some bytes are read: how many are owed, the bounds of the next one, the
bits so far and the number of bytes that gave them. -/
structure Partial where
  owed : Nat
  low : UInt8
  high : UInt8
  bits : Nat
  taken : Nat

namespace Partial

/-- What the first byte of a character of several bytes begins. The bounds of the second byte leave
out longer forms than needed, the surrogates and what is above the last code point. -/
def ofLead? (b : UInt8) : Option Partial :=
  if 0xC2 ≤ b ∧ b ≤ 0xDF then some ⟨1, 0x80, 0xBF, b.toNat % 32, 1⟩
  else if b = 0xE0 then some ⟨2, 0xA0, 0xBF, 0, 1⟩
  else if b = 0xED then some ⟨2, 0x80, 0x9F, 13, 1⟩
  else if 0xE1 ≤ b ∧ b ≤ 0xEF then some ⟨2, 0x80, 0xBF, b.toNat % 16, 1⟩
  else if b = 0xF0 then some ⟨3, 0x90, 0xBF, 0, 1⟩
  else if 0xF1 ≤ b ∧ b ≤ 0xF3 then some ⟨3, 0x80, 0xBF, b.toNat % 8, 1⟩
  else if b = 0xF4 then some ⟨3, 0x80, 0x8F, 4, 1⟩
  else none

def extend (p : Partial) (b : UInt8) : Partial :=
  ⟨p.owed - 1, 0x80, 0xBF, p.bits * 64 + b.toNat % 64, p.taken + 1⟩

end Partial

def decodeFrom (index : Nat) : Option Partial → List UInt8 → Except Fault (List Char)
  | none, [] => .ok []
  | some _, [] => .error ⟨index, none⟩
  | none, b :: bytes =>
    if b < 0x80 then (decodeFrom (index + 1) none bytes).map (Char.ofNat b.toNat :: ·)
    else
      match Partial.ofLead? b with
      | some p => decodeFrom index (some p) bytes
      | none => .error ⟨index, some 1⟩
  | some p, b :: bytes =>
    if p.low ≤ b ∧ b ≤ p.high then
      let q := p.extend b
      if q.owed = 0 then
        (decodeFrom (index + q.taken) none bytes).map (Char.ofNat q.bits :: ·)
      else decodeFrom index (some q) bytes
    else .error ⟨index, some p.taken⟩

def decode (bytes : List UInt8) : Except Fault String :=
  (decodeFrom 0 none bytes).map String.ofList

namespace Fault

def message (f : Fault) : String :=
  match f.length with
  | some n => s!"invalid utf-8 sequence of {n} bytes from index {f.index}"
  | none => s!"incomplete utf-8 byte sequence from index {f.index}"

end Fault

end Transact.Text.Utf8
