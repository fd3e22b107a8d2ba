import Transact.Layout.Statement
import Transact.Proofs.Number.Nearest
import Transact.Proofs.Token.Literal

namespace Transact

namespace Constant

def word : Constant → Word
  | int number => (.constant .int, .int number)
  | bigInt number => (.constant .bigInt, .bigInt number)
  | numeric number => (.constant .numeric, .numeric number)
  | real number => (.constant .real, .real number)
  | varchar text => (.constant .varchar, .text text)
  | nvarchar text => (.constant .nvarchar, .text text)

theorem word_kind (c : Constant) : ∃ type value, c.word = (.constant type, value) := by
  cases c <;> exact ⟨_, _, rfl⟩

/-- Whether a literal can be of this constant. Numbers have no sign, and a whole number has the
narrowest type that holds it. -/
def IsLiteral : Constant → Prop
  | int number => 0 ≤ number.toInt
  | bigInt number => 2 ^ 31 ≤ number.toInt
  | numeric number => number.negative = false ∧ (number.scale = 0 → 2 ^ 63 ≤ number.coefficient)
  | real number => ∃ m, number = .finite false m
  | varchar _ | nvarchar _ => True

end Constant

namespace Numeral

def ofNat (n : Nat) : Numeral := ⟨Nat.toDigits 10 n, none, none⟩

theorem wellFormed_ofNat (n : Nat) : (ofNat n).WellFormed where
  digits := .inl Nat.toDigits_ne_nil
  whole := fun _ hc => Nat.isDigit_of_mem_toDigits (by decide) (by decide) hc
  fraction := nofun
  exponent := nofun

theorem chars_ofNat (n : Nat) : (ofNat n).chars = Nat.toDigits 10 n := by
  simp [ofNat, chars, fractionChars, exponentChars]

theorem wholeValue?_int {number : Int32} (h : 0 ≤ number.toInt) :
    wholeValue? (Nat.toDigits 10 number.toInt.toNat) = some (.int, .int number) := by
  have hlt := number.toInt_lt
  have hn : number.toInt.toNat < 2 ^ 31 := by omega
  have he : Int32.ofNat number.toInt.toNat = number := by
    rw [← Int32.ofInt_eq_ofNat, Int.toNat_of_nonneg h, Int32.ofInt_toInt]
  simp only [wholeValue?, Nat.ofDigitChars_ten_toDigits, Nat.pow_eq, if_pos hn, he]

theorem wholeValue?_bigInt {number : Int64} (h : 2 ^ 31 ≤ number.toInt) :
    wholeValue? (Nat.toDigits 10 number.toInt.toNat) = some (.bigInt, .bigInt number) := by
  have hlt := number.toInt_lt
  have hn : ¬number.toInt.toNat < 2 ^ 31 := by omega
  have hn' : number.toInt.toNat < 2 ^ 63 := by omega
  have he : Int64.ofNat number.toInt.toNat = number := by
    rw [← Int64.ofInt_eq_ofNat, Int.toNat_of_nonneg (by omega), Int64.ofInt_toInt]
  simp only [wholeValue?, Nat.ofDigitChars_ten_toDigits, Nat.pow_eq, if_neg hn, if_pos hn', he]

theorem toList_toString {z : Int} (h : 0 ≤ z) :
    (toString z).toList = Nat.toDigits 10 z.toNat := by
  obtain ⟨n, rfl⟩ := Int.eq_ofNat_of_zero_le h
  exact Nat.toList_repr

def ofDecimal (d : Decimal) : Numeral :=
  ⟨d.digits.take (d.digits.length - d.scale), some (d.digits.drop (d.digits.length - d.scale)),
   none⟩

theorem isDigit_of_mem_digits {d : Decimal} {c : Char} (h : c ∈ d.digits) : c.isDigit = true := by
  simp only [Decimal.digits, List.mem_append, List.mem_replicate] at h
  obtain ⟨-, rfl⟩ | h := h
  · rfl
  · exact Nat.isDigit_of_mem_toDigits (by decide) (by decide) h

theorem wellFormed_ofDecimal (d : Decimal) : (ofDecimal d).WellFormed where
  digits := .inl <| by
    have h := d.le_length_digits
    rw [← List.length_pos_iff]
    simp only [ofDecimal, List.length_take]
    omega
  whole := fun _ hc => isDigit_of_mem_digits (List.mem_of_mem_take hc)
  fraction := by
    rintro f ⟨⟩ c hc
    exact isDigit_of_mem_digits (List.mem_of_mem_drop hc)
  exponent := nofun

/-- The digits of a decimal, wherever the point stands among them, spell its coefficient. -/
theorem ofDigits?_digits {d : Decimal} {whole fraction : List Char} (hn : d.negative = false)
    (h : whole ++ fraction = d.digits) (hf : fraction.length = d.scale) :
    Decimal.ofDigits? false whole fraction = some d := by
  have hv : Nat.ofDigitChars 10 (whole ++ fraction) 0 = d.coefficient := by
    rw [h, Decimal.digits, Nat.ofDigitChars_append, Nat.ofDigitChars_replicate_zero, Nat.mul_zero,
      Nat.ofDigitChars_ten_toDigits]
  obtain ⟨negative, coefficient, scale, hc, hs⟩ := d
  cases hn
  simp only at hv hf
  rw [Decimal.ofDigits?, hv, hf, Decimal.ofParts?, dif_pos ⟨hc, hs⟩]
  rfl

theorem value?_ofDecimal {d : Decimal} (hn : d.negative = false) (hs : d.scale ≠ 0) :
    (ofDecimal d).value? = some (.numeric, .numeric d) := by
  have hle := d.le_length_digits
  have hlen : (d.digits.drop (d.digits.length - d.scale)).length = d.scale := by
    rw [List.length_drop]
    omega
  have hne : (d.digits.drop (d.digits.length - d.scale)).isEmpty = false := by
    rw [List.isEmpty_eq_false_iff, ← List.length_pos_iff, hlen]
    omega
  simp only [value?, ofDecimal, hne, Bool.false_eq_true, if_false]
  rw [ofDigits?_digits hn (List.take_append_drop _ _) hlen]
  rfl

theorem wholeValue?_numeric {d : Decimal} (hn : d.negative = false) (hs : d.scale = 0)
    (hc : 2 ^ 63 ≤ d.coefficient) :
    wholeValue? (Nat.toDigits 10 d.coefficient) = some (.numeric, .numeric d) := by
  have hd : Nat.toDigits 10 d.coefficient ++ [] = d.digits := by
    have hpos : 0 < (Nat.toDigits 10 d.coefficient).length := Nat.length_toDigits_pos
    rw [List.append_nil, Decimal.digits, hs, show 0 + 1 - _ = 0 by omega]
    rfl
  have h31 : ¬d.coefficient < 2 ^ 31 := by omega
  have h63 : ¬d.coefficient < 2 ^ 63 := by omega
  simp only [wholeValue?, Nat.ofDigitChars_ten_toDigits, Nat.pow_eq, if_neg h31, if_neg h63]
  rw [ofDigits?_digits hn hd hs.symm]
  rfl

theorem chars_decimal {d : Decimal} (hn : d.negative = false) :
    d.chars = if d.scale = 0 then Nat.toDigits 10 d.coefficient else (ofDecimal d).chars := by
  have hpos : 0 < (Nat.toDigits 10 d.coefficient).length := Nat.length_toDigits_pos
  simp only [Decimal.chars, hn, Bool.false_eq_true, if_false, List.nil_append]
  split
  · rename_i hs
    rw [hs, Nat.sub_zero, List.take_length, List.append_nil, Decimal.digits, hs,
      show 0 + 1 - _ = 0 by omega]
    rfl
  · simp [chars, ofDecimal, fractionChars, exponentChars]

def exponentOf (z : Int) : Exponent :=
  ⟨'e', if z < 0 then ['-'] else [], Nat.toDigits 10 z.natAbs⟩

theorem toList_repr_int (z : Int) :
    z.repr.toList = (exponentOf z).sign ++ (exponentOf z).digits := by
  cases z with
  | ofNat n =>
      have h : ¬Int.ofNat n < 0 := by simp
      simp only [exponentOf, if_neg h, List.nil_append]
      exact Nat.toList_repr
  | negSucc n =>
      have h : Int.negSucc n < 0 := Int.negSucc_lt_zero n
      change ("-" ++ (n + 1).repr).toList = _
      simp only [exponentOf, if_pos h, String.toList_append, Nat.toList_repr]
      rfl

theorem value_exponentOf (z : Int) : (exponentOf z).value = z := by
  simp only [Exponent.value, exponentOf, Nat.ofDigitChars_ten_toDigits]
  by_cases h : z < 0
  · rw [if_pos h, if_pos rfl, Int.ofNat_natAbs_of_nonpos (by omega), Int.neg_neg]
  · rw [if_neg h, if_neg nofun, Int.natAbs_of_nonneg (by omega)]

def ofDigits (first : Char) (rest : List Char) (z : Int) : Numeral :=
  ⟨[first], if rest = [] then none else some rest, some (exponentOf z)⟩

theorem wellFormed_ofDigits {first : Char} {rest : List Char} (z : Int)
    (h : ∀ c ∈ first :: rest, c.isDigit = true) : (ofDigits first rest z).WellFormed where
  digits := .inl nofun
  whole := fun c hc => h c (List.mem_cons.2 (.inl (List.mem_singleton.1 hc)))
  fraction := by
    intro f hf c hc
    simp only [ofDigits] at hf
    split at hf
    · cases hf
    · cases hf
      exact h c (List.mem_cons_of_mem _ hc)
  exponent := by
    rintro e ⟨⟩
    refine ⟨.inl rfl, ?_, Nat.toDigits_ne_nil, fun c hc =>
      Nat.isDigit_of_mem_toDigits (by decide) (by decide) hc⟩
    simp only [exponentOf]
    split
    · exact .inr (.inr rfl)
    · exact .inl rfl

theorem chars_ofDigits (first : Char) (rest : List Char) (point : Int) :
    (Binary64.Digits.exponential ⟨first :: rest, point⟩) =
      (ofDigits first rest (point - 1)).chars := by
  have hz := toList_repr_int (point - 1)
  cases rest with
  | nil =>
      simp [Binary64.Digits.exponential, ofDigits, chars, fractionChars, exponentChars,
        Exponent.chars, hz]
      rfl
  | cons second rest =>
      simp [Binary64.Digits.exponential, ofDigits, chars, fractionChars, exponentChars,
        Exponent.chars, hz]
      rfl

theorem value?_ofDigits (first : Char) (rest : List Char) (z : Int) :
    (ofDigits first rest z).value? =
      (Binary64.Magnitude.ofScientific? (Nat.ofDigitChars 10 (first :: rest) 0)
        (z - rest.length)).map fun m => (.real, .real (.finite false m)) := by
  have hne : (exponentOf z).digits.isEmpty = false := by
    rw [List.isEmpty_eq_false_iff]
    exact Nat.toDigits_ne_nil
  cases rest with
  | nil => simp [value?, ofDigits, hne, value_exponentOf]
  | cons second rest => simp [value?, ofDigits, hne, value_exponentOf]

theorem exists_stripped {n : Nat} (hn : 0 < n) (e : Int) :
    ∃ (first : Char) (rest : List Char) (k : Nat),
      Binary64.Digits.ofScientific n e = ⟨first :: rest, (rest.length + 1 + k : Nat) + e⟩ ∧
      (∀ c ∈ first :: rest, c.isDigit = true) ∧
      n = Nat.ofDigitChars 10 (first :: rest) 0 * 10 ^ k := by
  have hsplit : ∃ k, Nat.toDigits 10 n =
      ((Nat.toDigits 10 n).reverse.dropWhile (· == '0')).reverse ++ List.replicate k '0' := by
    have hzeros : ∀ c ∈ (Nat.toDigits 10 n).reverse.takeWhile (· == '0'), c = '0' := fun c hc =>
      beq_iff_eq.1 (List.all_eq_true.1 List.all_takeWhile c hc)
    refine ⟨((Nat.toDigits 10 n).reverse.takeWhile (· == '0')).length, List.reverse_injective ?_⟩
    rw [List.reverse_append, List.reverse_reverse, List.reverse_replicate,
      ← List.eq_replicate_of_mem hzeros, List.takeWhile_append_dropWhile]
  obtain ⟨k, hk⟩ := hsplit
  have hdigits : ∀ c ∈ Nat.toDigits 10 n, c.isDigit = true := fun c hc =>
    Nat.isDigit_of_mem_toDigits (by decide) (by decide) hc
  have hvalue : Nat.ofDigitChars 10 (Nat.toDigits 10 n) 0 = n := Nat.ofDigitChars_ten_toDigits
  simp only [Binary64.Digits.ofScientific]
  generalize ((Nat.toDigits 10 n).reverse.dropWhile (· == '0')).reverse = stripped at hk
  rw [hk] at hdigits hvalue
  rw [Nat.ofDigitChars_append, Nat.ofDigitChars_replicate_zero] at hvalue
  cases stripped with
  | nil =>
      rw [Nat.ofDigitChars_nil, Nat.mul_zero] at hvalue
      omega
  | cons first rest =>
      refine ⟨first, rest, k, ?_, fun c hc => hdigits c (List.mem_append_left _ hc), ?_⟩
      · rw [hk, List.length_append, List.length_replicate, List.length_cons]
      · rw [Nat.mul_comm]
        exact hvalue.symm

theorem exists_of_magnitude (m : Binary64.Magnitude) :
    ∃ n : Numeral, n.WellFormed ∧ n.chars = m.shortest.exponential ∧
      n.value? = some (.real, .real (.finite false m)) := by
  by_cases hm : m.mantissa = 0
  · have hz : m = .zero := by
      obtain ⟨mantissa, exponent, hs⟩ := m
      cases hm
      obtain ⟨-, -, -, hfull | rfl⟩ := hs
      · exact absurd hfull (by decide)
      · rfl
    subst hz
    exact ⟨ofDigits '0' [] 0, wellFormed_ofDigits 0 (by simp), rfl, rfl⟩
  · obtain ⟨n, e, hn, hs, hr⟩ := m.exists_shortest hm
    obtain ⟨first, rest, k, hd, hdigits, hv⟩ := exists_stripped hn e
    refine ⟨ofDigits first rest ((rest.length + 1 + k : Nat) + e - 1),
      wellFormed_ofDigits _ hdigits, ?_, ?_⟩
    · rw [hs, hd, chars_ofDigits]
    · have hpos : 0 < Nat.ofDigitChars 10 (first :: rest) 0 := by
        refine Nat.pos_of_ne_zero fun h0 => ?_
        rw [h0, Nat.zero_mul] at hv
        omega
      rw [value?_ofDigits, show ((rest.length + 1 + k : Nat) + e - 1 - rest.length : Int) = e + k by
        omega, ← Binary64.Magnitude.ofScientific?_mul_pow hpos, ← hv, hr]
      rfl

end Numeral

/-- The literal of a number without a sign is a numeral of its type and value. -/
theorem Constant.exists_numeral {c : Constant} {type : ConstantType} {value : Value}
    (h : c.IsLiteral) (hw : c.word = (.constant type, value)) (hv : type ≠ .varchar)
    (hn : type ≠ .nvarchar) :
    ∃ n : Numeral, n.WellFormed ∧ n.chars = c.literal.toList ∧ n.value? = some (type, value) := by
  cases c with
  | int number =>
      cases hw
      refine ⟨.ofNat number.toInt.toNat, Numeral.wellFormed_ofNat _, ?_,
        Numeral.wholeValue?_int h⟩
      rw [Numeral.chars_ofNat]
      exact (Numeral.toList_toString h).symm
  | bigInt number =>
      cases hw
      have hnonneg : 0 ≤ number.toInt := Int.le_trans (by decide) h
      refine ⟨.ofNat number.toInt.toNat, Numeral.wellFormed_ofNat _, ?_,
        Numeral.wholeValue?_bigInt h⟩
      rw [Numeral.chars_ofNat]
      exact (Numeral.toList_toString hnonneg).symm
  | numeric number =>
      cases hw
      have hc := Numeral.chars_decimal h.1
      rw [Constant.literal, Decimal.toText, String.toList_ofList, hc]
      by_cases hs : number.scale = 0
      · rw [if_pos hs, ← Numeral.chars_ofNat]
        exact ⟨_, Numeral.wellFormed_ofNat _, rfl, Numeral.wholeValue?_numeric h.1 hs (h.2 hs)⟩
      · rw [if_neg hs]
        exact ⟨_, Numeral.wellFormed_ofDecimal _, rfl, Numeral.value?_ofDecimal h.1 hs⟩
  | real number =>
      cases hw
      obtain ⟨m, rfl⟩ := h
      obtain ⟨n, hwf, hc, hv⟩ := Numeral.exists_of_magnitude m
      refine ⟨n, hwf, ?_, hv⟩
      rw [hc, Constant.literal, Binary64.exponential, Binary64.write, String.toList_ofList]
      rfl
  | varchar text =>
      cases hw
      exact absurd rfl hv
  | nvarchar text =>
      cases hw
      exact absurd rfl hn

theorem Constant.literal_cases {c : Constant} (h : c.IsLiteral) :
    (∃ text, c = .varchar text) ∨ (∃ text, c = .nvarchar text) ∨
      ∃ (n : Numeral) (type : ConstantType) (value : Value), c.word = (.constant type, value) ∧
        n.WellFormed ∧ n.chars = c.literal.toList ∧ n.value? = some (type, value) := by
  cases c with
  | varchar text => exact .inl ⟨text, rfl⟩
  | nvarchar text => exact .inr (.inl ⟨text, rfl⟩)
  | _ =>
      obtain ⟨n, hn⟩ := exists_numeral h rfl nofun nofun
      exact .inr (.inr ⟨n, _, _, rfl, hn⟩)

/-- The characters that no lexeme in front of them goes on with. -/
def Apart (cs : List Char) : Prop :=
  ∀ c, cs.head? = some c → c ∈ [' ', '\n', '(', ')', ',', ';']

theorem Reads.constant {c : Constant} {cs : List Char} {ws : List Word} (hl : c.IsLiteral)
    (ha : Apart cs) (h : Reads cs ws) : Reads (c.literal.toList ++ cs) (c.word :: ws) := by
  have hquote : cs.head? ≠ some '\'' := fun hc => absurd (ha _ hc) (by decide)
  obtain ⟨text, rfl⟩ | ⟨text, rfl⟩ | ⟨n, type, value, hw, hwf, hc, hv⟩ := Constant.literal_cases hl
  · exact .quoted text hquote h
  · exact .nationalQuoted text hquote h
  · rw [← hc, hw]
    refine .number hwf hv (fun c hcs => ?_) h
    have hm := ha c hcs
    simp only [List.mem_cons, List.not_mem_nil, or_false] at hm
    obtain rfl | rfl | rfl | rfl | rfl | rfl := hm <;> decide

end Transact
