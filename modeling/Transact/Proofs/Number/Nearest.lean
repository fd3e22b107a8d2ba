import Mathlib.Algebra.Order.Field.Power
import Mathlib.Data.Rat.Cast.Order
import Mathlib.Tactic.FieldSimp
import Mathlib.Tactic.Linarith
import Mathlib.Tactic.NormNum
import Mathlib.Tactic.Positivity
import Mathlib.Tactic.Ring
import Transact.Number.Shortest

namespace Transact.Binary64.Magnitude

/-- The ratio has 53 bits before the point when it is divided by this power of two. -/
def IsOrder (r : ℚ) (x : ℤ) : Prop := 2 ^ 52 ≤ r / 2 ^ x ∧ r / 2 ^ x < 2 ^ 53

theorem IsOrder.le {r : ℚ} {x y : ℤ} (hx : IsOrder r x) (hy : IsOrder r y) : x ≤ y := by
  by_contra hlt
  have hxy : y + 1 ≤ x := by omega
  have hr : (2 : ℚ) ^ 52 * 2 ^ x ≤ r := (le_div_iff₀ (by positivity)).1 hx.1
  have hr' : r < (2 : ℚ) ^ 53 * 2 ^ y := (div_lt_iff₀ (by positivity)).1 hy.2
  have hp : (2 : ℚ) ^ (y + 1) ≤ 2 ^ x := zpow_le_zpow_right₀ (by norm_num) hxy
  rw [zpow_add_one₀ (by norm_num)] at hp
  linarith

theorem IsOrder.unique {r : ℚ} {x y : ℤ} (hx : IsOrder r x) (hy : IsOrder r y) : x = y :=
  le_antisymm (hx.le hy) (hy.le hx)

theorem scaled_pos {a b : Nat} (hb : 0 < b) (e : ℤ) : 0 < (scaled a b e).2 := by
  simp only [scaled]
  split
  · exact Nat.mul_pos hb (Nat.pow_pos (by norm_num))
  · exact hb

theorem scaled_div (a : Nat) {b : Nat} (hb : 0 < b) (e : ℤ) :
    ((scaled a b e).1 : ℚ) / (scaled a b e).2 = (a : ℚ) / b / 2 ^ e := by
  have hb' : (b : ℚ) ≠ 0 := by positivity
  simp only [scaled, Nat.pow_eq]
  split
  · rename_i he
    obtain ⟨k, rfl⟩ := Int.eq_ofNat_of_zero_le he
    push_cast
    rw [Int.toNat_natCast, zpow_natCast, div_div]
  · rename_i he
    obtain ⟨k, hk⟩ := Int.eq_ofNat_of_zero_le (show 0 ≤ -e by omega)
    obtain rfl : e = -k := by omega
    push_cast
    rw [neg_neg, Int.toNat_natCast, zpow_neg, zpow_natCast]
    field_simp

theorem div_lt_iff_scaled {a b : Nat} (hb : 0 < b) (e : ℤ) (n : Nat) :
    (scaled a b e).1 / (scaled a b e).2 < n ↔ (a : ℚ) / b / 2 ^ e < n := by
  have hd := scaled_pos (a := a) hb e
  rw [← scaled_div a hb e, Nat.div_lt_iff_lt_mul hd, div_lt_iff₀ (by positivity)]
  exact_mod_cast Iff.rfl

/-- The difference of the lengths of numerator and denominator tells the order up to one. -/
theorem guess_bounds {a b : Nat} (ha : 0 < a) (hb : 0 < b) :
    (2 : ℚ) ^ 52 ≤ (a : ℚ) / b / 2 ^ ((a.log2 : ℤ) - b.log2 - 53) ∧
      (a : ℚ) / b / 2 ^ ((a.log2 : ℤ) - b.log2 - 53) < 2 ^ 54 := by
  have hal : (2 : ℚ) ^ a.log2 ≤ a := by exact_mod_cast Nat.log2_self_le ha.ne'
  have hau : (a : ℚ) < 2 ^ (a.log2 + 1) := by exact_mod_cast Nat.lt_log2_self
  have hbl : (2 : ℚ) ^ b.log2 ≤ b := by exact_mod_cast Nat.log2_self_le hb.ne'
  have hbu : (b : ℚ) < 2 ^ (b.log2 + 1) := by exact_mod_cast Nat.lt_log2_self
  have hb' : (0 : ℚ) < b := by positivity
  have hp : (2 : ℚ) ^ ((a.log2 : ℤ) - b.log2 - 53) = 2 ^ a.log2 / 2 ^ b.log2 / 2 ^ 53 := by
    rw [zpow_sub₀ (by norm_num), zpow_sub₀ (by norm_num)]
    norm_cast
  have hA : (0 : ℚ) < 2 ^ a.log2 := by positivity
  have hB : (0 : ℚ) < 2 ^ b.log2 := by positivity
  rw [hp, div_div, div_div, le_div_iff₀ (by positivity), div_lt_iff₀ (by positivity)]
  rw [pow_succ] at hau hbu
  have h1 : (b : ℚ) * (2 ^ a.log2 / (2 ^ b.log2 * 2 ^ 53)) =
      b / 2 ^ b.log2 * (2 ^ a.log2 / 2 ^ 53) := by field_simp
  rw [h1]
  have h2 : (b : ℚ) / 2 ^ b.log2 < 2 := by
    rw [div_lt_iff₀ hB]
    linarith
  have h3 : 1 ≤ (b : ℚ) / 2 ^ b.log2 := by
    rw [le_div_iff₀ hB]
    linarith
  constructor
  · nlinarith
  · nlinarith

/-- The exponent is the order of the ratio, unless that is below the least exponent. -/
theorem exponentOf_eq {a b : Nat} (ha : 0 < a) (hb : 0 < b) {x : ℤ}
    (hx : IsOrder ((a : ℚ) / b) x) : exponentOf a b = max (-1074) x := by
  obtain ⟨hl, hu⟩ := guess_bounds ha hb
  simp only [exponentOf, Nat.pow_eq]
  congr 1
  have hlt := div_lt_iff_scaled (a := a) hb ((a.log2 : ℤ) - b.log2 - 53) (2 ^ 53)
  split
  · rename_i h
    have h' := hlt.1 h
    push_cast at h'
    exact IsOrder.unique ⟨hl, h'⟩ hx
  · rename_i h
    have h' := not_lt.1 (mt hlt.2 h)
    push_cast at h'
    refine IsOrder.unique ⟨?_, ?_⟩ hx
    · rw [zpow_add_one₀ (by norm_num), ← div_div, le_div_iff₀ (by norm_num)]
      linarith
    · rw [zpow_add_one₀ (by norm_num), ← div_div, div_lt_iff₀ (by norm_num)]
      linarith

theorem exists_isOrder {a b : Nat} (ha : 0 < a) (hb : 0 < b) : ∃ x, IsOrder ((a : ℚ) / b) x := by
  obtain ⟨hl, hu⟩ := guess_bounds ha hb
  by_cases h : (a : ℚ) / b / 2 ^ ((a.log2 : ℤ) - b.log2 - 53) < 2 ^ 53
  · exact ⟨_, hl, h⟩
  · refine ⟨(a.log2 : ℤ) - b.log2 - 53 + 1, ?_, ?_⟩
    · rw [zpow_add_one₀ (by norm_num), ← div_div, le_div_iff₀ (by norm_num)]
      linarith
    · rw [zpow_add_one₀ (by norm_num), ← div_div, div_lt_iff₀ (by norm_num)]
      linarith

theorem exponentOf_mul {a b c : Nat} (ha : 0 < a) (hb : 0 < b) (hc : 0 < c) :
    exponentOf (a * c) (b * c) = exponentOf a b := by
  obtain ⟨x, hx⟩ := exists_isOrder ha hb
  rw [exponentOf_eq ha hb hx]
  refine exponentOf_eq (Nat.mul_pos ha hc) (Nat.mul_pos hb hc) ?_
  rwa [Nat.cast_mul, Nat.cast_mul, mul_div_mul_right _ _ (by positivity)]

theorem scaled_mul (a b c : Nat) (e : ℤ) :
    scaled (a * c) (b * c) e = ((scaled a b e).1 * c, (scaled a b e).2 * c) := by
  simp only [scaled]
  split
  · rw [Nat.mul_right_comm]
  · rw [Nat.mul_right_comm]

theorem roundDiv_mul (a : Nat) {b c : Nat} (hc : 0 < c) :
    roundDiv (a * c) (b * c) = roundDiv a b := by
  have hlt : 2 * (a % b * c) < b * c ↔ 2 * (a % b) < b := by
    rw [← Nat.mul_assoc, Nat.mul_lt_mul_right hc]
  have heq : 2 * (a % b * c) = b * c ↔ 2 * (a % b) = b := by
    rw [← Nat.mul_assoc, Nat.mul_left_inj hc.ne']
  simp only [roundDiv, Nat.mul_div_mul_right _ _ hc, Nat.mul_mod_mul_right, hlt, Bool.or_eq_true,
    decide_eq_true_eq, Bool.and_eq_true, beq_iff_eq, heq]

/-- A common factor does not matter. -/
theorem nearest?_mul {a b c : Nat} (ha : 0 < a) (hb : 0 < b) (hc : 0 < c) :
    nearest? (a * c) (b * c) = nearest? a b := by
  simp only [nearest?, exponentOf_mul ha hb hc, scaled_mul, roundDiv_mul _ hc]

theorem roundDiv_exact (n : Nat) {d : Nat} (hd : 0 < d) : roundDiv (n * d) d = n := by
  simp [roundDiv, Nat.mul_div_cancel _ hd, hd]

theorem ratio_pos (m : Magnitude) : 0 < m.ratio.2 := by
  simp only [ratio]
  split
  · exact Nat.one_pos
  · exact Nat.pow_pos (by norm_num)

theorem ratio_div (m : Magnitude) :
    (m.ratio.1 : ℚ) / m.ratio.2 = m.mantissa * 2 ^ m.exponent := by
  simp only [ratio, Nat.pow_eq]
  split
  · rename_i he
    obtain ⟨k, hk⟩ := Int.eq_ofNat_of_zero_le he
    rw [hk, Int.toNat_natCast, zpow_natCast]
    push_cast
    rw [div_one]
  · rename_i he
    obtain ⟨k, hk⟩ := Int.eq_ofNat_of_zero_le (show 0 ≤ -m.exponent by omega)
    rw [show m.exponent = -k by omega, neg_neg, Int.toNat_natCast, zpow_neg, zpow_natCast]
    push_cast
    rw [div_eq_mul_inv]

theorem scaled_ratio (m : Magnitude) :
    ∃ d, 0 < d ∧ scaled m.ratio.1 m.ratio.2 m.exponent = (m.mantissa * d, d) := by
  simp only [ratio, scaled, Nat.pow_eq]
  split
  · exact ⟨2 ^ m.exponent.toNat, by positivity, by rw [one_mul]⟩
  · exact ⟨2 ^ (-m.exponent).toNat, by positivity, rfl⟩

theorem exponentOf_ratio {m : Magnitude} (hm : m.mantissa ≠ 0) :
    exponentOf m.ratio.1 m.ratio.2 = m.exponent := by
  have hb := m.ratio_pos
  have ha : 0 < m.ratio.1 := by
    simp only [ratio]
    split
    · exact Nat.mul_pos (Nat.pos_of_ne_zero hm) (Nat.pow_pos (by norm_num))
    · exact Nat.pos_of_ne_zero hm
  obtain ⟨hlt, hmin, -, hfull⟩ := m.stored
  simp only [Nat.pow_eq] at hlt hfull
  have hlt' : (m.mantissa : ℚ) < 2 ^ 53 := by exact_mod_cast hlt
  have hp : (0 : ℚ) < 2 ^ m.exponent := by positivity
  by_cases hn : 2 ^ 52 ≤ m.mantissa
  · rw [exponentOf_eq ha hb (x := m.exponent), max_eq_right hmin]
    rw [ratio_div, IsOrder, mul_div_cancel_right₀ _ hp.ne']
    exact ⟨by exact_mod_cast hn, hlt'⟩
  · obtain hn' | hmin' := hfull
    · exact absurd hn' hn
    · obtain ⟨x, hx⟩ := exists_isOrder ha hb
      rw [exponentOf_eq ha hb hx, hmin', max_eq_left]
      by_contra hgt
      have hle : (2 : ℚ) ^ m.exponent ≤ 2 ^ x :=
        zpow_le_zpow_right₀ (by norm_num) (by omega)
      have hr := (le_div_iff₀ (by positivity)).1 hx.1
      rw [ratio_div] at hr
      have hn' : (m.mantissa : ℚ) < 2 ^ 52 := by exact_mod_cast not_le.1 hn
      nlinarith

theorem nearest?_ratio {m : Magnitude} (hm : m.mantissa ≠ 0) :
    nearest? m.ratio.1 m.ratio.2 = some m := by
  obtain ⟨d, hd, hs⟩ := m.scaled_ratio
  simp only [nearest?, exponentOf_ratio hm, hs, roundDiv_exact _ hd, m.stored, dif_pos]

theorem toDigits_mul_pow {n : Nat} (hn : 0 < n) (k : Nat) :
    Nat.toDigits 10 (n * 10 ^ k) = Nat.toDigits 10 n ++ List.replicate k '0' := by
  induction k with
  | zero => simp
  | succ k ih =>
      have h := Nat.toDigits_append_toDigits (b := 10) (n := n * 10 ^ k) (d := 0) (by norm_num)
        (by positivity) (by norm_num)
      rw [pow_succ, ← mul_assoc, mul_comm (n * 10 ^ k), ← Nat.add_zero (10 * _), ← h, ih,
        Nat.toDigits_zero, List.append_assoc, ← List.replicate_one, ← List.replicate_add]

/-- A power of ten may stand in the coefficient or in the exponent. -/
theorem ofScientific?_mul_pow {n : Nat} (hn : 0 < n) (k : Nat) (e : ℤ) :
    ofScientific? (n * 10 ^ k) e = ofScientific? n (e + k) := by
  have hsize : ((Nat.toDigits 10 (n * 10 ^ k)).length : ℤ) + e =
      (Nat.toDigits 10 n).length + (e + k) := by
    rw [toDigits_mul_pow hn, List.length_append, List.length_replicate]
    push_cast
    ring
  have hne : n * 10 ^ k ≠ 0 := by positivity
  have hnearest : (if 0 ≤ e then nearest? (n * 10 ^ k * 10 ^ e.toNat) 1
      else nearest? (n * 10 ^ k) (10 ^ (-e).toNat)) =
      if 0 ≤ e + k then nearest? (n * 10 ^ (e + k).toNat) 1
      else nearest? n (10 ^ (-(e + k)).toNat) := by
    by_cases he : 0 ≤ e
    · rw [if_pos he, if_pos (by omega), show (e + k).toNat = k + e.toNat by omega, pow_add,
        mul_assoc]
    · rw [if_neg he]
      by_cases hk : 0 ≤ e + k
      · rw [if_pos hk]
        have hmul := nearest?_mul (a := n * 10 ^ (e + k).toNat) (b := 1) (c := 10 ^ (-e).toNat)
          (by positivity) (by norm_num) (by positivity)
        rw [← hmul, one_mul, mul_assoc, ← pow_add,
          show (e + k).toNat + (-e).toNat = k by omega]
      · rw [if_neg hk]
        have hmul := nearest?_mul (a := n) (b := 10 ^ (-(e + k)).toNat) (c := 10 ^ k) hn
          (by positivity) (by positivity)
        rw [← hmul, ← pow_add, show (-(e + k)).toNat + k = (-e).toNat by omega]
  simp only [ofScientific?, hsize, hne, hn.ne', decide_false, Bool.false_or, Nat.pow_eq, hnearest]

/-- Within the bounds of its size a decimal is the nearest magnitude to its ratio. -/
theorem ofScientific?_eq_nearest? {n : Nat} (hn : 0 < n) {e : ℤ}
    (hl : -330 ≤ (Nat.toDigits 10 n).length + e) (hu : (Nat.toDigits 10 n).length + e ≤ 330) :
    ofScientific? n e = if 0 ≤ e then nearest? (n * 10 ^ e.toNat) 1
      else nearest? n (10 ^ (-e).toNat) := by
  have hl' : ¬((Nat.toDigits 10 n).length + e < -330) := by omega
  have hu' : ¬(330 < (Nat.toDigits 10 n).length + e) := by omega
  simp only [ofScientific?, hn.ne', hl', hu', decide_false, Bool.or_self, Bool.false_eq_true,
    if_false, Nat.pow_eq]

/-- A magnitude without a fraction reads back from its digits. -/
theorem ofScientific?_whole {m : Magnitude} (hm : m.mantissa ≠ 0) (he : 0 ≤ m.exponent) :
    ofScientific? (m.mantissa * 2 ^ m.exponent.toNat) 0 = some m := by
  obtain ⟨hlt, -, hmax, -⟩ := m.stored
  have hn : 0 < m.mantissa * 2 ^ m.exponent.toNat :=
    Nat.mul_pos (Nat.pos_of_ne_zero hm) (by positivity)
  have hk : m.exponent.toNat ≤ 971 := by omega
  have hp : (2 : Nat) ^ m.exponent.toNat ≤ 2 ^ 971 := Nat.pow_le_pow_right two_pos hk
  have hlen : (Nat.toDigits 10 (m.mantissa * 2 ^ m.exponent.toNat)).length ≤ 330 := by
    rw [Nat.length_toDigits_le_iff (by norm_num) (by norm_num)]
    calc m.mantissa * 2 ^ m.exponent.toNat ≤ 2 ^ 53 * 2 ^ 971 := Nat.mul_le_mul hlt.le hp
      _ = (2 ^ 128) ^ 8 := by rw [← pow_add, ← pow_mul]
      _ ≤ (10 ^ 41) ^ 8 := Nat.pow_le_pow_left (by norm_num) 8
      _ = 10 ^ 328 := by rw [← pow_mul]
      _ < 10 ^ 330 := Nat.pow_lt_pow_right (by norm_num) (by norm_num)
  rw [ofScientific?_eq_nearest? hn (by omega) (by omega), if_pos le_rfl, Int.toNat_zero, pow_zero,
    mul_one]
  simpa only [ratio, if_pos he, Nat.pow_eq] using nearest?_ratio hm

/-- A magnitude with a fraction reads back from all its digits. -/
theorem ofScientific?_fraction {m : Magnitude} (hm : m.mantissa ≠ 0) (he : ¬0 ≤ m.exponent) :
    ofScientific? (m.mantissa * 5 ^ (-m.exponent).toNat) m.exponent = some m := by
  obtain ⟨hlt, hmin, -, -⟩ := m.stored
  obtain ⟨k, hk⟩ := Int.eq_ofNat_of_zero_le (show 0 ≤ -m.exponent by omega)
  have hpos := Nat.pos_of_ne_zero hm
  have hn : 0 < m.mantissa * 5 ^ k := Nat.mul_pos hpos (by positivity)
  -- The size of the decimal is within both bounds: a fraction has at most 1074 places, and a
  -- mantissa no more than 53 bits.
  have hl : k ≤ 330 + (Nat.toDigits 10 (m.mantissa * 5 ^ k)).length := by
    by_contra hlen
    obtain ⟨j, rfl⟩ : ∃ j, k = j + 1 + 330 := ⟨k - 331, by omega⟩
    have hshort := (Nat.length_toDigits_le_iff (n := m.mantissa * 5 ^ (j + 1 + 330)) (k := j + 1)
      (by norm_num : 1 < 10) (by omega)).1 (by omega)
    have hj : j + 1 ≤ 744 := by omega
    have h2 : (2 : Nat) ^ (j + 1) ≤ 2 ^ 744 := Nat.pow_le_pow_right two_pos hj
    have h5 : (2 : Nat) ^ 744 ≤ 5 ^ 330 :=
      calc 2 ^ 744 = (2 ^ 62) ^ 12 := by rw [← pow_mul]
        _ ≤ (5 ^ 27) ^ 12 := Nat.pow_le_pow_left (by norm_num) 12
        _ = 5 ^ 324 := by rw [← pow_mul]
        _ ≤ 5 ^ 330 := Nat.pow_le_pow_right (by norm_num) (by norm_num)
    have hle : 10 ^ (j + 1) ≤ m.mantissa * 5 ^ (j + 1 + 330) := by
      calc 10 ^ (j + 1) = 5 ^ (j + 1) * 2 ^ (j + 1) := by rw [← mul_pow]; norm_num
        _ ≤ 5 ^ (j + 1) * 5 ^ 330 := Nat.mul_le_mul_left _ (h2.trans h5)
        _ = 5 ^ (j + 1 + 330) := (pow_add 5 (j + 1) 330).symm
        _ ≤ m.mantissa * 5 ^ (j + 1 + 330) := Nat.le_mul_of_pos_left _ hpos
    omega
  have hcap : (2 : Nat) ^ 53 ≤ 10 ^ 330 :=
    calc 2 ^ 53 ≤ 10 ^ 16 := by norm_num
      _ ≤ 10 ^ 330 := Nat.pow_le_pow_right (by norm_num) (by norm_num)
  have hu : (Nat.toDigits 10 (m.mantissa * 5 ^ k)).length ≤ 330 + k := by
    rw [Nat.length_toDigits_le_iff (by norm_num) (by omega)]
    calc m.mantissa * 5 ^ k < 2 ^ 53 * 5 ^ k := Nat.mul_lt_mul_of_pos_right hlt (by positivity)
      _ ≤ 10 ^ 330 * 10 ^ k := Nat.mul_le_mul hcap (Nat.pow_le_pow_left (by norm_num) k)
      _ = 10 ^ (330 + k) := (pow_add 10 330 k).symm
  rw [hk, Int.toNat_natCast, ofScientific?_eq_nearest? hn (by omega) (by omega), if_neg he, hk,
    Int.toNat_natCast, show (10 : Nat) ^ k = 2 ^ k * 5 ^ k by rw [← mul_pow]; norm_num,
    nearest?_mul hpos (by positivity) (by positivity)]
  simpa only [ratio, if_neg he, Nat.pow_eq, hk, Int.toNat_natCast] using nearest?_ratio hm

theorem ofScientific?_zero_ne {m : Magnitude} (hm : m.mantissa ≠ 0) (e : Int) :
    ofScientific? 0 e ≠ some m := by
  intro h
  have hz : some zero = some m := h
  exact hm (by rw [← Option.some.inj hz]; rfl)

theorem exists_of_shortestOfLength {m : Magnitude} (hm : m.mantissa ≠ 0) {length : Nat} {d : Digits}
    (h : m.shortestOfLength length = some d) :
    ∃ n e, 0 < n ∧ d = Digits.ofScientific n e ∧ ofScientific? n e = some m := by
  simp only [shortestOfLength] at h
  split at h
  all_goals
    split at h
    · rename_i hr
      simp only [Bool.and_eq_true, beq_iff_eq] at hr
      cases h
      refine ⟨_, _, Nat.pos_of_ne_zero ?_, rfl, hr.1⟩
      intro h0
      exact ofScientific?_zero_ne hm _ (h0 ▸ hr.1)
    · split at h
      · rename_i hr
        rw [beq_iff_eq] at hr
        cases h
        exact ⟨_, _, Nat.succ_pos _, rfl, hr⟩
      · cases h

/-- The shortest decimal of a magnitude reads back as the magnitude. -/
theorem exists_shortest {m : Magnitude} (hm : m.mantissa ≠ 0) :
    ∃ n e, 0 < n ∧ m.shortest = Digits.ofScientific n e ∧ ofScientific? n e = some m := by
  rw [shortest, if_neg hm]
  cases hf : (List.range 17).findSome? fun n => m.shortestOfLength (n + 1) with
  | some d =>
      obtain ⟨n, -, hn⟩ := List.exists_of_findSome?_eq_some hf
      exact exists_of_shortestOfLength hm hn
  | none =>
      simp only [Option.getD_none, exact, Nat.pow_eq]
      split
      · rename_i he
        exact ⟨_, _, Nat.mul_pos (Nat.pos_of_ne_zero hm) (by positivity), rfl,
          ofScientific?_whole hm he⟩
      · rename_i he
        exact ⟨_, _, Nat.mul_pos (Nat.pos_of_ne_zero hm) (by positivity), rfl,
          ofScientific?_fraction hm he⟩

end Transact.Binary64.Magnitude
