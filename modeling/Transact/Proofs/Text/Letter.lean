import Transact.Text.Caseless
import Transact.Unicode.Blank
import Transact.Unicode.Number

namespace Transact

namespace Text

theorem toNat_toLower (c : Char) : c.toLower.toNat =
    if 65 ≤ c.toNat ∧ c.toNat ≤ 90 then c.toNat + 32 else c.toNat := by
  delta Char.toLower Char.toNat
  simp only [ge_iff_le, UInt32.le_iff_toNat_le]
  split
  · rename_i h
    change 65 ≤ c.val.toNat ∧ c.val.toNat ≤ 90 at h
    have hd : ('a'.val - 'A'.val).toNat = 32 := rfl
    change (c.val + ('a'.val - 'A'.val)).toNat = _
    rw [UInt32.toNat_add, hd, if_pos h]
    omega
  · rename_i h
    exact (if_neg h).symm

theorem toNat_toUpper (c : Char) : c.toUpper.toNat =
    if 97 ≤ c.toNat ∧ c.toNat ≤ 122 then c.toNat - 32 else c.toNat := by
  delta Char.toUpper Char.toNat
  simp only [UInt32.le_iff_toNat_le]
  split
  · rename_i h
    change 97 ≤ c.val.toNat ∧ c.val.toNat ≤ 122 at h
    have hd : ('A'.val - 'a'.val).toNat = 2 ^ 32 - 32 := rfl
    change (c.val + ('A'.val - 'a'.val)).toNat = _
    rw [UInt32.toNat_add, hd, if_pos h]
    omega
  · rename_i h
    exact (if_neg h).symm

theorem toUpper_toLower (c : Char) : c.toLower.toUpper = c.toUpper := by
  rw [← Char.toNat_inj, toNat_toUpper, toNat_toUpper, toNat_toLower]
  grind

theorem toLower_toUpper (c : Char) : c.toUpper.toLower = c.toLower := by
  rw [← Char.toNat_inj, toNat_toLower, toNat_toLower, toNat_toUpper]
  grind

theorem upper_lower (text : String) : upper (lower text) = upper text := by
  simp only [lower, upper, String.toList_ofList, List.map_map]
  exact congrArg _ (List.map_congr_left fun c _ => toUpper_toLower c)

theorem lower_upper (text : String) : lower (upper text) = lower text := by
  simp only [lower, upper, String.toList_ofList, List.map_map]
  exact congrArg _ (List.map_congr_left fun c _ => toLower_toUpper c)

theorem sameWord_iff {a b : String} : sameWord a b = true ↔ upper a = upper b := by
  rw [sameWord, beq_iff_eq]
  constructor
  · intro h
    rw [← upper_lower a, h, upper_lower]
  · intro h
    rw [← lower_upper a, h, lower_upper]

end Text

namespace Unicode

theorem isAlpha_iff {c : Char} : c.isAlpha = true ↔
    65 ≤ c.toNat ∧ c.toNat ≤ 90 ∨ 97 ≤ c.toNat ∧ c.toNat ≤ 122 := by
  delta Char.isAlpha Char.isUpper Char.isLower
  simp only [Bool.or_eq_true, Bool.and_eq_true, decide_eq_true_eq, ge_iff_le,
    UInt32.le_iff_toNat_le]
  rfl

theorem isDigit_iff {c : Char} : c.isDigit = true ↔ 48 ≤ c.toNat ∧ c.toNat ≤ 57 := by
  simp only [Char.isDigit, Bool.and_eq_true, decide_eq_true_eq, ge_iff_le, UInt32.le_iff_toNat_le]
  rfl

theorem not_isBlank_of_lt {c : Char} (h : 32 < c.toNat) (hb : c.toNat < asciiBound) :
    isBlank c = false := by
  rw [asciiBound] at hb
  simp only [isBlank, Ranges.contains, blankRanges, List.any_cons, List.any_nil, Bool.or_false,
    Bool.or_eq_false_iff, Bool.and_eq_false_iff, decide_eq_false_iff_not]
  omega

theorem not_isBlank_of_isDigit {c : Char} (h : c.isDigit = true) : isBlank c = false := by
  have hc := isDigit_iff.1 h
  exact not_isBlank_of_lt (by omega) (Nat.lt_of_le_of_lt hc.2 (by decide))

theorem blankRanges_apart : ∀ b ∈ blankRanges, ∀ r ∈ alphabeticRanges, b.2 < r.1 ∨ r.2 < b.1 := by
  decide +kernel

theorem blankRanges_apart_numbers :
    ∀ b ∈ blankRanges, ∀ r ∈ numberRanges, b.2 < r.1 ∨ r.2 < b.1 := by
  decide +kernel

theorem not_isBlank_of_contains {ranges : Ranges} {c : Char}
    (h : ∀ b ∈ blankRanges, ∀ r ∈ ranges, b.2 < r.1 ∨ r.2 < b.1) (hc : ranges.contains c = true) :
    isBlank c = false := by
  rw [Bool.eq_false_iff]
  intro hb
  obtain ⟨b, hb, hfirst, hlast⟩ := (Ranges.contains_iff _ c).1 hb
  obtain ⟨r, hr, hfirst', hlast'⟩ := (Ranges.contains_iff _ c).1 hc
  obtain ha | ha := h b hb r hr <;> omega

theorem not_isBlank_of_isAlphabetic {c : Char} (h : isAlphabetic c = true) : isBlank c = false := by
  rw [isAlphabetic] at h
  split at h
  · rename_i hb
    have hc := isAlpha_iff.1 h
    exact not_isBlank_of_lt (by omega) hb
  · exact not_isBlank_of_contains blankRanges_apart h

theorem not_isBlank_of_isNumber {c : Char} (h : isNumber c = true) : isBlank c = false := by
  rw [isNumber] at h
  split at h
  · exact not_isBlank_of_isDigit h
  · exact not_isBlank_of_contains blankRanges_apart_numbers h

theorem not_isDigit_of_isAlphabetic {c : Char} (h : isAlphabetic c = true) :
    c.isDigit = false := by
  rw [Bool.eq_false_iff]
  intro hd
  have hc := isDigit_iff.1 hd
  have hb : c.toNat < asciiBound := Nat.lt_of_le_of_lt hc.2 (by decide)
  rw [isAlphabetic, if_pos hb] at h
  have ha := isAlpha_iff.1 h
  omega

end Unicode

end Transact
