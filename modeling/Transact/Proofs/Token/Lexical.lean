import Transact.Proofs.Token.Constant
import Transact.Proofs.Token.Tile

namespace Transact

inductive Word.IsLexical : Word → Prop where
  | name {p : List Char} (h : Lexeme.IsName p) : IsLexical (Word.name (String.ofList p))
  | constant {c : Constant} (h : c.IsLiteral) : IsLexical c.word
  | mark (m : Mark) : IsLexical (Word.mark m)

namespace Numeral

theorem ofDigits?_eq_some {whole fraction : List Char} {d : Decimal}
    (h : Decimal.ofDigits? false whole fraction = some d) :
    d.negative = false ∧ d.coefficient = Nat.ofDigitChars 10 (whole ++ fraction) 0 ∧
      d.scale = fraction.length := by
  rw [Decimal.ofDigits?, Decimal.ofParts?] at h
  split at h
  · cases h
    exact ⟨rfl, rfl, rfl⟩
  · cases h

theorem isLexical_wholeValue {digits : List Char} {type : ConstantType} {value : Value}
    (h : wholeValue? digits = some (type, value)) : Word.IsLexical (.constant type, value) := by
  simp only [wholeValue?, Nat.pow_eq] at h
  split at h
  · rename_i hn
    cases h
    refine Word.IsLexical.constant (c := .int _) ?_
    rw [Constant.IsLiteral, Int32.toInt_ofNat_of_lt hn]
    exact Int.natCast_nonneg _
  · rename_i hn
    split at h
    · rename_i hn'
      cases h
      refine Word.IsLexical.constant (c := .bigInt _) ?_
      rw [Constant.IsLiteral, Int64.toInt_ofNat_of_lt hn']
      omega
    · rename_i hn'
      obtain ⟨d, hd, hw⟩ := Option.map_eq_some_iff.1 h
      cases hw
      obtain ⟨hneg, hc, -⟩ := ofDigits?_eq_some hd
      rw [List.append_nil] at hc
      exact Word.IsLexical.constant (c := .numeric d) ⟨hneg, fun _ => by omega⟩

theorem isLexical_value {n : Numeral} {type : ConstantType} {value : Value}
    (h : n.value? = some (type, value)) : Word.IsLexical (.constant type, value) := by
  simp only [value?] at h
  split at h
  · split at h
    · cases h
    · obtain ⟨m, -, hw⟩ := Option.map_eq_some_iff.1 h
      cases hw
      exact Word.IsLexical.constant (c := .real _) ⟨m, rfl⟩
  · obtain ⟨d, hd, hw⟩ := Option.map_eq_some_iff.1 h
    cases hw
    obtain ⟨hneg, -, hs⟩ := ofDigits?_eq_some hd
    refine Word.IsLexical.constant (c := .numeric d) ⟨hneg, fun h0 => ?_⟩
    rw [h0] at hs
    split at hs
    · cases hs
    · rename_i hne
      rw [List.isEmpty_iff] at hne
      exact absurd (List.length_eq_zero_iff.1 hs.symm) hne
  · exact isLexical_wholeValue h

end Numeral

theorem Lexeme.Spells.isLexical {text : List Char} {w : Word} (h : Spells text w)
    (hw : w.1.isComment = false) : w.IsLexical := by
  cases h with
  | name hn => exact .name hn
  | number hn hv => exact Numeral.isLexical_value hv
  | quoted text => exact Word.IsLexical.constant (c := .varchar text) trivial
  | nationalQuoted text => exact Word.IsLexical.constant (c := .nvarchar text) trivial
  | lineComment hb => cases hw
  | blockComment hb => cases hw
  | mark m => exact .mark m

theorem Cursor.isLexical_of_mem_tokens {c : Cursor} {t : Token} (h : t ∈ c.tokens.1) :
    t.kind.isComment = true ∨ t.word.IsLexical := by
  obtain ⟨tiles, -, hts, -⟩ := c.exists_tiles
  rw [hts] at h
  obtain ⟨tile, -, rfl⟩ := List.mem_map.1 h
  by_cases hk : tile.token.kind.isComment = true
  · exact .inl hk
  · exact .inr (tile.spells.isLexical (Bool.eq_false_iff.2 hk))

end Transact
