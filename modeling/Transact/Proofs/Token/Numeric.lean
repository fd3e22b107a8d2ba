import Transact.Proofs.Token.Lexical
import Transact.Proofs.Token.Position

namespace Transact

def Decimal.Is (d : Decimal) (coefficient places : Nat) : Prop :=
  d.negative = false ∧ d.coefficient = coefficient ∧ d.scale = places

namespace Numeral

inductive GivesWhole (n : Nat) (text : List Char) (place : Place) :
    Except LexicalError Token → Prop where
  | int {i : Int32} (hn : n ≤ 2 ^ 31 - 1) (hi : i.toInt = n) :
      GivesWhole n text place (.ok ⟨.constant .int, place, .int i⟩)
  | bigInt {i : Int64} (hn : 2 ^ 31 - 1 < n) (hn' : n ≤ 2 ^ 63 - 1) (hi : i.toInt = n) :
      GivesWhole n text place (.ok ⟨.constant .bigInt, place, .bigInt i⟩)
  | numeric {d : Decimal} (hn : 2 ^ 63 - 1 < n) (hn' : n ≤ 2 ^ 96 - 1) (hd : d.Is n 0) :
      GivesWhole n text place (.ok ⟨.constant .numeric, place, .numeric d⟩)
  | tooLarge (hn : 2 ^ 96 - 1 < n) :
      GivesWhole n text place (.error ⟨.badNumber (String.ofList text), place⟩)

/-- What digits with a point give at a place, if the digits without the point make up `coefficient`
and `places` of them stand behind it. -/
inductive GivesDecimal (coefficient places : Nat) (text : List Char) (place : Place) :
    Except LexicalError Token → Prop where
  | numeric {d : Decimal} (hc : coefficient < 2 ^ 96) (hp : places ≤ 28)
      (hd : d.Is coefficient places) :
      GivesDecimal coefficient places text place (.ok ⟨.constant .numeric, place, .numeric d⟩)
  | tooLarge (h : ¬(coefficient < 2 ^ 96 ∧ places ≤ 28)) :
      GivesDecimal coefficient places text place
        (.error ⟨.badNumber (String.ofList text), place⟩)

/-- The digits on one side of a point, where no digits stand for a zero. -/
def orZero (digits : List Char) : List Char := if digits = [] then ['0'] else digits

variable {whole fraction cs text : List Char} {place : Place}
  {result : Except LexicalError Token}

theorem ofDigits?_eq_none (h : Decimal.ofDigits? false whole fraction = none) :
    ¬(Nat.ofDigitChars 10 (whole ++ fraction) 0 < 2 ^ 96 ∧ fraction.length ≤ 28) := by
  rw [Decimal.ofDigits?, Decimal.ofParts?] at h
  split at h
  · cases h
  · assumption

theorem decimal_is {d : Decimal} (h : Decimal.ofDigits? false whole fraction = some d) :
    d.Is (Nat.ofDigitChars 10 (whole ++ fraction) 0) fraction.length :=
  ofDigits?_eq_some h

theorem within_of_is {d : Decimal} {coefficient places : Nat} (h : d.Is coefficient places) :
    coefficient < 2 ^ 96 ∧ places ≤ 28 := by
  obtain ⟨-, rfl, rfl⟩ := h
  exact ⟨d.coefficient_lt, d.scale_le⟩

theorem givesWhole (hsome : ∀ type value, wholeValue? whole = some (type, value) →
      result = .ok ⟨.constant type, place, value⟩)
    (hnone : wholeValue? whole = none →
      result = .error ⟨.badNumber (String.ofList text), place⟩) :
    GivesWhole (Nat.ofDigitChars 10 whole 0) text place result := by
  simp only [wholeValue?, Nat.pow_eq] at hsome hnone
  split at hsome
  · rename_i hn
    rw [hsome _ _ rfl]
    exact .int (by omega) (Int32.toInt_ofNat_of_lt hn)
  · rename_i hint
    rw [if_neg hint] at hnone
    split at hsome
    · rename_i hn
      rw [hsome _ _ rfl]
      exact .bigInt (by omega) (by omega) (Int64.toInt_ofNat_of_lt hn)
    · rename_i hbig
      rw [if_neg hbig] at hnone
      cases hd : Decimal.ofDigits? false whole [] with
      | some d =>
          rw [hd] at hsome
          have his := decimal_is hd
          rw [List.append_nil] at his
          obtain ⟨hlt, -⟩ := within_of_is his
          rw [hsome _ _ rfl]
          exact .numeric (by omega) (by omega) his
      | none =>
          rw [hd] at hnone
          have hout := ofDigits?_eq_none hd
          rw [List.append_nil] at hout
          rw [hnone rfl]
          exact .tooLarge (by simp only [List.length_nil] at hout; omega)

theorem givesDecimal (hsome : ∀ type value,
      (Decimal.ofDigits? false whole fraction).map
        (fun d => (ConstantType.numeric, Value.numeric d)) = some (type, value) →
      result = .ok ⟨.constant type, place, value⟩)
    (hnone : (Decimal.ofDigits? false whole fraction).map
        (fun d => (ConstantType.numeric, Value.numeric d)) = none →
      result = .error ⟨.badNumber (String.ofList text), place⟩) :
    GivesDecimal (Nat.ofDigitChars 10 (whole ++ fraction) 0) fraction.length text place result := by
  cases hd : Decimal.ofDigits? false whole fraction with
  | some d =>
      rw [hd] at hsome
      obtain ⟨hlt, hle⟩ := within_of_is (decimal_is hd)
      rw [hsome _ _ rfl]
      exact .numeric hlt hle (decimal_is hd)
  | none =>
      rw [hd] at hnone
      rw [hnone rfl]
      exact .tooLarge (ofDigits?_eq_none hd)

theorem ofDigitChars_zeros (zeros : Nat) (digits : List Char) :
    Nat.ofDigitChars 10 (List.replicate zeros '0' ++ digits) 0 = Nat.ofDigitChars 10 digits 0 := by
  rw [Nat.ofDigitChars_append, Nat.ofDigitChars_replicate_zero, Nat.mul_zero]

theorem wellFormed_whole (hne : whole ≠ []) (h : ∀ x ∈ whole, x.isDigit = true) :
    WellFormed ⟨whole, none, none⟩ where
  digits := .inl hne
  whole := h
  fraction := nofun
  exponent := nofun

theorem chars_whole (whole : List Char) : chars ⟨whole, none, none⟩ = whole := by
  rw [chars, fractionChars, exponentChars, List.append_nil, List.append_nil]

theorem completed_whole (hne : whole ≠ []) : completed ⟨whole, none, none⟩ = whole := by
  rw [← List.isEmpty_eq_false_iff] at hne
  simp only [completed, hne, Bool.false_eq_true, if_false, chars_whole]

theorem isDigit_of_mem_zeros {zeros : Nat} (h : ∀ x ∈ whole, x.isDigit = true) :
    ∀ x ∈ List.replicate zeros '0' ++ whole, x.isDigit = true := by
  intro x hx
  obtain hx | hx := List.mem_append.1 hx
  · rw [List.eq_of_mem_replicate hx]
    rfl
  · exact h x hx

theorem wellFormed_point (hne : whole ++ fraction ≠ [])
    (h : ∀ x ∈ whole ++ fraction, x.isDigit = true) :
    WellFormed ⟨whole, some fraction, none⟩ where
  digits := by
    by_cases hw : whole = []
    · rw [hw] at hne
      exact .inr ⟨fraction, rfl, hne⟩
    · exact .inl hw
  whole := fun x hx => h x (List.mem_append_left _ hx)
  fraction := by
    rintro f ⟨⟩ x hx
    exact h x (List.mem_append_right _ hx)
  exponent := nofun

theorem chars_point (whole fraction : List Char) :
    chars ⟨whole, some fraction, none⟩ = whole ++ '.' :: fraction := by
  rw [chars, fractionChars, exponentChars, List.append_nil]

theorem completed_point (whole fraction : List Char) :
    completed ⟨whole, some fraction, none⟩ = orZero whole ++ '.' :: orZero fraction := by
  cases whole <;> cases fraction <;> simp [completed, chars_point, orZero]

theorem value?_point (whole fraction : List Char) :
    value? ⟨whole, some fraction, none⟩ =
      (Decimal.ofDigits? false whole (orZero fraction)).map fun d => (.numeric, .numeric d) := by
  cases fraction <;> rfl

theorem endsAt_point (h : ∀ x, cs.head? = some x → x.isDigit = false ∧ x ≠ 'e' ∧ x ≠ 'E') :
    EndsAt ⟨whole, some fraction, none⟩ cs where
  digits := fun x hx => (h x hx).1
  fraction := nofun
  exponent := fun _ => ⟨fun he => (h 'e' he).2.1 rfl, fun he => (h 'E' he).2.2 rfl⟩

theorem endsAt_whole (h : ∀ x, cs.head? = some x → x.isDigit = false ∧ x ≠ 'e' ∧ x ≠ 'E')
    (hp : cs.head? ≠ some '.') : EndsAt ⟨whole, none, none⟩ cs where
  digits := fun x hx => (h x hx).1
  fraction := fun _ _ => hp
  exponent := fun _ => ⟨fun he => (h 'e' he).2.1 rfl, fun he => (h 'E' he).2.2 rfl⟩

end Numeral

namespace Cursor

variable {c : Cursor} {blanks after : List Char}

theorem next_of_blanks {first : Char} {rest : List Char} (hc : c.rest = blanks ++ first :: rest)
    (hb : ∀ x ∈ blanks, Unicode.isBlank x = true) (hf : Unicode.isBlank first = false) :
    c.next = take ⟨c.place.advance blanks, first :: rest⟩ (Lexeme.read first rest) := by
  have hstop : ∀ y, (first :: rest).head? = some y → Unicode.isBlank y = false := by
    rintro y ⟨⟩
    exact hf
  simp only [next, skipBlanks, advance, hc, Lexeme.takeWhile_append_of_all hb hstop,
    Lexeme.dropWhile_append_of_all hb hstop]

/-- A character that is not blank stands where a digit would. -/
theorem ahead_eq_following {read : List Char} {first : Char}
    (hc : c.place = Place.start.advance read) (hf : Unicode.isBlank first = false)
    (blanks rest : List Char) :
    ahead ⟨c.place.advance blanks, first :: rest⟩ = .following (read ++ blanks) '0' := by
  have hplace : ahead ⟨c.place.advance blanks, first :: rest⟩ =
      (Place.start.advance (read ++ blanks)).next first := by
    rw [hc, Place.advance_append]
    rfl
  have hreturn : first ≠ '\r' := by
    rintro rfl
    revert hf
    decide
  rw [hplace, Place.next_advance_start _ (ne_newline_of_not_isBlank hf)]
  simp [Place.following, hreturn]

theorem next_numeral {n : Numeral} {read : List Char} (hn : n.WellFormed) (ha : n.EndsAt after)
    (hplace : c.place = Place.start.advance read) (hc : c.rest = blanks ++ n.chars ++ after)
    (hb : ∀ x ∈ blanks, Unicode.isBlank x = true) :
    c.next.2.rest = after ∧
      (∀ type value, n.value? = some (type, value) →
        c.next.1 = .ok ⟨.constant type, .following (read ++ blanks) '0', value⟩) ∧
      (n.value? = none → c.next.1 = .error
        ⟨.badNumber (String.ofList n.completed), .following (read ++ blanks) '0'⟩) := by
  obtain ⟨first, tail, hchars, hf, hsome, hnone⟩ := Lexeme.read_numeral hn ha
  rw [hchars, List.append_assoc, List.cons_append] at hc
  rw [next_of_blanks hc hb hf]
  have hahead := ahead_eq_following hplace hf blanks (tail ++ after)
  cases hv : n.value? with
  | some w =>
      obtain ⟨type, value⟩ := w
      rw [hsome type value hv, take, hahead]
      refine ⟨rfl, fun type' value' h => ?_, fun h => ?_⟩
      · cases h
        rfl
      · cases h
  | none =>
      rw [hnone hv, take, hahead]
      refine ⟨rfl, fun type' value' h => ?_, fun _ => rfl⟩
      cases h

end Cursor

namespace Lexer

/-- A number literal without an exponent that stands behind blanks gives the constant of the number
that it spells. Digits alone give the narrowest type that holds the number, and zeros in front of
them do not count. Digits with a point, at one end or inside, give a decimal of all places written,
of one place where none is. What no type holds is an error, which quotes the literal with a digit on
either side of the point. It is found where a digit stands behind all that was read and the
blanks, and just the literal is taken. -/
theorem nextToken_numeral (source : String) (calls : Nat) {read blanks after : List Char}
    (hread : source.toList = read ++ ((ofSource source).after calls).unread)
    (hb : ∀ x ∈ blanks, Unicode.isBlank x = true)
    (ha : ∀ x, after.head? = some x → x.isDigit = false ∧ x ≠ 'e' ∧ x ≠ 'E') :
    (∀ (zeros : Nat) (digits : List Char),
      ((ofSource source).after calls).unread =
        blanks ++ (List.replicate zeros '0' ++ digits) ++ after →
      List.replicate zeros '0' ++ digits ≠ [] → (∀ x ∈ digits, x.isDigit = true) →
      after.head? ≠ some '.' →
      ((ofSource source).after (calls + 1)).unread = after ∧
        Numeral.GivesWhole (Nat.ofDigitChars 10 digits 0) (List.replicate zeros '0' ++ digits)
          (.following (read ++ blanks) '0') ((ofSource source).after calls).nextToken.1) ∧
    ∀ whole fraction : List Char,
      ((ofSource source).after calls).unread = blanks ++ (whole ++ '.' :: fraction) ++ after →
      whole ++ fraction ≠ [] → (∀ x ∈ whole ++ fraction, x.isDigit = true) →
      ((ofSource source).after (calls + 1)).unread = after ∧
        Numeral.GivesDecimal (Nat.ofDigitChars 10 (whole ++ Numeral.orZero fraction) 0)
          (Numeral.orZero fraction).length
          (Numeral.orZero whole ++ '.' :: Numeral.orZero fraction)
          (.following (read ++ blanks) '0') ((ofSource source).after calls).nextToken.1 := by
  obtain ⟨front, hsource, hplace⟩ := Cursor.standsIn_after source calls
  rw [unread_after] at hread
  obtain rfl : front = read := List.append_cancel_right (hsource.symm.trans hread)
  rw [unread_after, unread_after, result_after]
  refine ⟨fun zeros digits hs hne hd hp => ?_, fun whole fraction hs hne hd => ?_⟩
  · have hn := Numeral.wellFormed_whole hne (Numeral.isDigit_of_mem_zeros hd)
    rw [← Numeral.chars_whole (List.replicate zeros '0' ++ digits)] at hs
    obtain ⟨hnext, hsome, hnone⟩ :=
      Cursor.next_numeral hn (Numeral.endsAt_whole ha hp) hplace hs hb
    rw [Numeral.completed_whole hne] at hnone
    rw [← Numeral.ofDigitChars_zeros zeros digits]
    exact ⟨hnext, Numeral.givesWhole hsome hnone⟩
  · have hn := Numeral.wellFormed_point hne hd
    rw [← Numeral.chars_point whole fraction] at hs
    obtain ⟨hnext, hsome, hnone⟩ := Cursor.next_numeral hn (Numeral.endsAt_point ha) hplace hs hb
    rw [Numeral.completed_point] at hnone
    rw [Numeral.value?_point] at hsome hnone
    exact ⟨hnext, Numeral.givesDecimal hsome hnone⟩

theorem nextToken_numeral_twice :
    (((ofSource "x\n 0002147483648)").after 2).unread = [')'] ∧
      Numeral.GivesWhole 2147483648 "0002147483648".toList ⟨2, 2, 4⟩
        ((ofSource "x\n 0002147483648)").after 1).nextToken.1) ∧
    ((ofSource "x\n 5..7").after 2).unread = ['.', '7'] ∧
      Numeral.GivesDecimal 50 1 "5.0".toList ⟨2, 2, 4⟩
        ((ofSource "x\n 5..7").after 1).nextToken.1 := by
  have hblank : ∀ x ∈ ['\n', ' '], Unicode.isBlank x = true :=
    List.forall_mem_cons.2 ⟨by decide, List.forall_mem_singleton.2 (by decide)⟩
  have hclose : ∀ x, [')'].head? = some x → x.isDigit = false ∧ x ≠ 'e' ∧ x ≠ 'E' := by
    rintro x ⟨⟩
    decide
  have hpoint : ∀ x, ['.', '7'].head? = some x → x.isDigit = false ∧ x ≠ 'e' ∧ x ≠ 'E' := by
    rintro x ⟨⟩
    decide
  have hdigits : ∀ x ∈ "2147483648".toList, x.isDigit = true :=
    List.all_eq_true.1 (by decide +kernel)
  have hfive : ∀ x ∈ ['5'] ++ [], x.isDigit = true := List.forall_mem_singleton.2 rfl
  have hwhole : "x\n 0002147483648)".toList =
      ['x'] ++ ((ofSource "x\n 0002147483648)").after 1).unread := by decide +kernel
  have hdecimal : "x\n 5..7".toList = ['x'] ++ ((ofSource "x\n 5..7").after 1).unread := by
    decide +kernel
  exact ⟨(nextToken_numeral _ 1 hwhole hblank hclose).1 3 "2147483648".toList (by decide +kernel)
      (by decide) hdigits (by decide),
    (nextToken_numeral _ 1 hdecimal hblank hpoint).2 ['5'] [] (by decide +kernel) (by decide) hfive⟩

end Lexer

end Transact
