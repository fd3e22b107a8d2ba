import Mathlib.Data.List.TakeWhile
import Mathlib.Data.List.Basic
import Transact.Proofs.Token.Spells

namespace Transact.Numeral

variable {n : Numeral} {whole : List Char} {fraction : Option (List Char)} {e : Exponent}

/-- An exponent is read back from its own text, also one without digits. -/
theorem readExponent_chars (h : n.Written) :
    Exponent.read (exponentChars n.exponent) = (n.exponent, []) := by
  cases he : n.exponent with
  | none => rfl
  | some e =>
      obtain ⟨letter, sign, digits⟩ := e
      obtain ⟨hl, hsign, hd⟩ := h.exponent _ he
      have htake : digits.takeWhile Char.isDigit = digits := List.takeWhile_eq_self_iff.2 hd
      have hdrop : digits.dropWhile Char.isDigit = [] := List.dropWhile_eq_nil_iff.2 hd
      dsimp only at hl hsign
      obtain rfl | rfl | rfl := hsign
      · cases digits with
        | nil => simp [exponentChars, Exponent.chars, Exponent.read, hl]
        | cons d ds =>
            have hfirst := hd d List.mem_cons_self
            have hplus : d ≠ '+' := by
              rintro rfl
              cases hfirst
            have hminus : d ≠ '-' := by
              rintro rfl
              cases hfirst
            simp [exponentChars, Exponent.chars, Exponent.read, hl, hplus, hminus, htake, hdrop]
      · simp [exponentChars, Exponent.chars, Exponent.read, hl, htake, hdrop]
      · simp [exponentChars, Exponent.chars, Exponent.read, hl, htake, hdrop]

theorem head_exponentChars (h : n.Written) {c : Char}
    (hc : (exponentChars n.exponent).head? = some c) : c.isDigit = false ∧ c ≠ '.' := by
  cases he : n.exponent with
  | none =>
      rw [he] at hc
      cases hc
  | some e =>
      rw [he] at hc
      cases hc
      obtain hl | hl := (h.exponent e he).1 <;> rw [hl] <;> exact ⟨rfl, by decide⟩

theorem readFraction_chars (h : n.Written) :
    readFraction (fractionChars n.fraction ++ exponentChars n.exponent) =
      (n.fraction, exponentChars n.exponent) := by
  have hhead := fun c hc => (head_exponentChars (c := c) h hc).1
  cases hf : n.fraction with
  | none =>
      rw [fractionChars, List.nil_append]
      unfold readFraction
      split
      · rename_i rest hr
        exact absurd rfl (head_exponentChars h (hr ▸ rfl)).2
      · rfl
  | some f =>
      simp only [fractionChars, List.cons_append, readFraction,
        Lexeme.takeWhile_append_of_all (h.fraction f hf) hhead,
        Lexeme.dropWhile_append_of_all (h.fraction f hf) hhead]

theorem head_fractionChars (h : n.Written) {c : Char}
    (hc : (fractionChars n.fraction ++ exponentChars n.exponent).head? = some c) :
    c.isDigit = false := by
  cases hf : n.fraction with
  | none =>
      rw [hf] at hc
      exact (head_exponentChars h hc).1
  | some f =>
      rw [hf] at hc
      cases hc
      rfl

theorem read_chars (h : n.Written) : read n.chars = (n, []) := by
  have hhead := fun c hc => head_fractionChars (c := c) h hc
  rw [chars, List.append_assoc]
  simp only [read, Lexeme.takeWhile_append_of_all h.whole hhead,
    Lexeme.dropWhile_append_of_all h.whole hhead, readFraction_chars h, readExponent_chars h]

def complete (n : Numeral) : Numeral where
  whole := if n.whole.isEmpty then ['0'] else n.whole
  fraction := if n.fraction = some [] ∧ n.exponent.isNone then some ['0'] else n.fraction
  exponent := n.exponent

theorem Written.complete (h : n.Written) : n.complete.Written where
  whole := by
    rw [Numeral.complete]
    dsimp only
    split
    · exact List.forall_mem_singleton.2 rfl
    · exact h.whole
  fraction := by
    rw [Numeral.complete]
    dsimp only
    split
    · rintro f ⟨⟩
      exact List.forall_mem_singleton.2 rfl
    · exact h.fraction
  exponent := h.exponent

theorem chars_complete (n : Numeral) : n.complete.chars = n.completed := by
  obtain ⟨whole, fraction, exponent⟩ := n
  obtain _ | _ | ⟨c, f⟩ := fraction <;> cases exponent <;> cases whole <;>
    simp [complete, completed, chars, fractionChars, exponentChars]

theorem value?_complete (n : Numeral) : n.complete.value? = n.value? := by
  have hzero (ds : List Char) : Nat.ofDigitChars 10 ('0' :: ds) 0 = Nat.ofDigitChars 10 ds 0 := rfl
  obtain ⟨whole, fraction, exponent⟩ := n
  obtain _ | _ | ⟨c, f⟩ := fraction <;> cases exponent <;> cases whole <;>
    simp [complete, value?, wholeValue?, Decimal.ofDigits?, hzero]

/-- A literal has the value that is read from its completed text. -/
theorem value?_read_completed (h : n.Written) : (read n.completed).1.value? = n.value? := by
  rw [← chars_complete, read_chars h.complete, value?_complete]

theorem head?_chars (h : n.Written) (hn : n.whole = [] → n.fraction.isSome = true) :
    n.chars.head? = some '.' ↔ n.whole.isEmpty = true := by
  rw [List.isEmpty_iff]
  cases hw : n.whole with
  | nil =>
      obtain ⟨f, hf⟩ := Option.isSome_iff_exists.1 (hn hw)
      simp [chars, hw, hf, fractionChars]
  | cons c cs =>
      have hc : c ≠ '.' := by
        rintro rfl
        cases h.whole '.' (hw ▸ List.mem_cons_self)
      simp [chars, hw, hc]

theorem getLast?_point (front : List Char) {f : List Char} (h : ∀ c ∈ f, c.isDigit = true) :
    (front ++ '.' :: f).getLast? = some '.' ↔ f = [] := by
  constructor
  · intro hlast
    by_contra hf
    rw [List.append_cons, List.getLast?_append_of_ne_nil _ hf] at hlast
    cases h '.' (List.mem_of_getLast? hlast)
  · rintro rfl
    exact List.getLast?_concat ..

/-- Completing a text puts a digit in front of a point at its start, and one behind a point at its
end if there is no exponent. -/
theorem completed_eq (h : n.Written) (hn : n.whole = [] → n.fraction.isSome = true) :
    n.completed =
      let text := if n.chars.head? = some '.' then '0' :: n.chars else n.chars
      if !n.exponent.isSome && n.fraction.isSome && text.getLast? == some '.' then text ++ ['0']
      else text := by
  simp only [head?_chars h hn, completed]
  cases he : n.exponent with
  | some e => simp
  | none =>
      cases hf : n.fraction with
      | none => simp
      | some f =>
          have hchars : n.chars = n.whole ++ '.' :: f := by
            simp [chars, he, hf, fractionChars, exponentChars]
          obtain ⟨front, hfront⟩ : ∃ front : List Char,
              (if n.whole.isEmpty = true then '0' :: n.chars else n.chars) = front ++ '.' :: f := by
            rw [hchars]
            split
            · exact ⟨'0' :: n.whole, rfl⟩
            · exact ⟨n.whole, rfl⟩
          have hlast := getLast?_point front (h.fraction f hf)
          rw [hfront]
          cases f with
          | nil => simp
          | cons c f => simpa using hlast

end Transact.Numeral
