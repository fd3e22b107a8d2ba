import Transact.Proofs.Token.Name

namespace Transact

namespace Text.Quoted

theorem unescape_escape (text : List Char) {cs : List Char} (hc : cs.head? ≠ some '\'') :
    unescape (escape text ++ '\'' :: cs) = some (text, escape text ++ ['\''], cs) := by
  fun_induction escape text with
  | case1 =>
      rw [List.nil_append, List.nil_append]
      cases cs with
      | nil => rfl
      | cons c cs =>
          have hne : c ≠ '\'' := fun h => hc (congrArg some h)
          simp [unescape, hne]
  | case2 rest ih => simp [unescape, ih]
  | case3 c rest hne ih =>
      rw [List.cons_append, unescape.eq_4 _ _ (fun _ h _ => hne h) hne, ih]
      rfl

end Text.Quoted

namespace Lexeme

variable {cs : List Char}

theorem readsAs_quoted (text : String) (hc : cs.head? ≠ some '\'') :
    ReadsAs (Text.Quoted.quote text).toList cs (.constant .varchar, .text text) := by
  refine ⟨'\'', Text.Quoted.escape text.toList ++ ['\''], String.toList_ofList, by decide, ?_⟩
  simp [read, literal, Text.Quoted.quote, Text.Quoted.unescape_escape _ hc,
    show Char.isDigit '\'' = false from rfl]

theorem readsAs_nationalQuoted (text : String) (hc : cs.head? ≠ some '\'') :
    ReadsAs ("N" ++ Text.Quoted.quote text).toList cs (.constant .nvarchar, .text text) := by
  refine ⟨'N', '\'' :: (Text.Quoted.escape text.toList ++ ['\'']), ?_, by decide, ?_⟩
  · simp [String.toList_append, Text.Quoted.quote]
  · simp [read, literal, Text.Quoted.quote, Text.Quoted.unescape_escape _ hc,
      show Char.isDigit 'N' = false from rfl]

end Lexeme

namespace Reads

variable {cs : List Char} {ws : List Word}

theorem quoted (text : String) (hc : cs.head? ≠ some '\'') (h : Reads cs ws) :
    Reads ((Text.Quoted.quote text).toList ++ cs) ((.constant .varchar, .text text) :: ws) :=
  .of_readsAs (Lexeme.readsAs_quoted text hc) rfl nofun h

theorem nationalQuoted (text : String) (hc : cs.head? ≠ some '\'') (h : Reads cs ws) :
    Reads (("N" ++ Text.Quoted.quote text).toList ++ cs)
      ((.constant .nvarchar, .text text) :: ws) :=
  .of_readsAs (Lexeme.readsAs_nationalQuoted text hc) rfl nofun h

end Reads

namespace Numeral

structure WellFormed (n : Numeral) : Prop where
  digits : n.whole ≠ [] ∨ ∃ f, n.fraction = some f ∧ f ≠ []
  whole : ∀ c ∈ n.whole, c.isDigit = true
  fraction : ∀ f, n.fraction = some f → ∀ c ∈ f, c.isDigit = true
  exponent : ∀ e, n.exponent = some e → (e.letter = 'e' ∨ e.letter = 'E') ∧
    (e.sign = [] ∨ e.sign = ['+'] ∨ e.sign = ['-']) ∧
    e.digits ≠ [] ∧ ∀ c ∈ e.digits, c.isDigit = true

def endsBefore (c : Char) : Bool := !c.isDigit && c != '.' && c != 'e' && c != 'E'

/-- Whether a numeral does not go on with a text. It has one point and one exponent at most, and no
point in its exponent. -/
structure EndsAt (n : Numeral) (cs : List Char) : Prop where
  digits : ∀ c, cs.head? = some c → c.isDigit = false
  fraction : n.fraction = none → n.exponent = none → cs.head? ≠ some '.'
  exponent : n.exponent = none → cs.head? ≠ some 'e' ∧ cs.head? ≠ some 'E'

variable {n : Numeral} {cs : List Char}

theorem endsBefore_iff {c : Char} :
    endsBefore c = true ↔ c.isDigit = false ∧ c ≠ '.' ∧ c ≠ 'e' ∧ c ≠ 'E' := by
  simp [endsBefore, and_assoc]

theorem endsAt_of_endsBefore (hc : ∀ c, cs.head? = some c → endsBefore c = true) : n.EndsAt cs where
  digits := fun c hcs => (endsBefore_iff.1 (hc c hcs)).1
  fraction := fun _ _ hcs => absurd (hc _ hcs) (by decide)
  exponent := fun _ => ⟨fun hcs => absurd (hc _ hcs) (by decide),
    fun hcs => absurd (hc _ hcs) (by decide)⟩

theorem readExponent_append (h : n.WellFormed) (hc : n.EndsAt cs) :
    Exponent.read (exponentChars n.exponent ++ cs) = (n.exponent, cs) := by
  cases he : n.exponent with
  | none =>
      cases cs with
      | nil => rfl
      | cons c cs =>
          obtain ⟨hlower, hupper⟩ := hc.exponent he
          have hletter : ¬(c = 'e' ∨ c = 'E') := by simpa using And.intro hlower hupper
          simp only [exponentChars, List.nil_append, Exponent.read, if_neg hletter]
  | some e =>
      obtain ⟨letter, sign, digits⟩ := e
      obtain ⟨hl, hsign, hne, hd⟩ := h.exponent _ he
      have htake := Lexeme.takeWhile_append_of_all hd hc.digits
      have hdrop := Lexeme.dropWhile_append_of_all hd hc.digits
      dsimp only at hl hsign
      -- Without a sign, the first digit must not be taken for one.
      obtain rfl | rfl | rfl := hsign
      · obtain ⟨d, ds, rfl⟩ := List.exists_cons_of_ne_nil hne
        have hfirst := hd d (by simp)
        have hplus : d ≠ '+' := by
          rintro rfl
          cases hfirst
        have hminus : d ≠ '-' := by
          rintro rfl
          cases hfirst
        rw [List.cons_append] at htake hdrop
        simp [exponentChars, Exponent.chars, Exponent.read, hl, hplus, hminus, htake, hdrop]
      · simp [exponentChars, Exponent.chars, Exponent.read, hl, htake, hdrop]
      · simp [exponentChars, Exponent.chars, Exponent.read, hl, htake, hdrop]

theorem head_exponent_append (h : n.WellFormed) (hc : n.EndsAt cs) :
    ∀ c, (exponentChars n.exponent ++ cs).head? = some c →
      c.isDigit = false ∧ (n.fraction = none → c ≠ '.') := by
  intro c hcs
  cases he : n.exponent with
  | none =>
      rw [he] at hcs
      exact ⟨hc.digits c hcs, fun hf hp => hc.fraction hf he (hp ▸ hcs)⟩
  | some e =>
      rw [he] at hcs
      cases hcs
      obtain hl | hl := (h.exponent e he).1 <;> rw [hl] <;> exact ⟨rfl, fun _ => by decide⟩

theorem readFraction_append (h : n.WellFormed)
    (hc : ∀ c, cs.head? = some c → c.isDigit = false ∧ (n.fraction = none → c ≠ '.')) :
    readFraction (fractionChars n.fraction ++ cs) = (n.fraction, cs) := by
  cases hf : n.fraction with
  | none =>
      cases cs with
      | nil => rfl
      | cons c cs =>
          have hp := (hc c rfl).2 hf
          simp [fractionChars, readFraction, hp]
  | some f =>
      have hd := h.fraction f hf
      have hstop : ∀ c, cs.head? = some c → c.isDigit = false := fun c hcs => (hc c hcs).1
      simp [fractionChars, readFraction, Lexeme.takeWhile_append_of_all hd hstop,
        Lexeme.dropWhile_append_of_all hd hstop]

theorem head_fraction_append (hc : ∀ c, cs.head? = some c → c.isDigit = false) :
    ∀ c, (fractionChars n.fraction ++ cs).head? = some c → c.isDigit = false := by
  intro c hcs
  cases hf : n.fraction with
  | none =>
      rw [hf] at hcs
      exact hc c hcs
  | some f =>
      rw [hf] at hcs
      cases hcs
      rfl

theorem read_append (h : n.WellFormed) (hc : n.EndsAt cs) : read (n.chars ++ cs) = (n, cs) := by
  have he := head_exponent_append h hc
  have hstop := head_fraction_append (n := n) fun c hcs => (he c hcs).1
  have htake := Lexeme.takeWhile_append_of_all h.whole hstop
  have hdrop := Lexeme.dropWhile_append_of_all h.whole hstop
  simp only [read, chars, List.append_assoc, htake, hdrop, readFraction_append h he,
    readExponent_append h hc]

theorem chars_first (h : n.WellFormed) (cs : List Char) :
    ∃ c tail, n.chars = c :: tail ∧ Unicode.isBlank c = false ∧
      (c.isDigit || (c == '.' && (tail ++ cs).head?.any Char.isDigit)) = true := by
  obtain ⟨whole, fraction, exponent⟩ := n
  cases whole with
  | cons d ds =>
      have hd := h.whole d (by simp)
      exact ⟨d, _, rfl, Unicode.not_isBlank_of_isDigit hd, by simp [hd]⟩
  | nil =>
      obtain hw | ⟨f, rfl, hf⟩ := h.digits
      · exact absurd rfl hw
      · obtain ⟨d, ds, rfl⟩ := List.exists_cons_of_ne_nil hf
        have hd := h.fraction _ rfl d (by simp)
        exact ⟨'.', _, rfl, by decide, by simp [hd]⟩

end Numeral

/-- The lexeme of a well-formed numeral in front of what it does not go on with. -/
theorem Lexeme.read_numeral {n : Numeral} {cs : List Char} (hn : n.WellFormed) (hc : n.EndsAt cs) :
    ∃ c tail, n.chars = c :: tail ∧ Unicode.isBlank c = false ∧
      (∀ type value, n.value? = some (type, value) →
        read c (tail ++ cs) = ⟨n.chars, cs, .ok (.constant type, value)⟩) ∧
      (n.value? = none →
        read c (tail ++ cs) = ⟨n.chars, cs, .error (.badNumber (String.ofList n.completed))⟩) := by
  obtain ⟨c, tail, ht, hb, hfirst⟩ := Numeral.chars_first hn cs
  have hs : c :: (tail ++ cs) = n.chars ++ cs := by rw [ht, List.cons_append]
  refine ⟨c, tail, ht, hb, fun type value hv => ?_, fun hv => ?_⟩ <;>
    simp only [read, hfirst, if_true, number, hs, Numeral.read_append hn hc, hv]

theorem Lexeme.readsAs_number {n : Numeral} {type : ConstantType} {value : Value} {cs : List Char}
    (hn : n.WellFormed) (hv : n.value? = some (type, value))
    (hc : ∀ c, cs.head? = some c → Numeral.endsBefore c = true) :
    ReadsAs n.chars cs (.constant type, value) := by
  obtain ⟨c, tail, ht, hb, hr, -⟩ := read_numeral hn (Numeral.endsAt_of_endsBefore hc)
  exact ⟨c, tail, ht, hb, hr type value hv⟩

theorem Reads.number {n : Numeral} {type : ConstantType} {value : Value} {cs : List Char}
    {ws : List Word} (hn : n.WellFormed) (hv : n.value? = some (type, value))
    (hc : ∀ c, cs.head? = some c → Numeral.endsBefore c = true) (h : Reads cs ws) :
    Reads (n.chars ++ cs) ((.constant type, value) :: ws) :=
  .of_readsAs (Lexeme.readsAs_number hn hv hc) rfl nofun h

end Transact
