import Transact.Proofs.Token.Spells

namespace Transact

/-- The longest stretch ends where the next character does not go on with it. -/
theorem of_takeWhile_append {p : Char → Bool} {text cs : List Char}
    (h : (text ++ cs).takeWhile p = text) :
    (∀ x ∈ text, p x = true) ∧ ∀ c, cs.head? = some c → p c = false := by
  have hall : ∀ x ∈ text, p x = true := fun x hx => by
    rw [← h] at hx
    exact List.all_eq_true.1 List.all_takeWhile x hx
  refine ⟨hall, fun c hc => ?_⟩
  rw [List.takeWhile_append_of_pos hall] at h
  obtain ⟨tail, rfl⟩ := List.head?_eq_some_iff.1 hc
  cases hp : p c with
  | false => rfl
  | true => simp [hp] at h

namespace Text.Quoted

/-- A literal ends at an apostrophe that is not doubled. -/
theorem head?_of_unescape {source text taken rest : List Char}
    (h : unescape source = some (text, taken, rest)) : rest.head? ≠ some '\'' := by
  fun_induction unescape source generalizing text taken rest with
  | case1 => cases h
  | case2 source ih =>
      obtain ⟨⟨t, k, r⟩, hr, he⟩ := Option.map_eq_some_iff.1 h
      cases he
      exact ih hr
  | case3 rest hne =>
      cases h
      intro hh
      obtain ⟨tail, rfl⟩ := List.head?_eq_some_iff.1 hh
      exact hne tail rfl
  | case4 c source _ _ ih =>
      obtain ⟨⟨t, k, r⟩, hr, he⟩ := Option.map_eq_some_iff.1 h
      cases he
      exact ih hr

end Text.Quoted

section

variable {cs ds : List Char} (h : ds.head? = cs.head?)

include h

theorem head?_append_congr (text : List Char) : (text ++ ds).head? = (text ++ cs).head? := by
  rw [List.head?_append, List.head?_append, h]

theorem take_one_congr : ds.take 1 = cs.take 1 := by
  rw [List.take_one, List.take_one, h]

/-- A stretch is as long in front of all texts that begin with the same character. -/
theorem takeWhile_congr {p : Char → Bool} {text : List Char}
    (ht : (text ++ cs).takeWhile p = text) :
    (text ++ ds).takeWhile p = text ∧ (text ++ ds).dropWhile p = ds := by
  obtain ⟨hall, hstop⟩ := of_takeWhile_append ht
  rw [← h] at hstop
  exact ⟨Lexeme.takeWhile_append_of_all hall hstop, Lexeme.dropWhile_append_of_all hall hstop⟩

namespace Numeral

theorem readExponent_congr {e : Option Exponent}
    (he : Exponent.read (exponentChars e ++ cs) = (e, cs)) :
    Exponent.read (exponentChars e ++ ds) = (e, ds) := by
  cases e with
  | none =>
      cases ds with
      | nil => rfl
      | cons d ds =>
          obtain ⟨cs, rfl⟩ := List.head?_eq_some_iff.1 h.symm
          by_cases hd : d = 'e' ∨ d = 'E'
          · simp [exponentChars, Exponent.read, hd] at he
          · simp [exponentChars, Exponent.read, hd]
  | some e =>
      obtain ⟨letter, sign, digits⟩ := e
      obtain ⟨hletter, hsign, -⟩ := readExponent_eq_some (congrArg Prod.fst he)
      dsimp only at hletter hsign
      have hfirst := take_one_congr (head?_append_congr h digits)
      obtain rfl | rfl | rfl := hsign
      · simp only [exponentChars, Exponent.chars, Exponent.read, hletter, if_true,
          List.cons_append, List.nil_append, hfirst, Prod.mk.injEq, Option.some.injEq,
          Exponent.mk.injEq, true_and] at he ⊢
        obtain ⟨⟨hs, hd⟩, -⟩ := he
        rw [hs, List.length_nil, List.drop_zero] at hd ⊢
        obtain ⟨htake, hdrop⟩ := takeWhile_congr h hd
        exact ⟨⟨rfl, htake⟩, hdrop⟩
      all_goals
        have htaken : (digits ++ cs).takeWhile Char.isDigit = digits := by
          simpa [exponentChars, Exponent.chars, Exponent.read, hletter] using
            congrArg Prod.fst he
        obtain ⟨htake, hdrop⟩ := takeWhile_congr h htaken
        simp [exponentChars, Exponent.chars, Exponent.read, hletter, htake, hdrop]

theorem readFraction_congr {f : Option (List Char)}
    (hf : readFraction (fractionChars f ++ cs) = (f, cs)) :
    readFraction (fractionChars f ++ ds) = (f, ds) := by
  cases f with
  | none =>
      cases ds with
      | nil => rfl
      | cons d ds =>
          obtain ⟨cs, rfl⟩ := List.head?_eq_some_iff.1 h.symm
          by_cases hd : d = '.'
          · simp [fractionChars, readFraction, hd] at hf
          · simp [fractionChars, readFraction, hd]
  | some digits =>
      simp only [fractionChars, List.cons_append, readFraction, Prod.mk.injEq,
        Option.some.injEq] at hf ⊢
      exact takeWhile_congr h hf.1

theorem read_congr {n : Numeral} (hn : read (n.chars ++ cs) = (n, cs)) :
    read (n.chars ++ ds) = (n, ds) := by
  obtain ⟨whole, fraction, exponent⟩ := n
  simp only [read, chars, List.append_assoc, Prod.mk.injEq, mk.injEq] at hn ⊢
  obtain ⟨⟨hwhole, hf, he⟩, hrest⟩ := hn
  have hsecond := head?_append_congr h (exponentChars exponent)
  have hthird := head?_append_congr hsecond (fractionChars fraction)
  obtain ⟨-, hdrop⟩ := takeWhile_congr rfl hwhole
  obtain ⟨htake', hdrop'⟩ := takeWhile_congr hthird hwhole
  have hsplit :=
    fractionChars_readFraction (fractionChars fraction ++ (exponentChars exponent ++ cs))
  rw [hdrop] at hf he hrest
  rw [hf] at hsplit
  have hleft := List.append_cancel_left hsplit
  have hfraction := readFraction_congr hsecond (Prod.ext hf hleft)
  rw [hleft] at he hrest
  have hexponent := readExponent_congr h (Prod.ext he hrest)
  rw [htake', hdrop', hfraction, hexponent]
  exact ⟨⟨rfl, rfl, rfl⟩, rfl⟩

end Numeral

namespace Lexeme

variable {c : Char} {text : List Char} {w : Word}

theorem number_congr (hr : number (c :: (text ++ cs)) = ⟨c :: text, cs, .ok w⟩) :
    number (c :: (text ++ ds)) = ⟨c :: text, ds, .ok w⟩ := by
  cases hread : Numeral.read (c :: (text ++ cs)) with
  | mk n left =>
      simp only [number, hread] at hr
      obtain ⟨htaken, rfl, hcontent⟩ := Lexeme.mk.inj hr
      rw [← List.cons_append, ← htaken] at hread
      have hnew := Numeral.read_congr h hread
      rw [htaken, List.cons_append] at hnew
      simp only [number, hnew, htaken, hcontent]

theorem plainWord_congr (hr : plainWord (c :: (text ++ cs)) = ⟨c :: text, cs, .ok w⟩) :
    plainWord (c :: (text ++ ds)) = ⟨c :: text, ds, .ok w⟩ := by
  rw [plainWord, ofWord_eq] at hr ⊢
  obtain ⟨htaken, -, hcontent⟩ := Lexeme.mk.inj hr
  rw [← List.cons_append] at htaken
  obtain ⟨htake, hdrop⟩ := takeWhile_congr h htaken
  rw [List.cons_append] at htake hdrop htaken
  rw [htaken] at hcontent
  rw [htake, hdrop, hcontent]

theorem literal_congr {type : ConstantType} (opening : List Char)
    (hr : literal type opening (text ++ cs) = ⟨opening ++ text, cs, .ok w⟩) :
    literal type opening (text ++ ds) = ⟨opening ++ text, ds, .ok w⟩ := by
  cases hu : Text.Quoted.unescape (text ++ cs) with
  | none => simp [literal, hu] at hr
  | some found =>
      obtain ⟨body, taken, rest⟩ := found
      simp only [literal, hu] at hr
      obtain ⟨htaken, rfl, hcontent⟩ := Lexeme.mk.inj hr
      obtain rfl := List.append_cancel_left htaken
      have hbody := Text.Quoted.taken_eq_escape hu
      have hstop := Text.Quoted.head?_of_unescape hu
      rw [← h] at hstop
      have hnew := Text.Quoted.unescape_escape body hstop
      subst hbody
      rw [literal, List.append_assoc, List.singleton_append, hnew]
      exact congrArg (Lexeme.mk _ _) hcontent

theorem lineComment_congr (hr : lineComment (text ++ cs) = ⟨'-' :: '-' :: text, cs, .ok w⟩) :
    lineComment (text ++ ds) = ⟨'-' :: '-' :: text, ds, .ok w⟩ := by
  obtain ⟨htaken, -, hcontent⟩ := Lexeme.mk.inj hr
  obtain ⟨-, htext⟩ := List.cons.inj (List.cons.inj htaken).2
  obtain ⟨htake, hdrop⟩ := takeWhile_congr h htext
  rw [htext] at hcontent
  simp only [lineComment, htake, hdrop, hcontent]

theorem mark_congr (hr : mark c (text ++ cs) = ⟨c :: text, cs, .ok w⟩) :
    mark c (text ++ ds) = ⟨c :: text, ds, .ok w⟩ := by
  have hone := take_one_congr (head?_append_congr h text)
  have hlongest : longestMark? (c :: (text ++ ds)) = longestMark? (c :: (text ++ cs)) := by
    simp only [longestMark?, List.take_succ_cons, List.take_zero, hone]
  cases hm : longestMark? (c :: (text ++ cs)) with
  | none =>
      simp only [mark, hm] at hr
      split at hr
      · cases hr
      · split at hr <;> cases hr
  | some m =>
      simp only [mark, hm] at hr
      obtain ⟨htaken, -, hcontent⟩ := Lexeme.mk.inj hr
      simp only [mark, hlongest, hm, htaken, hcontent]
      rw [← List.cons_append, List.drop_left]

omit h

theorem delimited_congr {opening closing : Char}
    (hr : delimited opening closing (text ++ cs) = ⟨opening :: text, cs, .ok w⟩) :
    delimited opening closing (text ++ ds) = ⟨opening :: text, ds, .ok w⟩ := by
  have hsplit : (text ++ cs).takeWhile (· != closing) ++ (text ++ cs).dropWhile (· != closing) =
      text ++ cs := List.takeWhile_append_dropWhile
  have hbody : closing ∉ (text ++ cs).takeWhile (· != closing) := by
    intro hm
    have hne := List.all_eq_true.1 List.all_takeWhile _ hm
    simp at hne
  have hlast := List.head?_dropWhile_not (· != closing) (text ++ cs)
  generalize (text ++ cs).takeWhile (· != closing) = body at hsplit hbody
  cases hd : (text ++ cs).dropWhile (· != closing) with
  | nil => simp [delimited, hd] at hr
  | cons last rest =>
      rw [hd] at hsplit hlast
      obtain rfl : last = closing := by simpa using hlast
      rw [← hsplit, delimited_eq hbody] at hr
      obtain ⟨htaken, rfl, hcontent⟩ := Lexeme.mk.inj hr
      obtain ⟨-, rfl⟩ := List.cons.inj htaken
      rw [List.append_assoc, List.singleton_append, delimited_eq hbody, hcontent]

theorem blockComment_congr (hr : blockComment (text ++ cs) = ⟨'/' :: '*' :: text, cs, .ok w⟩) :
    blockComment (text ++ ds) = ⟨'/' :: '*' :: text, ds, .ok w⟩ := by
  cases hs : splitBlock (text ++ cs) with
  | none => simp [blockComment, hs] at hr
  | some found =>
      obtain ⟨body, rest⟩ := found
      simp only [blockComment, hs] at hr
      obtain ⟨htaken, rfl, hcontent⟩ := Lexeme.mk.inj hr
      obtain ⟨-, rfl⟩ := List.cons.inj (List.cons.inj htaken).2
      have hnew := splitBlock_append (not_infix_of_splitBlock hs) ds
      rw [blockComment, List.append_assoc, List.cons_append, List.singleton_append, hnew]
      exact congrArg (Lexeme.mk _ _) hcontent

/-- A token is read in the same way in front of all texts that begin with the same character. -/
theorem ReadsAs.congr {text : List Char} (hr : ReadsAs text cs w) (h : ds.head? = cs.head?) :
    ReadsAs text ds w := by
  obtain ⟨c, tail, rfl, hb, hr⟩ := hr
  refine ⟨c, tail, rfl, hb, ?_⟩
  have hsecond := head?_append_congr h tail
  revert hr
  -- Which rule reads a lexeme hangs on its first two characters. Where the second one counts, the
  -- rule takes it, so that it is not the first character of what follows.
  simp only [read, hsecond]
  split
  · exact number_congr h
  split
  · rename_i hn
    obtain ⟨rfl, hquote⟩ := hn
    intro hr
    cases tail with
    | nil =>
        simp only [literal] at hr
        split at hr <;> simp at hr
    | cons d tail =>
        obtain rfl := Option.some.inj hquote
        exact literal_congr h ['N', '\''] hr
  split
  · rename_i hq
    subst hq
    exact literal_congr h ['\'']
  split
  · rename_i hq
    subst hq
    exact delimited_congr
  split
  · rename_i hq
    subst hq
    exact delimited_congr
  split
  · exact plainWord_congr h
  split
  · rename_i hm
    obtain ⟨rfl, hminus⟩ := hm
    intro hr
    cases tail with
    | nil => simp [lineComment] at hr
    | cons d tail =>
        obtain rfl := Option.some.inj hminus
        exact lineComment_congr h hr
  split
  · rename_i hm
    obtain ⟨rfl, hstar⟩ := hm
    intro hr
    cases tail with
    | nil =>
        simp only [blockComment] at hr
        split at hr <;> simp at hr
    | cons d tail =>
        obtain rfl := Option.some.inj hstar
        exact blockComment_congr hr
  · exact mark_congr h

end Lexeme

end

end Transact
