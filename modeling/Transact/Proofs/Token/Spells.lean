import Transact.Proofs.Token.Literal

namespace Transact

namespace Numeral

theorem readFraction_cases (source : List Char) :
    (readFraction source).1 = none ∨
      ∃ rest : List Char, (readFraction source).1 = some (rest.takeWhile Char.isDigit) := by
  unfold readFraction
  split
  · exact .inr ⟨_, rfl⟩
  · exact .inl rfl

theorem readExponent_eq_some {source : List Char} {e : Exponent}
    (h : (Exponent.read source).1 = some e) :
    (e.letter = 'e' ∨ e.letter = 'E') ∧ (e.sign = [] ∨ e.sign = ['+'] ∨ e.sign = ['-']) ∧
      ∀ c ∈ e.digits, c.isDigit = true := by
  unfold Exponent.read at h
  split at h
  · split at h
    · rename_i letter rest hl
      cases h
      refine ⟨hl, ?_, fun c hc => List.all_eq_true.1 List.all_takeWhile c hc⟩
      cases rest with
      | nil => exact .inl rfl
      | cons c rest =>
          by_cases hp : c = '+'
          · simp [hp]
          · by_cases hm : c = '-' <;> simp [hp, hm]
    · cases h
  · cases h

structure Written (n : Numeral) : Prop where
  whole : ∀ c ∈ n.whole, c.isDigit = true
  fraction : ∀ f, n.fraction = some f → ∀ c ∈ f, c.isDigit = true
  exponent : ∀ e, n.exponent = some e → (e.letter = 'e' ∨ e.letter = 'E') ∧
    (e.sign = [] ∨ e.sign = ['+'] ∨ e.sign = ['-']) ∧ ∀ c ∈ e.digits, c.isDigit = true

theorem written_read (source : List Char) : (read source).1.Written where
  whole := fun c hc => List.all_eq_true.1 List.all_takeWhile c hc
  fraction := by
    intro f hf c hc
    obtain hn | ⟨rest, hs⟩ := readFraction_cases (source.dropWhile Char.isDigit)
    · cases hn.symm.trans hf
    · cases hs.symm.trans hf
      exact List.all_eq_true.1 List.all_takeWhile c hc
  exponent := fun _ he => readExponent_eq_some he

theorem wellFormed_read {c : Char} {cs : List Char} {type : ConstantType} {value : Value}
    (hc : (c.isDigit || (c == '.' && cs.head?.any Char.isDigit)) = true)
    (hv : (read (c :: cs)).1.value? = some (type, value)) : (read (c :: cs)).1.WellFormed where
  digits := by
    by_cases hd : c.isDigit = true
    · exact .inl (by simp [read, hd])
    · obtain ⟨rfl, hf⟩ : c = '.' ∧ cs.head?.any Char.isDigit = true := by
        simpa [hd] using hc
      obtain ⟨d, ds, rfl⟩ : ∃ d ds, cs = d :: ds := by
        cases cs with
        | nil => cases hf
        | cons d ds => exact ⟨d, ds, rfl⟩
      have hdigit : d.isDigit = true := hf
      refine .inr ⟨(d :: ds).takeWhile Char.isDigit, ?_, by simp [hdigit]⟩
      simp [read, readFraction, show Char.isDigit '.' = false from rfl]
  whole := (written_read _).whole
  fraction := (written_read _).fraction
  exponent := by
    intro e he
    obtain ⟨hl, hs, hd⟩ := (written_read _).exponent e he
    refine ⟨hl, hs, fun hnil => ?_, hd⟩
    simp [value?, he, hnil] at hv

end Numeral

namespace Lexeme

/-- A text is the spelling of a word: a name, a number, a string with its apostrophes doubled, a
comment or a mark. -/
inductive Spells : List Char → Word → Prop where
  | name {p : List Char} (h : IsName p) : Spells p (Word.name (String.ofList p))
  | number {n : Numeral} {type : ConstantType} {value : Value} (hn : n.WellFormed)
      (hv : n.value? = some (type, value)) : Spells n.chars (.constant type, value)
  | quoted (text : String) :
      Spells (Text.Quoted.quote text).toList (.constant .varchar, .text text)
  | nationalQuoted (text : String) :
      Spells ("N" ++ Text.Quoted.quote text).toList (.constant .nvarchar, .text text)
  | lineComment {body : List Char} (h : ∀ c ∈ body, isLineEnd c = false) :
      Spells ('-' :: '-' :: body) (.comment .line, .text (String.ofList body))
  | blockComment {body : List Char} (h : ¬['*', '/'] <:+: body) :
      Spells ('/' :: '*' :: (body ++ ['*', '/'])) (.comment .block, .text (String.ofList body))
  | mark (m : Mark) : Spells m.spelling (Word.mark m)

theorem spells_plainWord {c : Char} {cs : List Char} {w : Word} (hb : Unicode.isBlank c = false)
    (hd : c.isDigit = false) (hs : isWordStart c = true)
    (h : (plainWord (c :: cs)).content = .ok w) : Spells (plainWord (c :: cs)).taken w := by
  rw [plainWord, ofWord_eq] at h ⊢
  obtain rfl := Except.ok.inj h
  rw [List.takeWhile_cons_of_pos (isWordPart_of_isWordStart hs)]
  exact .name (.plain hb hd hs fun x hx => List.all_eq_true.1 List.all_takeWhile x hx)

theorem spells_delimited {opening closing : Char} {cs : List Char} {w : Word}
    (hn : ∀ body, closing ∉ body → IsName (opening :: (body ++ [closing])))
    (h : (delimited opening closing cs).content = .ok w) :
    Spells (delimited opening closing cs).taken w := by
  simp only [delimited, ofWord_eq] at h ⊢
  split at h
  · rename_i last rest hl
    obtain rfl := Except.ok.inj h
    have hlast : last = closing := by
      have hd := List.head?_dropWhile_not (· != closing) cs
      rw [hl] at hd
      simpa using hd
    subst hlast
    dsimp only
    refine .name (hn _ fun hm => ?_)
    have hne := List.all_eq_true.1 List.all_takeWhile _ hm
    simp at hne
  · cases h

theorem spells_literal {source : List Char} {w : Word}
    (h : (literal .varchar ['\''] source).content = .ok w) :
    Spells (literal .varchar ['\''] source).taken w := by
  simp only [literal] at h ⊢
  split at h
  · rename_i text taken rest hu
    cases h
    simpa [hu, Text.Quoted.quote, Text.Quoted.taken_eq_escape hu] using
      Spells.quoted (String.ofList text)
  · cases h

theorem spells_nationalLiteral {source : List Char} {w : Word}
    (h : (literal .nvarchar ['N', '\''] source).content = .ok w) :
    Spells (literal .nvarchar ['N', '\''] source).taken w := by
  simp only [literal] at h ⊢
  split at h
  · rename_i text taken rest hu
    cases h
    simpa [hu, Text.Quoted.quote, Text.Quoted.taken_eq_escape hu] using
      Spells.nationalQuoted (String.ofList text)
  · cases h

theorem spells_lineComment {source : List Char} {w : Word}
    (h : (lineComment source).content = .ok w) : Spells (lineComment source).taken w := by
  cases h
  refine .lineComment fun c hc => ?_
  simpa using List.all_eq_true.1 List.all_takeWhile c hc

/-- The text that `splitBlock` stops at is the first `*/`. -/
theorem not_infix_of_splitBlock {source body rest : List Char}
    (h : splitBlock source = some (body, rest)) : ¬['*', '/'] <:+: body := by
  fun_induction splitBlock source generalizing body rest with
  | case1 => cases h
  | case2 =>
      cases h
      simp
  | case3 c source hne ih =>
      obtain ⟨⟨b, r⟩, hr, he⟩ := Option.map_eq_some_iff.1 h
      cases he
      rw [List.infix_cons_iff, not_or]
      refine ⟨?_, ih hr⟩
      rintro ⟨tail, ht⟩
      obtain ⟨rfl, rfl⟩ : '*' = c ∧ '/' :: tail = b := by simpa using ht
      exact hne _ rfl (append_of_splitBlock hr).symm

theorem splitBlock_append {body : List Char} (h : ¬['*', '/'] <:+: body) (cs : List Char) :
    splitBlock (body ++ '*' :: '/' :: cs) = some (body, cs) := by
  induction body with
  | nil => rfl
  | cons c body ih =>
      rw [List.infix_cons_iff, not_or] at h
      rw [List.cons_append, splitBlock, ih h.2]
      · rfl
      · rintro rest rfl hs
        cases body with
        | nil => cases hs
        | cons d body =>
            obtain ⟨rfl, -⟩ := List.cons.inj hs
            exact h.1 ⟨body, rfl⟩

theorem spells_blockComment {source : List Char} {w : Word}
    (h : (blockComment source).content = .ok w) : Spells (blockComment source).taken w := by
  simp only [blockComment] at h ⊢
  split at h
  · rename_i body rest hs
    cases h
    exact .blockComment (not_infix_of_splitBlock hs)
  · cases h

theorem spells_number {c : Char} {cs : List Char} {w : Word}
    (hc : (c.isDigit || (c == '.' && cs.head?.any Char.isDigit)) = true)
    (h : (number (c :: cs)).content = .ok w) : Spells (number (c :: cs)).taken w := by
  simp only [number] at h ⊢
  split at h
  · rename_i type value hv
    cases h
    exact .number (Numeral.wellFormed_read hc hv) hv
  · cases h

theorem spells_mark {c : Char} {cs : List Char} {w : Word} (h : (mark c cs).content = .ok w) :
    Spells (mark c cs).taken w := by
  simp only [mark] at h ⊢
  split at h
  · rename_i m hm
    cases h
    exact .mark m
  · split at h
    · cases h
    · split at h <;> cases h

/-- The lexeme that is read spells its word. -/
theorem spells_read {c : Char} {cs : List Char} {w : Word} (hb : Unicode.isBlank c = false)
    (h : (read c cs).content = .ok w) : Spells (read c cs).taken w := by
  revert h
  simp only [read]
  split
  · exact spells_number ‹_›
  rename_i hnumber
  split
  · exact spells_nationalLiteral
  split
  · exact spells_literal
  split
  · exact spells_delimited fun body hb => .bracketed hb
  split
  · exact spells_delimited fun body hb => .quoted hb
  split
  · rename_i hs
    simp only [Bool.or_eq_true, not_or, Bool.not_eq_true] at hnumber
    exact spells_plainWord hb hnumber.1 hs
  split
  · exact spells_lineComment
  split
  · exact spells_blockComment
  · exact spells_mark

end Lexeme

namespace Mark

theorem not_isBlank_of_mem_spelling {m : Mark} {c : Char} (h : c ∈ m.spelling) :
    Unicode.isBlank c = false := by
  have hall : m.spelling.all (fun x => !Unicode.isBlank x) = true := by cases m <;> decide
  simpa using List.all_eq_true.1 hall c h

theorem endsBefore_of_isBlank (m : Mark) {c : Char} (h : Unicode.isBlank c = true) :
    m.endsBefore c = true := by
  have hne {d : Char} (hd : Unicode.isBlank d = false) : c ≠ d := by
    rintro rfl
    rw [h] at hd
    cases hd
  have hlonger : (all.any fun n => n.spelling == m.spelling ++ [c]) = false := by
    rw [List.any_eq_false]
    intro n _ hn
    have hc : c ∈ n.spelling := by
      rw [beq_iff_eq.1 hn]
      simp
    exact hne (not_isBlank_of_mem_spelling hc) rfl
  have hdigit : c.isDigit = false := by
    cases hd : c.isDigit with
    | false => rfl
    | true => exact absurd rfl (hne (Unicode.not_isBlank_of_isDigit hd))
  have hminus : (c == '-') = false := beq_false_of_ne (hne (by decide))
  have hstar : (c == '*') = false := beq_false_of_ne (hne (by decide))
  simp [endsBefore, hlonger, hdigit, hminus, hstar]

end Mark

namespace Lexeme

variable {text cs : List Char} {w v : Word}

theorem readsAs_lineComment {body : List Char} (h : ∀ c ∈ body, isLineEnd c = false)
    (hc : ∀ c, cs.head? = some c → isLineEnd c = true) :
    ReadsAs ('-' :: '-' :: body) cs (.comment .line, .text (String.ofList body)) := by
  have hbody : ∀ c ∈ body, (!isLineEnd c) = true := fun c hm => by simp [h c hm]
  have hstop : ∀ c, cs.head? = some c → (!isLineEnd c) = false := fun c hm => by simp [hc c hm]
  refine ⟨'-', '-' :: body, rfl, by decide, ?_⟩
  simp [read, lineComment, takeWhile_append_of_all hbody hstop,
    dropWhile_append_of_all hbody hstop, show Char.isDigit '-' = false from rfl,
    show isWordStart '-' = false by decide]

theorem readsAs_blockComment {body : List Char} (h : ¬['*', '/'] <:+: body) (cs : List Char) :
    ReadsAs ('/' :: '*' :: (body ++ ['*', '/'])) cs
      (.comment .block, .text (String.ofList body)) := by
  refine ⟨'/', '*' :: (body ++ ['*', '/']), rfl, by decide, ?_⟩
  simp [read, blockComment, splitBlock_append h, show Char.isDigit '/' = false from rfl,
    show isWordStart '/' = false by decide]

theorem not_isBlank_of_isWordPart {c : Char} (h : isWordPart c = true) :
    Unicode.isBlank c = false := by
  simp only [isWordPart, Unicode.isAlphanumeric, Bool.or_eq_true, beq_iff_eq] at h
  obtain ((((h | h) | rfl) | rfl) | rfl) | rfl := h
  · exact Unicode.not_isBlank_of_isAlphabetic h
  · exact Unicode.not_isBlank_of_isNumber h
  all_goals decide

/-- A spelling in front of a blank is read as its word. The blank after a line comment has to end
the line. -/
theorem Spells.readsAs_blank (h : Spells text w)
    (hc : ∀ c, cs.head? = some c → Unicode.isBlank c = true)
    (hl : w.1 = .comment .line → ∀ c, cs.head? = some c → isLineEnd c = true) :
    ReadsAs text cs w := by
  have hne {d : Char} (hd : Unicode.isBlank d = false) : cs.head? ≠ some d := by
    intro hh
    rw [hc d hh] at hd
    cases hd
  cases h with
  | name hn =>
      refine readsAs_name hn fun c hcs => ⟨?_, ?_⟩
      · cases hp : isWordPart c with
        | false => rfl
        | true => exact absurd hcs (hne (not_isBlank_of_isWordPart hp))
      · rintro rfl
        exact hne (by decide) hcs
  | number hn hv =>
      refine readsAs_number hn hv fun c hcs => Numeral.endsBefore_iff.2 ⟨?_, ?_, ?_, ?_⟩
      · cases hd : c.isDigit with
        | false => rfl
        | true => exact absurd hcs (hne (Unicode.not_isBlank_of_isDigit hd))
      all_goals
        rintro rfl
        exact hne (by decide) hcs
  | quoted text => exact readsAs_quoted text (hne (by decide))
  | nationalQuoted text => exact readsAs_nationalQuoted text (hne (by decide))
  | lineComment hb => exact readsAs_lineComment hb (hl rfl)
  | blockComment hb => exact readsAs_blockComment hb cs
  | mark m => exact readsAs_mark fun c hcs => m.endsBefore_of_isBlank (hc c hcs)

theorem Spells.readsAs (h : Spells text w) (cs : List Char)
    (hc : ∀ c, cs.head? = some c → c = '\n') : ReadsAs text cs w := by
  refine h.readsAs_blank (fun c hcs => ?_) fun _ c hcs => ?_
  all_goals
    obtain rfl := hc c hcs
    decide

theorem ReadsAs.spells (h : ReadsAs text cs w) : Spells text w := by
  obtain ⟨c, tail, rfl, hb, hr⟩ := h
  have hs : Spells (read c (tail ++ cs)).taken w := spells_read hb (congrArg content hr)
  rwa [hr] at hs

/-- A text spells one word at most. -/
theorem Spells.unique (h : Spells text w) (h' : Spells text v) : w = v := by
  obtain ⟨c, tail, rfl, -, hr⟩ := h.readsAs [] nofun
  obtain ⟨c', tail', ht, -, hr'⟩ := h'.readsAs [] nofun
  cases ht
  simpa using hr.symm.trans hr'

end Lexeme

end Transact
