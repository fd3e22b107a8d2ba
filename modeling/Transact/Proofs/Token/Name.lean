import Transact.Proofs.Text.Letter
import Transact.Proofs.Token.Reads

namespace Transact

namespace Word

def name (text : String) : Word := (Kind.ofWord text, .text text)

def keyword (k : Keyword) : Word := (.keyword k, .text k.spelling)

def mark (m : Mark) : Word := (.mark m, .none)

end Word

theorem Kind.ofWord_cases (text : String) :
    Kind.ofWord text = .identifier ∨ ∃ k, Kind.ofWord text = .keyword k := by
  rw [Kind.ofWord]
  split
  · exact .inr ⟨_, rfl⟩
  · exact .inl rfl

theorem Word.name_isComment (text : String) : (Word.name text).1.isComment = false := by
  rw [Word.name]
  obtain h | ⟨k, h⟩ := Kind.ofWord_cases text <;> rw [h] <;> rfl

theorem Word.name_ne_eof (text : String) : (Word.name text).1 ≠ .eof := by
  rw [Word.name]
  obtain h | ⟨k, h⟩ := Kind.ofWord_cases text <;> rw [h] <;> nofun

namespace Lexeme

inductive IsName : List Char → Prop where
  | plain {c : Char} {cs : List Char} (hb : Unicode.isBlank c = false) (hd : c.isDigit = false)
      (hs : isWordStart c = true) (hp : ∀ x ∈ cs, isWordPart x = true) : IsName (c :: cs)
  | bracketed {body : List Char} (h : ']' ∉ body) : IsName ('[' :: (body ++ [']']))
  | quoted {body : List Char} (h : '"' ∉ body) : IsName ('"' :: (body ++ ['"']))

theorem IsName.ne_empty {text : String} (h : IsName text.toList) : text ≠ "" := by
  rintro rfl
  cases h

theorem takeWhile_append_of_all {p : Char → Bool} {xs ys : List Char} (hx : ∀ x ∈ xs, p x = true)
    (hy : ∀ y, ys.head? = some y → p y = false) : (xs ++ ys).takeWhile p = xs := by
  rw [List.takeWhile_append_of_pos hx]
  cases ys with
  | nil => simp
  | cons y ys => simp [hy y rfl]

theorem dropWhile_append_of_all {p : Char → Bool} {xs ys : List Char} (hx : ∀ x ∈ xs, p x = true)
    (hy : ∀ y, ys.head? = some y → p y = false) : (xs ++ ys).dropWhile p = ys := by
  rw [List.dropWhile_append_of_pos hx]
  cases ys with
  | nil => simp
  | cons y ys => simp [hy y rfl]

theorem ofWord_eq (word rest : List Char) :
    ofWord word rest = ⟨word, rest, .ok (Word.name (String.ofList word))⟩ := rfl

theorem delimited_eq {opening closing : Char} {body : List Char} (h : closing ∉ body)
    (rest : List Char) :
    delimited opening closing (body ++ closing :: rest) =
      ⟨opening :: (body ++ [closing]), rest,
        .ok (Word.name (String.ofList (opening :: (body ++ [closing]))))⟩ := by
  have hb : ∀ x ∈ body, (x != closing) = true := by
    intro x hx
    simp only [bne_iff_ne, ne_eq]
    rintro rfl
    exact h hx
  have hc : ∀ y, (closing :: rest).head? = some y → (y != closing) = false := by simp
  simp only [delimited, takeWhile_append_of_all hb hc, dropWhile_append_of_all hb hc,
    List.cons_append, ofWord_eq]

theorem read_plain {c : Char} {cs rest : List Char} (hd : c.isDigit = false)
    (hs : isWordStart c = true) (hp : ∀ x ∈ cs, isWordPart x = true)
    (hr : ∀ x, rest.head? = some x → isWordPart x = false ∧ x ≠ '\'') :
    read c (cs ++ rest) = ⟨c :: cs, rest, .ok (Word.name (String.ofList (c :: cs)))⟩ := by
  have hne : ∀ x, isWordStart x = false → c ≠ x := by
    rintro x hx rfl
    rw [hs] at hx
    cases hx
  have hN : ¬(c = 'N' ∧ (cs ++ rest).head? = some '\'') := by
    rintro ⟨-, hh⟩
    cases cs with
    | nil => exact (hr _ hh).2 rfl
    | cons x cs =>
        have hx := hp x (by simp)
        cases hh
        revert hx
        decide
  have hc : ∀ x ∈ c :: cs, isWordPart x = true := by
    rintro x (_ | ⟨_, hx⟩)
    · exact isWordPart_of_isWordStart hs
    · exact hp x hx
  have ht := takeWhile_append_of_all hc fun y hy => (hr y hy).1
  have hw := dropWhile_append_of_all hc fun y hy => (hr y hy).1
  have hdot : (c == '.') = false := beq_false_of_ne (hne '.' (by decide))
  rw [List.cons_append] at ht hw
  simp only [read, hd, hdot, Bool.false_and, Bool.or_false, Bool.false_eq_true, if_false, if_neg hN,
    if_neg (hne '\'' (by decide)), if_neg (hne '[' (by decide)), if_neg (hne '"' (by decide)), hs,
    if_true, plainWord, ht, hw, ofWord_eq]

theorem read_bracket (rest : List Char) : read '[' rest = delimited '[' ']' rest := by
  simp [read, show Char.isDigit '[' = false from rfl]

theorem read_doubleQuote (rest : List Char) : read '"' rest = delimited '"' '"' rest := by
  simp [read, show Char.isDigit '"' = false from rfl]

end Lexeme

namespace Mark

/-- Whether the mark ends in front of the character. It does not if both begin a longer mark, a
comment or a number. -/
def endsBefore (m : Mark) (c : Char) : Bool :=
  !(all.any fun n => n.spelling == m.spelling ++ [c]) && !(m == dot && c.isDigit) &&
    !(m == minus && c == '-') && !(m == slash && c == '*')

theorem find?_spelling (m : Mark) : (all.find? fun n => n.spelling == m.spelling) = some m := by
  cases m <;> rfl

theorem spelling_first (m : Mark) : ∃ a rest, m.spelling = a :: rest ∧ a.isDigit = false ∧
    Lexeme.isWordStart a = false ∧ Unicode.isBlank a = false ∧
    a ≠ 'N' ∧ a ≠ '\'' ∧ a ≠ '[' ∧ a ≠ '"' := by
  cases m <;> exact ⟨_, _, rfl, by decide⟩

theorem spelling_cases (m : Mark) :
    (∃ a b, m.spelling = [a, b] ∧ a ≠ '.' ∧ b ≠ '-' ∧ b ≠ '*') ∨
    ∃ a, m.spelling = [a] ∧ (a = '.' → m = dot) ∧ (a = '-' → m = minus) ∧
      (a = '/' → m = slash) := by
  cases m
  all_goals first
    | exact .inr ⟨_, rfl, by decide⟩
    | exact .inl ⟨_, _, rfl, by decide⟩

end Mark

namespace Lexeme

theorem longestMark?_two {m : Mark} {x y : Char} {cs : List Char} (hm : m.spelling = [x, y]) :
    longestMark? (x :: y :: cs) = some m := by
  have hfind := m.find?_spelling
  rw [hm] at hfind
  simp only [longestMark?, List.take_succ_cons, List.take_zero, hfind]

theorem longestMark?_one {m : Mark} {x : Char} {cs : List Char} (hm : m.spelling = [x])
    (hno : ∀ y, cs.head? = some y → ∀ n : Mark, n.spelling ≠ [x, y]) :
    longestMark? (x :: cs) = some m := by
  have hfind := m.find?_spelling
  rw [hm] at hfind
  cases cs with
  | nil => simp only [longestMark?, List.take_succ_cons, List.take_nil, hfind]
  | cons y cs =>
      have hnone : (Mark.all.find? fun n => n.spelling == [x, y]) = none := by
        rw [List.find?_eq_none]
        exact fun n _ => by simpa using hno y rfl n
      simp only [longestMark?, List.take_succ_cons, List.take_zero, hnone, hfind]

theorem longestMark?_eq_none {x : Char} {cs : List Char} (hone : ∀ n : Mark, n.spelling ≠ [x])
    (hno : ∀ y, cs.head? = some y → ∀ n : Mark, n.spelling ≠ [x, y]) :
    longestMark? (x :: cs) = none := by
  have hnone {text : List Char} (h : ∀ n : Mark, n.spelling ≠ text) :
      (Mark.all.find? fun n => n.spelling == text) = none := by
    rw [List.find?_eq_none]
    exact fun n _ => by simpa using h n
  cases cs with
  | nil => simp only [longestMark?, List.take_succ_cons, List.take_nil, hnone hone]
  | cons y cs =>
      simp only [longestMark?, List.take_succ_cons, List.take_zero, hnone hone,
        hnone (hno y rfl)]

theorem longestMark?_append {m : Mark} {cs : List Char}
    (hf : ∀ c, cs.head? = some c → m.endsBefore c = true) :
    longestMark? (m.spelling ++ cs) = some m := by
  obtain ⟨a, b, hs, -⟩ | ⟨a, hs, -⟩ := m.spelling_cases
  · rw [hs]
    exact longestMark?_two hs
  · rw [hs]
    refine longestMark?_one hs fun c hc n hn => ?_
    have hends := hf c hc
    simp only [Mark.endsBefore, Bool.and_eq_true, Bool.not_eq_true', List.any_eq_false,
      beq_iff_eq] at hends
    refine hends.1.1.1 n n.mem_all ?_
    rw [hn, hs]
    rfl

theorem mark_append {m : Mark} {cs rest : List Char} {a : Char} (hs : m.spelling ++ cs = a :: rest)
    (hf : ∀ c, cs.head? = some c → m.endsBefore c = true) :
    mark a rest = ⟨m.spelling, cs, .ok (Word.mark m)⟩ := by
  have hl := longestMark?_append hf
  rw [hs] at hl
  simp only [mark, hl]
  rw [← hs, List.drop_left]
  rfl

theorem read_mark {m : Mark} {cs rest : List Char} {a : Char} (hs : m.spelling ++ cs = a :: rest)
    (hf : ∀ c, cs.head? = some c → m.endsBefore c = true) :
    read a rest = ⟨m.spelling, cs, .ok (Word.mark m)⟩ := by
  obtain ⟨a', tail, hm, hd, hw, hb, hN, hq, hbr, hdq⟩ := m.spelling_first
  have ha : a = a' := by
    rw [hm] at hs
    exact (List.cons.inj hs).1.symm
  subst ha
  have hbefore : (a == '.' && rest.head?.any Char.isDigit) = false ∧
      ¬(a = '-' ∧ rest.head? = some '-') ∧ ¬(a = '/' ∧ rest.head? = some '*') := by
    obtain ⟨x, y, hx, hdot, hy⟩ | ⟨x, hx, hdot, hminus, hslash⟩ := m.spelling_cases
    · rw [hx] at hs
      cases hs
      simp [hdot, hy]
    · rw [hx, List.singleton_append, List.cons.injEq] at hs
      obtain ⟨rfl, rfl⟩ := hs
      cases hc : cs.head? with
      | none => simp
      | some c =>
          have hm' := hf c hc
          simp only [Mark.endsBefore, Bool.and_eq_true, Bool.not_eq_true', Bool.and_eq_false_iff,
            beq_eq_false_iff_ne] at hm'
          obtain ⟨⟨⟨-, h1⟩, h2⟩, h3⟩ := hm'
          refine ⟨?_, ?_, ?_⟩
          · by_cases hp : x = '.'
            · obtain h1 | h1 := h1
              · exact absurd (hdot hp) h1
              · simp [h1]
            · simp [hp]
          · rintro ⟨hp, hc'⟩
            obtain h2 | h2 := h2
            · exact h2 (hminus hp)
            · exact h2 (Option.some.inj hc')
          · rintro ⟨hp, hc'⟩
            obtain h3 | h3 := h3
            · exact h3 (hslash hp)
            · exact h3 (Option.some.inj hc')
  obtain ⟨h1, h2, h3⟩ := hbefore
  simp only [read, hd, h1, Bool.or_self, Bool.false_eq_true, if_false, hN, false_and, if_neg hq,
    if_neg hbr, if_neg hdq, hw, if_neg h2, if_neg h3]
  exact mark_append hs hf

end Lexeme

namespace Lexeme

theorem readsAs_name {p cs : List Char} (hp : IsName p)
    (hf : ∀ c, cs.head? = some c → isWordPart c = false ∧ c ≠ '\'') :
    ReadsAs p cs (Word.name (String.ofList p)) := by
  cases hp with
  | plain hb hd hs hp => exact ⟨_, _, rfl, hb, read_plain hd hs hp hf⟩
  | @bracketed body hb =>
      refine ⟨'[', body ++ [']'], rfl, by decide, ?_⟩
      rw [List.append_assoc, List.singleton_append, read_bracket]
      exact delimited_eq hb cs
  | @quoted body hb =>
      refine ⟨'"', body ++ ['"'], rfl, by decide, ?_⟩
      rw [List.append_assoc, List.singleton_append, read_doubleQuote]
      exact delimited_eq hb cs

theorem readsAs_mark {m : Mark} {cs : List Char}
    (hf : ∀ c, cs.head? = some c → m.endsBefore c = true) :
    ReadsAs m.spelling cs (Word.mark m) := by
  obtain ⟨a, rest, hm, -, -, hb, -⟩ := m.spelling_first
  exact ⟨a, rest, hm, hb, read_mark (by rw [hm, List.cons_append]) hf⟩

end Lexeme

namespace Reads

theorem name {p cs : List Char} {ws : List Word} (hp : Lexeme.IsName p)
    (hf : ∀ c, cs.head? = some c → Lexeme.isWordPart c = false ∧ c ≠ '\'') (h : Reads cs ws) :
    Reads (p ++ cs) (Word.name (String.ofList p) :: ws) :=
  .of_readsAs (Lexeme.readsAs_name hp hf) (Word.name_isComment _) (Word.name_ne_eof _) h

theorem mark {m : Mark} {cs : List Char} {ws : List Word}
    (hf : ∀ c, cs.head? = some c → m.endsBefore c = true) (h : Reads cs ws) :
    Reads (m.spelling ++ cs) (Word.mark m :: ws) :=
  .of_readsAs (Lexeme.readsAs_mark hf) rfl nofun h

end Reads

end Transact
