import Transact.Proofs.Token.Cursor

namespace Transact

abbrev Word : Type := Kind × Value

def Token.word (t : Token) : Word := (t.kind, t.value)

def Lexeme.ReadsAs (text cs : List Char) (w : Word) : Prop :=
  ∃ c tail, text = c :: tail ∧ Unicode.isBlank c = false ∧ read c (tail ++ cs) = ⟨text, cs, .ok w⟩

/-- The text is made up of blanks and of lexemes of these words, with no comment among them. -/
inductive Reads : List Char → List Word → Prop where
  | nil : Reads [] []
  | blank {c : Char} {cs : List Char} {ws : List Word} (hc : Unicode.isBlank c = true)
      (h : Reads cs ws) : Reads (c :: cs) ws
  | lexeme {c : Char} {cs taken rest : List Char} {w : Word} {ws : List Word}
      (hc : Unicode.isBlank c = false) (hr : Lexeme.read c cs = ⟨taken, rest, .ok w⟩)
      (hw : w.1.isComment = false) (he : w.1 ≠ .eof) (h : Reads rest ws) : Reads (c :: cs) (w :: ws)

namespace Cursor

theorem tokens_eq_error {c d : Cursor} {e : LexicalError} (h : c.next = (.error e, d)) :
    c.tokens = ([], some e) := by
  rw [tokens]
  split
  · rename_i e' after he
    cases h.symm.trans he
    rfl
  · rename_i t after ht
    cases h.symm.trans ht

theorem tokens_eq_ok {c d : Cursor} {t : Token} (h : c.next = (.ok t, d)) :
    c.tokens = if t.kind = .eof then ([], none) else (t :: d.tokens.1, d.tokens.2) := by
  rw [tokens]
  split
  · rename_i e after he
    cases h.symm.trans he
  · rename_i u after hu
    cases h.symm.trans hu
    rfl

/-- Induction along the steps of a cursor. Its tokens end at an error or at the end of the input, or
one token stands in front of those behind it. -/
theorem byTokens {motive : Cursor → Prop}
    (error : ∀ c d e, c.next = (.error e, d) → c.tokens = ([], some e) → motive c)
    (eof : ∀ c d t, c.next = (.ok t, d) → t.kind = .eof → c.tokens = ([], none) → motive c)
    (token : ∀ c d t, c.next = (.ok t, d) → t.kind ≠ .eof →
      c.tokens = (t :: d.tokens.1, d.tokens.2) → motive d → motive c)
    (c : Cursor) : motive c := by
  induction hl : c.rest.length using Nat.strongRecOn generalizing c with
  | ind l ih =>
      cases hn : c.next with
      | mk result d =>
          cases result with
          | error e => exact error c d e hn (tokens_eq_error hn)
          | ok t =>
              have hts := tokens_eq_ok hn
              by_cases ht : t.kind = .eof
              · rw [if_pos ht] at hts
                exact eof c d t hn ht hts
              · rw [if_neg ht] at hts
                exact token c d t hn ht hts (ih _ (hl ▸ length_next_lt hn ht) d rfl)

theorem tokens_eq_of_next {c d : Cursor} (h : c.next = d.next) : c.tokens = d.tokens := by
  cases hd : d.next with
  | mk result after =>
      cases result with
      | error e => rw [tokens_eq_error hd, tokens_eq_error (h.trans hd)]
      | ok t => rw [tokens_eq_ok hd, tokens_eq_ok (h.trans hd)]

theorem tokens_blank {c : Char} (hc : Unicode.isBlank c = true) (p : Place) (cs : List Char) :
    tokens ⟨p, c :: cs⟩ = tokens ⟨p.next c, cs⟩ := by
  refine tokens_eq_of_next ?_
  simp only [next, skipBlanks, advance, List.takeWhile_cons, List.dropWhile_cons, hc, if_true]
  rfl

theorem tokens_nil (p : Place) : tokens ⟨p, []⟩ = ([], none) := by
  have h : next ⟨p, []⟩ = (.ok (.eof (p.next ' ')), ⟨p, []⟩) := rfl
  rw [tokens_eq_ok h]
  rfl

theorem tokens_lexeme {c : Char} {cs taken rest : List Char} {w : Word} (p : Place)
    (hc : Unicode.isBlank c = false) (hr : Lexeme.read c cs = ⟨taken, rest, .ok w⟩)
    (he : w.1 ≠ .eof) :
    tokens ⟨p, c :: cs⟩ =
      (⟨w.1, p.next c, w.2⟩ :: (tokens ⟨p.advance taken, rest⟩).1,
        (tokens ⟨p.advance taken, rest⟩).2) := by
  have hn : next ⟨p, c :: cs⟩ = (.ok ⟨w.1, p.next c, w.2⟩, ⟨p.advance taken, rest⟩) := by
    simp only [next, skipBlanks, advance, List.takeWhile_cons, List.dropWhile_cons, hc,
      Bool.false_eq_true, if_false, take, hr]
    rfl
  rw [tokens_eq_ok hn, if_neg he]

theorem exists_tokens_readsAs {text cs : List Char} {w : Word} (h : Lexeme.ReadsAs text cs w)
    (he : w.1 ≠ .eof) (p : Place) :
    ∃ t : Token, t.word = w ∧ tokens ⟨p, text ++ cs⟩ =
      (t :: (tokens ⟨p.advance text, cs⟩).1, (tokens ⟨p.advance text, cs⟩).2) := by
  obtain ⟨c, tail, rfl, hb, hr⟩ := h
  exact ⟨⟨w.1, p.next c, w.2⟩, rfl, tokens_lexeme p hb hr he⟩

end Cursor

namespace Reads

theorem of_readsAs {text cs : List Char} {w : Word} {ws : List Word}
    (ht : Lexeme.ReadsAs text cs w) (hw : w.1.isComment = false) (he : w.1 ≠ .eof)
    (h : Reads cs ws) : Reads (text ++ cs) (w :: ws) := by
  obtain ⟨c, tail, rfl, hc, hr⟩ := ht
  exact .lexeme hc hr hw he h

theorem tokens {cs : List Char} {ws : List Word} (h : Reads cs ws) (p : Place) :
    ∃ ts, Cursor.tokens ⟨p, cs⟩ = (ts, none) ∧ ts.map Token.word = ws ∧
      ∀ t ∈ ts, t.kind.isComment = false ∧ t.kind ≠ .eof := by
  induction h generalizing p with
  | nil => exact ⟨[], Cursor.tokens_nil p, rfl, by simp⟩
  | blank hc _ ih =>
      rw [Cursor.tokens_blank hc]
      exact ih _
  | @lexeme c cs taken rest w ws hc hr hw he _ ih =>
      obtain ⟨ts, ht, hm, hk⟩ := ih (p.advance taken)
      refine ⟨⟨w.1, p.next c, w.2⟩ :: ts, ?_, ?_, ?_⟩
      · rw [Cursor.tokens_lexeme p hc hr he, ht]
      · rw [List.map_cons, hm]
        rfl
      · rintro t (_ | ⟨_, ht⟩)
        · exact ⟨hw, he⟩
        · exact hk t ht

theorem blanks {xs cs : List Char} {ws : List Word} (hx : ∀ x ∈ xs, Unicode.isBlank x = true)
    (h : Reads cs ws) : Reads (xs ++ cs) ws := by
  induction xs with
  | nil => exact h
  | cons x xs ih =>
      exact .blank (hx x (by simp)) (ih fun y hy => hx y (by simp [hy]))

end Reads

end Transact
