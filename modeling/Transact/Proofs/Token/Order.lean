import Transact.Proofs.Token.Lexer
import Transact.Proofs.Token.Tile

namespace Transact

namespace Place

structure Reaches (p q : Place) : Prop where
  index : p.index ≤ q.index
  position : p.line < q.line ∨ p.line = q.line ∧ p.column ≤ q.column

structure Precedes (p q : Place) : Prop where
  index : p.index < q.index
  position : p.line < q.line ∨ p.line = q.line ∧ p.column < q.column

theorem Reaches.refl (p : Place) : p.Reaches p := ⟨Nat.le_refl _, .inr ⟨rfl, Nat.le_refl _⟩⟩

theorem Reaches.trans {p q r : Place} (h : p.Reaches q) (h' : q.Reaches r) : p.Reaches r := by
  obtain ⟨hi, hp⟩ := h
  obtain ⟨hi', hp'⟩ := h'
  constructor <;> omega

theorem Reaches.precedes {p q r : Place} (h : p.Reaches q) (h' : q.Precedes r) : p.Precedes r := by
  obtain ⟨hi, hp⟩ := h
  obtain ⟨hi', hp'⟩ := h'
  constructor <;> omega

theorem Precedes.weaken {p q : Place} (h : p.Precedes q) : p.Reaches q := by
  obtain ⟨hi, hp⟩ := h
  constructor <;> omega

theorem Precedes.position_ne {p q : Place} (h : p.Precedes q) :
    (p.line, p.column) ≠ (q.line, q.column) := by
  intro he
  obtain ⟨hl, hc⟩ := Prod.mk.inj he
  have := h.position
  omega

theorem reaches_next (p : Place) (c : Char) : p.Reaches (p.next c) := by
  rw [next]
  split
  · exact ⟨Nat.le_succ _, .inl (Nat.lt_succ_self _)⟩
  · split
    · exact ⟨Nat.le_succ _, .inr ⟨rfl, Nat.le_refl _⟩⟩
    · exact ⟨Nat.le_succ _, .inr ⟨rfl, Nat.le_succ _⟩⟩

theorem reaches_advance (p : Place) (text : List Char) : p.Reaches (p.advance text) := by
  induction text generalizing p with
  | nil => exact .refl p
  | cons c text ih => exact (p.reaches_next c).trans (ih (p.next c))

/-- A carriage return does not move the column, and it is blank. -/
theorem precedes_next {p : Place} {c : Char} (h : Unicode.isBlank c = false) :
    p.Precedes (p.next c) := by
  have hr : c ≠ '\r' := by
    rintro rfl
    revert h
    decide
  rw [next, if_neg hr]
  split
  · exact ⟨Nat.lt_succ_self _, .inl (Nat.lt_succ_self _)⟩
  · exact ⟨Nat.lt_succ_self _, .inr ⟨rfl, Nat.lt_succ_self _⟩⟩

end Place

namespace Cursor

/-- The next token stands behind what was read before it, and not behind what is read with it. -/
theorem precedes_of_next {c d : Cursor} {t : Token} (h : c.next = (.ok t, d)) (ht : t.kind ≠ .eof) :
    c.place.Precedes t.place ∧ t.place.Reaches d.place := by
  have hskip : c.place.Reaches c.skipBlanks.place := c.place.reaches_advance _
  simp only [next] at h
  split at h
  · cases h
    exact absurd rfl ht
  · rename_i first rest hr
    have hplace : c.skipBlanks.ahead = c.skipBlanks.place.next first := by rw [ahead, hr]; rfl
    have hfirst := Place.precedes_next (p := c.skipBlanks.place) (isBlank_first_skipBlanks hr)
    simp only [take] at h
    split at h
    · rename_i kind value hc
      obtain ⟨x, tail, htaken⟩ := List.exists_cons_of_ne_nil (Lexeme.taken_ne_nil hc)
      have hsplit : (Lexeme.read first rest).taken ++ (Lexeme.read first rest).rest =
          first :: rest := Lexeme.read_splits first rest
      rw [htaken, List.cons_append] at hsplit
      obtain ⟨rfl, -⟩ := List.cons.inj hsplit
      cases h
      rw [hplace]
      refine ⟨hskip.precedes hfirst, ?_⟩
      rw [advance, htaken]
      exact Place.reaches_advance _ tail
    · cases h
    · cases h

/-- Tokens stand in order, all of them behind what was read before. -/
theorem pairwise_tokens (c : Cursor) :
    (∀ t ∈ c.tokens.1, c.place.Precedes t.place) ∧
      c.tokens.1.Pairwise fun t u => t.place.Precedes u.place := by
  induction c using byTokens with
  | error c d e hn hc =>
      rw [hc]
      exact ⟨by simp, .nil⟩
  | eof c d t hn ht hc =>
      rw [hc]
      exact ⟨by simp, .nil⟩
  | token c d t hn ht hc ih =>
      rw [hc]
      obtain ⟨hbefore, hafter⟩ := precedes_of_next hn ht
      obtain ⟨hall, hpairs⟩ := ih
      have hfrom : ∀ u ∈ d.tokens.1, t.place.Precedes u.place :=
        fun u hu => hafter.precedes (hall u hu)
      constructor
      · intro u hu
        rcases List.mem_cons.1 hu with rfl | hu
        · exact hbefore
        · exact hbefore.weaken.precedes (hfrom u hu)
      · exact .cons hfrom hpairs

end Cursor

theorem lex_pairwise {source : String} {ts : List Token} (h : lex source = .ok ts) :
    ts.Pairwise fun t u => t.place.Precedes u.place := by
  have hpairs := (Cursor.ofSource source).pairwise_tokens.2
  rwa [Cursor.tokens_of_lex h] at hpairs

end Transact
