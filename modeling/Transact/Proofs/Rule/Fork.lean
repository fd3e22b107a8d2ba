import Transact.Proofs.Rule.Onward

namespace Transact

namespace Stream

variable {s t : Stream}

/-- What a stream has behind the tokens that it has in common with another one. -/
structure Ending where
  tokens : List Token
  fault : Option LexicalError

variable {E F : Ending}

inductive Forked (E F : Ending) : Stream → Stream → Prop where
  | intro (current : Token) (common : List Token) :
      Forked E F ⟨current, common ++ E.tokens, E.fault⟩ ⟨current, common ++ F.tokens, F.fault⟩

def Past (E : Ending) (s : Stream) : Prop :=
  ∃ last t, advance ⟨last, E.tokens, E.fault⟩ = .ok t ∧ t.Reaches s

theorem Past.reaches (h : Past E s) (hr : s.Reaches t) : Past E t := by
  obtain ⟨last, u, ha, hu⟩ := h
  exact ⟨last, u, ha, hu.trans hr⟩

theorem Forked.current_eq (h : Forked E F s t) : s.current = t.current := by
  cases h
  rfl

/-- Streams that have a next token in common move to it, and the first one of other streams is past
the tokens in common or meets its lexical error. -/
theorem Forked.advance (h : Forked E F s t) :
    (∃ u w, s.advance = .ok u ∧ t.advance = .ok w ∧ Forked E F u w) ∨
      (∃ u, s.advance = .ok u ∧ Past E u) ∨ ∃ e, s.advance = .error e := by
  obtain ⟨current, common⟩ := h
  cases common with
  | cons x xs => exact .inl ⟨_, _, rfl, rfl, .intro x xs⟩
  | nil =>
      cases ha : Stream.advance ⟨current, [] ++ E.tokens, E.fault⟩ with
      | ok u => exact .inr (.inl ⟨u, rfl, current, u, ha, .refl⟩)
      | error e => exact .inr (.inr ⟨e, rfl⟩)

theorem Reaches.length_le (h : s.Reaches t) : t.upcoming.length ≤ s.upcoming.length := by
  induction h with
  | refl => exact Nat.le_refl _
  | advance _ ha ih =>
      refine Nat.le_trans ?_ ih
      obtain ⟨x, xs, hup, rfl⟩ | ⟨-, -, rfl⟩ := advance_cases ha
      · rw [hup]
        exact Nat.le_succ _
      · exact Nat.zero_le _

theorem Reaches.kind_eq_eof (h : s.Reaches t) (hk : s.current.kind = .eof) (hup : s.upcoming = []) :
    t.current.kind = .eof ∧ t.upcoming = [] := by
  induction h with
  | refl => exact ⟨hk, hup⟩
  | advance _ ha ih =>
      obtain ⟨x, xs, hup', rfl⟩ | ⟨-, -, rfl⟩ := advance_cases ha
      · cases ih.2.symm.trans hup'
      · exact ⟨rfl, rfl⟩

theorem not_past {current : Token} (hk : current.kind ≠ .eof) :
    ¬Past E ⟨current, E.tokens, E.fault⟩ := by
  rintro ⟨last, t, ha, hr⟩
  obtain ⟨x, xs, hup, rfl⟩ | ⟨hup, -, rfl⟩ := advance_cases ha
  · have hle := hr.length_le
    simp only at hup hle
    rw [hup] at hle
    exact Nat.not_succ_le_self _ hle
  · exact hk (hr.kind_eq_eof rfl rfl).1

end Stream

variable {α β : Type} {n j k : Nat} {E F : Stream.Ending}

inductive Outcome.Forked (E F : Stream.Ending) : Outcome α j → Outcome α k → Prop where
  | ok {v : α} {s t : Stream} {le : s.size ≤ j} {le' : t.size ≤ k} (h : Stream.Forked E F s t) :
      Forked E F (.ok v s le) (.ok v t le')
  | error {e : SyntaxError} {s t : Stream} (h : Stream.Forked E F s t) :
      Forked E F (.error e s) (.error e t)
  | past {o : Outcome α j} {o' : Outcome α k} (h : Stream.Past E o.rest) : Forked E F o o'
  | lexical {e : LexicalError} {s : Stream} {o' : Outcome α k} :
      Forked E F (.error (.lexical e) s) o'

theorem Outcome.Forked.weaken {i l : Nat} {o : Outcome α i} {o' : Outcome α l}
    (h : o.Forked E F o') (hj : i ≤ j) (hk : l ≤ k) : (o.weaken hj).Forked E F (o'.weaken hk) := by
  cases h with
  | ok h => exact .ok h
  | error h => exact .error h
  | past h => exact .past (by rwa [Outcome.rest_weaken])
  | lexical => exact .lexical

/-- Behind tokens that are past those in common, all is past them, but for a lexical error. -/
theorem Outcome.ReachedFrom.forked {o : Outcome α j} {s : Stream} (h : o.ReachedFrom s)
    (hs : Stream.Past E s) (o' : Outcome α k) : o.Forked E F o' := by
  cases h with
  | ok h => exact .past (hs.reaches h)
  | blame h _ _ => exact .past (hs.reaches h)
  | lexical _ _ => exact .lexical

namespace Rule

/-- The rule does the same on streams that go apart while it reads what they have in common. -/
def Forks (p : Rule n α) : Prop :=
  ∀ (E F : Stream.Ending) (s t : Stream), Stream.Forked E F s t →
    ∀ hs ht, (p s hs).Forked E F (p t ht)

namespace Forks

theorem pure (v : α) : Forks (Pure.pure v : Rule n α) := fun _ _ _ _ h _ _ => .ok h

theorem current : Forks (Rule.current : Rule n Token) := by
  rintro E F _ _ ⟨current, common⟩ hs ht
  exact .ok (.intro current common)

theorem unexpected : Forks (Rule.unexpected : Rule n α) := by
  rintro E F _ _ ⟨current, common⟩ hs ht
  exact .error (.intro current common)

theorem expected (what : Expectation) : Forks (Rule.expected what : Rule n α) := by
  rintro E F _ _ ⟨current, common⟩ hs ht
  exact .error (.intro current common)

theorem advance : Forks (Rule.advance : Rule n Token) := by
  intro E F s t h hs ht
  obtain ⟨u, w, ha, ha', hu⟩ | ⟨u, ha, hu⟩ | ⟨e, ha⟩ := h.advance
  · rw [advance_eq_ok ha, advance_eq_ok ha', h.current_eq]
    exact .ok hu
  · rw [advance_eq_ok ha]
    exact .past hu
  · rw [advance_eq_error ha]
    exact .lexical

theorem bind {p : Rule n α} {f : α → Rule n β} (hr : ∀ v, Reads (f v)) (hp : Forks p)
    (hf : ∀ v, Forks (f v)) : Forks (p >>= f) := by
  intro E F s t h hs ht
  have hforked := hp E F s t h hs ht
  rw [bind_eq, bind_eq]
  generalize p s hs = o, p t ht = o' at hforked ⊢
  cases hforked with
  | ok h => exact (hf _ E F _ _ h _ _).weaken _ _
  | error h => exact .error h
  | lexical => exact .lexical
  | past h =>
      -- What follows is not known to do the same on the second stream. It only reads on.
      cases o with
      | error e rest => exact .past h
      | ok v rest le => exact ((hr v rest _).weaken le).forked h _

theorem constant : Forks (Grammar.constant : Rule n Expression) := by
  intro E F s t h hs ht
  obtain ⟨u, w, ha, ha', hu⟩ | ⟨u, ha, hu⟩ | ⟨e, ha⟩ := h.advance
  · cases hc : Constant.ofToken? s.current with
    | some c =>
        rw [Grammar.constant_eq_some ha hc, Grammar.constant_eq_some ha' (h.current_eq ▸ hc),
          h.current_eq]
        exact .ok hu
    | none =>
        rw [Grammar.constant_eq_none ha hc, Grammar.constant_eq_none ha' (h.current_eq ▸ hc),
          h.current_eq]
        exact .error hu
  · cases hc : Constant.ofToken? s.current with
    | some c =>
        rw [Grammar.constant_eq_some ha hc]
        exact .past hu
    | none =>
        rw [Grammar.constant_eq_none ha hc]
        exact .past hu
  · rw [Grammar.constant_eq_error ha]
    exact .lexical

theorem literal : Forks (Grammar.literal : Rule n Expression) := by
  intro E F s t h hs ht
  rw [Grammar.literal, kind_bind_eq, kind_bind_eq, ← h.current_eq]
  cases s.current.kind with
  | constant type => exact constant E F s t h hs ht
  | _ => exact unexpected E F s t h hs ht

theorem take {f : Token → Rule n α} (hr : ∀ t, Reads (f t)) (hf : ∀ t, Forks (f t)) :
    Forks (Rule.take f) := by
  intro E F s t h hs ht
  by_cases hk : s.current.kind = .eof
  · rw [Rule.take, Rule.take, dif_pos hk, dif_pos (h.current_eq ▸ hk)]
    exact unexpected E F s t h hs ht
  · obtain ⟨u, w, ha, ha', hu⟩ | ⟨u, ha, hu⟩ | ⟨e, ha⟩ := h.advance
    · rw [take_eq_ok hk ha, take_eq_ok (h.current_eq ▸ hk) ha', congrArg f h.current_eq.symm]
      exact (hf s.current E F u w hu _ _).weaken _ _
    · rw [take_eq_ok hk ha]
      exact ((hr s.current u _).weaken _).forked hu _
    · rw [take_eq_error hk ha]
      exact .lexical

end Forks

/-- A built rule does the same on streams that go apart. -/
theorem Built.forks {p : Rule n α} (h : Built p) : Forks p := by
  induction h with
  | pure v => exact .pure v
  | current => exact .current
  | advance => exact .advance
  | unexpected => exact .unexpected
  | expected what => exact .expected what
  | literal => exact .literal
  | bind _ hf ihp ihf => exact .bind (fun v => (hf v).reads) ihp ihf
  | take hf ihf => exact .take (fun t => (hf t).reads) ihf

end Rule

end Transact
