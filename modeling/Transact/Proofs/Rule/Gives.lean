import Transact.Proofs.Rule.Restrict

namespace Transact.Rule

variable {α β ω : Type} {m n : Nat} {s t : Stream} {v w : α}

def Gives (p : Rule n α) (s : Stream) (v : α) (t : Stream) : Prop :=
  ∃ (hs : s.size < n) (le : t.size ≤ s.size), p s hs = .ok v t le

theorem Gives.size_lt {p : Rule n α} (h : p.Gives s v t) : s.size < n := h.1

theorem Gives.size_le {p : Rule n α} (h : p.Gives s v t) : t.size ≤ s.size := h.2.1

theorem Gives.eq {p : Rule n α} (h : p.Gives s v t) {u : Stream} (h' : p.Gives s w u) :
    v = w ∧ t = u := by
  obtain ⟨hs, le, hp⟩ := h
  obtain ⟨_, le', hp'⟩ := h'
  cases hp.symm.trans hp'
  exact ⟨rfl, rfl⟩

theorem gives_eq {p q : Rule n α} (h : ∀ hs, p s hs = q s hs) : p.Gives s v t ↔ q.Gives s v t := by
  simp only [Gives, h]

theorem gives_restrict (h : m ≤ n) (p : Rule n α) :
    (restrict h p).Gives s v t ↔ s.size < m ∧ p.Gives s v t := by
  constructor
  · rintro ⟨hs, le, hp⟩
    exact ⟨hs, Nat.lt_of_lt_of_le hs h, le, hp⟩
  · rintro ⟨hs, _, le, hp⟩
    exact ⟨hs, le, hp⟩

theorem gives_pure : (pure w : Rule n α).Gives s v t ↔ s.size < n ∧ w = v ∧ s = t := by
  constructor
  · rintro ⟨hs, le, hp⟩
    cases hp
    exact ⟨hs, rfl, rfl⟩
  · rintro ⟨hs, rfl, rfl⟩
    exact ⟨hs, Nat.le_refl _, rfl⟩

theorem not_gives_unexpected : ¬(unexpected : Rule n α).Gives s v t := by
  rintro ⟨hs, le, hp⟩
  cases hp

theorem not_gives_expected {what : Expectation} : ¬(expected what : Rule n α).Gives s v t := by
  rintro ⟨hs, le, hp⟩
  cases hp

theorem gives_bind {p : Rule n β} {f : β → Rule n α} :
    (p >>= f).Gives s v t ↔ ∃ w u, p.Gives s w u ∧ (f w).Gives u v t := by
  constructor
  · rintro ⟨hs, le, h⟩
    change Rule.bind p f s hs = _ at h
    simp only [Rule.bind] at h
    cases hp : p s hs with
    | error e rest => simp only [hp] at h; cases h
    | ok w u hle =>
        simp only [hp] at h
        cases hf : f w u (Nat.lt_of_le_of_lt hle hs) with
        | error e rest => rw [hf] at h; cases h
        | ok x rest hle' =>
            rw [hf] at h
            cases h
            exact ⟨w, u, ⟨hs, hle, hp⟩, _, hle', hf⟩
  · rintro ⟨w, u, ⟨hs, hle, hp⟩, hu, hle', hf⟩
    refine ⟨hs, Nat.le_trans hle' hle, ?_⟩
    change Rule.bind p f s hs = _
    simp only [Rule.bind, hp, hf]
    rfl

theorem gives_map {p : Rule n β} {f : β → α} :
    (f <$> p).Gives s v t ↔ ∃ w, p.Gives s w t ∧ f w = v := by
  change (p >>= fun w => pure (f w)).Gives s v t ↔ _
  rw [gives_bind]
  constructor
  · rintro ⟨w, u, hp, hv⟩
    obtain ⟨_, rfl, rfl⟩ := gives_pure.1 hv
    exact ⟨w, hp, rfl⟩
  · rintro ⟨w, hp, rfl⟩
    exact ⟨w, t, hp, gives_pure.2 ⟨Nat.lt_of_le_of_lt hp.size_le hp.size_lt, rfl, rfl⟩⟩

theorem gives_kind_bind {f : Kind → Rule n α} :
    (kind >>= f).Gives s v t ↔ (f s.current.kind).Gives s v t := by
  rw [gives_bind]
  constructor
  · rintro ⟨w, u, ⟨hs, le, hp⟩, hf⟩
    cases hp
    exact hf
  · intro hf
    exact ⟨_, _, ⟨hf.size_lt, Nat.le_refl _, rfl⟩, hf⟩

theorem gives_current_bind {f : Token → Rule n α} :
    (current >>= f).Gives s v t ↔ (f s.current).Gives s v t := by
  rw [gives_bind]
  constructor
  · rintro ⟨w, u, ⟨hs, le, hp⟩, hf⟩
    cases hp
    exact hf
  · intro hf
    exact ⟨_, _, ⟨hf.size_lt, Nat.le_refl _, rfl⟩, hf⟩

theorem gives_advance {v : Token} :
    (advance : Rule n Token).Gives s v t ↔ s.size < n ∧ s.current = v ∧ s.advance = .ok t := by
  constructor
  · rintro ⟨hs, le, h⟩
    simp only [advance] at h
    split at h
    · rename_i u hu
      cases h
      exact ⟨hs, rfl, hu⟩
    · cases h
  · rintro ⟨hs, rfl, ht⟩
    refine ⟨hs, Stream.size_advance_le ht, ?_⟩
    simp only [advance]
    split
    · rename_i u hu
      cases ht.symm.trans hu
      rfl
    · rename_i e he
      cases ht.symm.trans he

theorem gives_expect {k : Kind} {v : Token} :
    (expect k : Rule n Token).Gives s v t ↔
      s.size < n ∧ s.current.kind = k ∧ s.current = v ∧ s.advance = .ok t := by
  rw [expect, gives_kind_bind]
  split
  · rename_i hk
    simp [gives_advance, hk]
  · rename_i hk
    simp [hk, not_gives_expected]

theorem gives_expect_bind_pure {k : Kind} :
    (expect k >>= fun _ => pure w : Rule n α).Gives s v t ↔
      s.size < n ∧ s.current.kind = k ∧ s.advance = .ok t ∧ w = v := by
  rw [gives_bind]
  constructor
  · rintro ⟨c, u, he, hv⟩
    obtain ⟨hs, hk, -, ht⟩ := gives_expect.1 he
    obtain ⟨-, rfl, rfl⟩ := gives_pure.1 hv
    exact ⟨hs, hk, ht, rfl⟩
  · rintro ⟨hs, hk, ht, rfl⟩
    exact ⟨_, t, gives_expect.2 ⟨hs, hk, rfl, ht⟩,
      gives_pure.2 ⟨Nat.lt_of_le_of_lt (Stream.size_advance_le ht) hs, rfl, rfl⟩⟩

theorem gives_take {f : Token → Rule n α} :
    (take f).Gives s v t ↔ s.current.kind ≠ .eof ∧
      ∃ u, s.advance = .ok u ∧ s.size < n + 1 ∧ (f s.current).Gives u v t := by
  constructor
  · rintro ⟨hs, le, h⟩
    by_cases hk : s.current.kind = .eof
    · simp only [take, hk, dif_pos] at h
      cases h
    · cases ha : s.advance with
      | error e => rw [take_eq_error hk ha] at h; cases h
      | ok u =>
          rw [take_eq_ok hk ha] at h
          cases hf : f s.current u (Nat.lt_of_lt_of_le (Stream.size_advance_lt ha hk)
              (Nat.le_of_lt_succ hs)) with
          | error e rest => rw [hf] at h; cases h
          | ok w rest hle =>
              rw [hf] at h
              cases h
              exact ⟨hk, u, rfl, hs, _, hle, hf⟩
  · rintro ⟨hk, u, ha, hs, hu, hle, hf⟩
    refine ⟨hs, Nat.le_trans hle (Stream.size_advance_le ha), ?_⟩
    rw [take_eq_ok hk ha, hf]
    rfl

theorem gives_begin {k : Kind} (hk : k ≠ .eof) {f : Token → Rule n α} :
    (begin k f).Gives s v t ↔ s.current.kind = k ∧
      ∃ u, s.advance = .ok u ∧ s.size < n + 1 ∧ (f s.current).Gives u v t := by
  rw [begin, gives_kind_bind]
  split
  · rename_i h
    rw [gives_take]
    simp [h, hk]
  · rename_i h
    simp [h, not_gives_expected]

variable {step : α → Kind → Option (Token → Rule n α)}

/-- A loop ends at once, or goes on behind one token with the value that it gave. -/
theorem gives_loop :
    Gives (loop step v) s w t ↔
      (s.size < n ∧ (step v s.current.kind = none ∨ s.current.kind = .eof) ∧ v = w ∧ s = t) ∨
      ∃ f u x y, step v s.current.kind = some f ∧ s.current.kind ≠ .eof ∧ s.size < n ∧
        s.advance = .ok u ∧ (f s.current).Gives u x y ∧ Gives (loop step x) y w t := by
  constructor
  · rintro ⟨hs, le, h⟩
    cases hf : step v s.current.kind with
    | none =>
        rw [loop_eq_none hf] at h
        cases h
        exact .inl ⟨hs, .inl rfl, rfl, rfl⟩
    | some f =>
        by_cases hk : s.current.kind = .eof
        · rw [loop_eq_eof hk] at h
          cases h
          exact .inl ⟨hs, .inr hk, rfl, rfl⟩
        · cases ha : s.advance with
          | error e => rw [loop_eq_error hf hk ha] at h; cases h
          | ok u =>
              rw [loop_eq_ok hf hk ha] at h
              dsimp only at h
              split at h
              · cases h
              · rename_i x y hle hx
                cases hl : loop step x y _ with
                | error e rest => rw [hl] at h; cases h
                | ok w' t' le' =>
                    rw [hl] at h
                    cases h
                    exact .inr ⟨f, u, x, y, rfl, hk, hs, rfl, ⟨_, _, hx⟩, _, _, hl⟩
  · rintro (⟨hs, hstop, rfl, rfl⟩ | ⟨f, u, x, y, hf, hk, hs, ha, ⟨hu, hle, hx⟩, hy, le', hl⟩)
    · refine ⟨hs, Nat.le_refl _, ?_⟩
      obtain h | h := hstop
      · exact loop_eq_none h hs
      · exact loop_eq_eof h hs
    · refine ⟨hs, Nat.le_trans le' (Nat.le_trans hle (Stream.size_advance_le ha)), ?_⟩
      rw [loop_eq_ok hf hk ha]
      simp only [hx, hl]
      rfl

variable {stop : Kind → Bool} {item : Rule n α} {shrinks : Shrinks item} {items found : List α}

theorem gives_many :
    Gives (many stop item shrinks items) s found t ↔
      (s.size < n ∧ stop s.current.kind = true ∧ items = found ∧ s = t) ∨
      ∃ x u, ¬stop s.current.kind = true ∧ item.Gives s x u ∧
        Gives (many stop item shrinks (items ++ [x])) u found t := by
  constructor
  · rintro ⟨hs, le, h⟩
    by_cases hk : stop s.current.kind = true
    · rw [many_eq_stop hk] at h
      cases h
      exact .inl ⟨hs, hk, rfl, rfl⟩
    · cases hi : item s hs with
      | error e rest => rw [many_eq_error hk hi] at h; cases h
      | ok x u hle =>
          rw [many_eq_ok hk hi] at h
          cases hm : many stop item shrinks (items ++ [x]) u _ with
          | error e rest => rw [hm] at h; cases h
          | ok found' t' le' =>
              rw [hm] at h
              cases h
              exact .inr ⟨x, u, hk, ⟨hs, hle, hi⟩, _, _, hm⟩
  · rintro (⟨hs, hk, rfl, rfl⟩ | ⟨x, u, hk, ⟨hs, hle, hi⟩, hu, le', hm⟩)
    · exact ⟨hs, Nat.le_refl _, many_eq_stop hk hs⟩
    · refine ⟨hs, Nat.le_trans le' hle, ?_⟩
      rw [many_eq_ok hk hi, hm]
      rfl

variable {operator : Kind → Option ω} {tier : ω → Nat} {operand : Rule n α}
variable {join : Token → α → ω → α → α} {min : Nat} {left : α}

theorem gives_climb (heof : operator .eof = none) :
    Gives (climb operator tier operand join min left) s v t ↔
      (s.size < n ∧ (∀ op, operator s.current.kind = some op → tier op < min) ∧ left = v ∧ s = t) ∨
      ∃ op u right w right' x, operator s.current.kind = some op ∧ min ≤ tier op ∧ s.size < n ∧
        s.advance = .ok u ∧ operand.Gives u right w ∧
        Gives (climb operator tier operand join (tier op + 1) right) w right' x ∧
        Gives (climb operator tier operand join min (join s.current left op right')) x v t := by
  constructor
  · rintro ⟨hs, le, h⟩
    by_cases hstop : ∀ op, operator s.current.kind = some op → tier op < min
    · rw [climb_eq_stop fun op ho => .inl (hstop op ho)] at h
      cases h
      exact .inl ⟨hs, hstop, rfl, rfl⟩
    · cases ho : operator s.current.kind with
      | none => exact absurd (by simp [ho]) hstop
      | some op =>
          have hm : min ≤ tier op := by simpa [ho] using hstop
          have hk := ne_eof_of_operator heof ho
          cases ha : s.advance with
          | error e => rw [climb_eq_error ho hm hk ha] at h; cases h
          | ok u =>
              rw [climb_eq_ok ho hm hk ha] at h
              dsimp only at h
              split at h
              · cases h
              · rename_i right w hle hp
                split at h
                · cases h
                · rename_i right' x hle' hr
                  cases hc : climb operator tier operand join min
                      (join s.current left op right') x _ with
                  | error e rest => rw [hc] at h; cases h
                  | ok v' t' le' =>
                      rw [hc] at h
                      cases h
                      exact .inr ⟨op, u, right, w, right', x, rfl, hm, hs, rfl, ⟨_, _, hp⟩,
                        ⟨_, _, hr⟩, _, _, hc⟩
  · rintro (⟨hs, hstop, rfl, rfl⟩ | ⟨op, u, right, w, right', x, ho, hm, hs, ha, ⟨hu, hle, hp⟩,
      ⟨hw, hle', hr⟩, hx, le', hc⟩)
    · exact ⟨hs, Nat.le_refl _, climb_eq_stop (fun op ho => .inl (hstop op ho)) hs⟩
    · have le := Nat.le_trans (Nat.le_trans hle' hle) (Stream.size_advance_le ha)
      refine ⟨hs, Nat.le_trans le' le, ?_⟩
      rw [climb_eq_ok ho hm (ne_eof_of_operator heof ho) ha]
      simp only [hp, hr, hc]
      rfl

end Transact.Rule
