import Mathlib.Data.List.Forall2
import Transact.Proofs.Rule.Climb

namespace Transact

/-- Which tokens of a second reading correspond to those of a first one. The first reading may end
in a lexical error, `fault`, where the second one comes to the end of its tokens. -/
structure Pairing where
  token : Token → Token → Prop
  fault : Option LexicalError
  kind_eq {x y : Token} (h : token x y) : x.kind = y.kind
  eof {x y : Token} (h : token x y) : token (.eof x.place) (.eof y.place)

namespace Pairing

variable (P : Pairing) {α β γ δ ω : Type} {n j k : Nat} {s t : Stream}

structure Streams (s t : Stream) : Prop where
  current : P.token s.current t.current
  upcoming : List.Forall₂ P.token s.upcoming t.upcoming
  fault_eq : s.fault = P.fault
  fault_eq_none : t.fault = none

inductive Errors : SyntaxError → SyntaxError → Prop where
  | unexpected {x y : Token} (h : P.token x y) : Errors (.unexpected x) (.unexpected y)
  | expected {x y : Token} (what : Expectation) (h : P.token x y) :
      Errors (.expected what x) (.expected what y)

/-- The first reading is lost when it meets its lexical error. Otherwise both end alike. -/
inductive Outcomes (V : α → β → Prop) : Outcome α j → Outcome β k → Prop where
  | lost {e : LexicalError} {rest : Stream} {o : Outcome β k} (h : P.fault = some e) :
      Outcomes V (.error (.lexical e) rest) o
  | error {e e' : SyntaxError} {rest rest' : Stream} (h : P.Errors e e') :
      Outcomes V (.error e rest) (.error e' rest')
  | ok {v : α} {w : β} {s t : Stream} {le : s.size ≤ j} {le' : t.size ≤ k} (hv : V v w)
      (h : P.Streams s t) : Outcomes V (.ok v s le) (.ok w t le')

def Agree (V : α → β → Prop) (p : Rule n α) (q : Rule n β) (s t : Stream) : Prop :=
  ∀ (hs : s.size < n) (ht : t.size < n), P.Outcomes V (p s hs) (q t ht)

def Lockstep (V : α → β → Prop) (p : Rule n α) (q : Rule n β) : Prop :=
  ∀ s t, P.Streams s t → P.Agree V p q s t

variable {P} {V V' : α → β → Prop} {W : γ → δ → Prop}

theorem Streams.size_eq (h : P.Streams s t) : s.size = t.size := by
  simp only [Stream.size, h.upcoming.length_eq, P.kind_eq h.current]

/-- The first stream meets its error, or both move on to their next tokens. -/
theorem Streams.advance (h : P.Streams s t) :
    (∃ e, P.fault = some e ∧ s.advance = .error e) ∨
      ∃ s' t', s.advance = .ok s' ∧ t.advance = .ok t' ∧ P.Streams s' t' := by
  obtain ⟨x, xs, f⟩ := s
  obtain ⟨y, ys, g⟩ := t
  obtain ⟨hxy, hup, hf, hg⟩ := h
  dsimp only at hxy hup hf hg
  subst hf hg
  cases hup with
  | cons h hs => exact .inr ⟨_, _, rfl, rfl, h, hs, rfl, rfl⟩
  | nil =>
      cases hp : P.fault with
      | some e => exact .inl ⟨e, rfl, rfl⟩
      | none => exact .inr ⟨_, _, rfl, rfl, P.eof hxy, .nil, hp.symm, rfl⟩

theorem Outcomes.weaken {i l : Nat} (hi : i ≤ j) (hl : l ≤ k) {o : Outcome α i} {o' : Outcome β l}
    (h : P.Outcomes V o o') : P.Outcomes V (o.weaken hi) (o'.weaken hl) := by
  cases h with
  | lost h => exact .lost h
  | error h => exact .error h
  | ok hv h => exact .ok hv h

theorem Outcomes.imp {o : Outcome α j} {o' : Outcome β k} (h : P.Outcomes V o o')
    (hV : ∀ v w, V v w → V' v w) : P.Outcomes V' o o' := by
  cases h with
  | lost h => exact .lost h
  | error h => exact .error h
  | ok hv h => exact .ok (hV _ _ hv) h

namespace Agree

theorem bind {p : Rule n α} {q : Rule n β} {f : α → Rule n γ} {g : β → Rule n δ}
    (h : P.Agree V p q s t) (hf : ∀ v w, V v w → P.Lockstep W (f v) (g w)) :
    P.Agree W (p >>= f) (q >>= g) s t := by
  intro hs ht
  have h := h hs ht
  change P.Outcomes W (Rule.bind p f s hs) (Rule.bind q g t ht)
  simp only [Rule.bind]
  generalize p s hs = o, q t ht = o' at h ⊢
  cases h with
  | lost h => exact .lost h
  | error h => exact .error h
  | ok hv h => exact (hf _ _ hv _ _ h _ _).weaken _ _

theorem advance (h : P.Streams s t) :
    P.Agree (fun x y => P.token x y ∧ x.kind = s.current.kind) (Rule.advance (n := n)) Rule.advance
      s t := by
  intro hs ht
  obtain ⟨e, he, ha⟩ | ⟨s', t', ha, ha', h'⟩ := h.advance
  · rw [Rule.advance_eq_error ha]
    exact .lost he
  · rw [Rule.advance_eq_ok ha, Rule.advance_eq_ok ha']
    exact .ok ⟨h.current, rfl⟩ h'

theorem take {f : Token → Rule n α} {g : Token → Rule n β} (h : P.Streams s t)
    (hf : ∀ x y, P.token x y → x.kind = s.current.kind → P.Lockstep V (f x) (g y)) :
    P.Agree V (Rule.take f) (Rule.take g) s t := by
  intro hs ht
  have hkind := P.kind_eq h.current
  by_cases hk : s.current.kind = .eof
  · have hk' : t.current.kind = .eof := hkind ▸ hk
    simp only [Rule.take, hk, hk', dif_pos, Rule.unexpected]
    exact .error (.unexpected h.current)
  · have hk' : t.current.kind ≠ .eof := hkind ▸ hk
    obtain ⟨e, he, ha⟩ | ⟨s', t', ha, ha', h'⟩ := h.advance
    · rw [Rule.take_eq_error hk ha]
      exact .lost he
    · rw [Rule.take_eq_ok hk ha, Rule.take_eq_ok hk' ha']
      exact (hf _ _ h.current rfl _ _ h' _ _).weaken _ _

end Agree

namespace Lockstep

theorem pure {v : α} {w : β} (hv : V v w) : P.Lockstep V (pure v : Rule n α) (pure w) :=
  fun _ _ h _ _ => .ok hv h

theorem unexpected : P.Lockstep V (Rule.unexpected : Rule n α) Rule.unexpected :=
  fun _ _ h _ _ => .error (.unexpected h.current)

theorem expected (what : Expectation) :
    P.Lockstep V (Rule.expected what : Rule n α) (Rule.expected what) :=
  fun _ _ h _ _ => .error (.expected what h.current)

theorem fail {e e' : SyntaxError} (h : P.Errors e e') :
    P.Lockstep V (Rule.fail e : Rule n α) (Rule.fail e') :=
  fun _ _ _ _ _ => .error h

theorem bind {p : Rule n α} {q : Rule n β} {f : α → Rule n γ} {g : β → Rule n δ}
    (h : P.Lockstep V p q) (hf : ∀ v w, V v w → P.Lockstep W (f v) (g w)) :
    P.Lockstep W (p >>= f) (q >>= g) :=
  fun s t hst => (h s t hst).bind hf

theorem map {p : Rule n α} {q : Rule n β} {f : α → γ} {g : β → δ} (h : P.Lockstep V p q)
    (hf : ∀ v w, V v w → W (f v) (g w)) : P.Lockstep W (f <$> p) (g <$> q) :=
  h.bind fun _ _ hv => pure (hf _ _ hv)

theorem ite {c : Prop} [Decidable c] {p p' : Rule n α} {q q' : Rule n β} (h : P.Lockstep V p q)
    (h' : P.Lockstep V p' q') : P.Lockstep V (if c then p else p') (if c then q else q') := by
  split
  · exact h
  · exact h'

theorem onKind {f : Kind → Rule n α} {g : Kind → Rule n β}
    (h : ∀ s t, P.Streams s t → P.Agree V (f s.current.kind) (g s.current.kind) s t) :
    P.Lockstep V (Rule.kind >>= f) (Rule.kind >>= g) := by
  intro s t hst hs ht
  have hfg := h s t hst
  have hkind : t.current.kind = s.current.kind := (P.kind_eq hst.current).symm
  change P.Outcomes V (Rule.bind Rule.kind f s hs) (Rule.bind Rule.kind g t ht)
  simp only [Rule.bind, Rule.kind, hkind]
  exact (hfg hs ht).weaken _ _

theorem kind {f : Kind → Rule n α} {g : Kind → Rule n β} (h : ∀ k, P.Lockstep V (f k) (g k)) :
    P.Lockstep V (Rule.kind >>= f) (Rule.kind >>= g) :=
  onKind fun s t => h s.current.kind s t

theorem current : P.Lockstep P.token (Rule.current (n := n)) Rule.current :=
  fun _ _ h _ _ => .ok h.current h

theorem advance : P.Lockstep P.token (Rule.advance (n := n)) Rule.advance :=
  fun _ _ h hs ht => (Agree.advance h hs ht).imp fun _ _ hv => hv.1

theorem take {f : Token → Rule n α} {g : Token → Rule n β}
    (hf : ∀ x y, P.token x y → P.Lockstep V (f x) (g y)) :
    P.Lockstep V (Rule.take f) (Rule.take g) :=
  fun _ _ h => Agree.take h fun x y hxy _ => hf x y hxy

theorem eat (k : Kind) : P.Lockstep Eq (Rule.eat k : Rule n Bool) (Rule.eat k) :=
  kind fun _ => ite (advance.bind fun _ _ _ => pure rfl) (pure rfl)

theorem expect (k : Kind) : P.Lockstep P.token (Rule.expect k : Rule n Token) (Rule.expect k) :=
  kind fun _ => ite advance (expected _)

theorem begin (k : Kind) {f : Token → Rule n α} {g : Token → Rule n β}
    (hf : ∀ x y, P.token x y → P.Lockstep V (f x) (g y)) :
    P.Lockstep V (Rule.begin k f) (Rule.begin k g) :=
  kind fun _ => ite (take hf) (expected _)

theorem loop {step : α → Kind → Option (Token → Rule n α)}
    {step' : β → Kind → Option (Token → Rule n β)}
    (h : ∀ v w k, V v w → Option.Rel (fun f g => ∀ x y, P.token x y → x.kind = k →
      P.Lockstep V (f x) (g y)) (step v k) (step' w k)) {v : α} {w : β} (hv : V v w) :
    P.Lockstep V (Rule.loop step v) (Rule.loop step' w) := by
  intro s
  induction s using Stream.bySize generalizing v w with
  | step s ih =>
    intro t hst hs ht
    have hkind := P.kind_eq hst.current
    by_cases hk : s.current.kind = .eof
    · rw [Rule.loop_eq_eof hk, Rule.loop_eq_eof (hkind ▸ hk)]
      exact .ok hv hst
    · have hk' : t.current.kind ≠ .eof := hkind ▸ hk
      generalize hf : step v s.current.kind = f, hg : step' w s.current.kind = g
      have hfg := h v w s.current.kind hv
      rw [hf, hg] at hfg
      rw [hkind] at hg
      cases hfg with
      | none =>
          rw [Rule.loop_eq_none hf, Rule.loop_eq_none hg]
          exact .ok hv hst
      | @some f g hfg =>
          obtain ⟨e, he, ha⟩ | ⟨s', t', ha, ha', hst'⟩ := hst.advance
          · rw [Rule.loop_eq_error hf hk ha]
            exact .lost he
          · rw [Rule.loop_eq_ok hf hk ha, Rule.loop_eq_ok hg hk' ha']
            have lt := Stream.size_advance_lt ha hk
            have hitem := hfg _ _ hst.current rfl _ _ hst' (Nat.lt_trans lt hs)
              (Nat.lt_trans (Stream.size_advance_lt ha' hk') ht)
            generalize f s.current s' _ = o, g t.current t' _ = o' at hitem ⊢
            cases hitem with
            | lost h => exact .lost h
            | error h => exact .error h
            | ok hv h => exact (ih _ (Nat.lt_of_le_of_lt ‹_› lt) hv _ h _ _).weaken _ _

theorem commaSeparated {p : Rule n α} {q : Rule n β} (h : P.Lockstep V p q) :
    P.Lockstep (List.Forall₂ V) (Rule.commaSeparated p) (Rule.commaSeparated q) := by
  apply h.bind
  intro v w hv
  apply loop _ (.cons hv .nil)
  intro vs ws k hvs
  by_cases hk : k = .mark .comma
  · simp only [hk, if_true]
    apply Option.Rel.some
    intro x y _ _
    exact h.bind fun v w hv => pure (List.rel_append hvs (.cons hv .nil))
  · simp only [hk, if_false]
    exact .none

/-- Both readings fold the same operators onto their values. -/
theorem climb {operator : Kind → Option ω} {tier : ω → Nat} {p : Rule n α} {q : Rule n β}
    {join : Token → α → ω → α → α} {join' : Token → β → ω → β → β} (h : P.Lockstep V p q)
    (hjoin : ∀ {x y a a' b b'} (op : ω), P.token x y → V a a' → V b b' →
      V (join x a op b) (join' y a' op b')) (min : Nat) {v : α} {w : β} (hv : V v w) :
    P.Lockstep V (Rule.climb operator tier p join min v)
      (Rule.climb operator tier q join' min w) := by
  intro s
  induction s using Stream.bySize generalizing v w min with
  | step s ih =>
    intro t hst hs ht
    have hkind := P.kind_eq hst.current
    by_cases hstop : ∀ op, operator s.current.kind = some op →
        tier op < min ∨ s.current.kind = .eof
    · rw [Rule.climb_eq_stop hstop, Rule.climb_eq_stop (hkind ▸ hstop)]
      exact .ok hv hst
    · obtain ⟨op, ho, hstop⟩ := by simpa only [not_forall] using hstop
      obtain ⟨hm, hk⟩ := not_or.1 hstop
      have hm := Nat.le_of_not_lt hm
      have hk' : t.current.kind ≠ .eof := hkind ▸ hk
      obtain ⟨e, he, ha⟩ | ⟨s', t', ha, ha', hst'⟩ := hst.advance
      · rw [Rule.climb_eq_error ho hm hk ha]
        exact .lost he
      · rw [Rule.climb_eq_ok ho hm hk ha, Rule.climb_eq_ok (hkind ▸ ho) hm hk' ha']
        have lt := Stream.size_advance_lt ha hk
        have hright := h _ _ hst' (Nat.lt_trans lt hs)
          (Nat.lt_trans (Stream.size_advance_lt ha' hk') ht)
        dsimp only
        generalize p s' _ = o, q t' _ = o' at hright ⊢
        cases hright with
        | lost h => exact .lost h
        | error h => exact .error h
        | @ok a a' u u' hu hu' ha h =>
            have lt := Nat.lt_of_le_of_lt hu lt
            have hinner := ih _ lt (tier op + 1) ha _ h (Nat.lt_trans lt hs)
              (Nat.lt_trans (Nat.lt_of_le_of_lt hu' (Stream.size_advance_lt ha' hk')) ht)
            dsimp only
            generalize Rule.climb operator tier p join (tier op + 1) a u _ = o,
              Rule.climb operator tier q join' (tier op + 1) a' u' _ = o' at hinner ⊢
            cases hinner with
            | lost h => exact .lost h
            | error h => exact .error h
            | ok hb h =>
                exact (ih _ (Nat.lt_of_le_of_lt ‹_› lt) min (hjoin op hst.current hv hb) _ h _
                  _).weaken _ _

theorem many {stop : Kind → Bool} {p : Rule n α} {q : Rule n β} {hp : Rule.Shrinks p}
    {hq : Rule.Shrinks q} (h : P.Lockstep V p q) {vs : List α} {ws : List β}
    (hvs : List.Forall₂ V vs ws) :
    P.Lockstep (List.Forall₂ V) (Rule.many stop p hp vs) (Rule.many stop q hq ws) := by
  intro s
  induction s using Stream.bySize generalizing vs ws with
  | step s ih =>
    intro t hst hs ht
    have hkind := P.kind_eq hst.current
    by_cases hstop : stop s.current.kind = true
    · rw [Rule.many_eq_stop hstop, Rule.many_eq_stop (hkind ▸ hstop)]
      exact .ok hvs hst
    · have hitem := h _ _ hst hs ht
      generalize ho : p s hs = o, ho' : q t ht = o' at hitem
      cases hitem with
      | lost h =>
          rw [Rule.many_eq_error hstop ho]
          exact .lost h
      | error h =>
          rw [Rule.many_eq_error hstop ho, Rule.many_eq_error (hkind ▸ hstop) ho']
          exact .error h
      | ok hv h =>
          rw [Rule.many_eq_ok hstop ho, Rule.many_eq_ok (hkind ▸ hstop) ho']
          exact (ih _ (hp s hs _ _ _ ho) (List.rel_append hvs (.cons hv .nil)) _ h _ _).weaken _ _

end Lockstep

end Pairing

end Transact
