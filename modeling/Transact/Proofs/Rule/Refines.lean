import Transact.Proofs.Rule.Gives

namespace Transact.Rule

variable {α β ω : Type} {n : Nat} {p q : Rule n α}

def Refines (p q : Rule n α) : Prop := ∀ s v t, p.Gives s v t → q.Gives s v t

namespace Refines

theorem refl (p : Rule n α) : p.Refines p := fun _ _ _ h => h

theorem bind {p q : Rule n β} {f g : β → Rule n α} (h : p.Refines q)
    (hf : ∀ v, (f v).Refines (g v)) : (p >>= f).Refines (q >>= g) := by
  intro s v t hp
  obtain ⟨w, u, hw, hv⟩ := gives_bind.1 hp
  exact gives_bind.2 ⟨w, u, h _ _ _ hw, hf w _ _ _ hv⟩

theorem next {p : Rule n β} {f g : β → Rule n α} (hf : ∀ v, (f v).Refines (g v)) :
    (p >>= f).Refines (p >>= g) :=
  bind (refl p) hf

theorem first {p q : Rule n β} {f : β → Rule n α} (h : p.Refines q) :
    (p >>= f).Refines (q >>= f) :=
  bind h fun _ => refl _

theorem map {p q : Rule n β} {f : β → α} (h : p.Refines q) : (f <$> p).Refines (f <$> q) :=
  first h

theorem ite {c : Prop} [Decidable c] {p' q' : Rule n α} (h : p.Refines q) (h' : p'.Refines q') :
    (if c then p else p').Refines (if c then q else q') := by
  split
  · exact h
  · exact h'

theorem take {f g : Token → Rule n α} (h : ∀ t, (f t).Refines (g t)) :
    (Rule.take f).Refines (Rule.take g) := by
  intro s v t hf
  obtain ⟨hk, u, ha, hs, hu⟩ := gives_take.1 hf
  exact gives_take.2 ⟨hk, u, ha, hs, h _ _ _ _ hu⟩

theorem begin {k : Kind} {f g : Token → Rule n α} (h : ∀ t, (f t).Refines (g t)) :
    (Rule.begin k f).Refines (Rule.begin k g) :=
  next fun _ => ite (take h) (refl _)

theorem loop {step step' : α → Kind → Option (Token → Rule n α)}
    (h : ∀ v k f, step v k = some f → ∃ g, step' v k = some g ∧ ∀ t, (f t).Refines (g t))
    (hn : ∀ v k, step v k = none → step' v k = none) (v : α) :
    Refines (Rule.loop step v) (Rule.loop step' v) := by
  intro s w t hl
  induction s using Stream.bySize generalizing v with
  | step s ih =>
      rw [gives_loop] at hl ⊢
      obtain ⟨hs, hstop, rfl, rfl⟩ | ⟨f, u, x, y, hf, hne, hs, ha, hx, hl⟩ := hl
      · exact .inl ⟨hs, hstop.imp_left (hn v _), rfl, rfl⟩
      · obtain ⟨g, hg, hfg⟩ := h v _ f hf
        have lt := Nat.lt_of_le_of_lt hx.size_le (Stream.size_advance_lt ha hne)
        exact .inr ⟨g, u, x, y, hg, hne, hs, ha, hfg _ _ _ _ hx, ih y lt x hl⟩

theorem commaSeparated (h : p.Refines q) :
    (Rule.commaSeparated p).Refines (Rule.commaSeparated q) := by
  refine bind h fun first => loop ?_ ?_ [first]
  · intro v k f hf
    split at hf
    · cases hf
      exact ⟨_, if_pos ‹_›, fun _ => bind h fun _ => refl _⟩
    · cases hf
  · intro v k hk
    split at hk
    · cases hk
    · exact if_neg ‹_›

theorem climb {operator : Kind → Option ω} {tier : ω → Nat} {join : Token → α → ω → α → α}
    (heof : operator .eof = none) (h : p.Refines q) (min : Nat) (left : α) :
    Refines (Rule.climb operator tier p join min left)
      (Rule.climb operator tier q join min left) := by
  intro s v t hc
  induction s using Stream.bySize generalizing v t min left with
  | step s ih =>
      rw [gives_climb heof] at hc ⊢
      obtain hstop | ⟨op, u, right, w, right', x, ho, hm, hs, ha, hr, hi, hc⟩ := hc
      · exact .inl hstop
      · have lt := Stream.size_advance_lt ha (ne_eof_of_operator heof ho)
        have hw := Nat.lt_of_le_of_lt hr.size_le lt
        have hx := Nat.lt_of_le_of_lt (Gives.size_le hi) hw
        exact .inr ⟨op, u, right, w, right', x, ho, hm, hs, ha, h _ _ _ hr, ih w hw _ _ _ _ hi,
          ih x hx _ _ _ _ hc⟩

theorem many {stop : Kind → Bool} {hp : Shrinks p} {hq : Shrinks q} (h : p.Refines q)
    (items : List α) : Refines (Rule.many stop p hp items) (Rule.many stop q hq items) := by
  intro s found t hm
  induction s using Stream.bySize generalizing items with
  | step s ih =>
      rw [gives_many] at hm ⊢
      obtain hstop | ⟨x, u, hk, hx, hm⟩ := hm
      · exact .inl hstop
      · obtain ⟨hs, le, hi⟩ := hx
        exact .inr ⟨x, u, hk, h _ _ _ ⟨hs, le, hi⟩, ih u (hp s hs x u le hi) _ hm⟩

end Refines

end Transact.Rule
