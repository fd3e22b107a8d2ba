import Transact.Proofs.Rule.Unfold

namespace Transact

variable {α β ω : Type} {n : Nat} {s : Stream} {fault fault' : Prop}
variable {post post' : α → Stream → Prop}

def Outcome.Meets {k : Nat} (post : α → Stream → Prop) (fault : Prop) : Outcome α k → Prop
  | .ok value rest _ => post value rest
  | .error _ _ => fault

namespace Outcome

variable {j k : Nat}

theorem meets_weaken (h : j ≤ k) (o : Outcome α j) :
    (o.weaken h).Meets post fault ↔ o.Meets post fault := by
  cases o <;> exact Iff.rfl

theorem Meets.mono {o : Outcome α k} (h : o.Meets post fault) (hp : ∀ v t, post v t → post' v t)
    (hf : fault → fault') : o.Meets post' fault' := by
  cases o with
  | ok value rest le => exact hp value rest h
  | error e rest => exact hf h

end Outcome

namespace Rule

def Ensures (p : Rule n α) (s : Stream) (post : α → Stream → Prop) (fault : Prop) : Prop :=
  ∀ hs : s.size < n, (p s hs).Meets post fault

namespace Ensures

theorem mono {p : Rule n α} (h : p.Ensures s post fault)
    (hp : ∀ v t, post v t → post' v t) (hf : fault → fault') : p.Ensures s post' fault' :=
  fun hs => (h hs).mono hp hf

theorem imp {p : Rule n α} (h : p.Ensures s post fault) (hp : ∀ v t, post v t → post' v t) :
    p.Ensures s post' fault :=
  h.mono hp id

theorem sized {p : Rule n α} (h : p.Ensures s post fault) :
    p.Ensures s (fun v t => post v t ∧ t.size ≤ s.size) fault := by
  intro hs
  have h := h hs
  cases hp : p s hs with
  | error e rest => simpa only [hp, Outcome.Meets] using h
  | ok value rest le =>
      rw [hp] at h
      exact ⟨h, le⟩

theorem pure {v : α} (h : post v s) : (pure v : Rule n α).Ensures s post fault := fun _ => h

theorem fail {e : SyntaxError} (h : fault) : (Rule.fail e : Rule n α).Ensures s post fault :=
  fun _ => h

theorem unexpected (h : fault) : (Rule.unexpected : Rule n α).Ensures s post fault := fun _ => h

theorem expected {what : Expectation} (h : fault) :
    (Rule.expected what : Rule n α).Ensures s post fault := fun _ => h

theorem bind {p : Rule n β} {f : β → Rule n α} {m : β → Stream → Prop}
    (h : p.Ensures s m fault) (hf : ∀ v t, m v t → (f v).Ensures t post fault) :
    (p >>= f).Ensures s post fault := by
  intro hs
  have h := h hs
  change (Rule.bind p f s hs).Meets post fault
  simp only [Rule.bind]
  cases hp : p s hs with
  | error e rest => simpa only [hp, Outcome.Meets] using h
  | ok value rest le =>
      rw [hp] at h
      exact (Outcome.meets_weaken le _).2 (hf value rest h (Nat.lt_of_le_of_lt le hs))

theorem map {p : Rule n β} {f : β → α} (h : p.Ensures s (fun v t => post (f v) t) fault) :
    (f <$> p).Ensures s post fault :=
  bind h fun _ _ hv => pure hv

theorem kind {f : Kind → Rule n α} (h : (f s.current.kind).Ensures s post fault) :
    (Rule.kind >>= f).Ensures s post fault :=
  bind (m := fun k t => k = s.current.kind ∧ t = s) (fun _ => ⟨rfl, rfl⟩) (by
    rintro _ _ ⟨rfl, rfl⟩
    exact h)

theorem current {f : Token → Rule n α} (h : (f s.current).Ensures s post fault) :
    (Rule.current >>= f).Ensures s post fault :=
  bind (m := fun c t => c = s.current ∧ t = s) (fun _ => ⟨rfl, rfl⟩) (by
    rintro _ _ ⟨rfl, rfl⟩
    exact h)

theorem advance {post : Token → Stream → Prop} (h : ∀ t, s.advance = .ok t → post s.current t)
    (he : ∀ e, s.advance = .error e → fault) :
    (Rule.advance : Rule n Token).Ensures s post fault := by
  intro hs
  simp only [Rule.advance]
  split
  · rename_i t ht
    exact h t ht
  · rename_i e hr
    exact he e hr

theorem take {f : Token → Rule n α}
    (h : ∀ t, s.current.kind ≠ .eof → s.advance = .ok t → (f s.current).Ensures t post fault)
    (hk : s.current.kind = .eof → fault) (he : ∀ e, s.advance = .error e → fault) :
    (Rule.take f).Ensures s post fault := by
  intro hs
  by_cases hf : s.current.kind = .eof
  · simpa [Rule.take, hf, Rule.unexpected, Outcome.Meets] using hk hf
  · cases ha : s.advance with
    | ok t =>
        rw [take_eq_ok hf ha, Outcome.meets_weaken]
        exact h t hf ha _
    | error e =>
        rw [take_eq_error hf ha]
        exact he e ha

theorem eat {k : Kind} {post : Bool → Stream → Prop}
    (hit : s.current.kind = k → ∀ t, s.advance = .ok t → post true t)
    (miss : s.current.kind ≠ k → post false s) (he : ∀ e, s.advance = .error e → fault) :
    (Rule.eat k : Rule n Bool).Ensures s post fault := by
  refine kind ?_
  split
  · rename_i hk
    exact bind (m := fun _ t => post true t) (advance (hit hk) he) fun _ _ h => pure h
  · rename_i hk
    exact pure (miss hk)

theorem expect {k : Kind} {post : Token → Stream → Prop}
    (hit : s.current.kind = k → ∀ t, s.advance = .ok t → post s.current t)
    (miss : s.current.kind ≠ k → fault) (he : ∀ e, s.advance = .error e → fault) :
    (Rule.expect k : Rule n Token).Ensures s post fault := by
  refine kind ?_
  split
  · rename_i hk
    exact advance (hit hk) he
  · rename_i hk
    exact expected (miss hk)

theorem begin {k : Kind} {f : Token → Rule n α} (hk : k ≠ .eof)
    (hit : s.current.kind = k → ∀ t, s.advance = .ok t → (f s.current).Ensures t post fault)
    (miss : s.current.kind ≠ k → fault) (he : ∀ e, s.advance = .error e → fault) :
    (Rule.begin k f).Ensures s post fault := by
  refine kind ?_
  split
  · rename_i h
    exact take (fun t _ ht => hit h t ht) (fun h' => absurd (h.symm.trans h') hk) he
  · rename_i h
    exact expected (miss h)

variable {step : α → Kind → Option (Token → Rule n α)} {v : α}

theorem loop_stop (h : step v s.current.kind = none) (hp : post v s) :
    Ensures (Rule.loop step v) s post fault := by
  intro hs
  rw [loop_eq_none h]
  exact hp

theorem loop_step {f : Token → Rule n α} {t : Stream} (h : step v s.current.kind = some f)
    (hk : s.current.kind ≠ .eof) (ht : s.advance = .ok t)
    (hf : (f s.current).Ensures t (fun v u => Ensures (Rule.loop step v) u post fault) fault) :
    Ensures (Rule.loop step v) s post fault := by
  intro hs
  have hf := hf (Nat.lt_trans (Stream.size_advance_lt ht hk) hs)
  rw [loop_eq_ok h hk ht]
  dsimp only
  split
  · rename_i e rest hr
    rw [hr] at hf
    exact hf
  · rename_i w rest le hr
    rw [hr] at hf
    exact (Outcome.meets_weaken _ _).2 (hf _)

theorem loop_fault {f : Token → Rule n α} {e : LexicalError}
    (h : step v s.current.kind = some f) (hk : s.current.kind ≠ .eof)
    (he : s.advance = .error e) (hf : fault) : Ensures (Rule.loop step v) s post fault := by
  intro hs
  rw [loop_eq_error h hk he]
  exact hf

theorem loop (inv : α → Stream → Prop)
    (hstep : ∀ v s f t, inv v s → step v s.current.kind = some f → s.current.kind ≠ .eof →
      s.advance = .ok t → (f s.current).Ensures t inv True)
    (h : inv v s) :
    Ensures (Rule.loop step v) s (fun v t => inv v t ∧
      (step v t.current.kind = none ∨ t.current.kind = .eof)) True := by
  induction s using Stream.bySize generalizing v with
  | step s ih =>
      cases hs : step v s.current.kind with
      | none => exact loop_stop hs ⟨h, .inl hs⟩
      | some f =>
          by_cases hk : s.current.kind = .eof
          · intro hs'
            rw [loop_eq_eof hk]
            exact ⟨h, .inr hk⟩
          · cases ha : s.advance with
            | error e => exact loop_fault hs hk ha trivial
            | ok t =>
                have lt := Stream.size_advance_lt ha hk
                refine loop_step hs hk ha ?_
                intro ht
                have hf := hstep v s f t h hs hk ha ht
                revert hf
                cases f s.current t ht with
                | error e rest => exact id
                | ok w rest le =>
                    intro hf
                    exact ih rest (Nat.lt_of_le_of_lt le lt) hf

variable {operator : Kind → Option ω} {tier : ω → Nat} {operand : Rule n α}
variable {join : Token → α → ω → α → α} {min : Nat}

/-- Climbing ends before a token that is no operator of the tier or a tighter one. -/
theorem climb_stop
    (h : ∀ op, operator s.current.kind = some op → tier op < min ∨ s.current.kind = .eof)
    (hp : post v s) :
    Ensures (Rule.climb operator tier operand join min v) s post fault := by
  intro hs
  rw [climb_eq_stop h]
  exact hp

theorem climb_step {op : ω} {t : Stream} (h : operator s.current.kind = some op)
    (hm : min ≤ tier op) (hk : s.current.kind ≠ .eof) (ht : s.advance = .ok t)
    (hf : operand.Ensures t (fun right u =>
      Ensures (Rule.climb operator tier operand join (tier op + 1) right) u (fun right u =>
        Ensures (Rule.climb operator tier operand join min (join s.current v op right)) u
          post fault) fault) fault) :
    Ensures (Rule.climb operator tier operand join min v) s post fault := by
  intro hs
  have lt := Nat.lt_trans (Stream.size_advance_lt ht hk) hs
  have hf := hf lt
  rw [climb_eq_ok h hm hk ht]
  dsimp only
  split
  · rename_i e rest hr
    rw [hr] at hf
    exact hf
  · rename_i right u le hr
    rw [hr] at hf
    have hf := hf (Nat.lt_of_le_of_lt le lt)
    split
    · rename_i e rest hr
      rw [hr] at hf
      exact hf
    · rename_i right w le' hr
      rw [hr] at hf
      exact (Outcome.meets_weaken _ _).2 (hf _)

theorem climb_fault {op : ω} {e : LexicalError} (h : operator s.current.kind = some op)
    (hm : min ≤ tier op) (hk : s.current.kind ≠ .eof) (he : s.advance = .error e) (hf : fault) :
    Ensures (Rule.climb operator tier operand join min v) s post fault := by
  intro hs
  rw [climb_eq_error h hm hk he]
  exact hf

variable {stop : Kind → Bool} {item : Rule n α} {shrinks : Shrinks item} {items : List α}

theorem many_stop {post : List α → Stream → Prop} (h : stop s.current.kind = true)
    (hp : post items s) : Ensures (Rule.many stop item shrinks items) s post fault := by
  intro hs
  rw [many_eq_stop h]
  exact hp

theorem many_step {post : List α → Stream → Prop} (h : ¬stop s.current.kind = true)
    (hf : item.Ensures s (fun v t =>
      Ensures (Rule.many stop item shrinks (items ++ [v])) t post fault) fault) :
    Ensures (Rule.many stop item shrinks items) s post fault := by
  intro hs
  have hf := hf hs
  cases hi : item s hs with
  | error e rest =>
      rw [many_eq_error h hi]
      rw [hi] at hf
      exact hf
  | ok v rest le =>
      rw [hi] at hf
      rw [many_eq_ok h hi, Outcome.meets_weaken]
      exact hf _

theorem many (inv : List α → Stream → Prop)
    (hstep : ∀ items s, inv items s → ¬stop s.current.kind = true →
      item.Ensures s (fun v t => inv (items ++ [v]) t) True)
    (h : inv items s) :
    Ensures (Rule.many stop item shrinks items) s (fun items t => inv items t ∧
      stop t.current.kind = true) True := by
  induction s using Stream.bySize generalizing items with
  | step s ih =>
      intro hs
      by_cases hstop : stop s.current.kind = true
      · rw [many_eq_stop hstop]
        exact ⟨h, hstop⟩
      · have hf := hstep items s h hstop hs
        cases hi : item s hs with
        | error e rest =>
            rw [many_eq_error hstop hi]
            trivial
        | ok v rest le =>
            rw [hi] at hf
            rw [many_eq_ok hstop hi, Outcome.meets_weaken]
            exact ih rest (shrinks s hs v rest le hi) hf _

end Ensures

end Rule

end Transact
