import Transact.Proofs.Rule.Ensures

namespace Transact

namespace Outcome

variable {α : Type} {i j k : Nat}

theorem weaken_refl (o : Outcome α k) : o.weaken (Nat.le_refl k) = o := by cases o <;> rfl

theorem weaken_weaken (h : i ≤ j) (h' : j ≤ k) (o : Outcome α i) :
    (o.weaken h).weaken h' = o.weaken (Nat.le_trans h h') := by cases o <;> rfl

end Outcome

namespace Rule

variable {α β γ ω : Type} {n : Nat} {s t : Stream}

theorem bind_eq (p : Rule n α) (f : α → Rule n β) (hs : s.size < n) :
    (p >>= f) s hs = match p s hs with
      | .ok v t le => (f v t (Nat.lt_of_le_of_lt le hs)).weaken le
      | .error e t => .error e t := rfl

theorem id_map_eq (p : Rule n α) : id <$> p = p := by
  funext s hs
  change (p >>= fun v => pure v) s hs = p s hs
  rw [bind_eq]
  cases p s hs <;> rfl

theorem bind_bind (p : Rule n α) (f : α → Rule n β) (g : β → Rule n γ) :
    (p >>= f >>= g) = (p >>= fun v => f v >>= g) := by
  funext s hs
  simp only [bind_eq]
  cases p s hs with
  | error e rest => rfl
  | ok v t le =>
      dsimp only
      cases f v t _ with
      | error e rest => rfl
      | ok w u le' => exact (Outcome.weaken_weaken _ _ _).symm

instance : LawfulMonad (Rule n) :=
  .mk' (Rule n) id_map_eq (fun _ _ => funext fun _ => funext fun _ => Outcome.weaken_refl _)
    bind_bind

theorem Ensures.any (p : Rule n α) : p.Ensures s (fun _ _ => True) True := by
  intro hs
  cases p s hs <;> trivial

def chain (operator : Kind → Option ω) (join : Token → α → ω → α → α) (operand : Rule n α)
    (left : α) : Rule n α :=
  loop (fun left k => (operator k).map fun op token => return join token left op (← operand)) left

def climbing (operator : Kind → Option ω) (tier : ω → Nat) (operand : Rule n α)
    (join : Token → α → ω → α → α) (min : Nat) (left : α) : Rule n α :=
  climb operator tier operand join min left

section

variable {operator : Kind → Option ω} {tier : ω → Nat} {operand : Rule n α}
variable {join : Token → α → ω → α → α} {min m : Nat} {v : α} {op : ω}

def AtRest (operator : Kind → Option ω) (tier : ω → Nat) (min : Nat) (s : Stream) : Prop :=
  ∀ op, operator s.current.kind = some op → tier op < min ∨ s.current.kind = .eof

theorem not_atRest (h : ¬AtRest operator tier min s) :
    ∃ op, operator s.current.kind = some op ∧ min ≤ tier op ∧ s.current.kind ≠ .eof := by
  simpa [AtRest] using h

theorem ends_climb :
    Ensures (climb operator tier operand join min v) s (fun _ t => AtRest operator tier min t)
      True := by
  induction s using Stream.bySize generalizing v min with
  | step s ih =>
      by_cases hstop : AtRest operator tier min s
      · exact Ensures.climb_stop hstop hstop
      obtain ⟨op, ho, hm, hk⟩ := not_atRest hstop
      cases ha : s.advance with
      | error e => exact Ensures.climb_fault ho hm hk ha trivial
      | ok t =>
          have lt := Stream.size_advance_lt ha hk
          refine Ensures.climb_step ho hm hk ha
            ((Ensures.any operand).sized.imp fun right u hu => ?_)
          refine (ih u (by omega)).sized.imp fun right w hw => ?_
          exact ih w (by omega)

theorem size_climb_lt {hs : s.size < n} {u : α} {le : t.size ≤ s.size}
    (ho : operator s.current.kind = some op) (hm : min ≤ tier op) (hk : s.current.kind ≠ .eof)
    (h : climb operator tier operand join min v s hs = .ok u t le) : t.size < s.size := by
  have hshort : Ensures (climb operator tier operand join min v) s
      (fun _ t => t.size < s.size) True := by
    cases ha : s.advance with
    | error e => exact Ensures.climb_fault ho hm hk ha trivial
    | ok t =>
        have lt := Stream.size_advance_lt ha hk
        refine Ensures.climb_step ho hm hk ha ((Ensures.any operand).sized.imp fun right u hu => ?_)
        refine (Ensures.any _).sized.imp fun right w hw => ?_
        refine (Ensures.any _).sized.imp fun right x hx => ?_
        omega
  have hlt := hshort hs
  rw [h] at hlt
  exact hlt

/-- Climbing may pause: what a higher tier has folded is the left operand of what follows. -/
theorem climb_bind (hm : min ≤ m) (hs : s.size < n) :
    climb operator tier operand join min v s hs =
      (climbing operator tier operand join m v >>=
        climbing operator tier operand join min) s hs := by
  induction s using Stream.bySize generalizing v with
  | step s ih =>
      rw [bind_eq, climbing]
      by_cases hstop : AtRest operator tier m s
      · rw [climb_eq_stop hstop hs]
        exact (Outcome.weaken_refl _).symm
      obtain ⟨op, ho, hm', hk⟩ := not_atRest hstop
      cases ha : s.advance with
      | error e =>
          rw [climb_eq_error ho (Nat.le_trans hm hm') hk ha, climb_eq_error ho hm' hk ha]
      | ok t =>
          have lt := Stream.size_advance_lt ha hk
          rw [climb_eq_ok ho (Nat.le_trans hm hm') hk ha, climb_eq_ok ho hm' hk ha]
          dsimp only
          cases operand t (Nat.lt_trans lt hs) with
          | error e rest => rfl
          | ok right u le =>
              dsimp only
              cases climb operator tier operand join (tier op + 1) right u _ with
              | error e rest => rfl
              | ok right w le' =>
                  dsimp only
                  rw [ih w (by omega), bind_eq, climbing]
                  cases climb operator tier operand join m (join s.current v op right) w _ with
                  | error e rest => rfl
                  | ok left x le'' =>
                      dsimp only [Outcome.weaken]
                      cases climbing operator tier operand join min left x _ <;> rfl

/-- Where only operators of tier `min` and of looser ones follow, climbing is a chain of the
former. -/
theorem climb_eq_chain (hs : s.size < n) (h : AtRest operator tier (min + 1) s) :
    climb operator tier operand join min v s hs =
      chain (fun k => (operator k).filter fun op => tier op = min) join
        (operand >>= climbing operator tier operand join (min + 1)) v s hs := by
  induction s using Stream.bySize generalizing v with
  | step s ih =>
      by_cases hk : s.current.kind = .eof
      · rw [climb_eq_stop fun _ _ => .inr hk, chain, loop_eq_eof hk]
      by_cases hstop : AtRest operator tier min s
      · rw [climb_eq_stop hstop, chain, loop_eq_none]
        cases ho : operator s.current.kind with
        | none => rfl
        | some op =>
            have hne : tier op ≠ min := by
              obtain hlt | he := hstop op ho
              · exact Nat.ne_of_lt hlt
              · exact absurd he hk
            simp [hne]
      obtain ⟨op, ho, hm, -⟩ := not_atRest hstop
      have htier : tier op = min := by
        obtain hlt | he := h op ho
        · omega
        · exact absurd he hk
      have hop : ((operator s.current.kind).filter fun op => tier op = min) = some op := by
        simp [ho, htier]
      cases ha : s.advance with
      | error e =>
          rw [climb_eq_error ho hm hk ha, chain, loop_eq_error (by rw [hop]; rfl) hk ha]
      | ok t =>
          have lt := Stream.size_advance_lt ha hk
          rw [climb_eq_ok ho hm hk ha, chain, loop_eq_ok (by rw [hop]; rfl) hk ha]
          dsimp only
          rw [bind_eq, bind_eq, htier]
          cases operand t (Nat.lt_trans lt hs) with
          | error e rest => rfl
          | ok right u le =>
              have hrest : Ensures (climb operator tier operand join (min + 1) right) u
                  (fun _ t => AtRest operator tier (min + 1) t) True := ends_climb
              have hends := hrest (Nat.lt_of_le_of_lt le (Nat.lt_trans lt hs))
              dsimp only [climbing]
              cases hc : climb operator tier operand join (min + 1) right u
                  (Nat.lt_of_le_of_lt le (Nat.lt_trans lt hs)) with
              | error e rest => rfl
              | ok right w le' =>
                  rw [hc] at hends
                  dsimp only
                  rw [ih w (by omega) _ hends]
                  rfl

/-- Climbing at a tier is a chain of its operators, whose operands are read by climbing at the tier
above it. -/
theorem climbing_succ (operator : Kind → Option ω) (tier : ω → Nat) (operand : Rule n α)
    (join : Token → α → ω → α → α) (min : Nat) (v : α) :
    climbing operator tier operand join min v =
      (climbing operator tier operand join (min + 1) v >>=
        chain (fun k => (operator k).filter fun op => tier op = min) join
          (operand >>= climbing operator tier operand join (min + 1))) := by
  funext s hs
  have hrest : Ensures (climb operator tier operand join (min + 1) v) s
      (fun _ t => AtRest operator tier (min + 1) t) True := ends_climb
  have hends := hrest hs
  rw [climbing, climb_bind (Nat.le_succ min), bind_eq, bind_eq, climbing]
  cases hc : climb operator tier operand join (min + 1) v s hs with
  | error e rest => rfl
  | ok u t le =>
      rw [hc] at hends
      exact congrArg (Outcome.weaken le) (climb_eq_chain _ hends)

theorem climbing_top (h : ∀ op, tier op < min) (v : α) :
    climbing operator tier operand join min v = pure v := by
  funext s hs
  exact climb_eq_stop (fun op _ => .inl (h op)) hs

end

/-- As long as an operator of a tier above `bound` is at hand, climbs at the tier of that
operator. -/
def tighten (operator : Kind → Option ω) (tier : ω → Nat) (operand : Rule n α)
    (join : Token → α → ω → α → α) (bound : Nat) (right : α) : Rule n α := fun s hs =>
  match ho : operator s.current.kind with
  | none => .ok right s (Nat.le_refl _)
  | some next =>
    if hk : tier next ≤ bound ∨ s.current.kind = .eof then .ok right s (Nat.le_refl _)
    else
      match hc : climb operator tier operand join (tier next) right s hs with
      | .error e rest => .error e rest
      | .ok right t le =>
        have lt := size_climb_lt ho (Nat.le_refl _) (not_or.1 hk).2 hc
        (tighten operator tier operand join bound right t (Nat.lt_trans lt hs)).weaken le
termination_by s => s.size

/-- Climbing with two loops. The inner one folds onto the right operand of an operator what binds
tighter than that operator. -/
def nested (operator : Kind → Option ω) (tier : ω → Nat) (operand : Rule n α)
    (join : Token → α → ω → α → α) (min : Nat) (left : α) : Rule n α :=
  loop (fun left k => ((operator k).filter fun op => min ≤ tier op).map fun op token =>
    return join token left op (← tighten operator tier operand join (tier op) (← operand))) left

section

variable {operator : Kind → Option ω} {tier : ω → Nat} {operand : Rule n α}
variable {join : Token → α → ω → α → α} {min : Nat} {v : α}

/-- The right operand of an operator is climbed to in one go, or operator by operator. -/
theorem tighten_eq_climb (hs : s.size < n) :
    tighten operator tier operand join min v s hs =
      climb operator tier operand join (min + 1) v s hs := by
  induction s using Stream.bySize generalizing v with
  | step s ih =>
      rw [tighten]
      split
      · rename_i ho
        rw [climb_eq_stop (by simp [ho])]
      · rename_i next ho
        split
        · rename_i hstop
          rw [climb_eq_stop]
          intro op hop
          cases ho.symm.trans hop
          exact hstop.imp_left Nat.lt_succ_of_le
        · rename_i hgo
          obtain ⟨hlt, hk⟩ := not_or.1 hgo
          rw [climb_bind (Nat.lt_of_not_le hlt), bind_eq, climbing]
          split
          · rename_i e rest hc
            simp only [hc]
          · rename_i u t le hc
            simp only [hc]
            have lt := size_climb_lt ho (Nat.le_refl _) hk hc
            exact congrArg (Outcome.weaken le) (ih t lt _)

theorem nested_eq_climb (hs : s.size < n) :
    nested operator tier operand join min v s hs = climb operator tier operand join min v s hs := by
  induction s using Stream.bySize generalizing v with
  | step s ih =>
      by_cases hk : s.current.kind = .eof
      · rw [climb_eq_stop fun _ _ => .inr hk, nested, loop_eq_eof hk]
      by_cases hstop : AtRest operator tier min s
      · rw [climb_eq_stop hstop, nested, loop_eq_none]
        cases ho : operator s.current.kind with
        | none => rfl
        | some op => simp [(hstop op ho).resolve_right hk]
      obtain ⟨op, ho, hm, -⟩ := not_atRest hstop
      have hop : ((operator s.current.kind).filter fun op => min ≤ tier op) = some op := by
        simp [ho, hm]
      cases ha : s.advance with
      | error e =>
          rw [climb_eq_error ho hm hk ha, nested, loop_eq_error (by rw [hop]; rfl) hk ha]
      | ok t =>
          have lt := Stream.size_advance_lt ha hk
          rw [climb_eq_ok ho hm hk ha, nested, loop_eq_ok (by rw [hop]; rfl) hk ha]
          dsimp only
          rw [bind_eq]
          cases operand t (Nat.lt_trans lt hs) with
          | error e rest => rfl
          | ok right u le =>
              dsimp only
              rw [bind_eq, tighten_eq_climb]
              cases climb operator tier operand join (tier op + 1) right u _ with
              | error e rest => rfl
              | ok right w le' =>
                  dsimp only
                  rw [← ih w (by omega)]
                  rfl

end

end Rule

end Transact
