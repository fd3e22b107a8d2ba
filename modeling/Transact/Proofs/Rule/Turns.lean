import Transact.Proofs.Rule.Climb

namespace Transact.Rule

variable {α β ω : Type} {n k m : Nat} {s t : Stream} {v : α}

theorem kind_bind_eq (f : Kind → Rule n α) (hs : s.size < n) :
    (kind >>= f) s hs = f s.current.kind s hs := Outcome.weaken_refl _

def AgreeOn (k : Kind) (p q : Rule n α) : Prop :=
  ∀ s hs, s.current.kind = k → p s hs = q s hs

theorem kind_bind_congr {f g : Kind → Rule n α} (h : ∀ k, AgreeOn k (f k) (g k)) :
    (kind >>= f) = (kind >>= g) := by
  funext s hs
  rw [kind_bind_eq, kind_bind_eq]
  exact h s.current.kind s hs rfl

/-- The second rule runs where the first one has ended, so it matters there only. -/
theorem bind_congr_at {p : Rule n α} {f g : α → Rule n β} {hs : s.size < n}
    (h : ∀ v t le, p s hs = .ok v t le →
      f v t (Nat.lt_of_le_of_lt le hs) = g v t (Nat.lt_of_le_of_lt le hs)) :
    (p >>= f) s hs = (p >>= g) s hs := by
  rw [bind_eq, bind_eq]
  cases hp : p s hs with
  | error e rest => rfl
  | ok v t le => exact congrArg (Outcome.weaken le) (h v t le hp)

def taking (f : Token → Rule n α) : Rule n α := advance >>= f

theorem taking_eq_ok {f : Token → Rule n α} (hk : s.current.kind ≠ .eof)
    (ha : s.advance = .ok t) (hs : s.size < n) :
    taking f s hs = (f s.current t (Nat.lt_trans (Stream.size_advance_lt ha hk) hs)).weaken
      (Nat.le_of_lt (Stream.size_advance_lt ha hk)) := by
  rw [taking, bind_eq, advance_eq_ok ha]

theorem taking_eq_error {f : Token → Rule n α} {e : LexicalError} (ha : s.advance = .error e)
    (hs : s.size < n) : taking f s hs = .error (.lexical e) s.withoutFault := by
  rw [taking, bind_eq, advance_eq_error ha]

theorem size_taking_lt {f : Token → Rule n α} {hs : s.size < n} {le : t.size ≤ s.size}
    (hk : s.current.kind ≠ .eof) (h : taking f s hs = .ok v t le) : t.size < s.size := by
  cases ha : s.advance with
  | error e =>
      rw [taking_eq_error ha] at h
      cases h
  | ok u =>
      have lt := Stream.size_advance_lt ha hk
      rw [taking_eq_ok hk ha] at h
      revert h
      cases f s.current u (Nat.lt_trans lt hs) with
      | error e rest => intro h; cases h
      | ok w rest le =>
          intro h
          cases h
          exact Nat.lt_of_le_of_lt le lt

/-- Runs the body that the kind at hand gives, turn after turn, until it gives none. Behind `k`
turns stands `beyond`. -/
def turns (body : α → Kind → Option (Rule n α)) (beyond : α → Rule n α) : Nat → α → Rule n α
  | 0, v => beyond v
  | k + 1, v => do
    match body v (← kind) with
    | none => return v
    | some p => turns body beyond k (← p)

variable {body : α → Kind → Option (Rule n α)} {beyond : α → Rule n α} {whole : α → Rule n α}

theorem turns_eq_none (h : body v s.current.kind = none) (hs : s.size < n) :
    turns body beyond (k + 1) v s hs = .ok v s (Nat.le_refl _) := by
  rw [turns, kind_bind_eq, h]
  rfl

theorem turns_eq_some {p : Rule n α} (h : body v s.current.kind = some p) (hs : s.size < n) :
    turns body beyond (k + 1) v s hs = (p >>= turns body beyond k) s hs := by
  rw [turns, kind_bind_eq, h]

/-- What a turn of the loop leaves is shorter, on streams of fewer than `m` tokens, and `whole` is a
rule that does one turn and then itself. -/
structure Winds (m : Nat) (body : α → Kind → Option (Rule n α)) (whole : α → Rule n α) : Prop where
  stop {v : α} {s : Stream} (hs : s.size < n) (hm : s.size < m)
    (h : body v s.current.kind = none) : whole v s hs = .ok v s (Nat.le_refl _)
  turn {v : α} {s : Stream} {p : Rule n α} (hs : s.size < n) (hm : s.size < m)
    (h : body v s.current.kind = some p) : whole v s hs = (p >>= whole) s hs
  shorter {v w : α} {s t : Stream} {p : Rule n α} {hs : s.size < n} {le : t.size ≤ s.size}
    (hm : s.size < m) (h : body v s.current.kind = some p) (hp : p s hs = .ok w t le) :
    t.size < s.size

theorem Winds.turns_eq (h : Winds m body whole) (hm : s.size < m) (hk : s.size < k)
    (hs : s.size < n) : turns body beyond k v s hs = whole v s hs := by
  induction k generalizing s v with
  | zero => exact absurd hk (Nat.not_lt_zero _)
  | succ k ih =>
      cases hb : body v s.current.kind with
      | none => rw [turns_eq_none hb, h.stop hs hm hb]
      | some p =>
          rw [turns_eq_some hb, h.turn hs hm hb]
          refine bind_congr_at fun w t le hp => ?_
          have lt := h.shorter hm hb hp
          exact ih (Nat.lt_trans lt hm) (Nat.lt_of_lt_of_le lt (Nat.le_of_lt_succ hk)) _

/-- On streams of fewer than `n` tokens, a loop of `n` turns comes to its end. -/
theorem Winds.turns_eq_whole (h : Winds n body whole) (hk : n ≤ k) :
    turns body beyond k v = whole v :=
  funext fun _ => funext fun hs => h.turns_eq hs (Nat.lt_of_lt_of_le hs hk) hs

section Steps

variable {step : α → Kind → Option (Token → Rule n α)}

theorem winds_loop (hbody : ∀ v k, body v k = (step v k).map taking)
    (hstep : ∀ v, step v .eof = none) : Winds m body (loop step) := by
  obtain rfl : body = fun v k => (step v k).map taking := funext fun v => funext (hbody v)
  have hne {v : α} {s : Stream} {f : Token → Rule n α} (h : step v s.current.kind = some f) :
      s.current.kind ≠ .eof := by
    intro hk
    rw [hk, hstep] at h
    cases h
  constructor
  · intro v s hs hm h
    exact loop_eq_none (Option.map_eq_none_iff.1 h) hs
  · intro v s p hs hm h
    obtain ⟨f, hf, rfl⟩ := Option.map_eq_some_iff.1 h
    have hk := hne hf
    refine Eq.trans ?_ (bind_eq (taking f) (loop step) hs).symm
    cases ha : s.advance with
    | error e => rw [loop_eq_error hf hk ha, taking_eq_error ha]
    | ok t =>
        rw [loop_eq_ok hf hk ha, taking_eq_ok hk ha]
        generalize f s.current t _ = o
        cases o <;> rfl
  · intro v w s t p hs le hm h hp
    obtain ⟨f, hf, rfl⟩ := Option.map_eq_some_iff.1 h
    exact size_taking_lt (hne hf) hp

theorem winds_many {stop : Kind → Bool} {item : Rule n α} (shrinks : Shrinks item) :
    Winds m (fun items k => if stop k then none else some do return items ++ [← item])
      (many stop item shrinks) := by
  have hgo {items : List α} {s : Stream} {p : Rule n (List α)}
      (h : (if stop s.current.kind then none else some do return items ++ [← item]) = some p) :
      ¬stop s.current.kind = true ∧ (do return items ++ [← item]) = p := by
    split at h
    · cases h
    · rename_i hstop
      exact ⟨hstop, Option.some.inj h⟩
  constructor
  · intro items s hs hm h
    refine many_eq_stop ?_ hs
    split at h
    · assumption
    · cases h
  · intro items s p hs hm h
    obtain ⟨hstop, rfl⟩ := hgo h
    refine Eq.trans ?_ (bind_eq _ (many stop item shrinks) hs).symm
    rw [bind_eq]
    cases hi : item s hs with
    | error e rest => rw [many_eq_error hstop hi]
    | ok v t le =>
        rw [many_eq_ok hstop hi]
        rfl
  · intro items items' s t p hs le hm h hp
    obtain ⟨hstop, rfl⟩ := hgo h
    rw [bind_eq] at hp
    cases hi : item s hs with
    | error e rest => rw [hi] at hp; cases hp
    | ok v u le' =>
        rw [hi] at hp
        cases hp
        exact shrinks s hs v _ le' hi

end Steps

section Climbing

variable {operator : Kind → Option ω} {tier : ω → Nat} {operand : Rule n α}
variable {join : Token → α → ω → α → α} {min : Nat}

def tightening (operator : Kind → Option ω) (tier : ω → Nat) (call : Nat → α → Rule n α)
    (bound : Nat) (right : α) (kind : Kind) : Option (Rule n α) :=
  ((operator kind).filter fun next => bound < tier next).map fun next => call (tier next) right

/-- Climbing with two loops, which calls itself in the inner one. No more than `k` calls stand
inside one another, and no loop has more turns. -/
def climbTurns (operator : Kind → Option ω) (tier : ω → Nat) (operand : Rule n α)
    (join : Token → α → ω → α → α) (beyond : α → Rule n α) : Nat → Nat → α → Rule n α
  | 0, _, left => beyond left
  | k + 1, min, left =>
    turns (fun left kind => ((operator kind).filter fun op => min ≤ tier op).map fun op =>
      taking fun token => do
        let right ← operand
        let right ← turns (tightening operator tier
          (climbTurns operator tier operand join beyond k) (tier op)) beyond (k + 1) right
        return join token left op right) beyond (k + 1) left

theorem of_filter_eq_none {o : Option ω} {p : ω → Bool} (h : o.filter p = none) {op : ω}
    (ho : o = some op) : p op = false := by
  subst ho
  simpa using h

theorem winds_tightening {call : Nat → α → Rule n α} (bound : Nat) (hop : operator .eof = none)
    (hcall : ∀ {s : Stream} (hs : s.size < n) (min : Nat) (v : α), s.size < m →
      call min v s hs = climb operator tier operand join min v s hs) :
    Winds m (tightening operator tier call bound)
      (climbing operator tier operand join (bound + 1)) := by
  constructor
  · intro v s hs hm h
    refine climb_eq_stop (fun op ho => .inl ?_) hs
    have hf := of_filter_eq_none (Option.map_eq_none_iff.1 h) ho
    exact Nat.lt_succ_of_le (Nat.le_of_not_lt (of_decide_eq_false hf))
  · intro v s p hs hm h
    obtain ⟨next, hn, rfl⟩ := Option.map_eq_some_iff.1 h
    obtain ⟨-, hlt⟩ := Option.filter_eq_some_iff.1 hn
    have hle : bound + 1 ≤ tier next := of_decide_eq_true hlt
    rw [climbing, climb_bind hle, bind_eq, bind_eq, hcall hs _ _ hm]
    rfl
  · intro v w s t p hs le hm h hp
    obtain ⟨next, hn, rfl⟩ := Option.map_eq_some_iff.1 h
    obtain ⟨ho, -⟩ := Option.filter_eq_some_iff.1 hn
    rw [hcall hs _ _ hm] at hp
    exact size_climb_lt ho (Nat.le_refl _) (ne_eof_of_operator hop ho) hp

/-- Climbing with two loops comes to its end, and it is climbing in one go. -/
theorem climbTurns_eq (hop : operator .eof = none) (hk : s.size < k) (hs : s.size < n) :
    climbTurns operator tier operand join beyond k min v s hs =
      climb operator tier operand join min v s hs := by
  induction k generalizing s min v with
  | zero => exact absurd hk (Nat.not_lt_zero _)
  | succ k ih =>
      suffices h : Winds (k + 1) _ (climbing operator tier operand join min) from
        h.turns_eq hk hk hs
      constructor
      · intro v s hs hm h
        refine climb_eq_stop (fun op ho => .inl ?_) hs
        have hf := of_filter_eq_none (Option.map_eq_none_iff.1 h) ho
        exact Nat.lt_of_not_le (of_decide_eq_false hf)
      · intro v s p hs hm h
        obtain ⟨op, hn, rfl⟩ := Option.map_eq_some_iff.1 h
        obtain ⟨ho, hle⟩ := Option.filter_eq_some_iff.1 hn
        have hmin : min ≤ tier op := of_decide_eq_true hle
        have hne := ne_eof_of_operator hop ho
        cases ha : s.advance with
        | error e => rw [climbing, climb_eq_error ho hmin hne ha, bind_eq, taking_eq_error ha]
        | ok t =>
            have lt := Stream.size_advance_lt ha hne
            rw [climbing, climb_eq_ok ho hmin hne ha, bind_eq, taking_eq_ok hne ha]
            dsimp only
            rw [bind_eq]
            cases operand t (Nat.lt_trans lt hs) with
            | error e rest => rfl
            | ok right u le =>
                -- the token of the operator is taken, so one call less is enough behind it
                have hinner : Winds k _ (climbing operator tier operand join (tier op + 1)) :=
                  winds_tightening (tier op) hop fun hs min v hm => ih hm hs
                dsimp only
                rw [bind_eq, hinner.turns_eq (by omega) (by omega), climbing]
                cases climb operator tier operand join (tier op + 1) right u _ with
                | error e rest => rfl
                | ok right w le' => rfl
      · intro v w s t p hs le hm h hp
        obtain ⟨op, hn, rfl⟩ := Option.map_eq_some_iff.1 h
        obtain ⟨ho, -⟩ := Option.filter_eq_some_iff.1 hn
        exact size_taking_lt (ne_eof_of_operator hop ho) hp

end Climbing

end Transact.Rule
