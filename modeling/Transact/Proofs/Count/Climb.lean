import Transact.Proofs.Count.Stream

namespace Transact.Rule.Ensures

variable {α ω : Type} {n : Nat} {s t : Stream} {m : Multiset Word}

/-- How the operands of an operator are joined: `F` holds of the values that are well formed, `T` is
the tier of a value, `E` tells the kinds that may follow it and `W` gives its words. -/
structure Joins (operator : Kind → Option ω) (tier : ω → Nat) (join : Token → α → ω → α → α)
    (F : α → Prop) (T : α → Nat) (E : α → Kind → Prop) (W : α → List Word) : Prop where
  isFixed : ∀ k op, operator k = some op → k.isFixed = true
  tier_lt : ∀ op, tier op < 3
  formed : ∀ token left op right, F left → F right → tier op ≤ T left → tier op < T right →
    F (join token left op right)
  tier_join : ∀ token left op right, T (join token left op right) = tier op
  ends : ∀ token left op right k, E right k → E (join token left op right) k
  words : ∀ token left op right, operator token.kind = some op →
    Word.bag (W (join token left op right)) =
      Word.bag (W left) + (Word.count token.kind.word + Word.bag (W right))

variable {operator : Kind → Option ω} {tier : ω → Nat} {operand : Rule n α}
variable {join : Token → α → ω → α → α} {F : α → Prop} {T : α → Nat} {E : α → Kind → Prop}
variable {W : α → List Word}

theorem spend_climb (hj : Joins operator tier join F T E W)
    (ho : operand.Accounts (fun _ v u => F v ∧ T v = 3 ∧ E v u.current.kind) W)
    (min : Nat) {left : α} (hf : F left) (hm : min ≤ T left) (he : E left t.current.kind)
    (hn : ∀ op, operator t.current.kind = some op → tier op ≤ T left)
    (h : s.Spends t (m + Word.bag (W left))) :
    Ensures (Rule.climb operator tier operand join min left) t (fun v u =>
      (F v ∧ min ≤ T v ∧ E v u.current.kind ∧
        ∀ op, operator u.current.kind = some op → tier op < min) ∧
        s.Spends u (m + Word.bag (W v))) True := by
  -- The tier and the left operand vary: the right operand is climbed from at the next tier, and
  -- the joined value at this one.
  induction t using Stream.bySize generalizing m min left with
  | step t ih =>
      cases hop : operator t.current.kind with
      | none =>
          refine climb_stop (fun op hs => ?_) ⟨⟨hf, hm, he, fun op hs => ?_⟩, h⟩
          · cases hop.symm.trans hs
          · cases hop.symm.trans hs
      | some op =>
          have hfixed := hj.isFixed _ _ hop
          have hne : t.current.kind ≠ .eof := by
            intro heof
            rw [heof] at hfixed
            cases hfixed
          by_cases hlt : tier op < min
          · refine climb_stop (fun op' hs => ?_) ⟨⟨hf, hm, he, fun op' hs => ?_⟩, h⟩
            · cases hop.symm.trans hs
              exact .inl hlt
            · cases hop.symm.trans hs
              exact hlt
          · cases ha : t.advance with
            | error e => exact climb_fault hop (Nat.le_of_not_lt hlt) hne ha trivial
            | ok u =>
                have hsize := Stream.size_advance_lt ha hne
                have hu := h.step_fixed _ hfixed rfl ha
                refine climb_step hop (Nat.le_of_not_lt hlt) hne ha ?_
                refine (ho hu).sized.imp fun right v hv => ?_
                obtain ⟨⟨⟨hfr, htr, her⟩, hv⟩, hsv⟩ := hv
                have htier := hj.tier_lt
                have hmin : tier op + 1 ≤ T right := by
                  rw [htr]
                  exact htier op
                have hv' := Nat.lt_of_le_of_lt hsv hsize
                have hright := ih v hv' (tier op + 1) hfr hmin her
                  (fun op' _ => by rw [htr]; exact Nat.le_of_lt (htier op')) hv
                refine hright.sized.imp fun right w hw => ?_
                obtain ⟨⟨⟨hfr, htr, her, hnext⟩, hw⟩, hsw⟩ := hw
                refine ih w (Nat.lt_of_le_of_lt hsw hv') min
                  (hj.formed _ _ _ _ hf hfr (hn op hop) htr) ?_ (hj.ends _ _ _ _ _ her)
                  (fun op' hs => ?_) (hw.cast ?_)
                · rw [hj.tier_join]
                  exact Nat.le_of_not_lt hlt
                · rw [hj.tier_join]
                  exact Nat.le_of_lt_succ (hnext op' hs)
                · rw [hj.words _ _ _ _ hop]
                  abel

end Transact.Rule.Ensures
