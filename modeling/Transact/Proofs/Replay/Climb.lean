import Transact.Proofs.Replay.Basic

namespace Transact.Rule

variable {α β ω : Type} {n : Nat}

inductive Nested (tier : ω → Nat) (join : Token → α → ω → α → α) (T : α → Nat) (L : α → Prop)
    (W : α → List Word) (word : ω → Word) : α → α → List Word → Prop where
  | operand {v : α} (h : L v) : Nested tier join T L W word v v []
  | join {left right first first' : α} {ws ws' : List Word} {op : ω} (token : Token)
      (hl : Nested tier join T L W word left first ws)
      (hr : Nested tier join T L W word right first' ws')
      (htl : tier op ≤ T left) (htr : tier op < T right) :
      Nested tier join T L W word (join token left op right) first
        (ws ++ word op :: (W first' ++ ws'))

/-- How operators come back from their words: `A` tells the kinds that may follow a tree, `C` the
trees that are read back, and `f` what is read of them. -/
structure Folds (operator : Kind → Option ω) (tier : ω → Nat) (join : Token → α → ω → α → α)
    (T : α → Nat) (A : α → Kind → Prop) (C : α → Prop) (f : α → β) (word : ω → Word) : Prop where
  operator_word : ∀ op, operator (word op).1 = some op
  tier_join : ∀ token left op right, T (join token left op right) = tier op
  admits_word : ∀ v op, A v (word op).1
  admits_join : ∀ token left op right k, A (join token left op right) k → A right k
  clean_join : ∀ token left op right, C (join token left op right) ↔ C left ∧ C right
  congr : ∀ token token' left left' op right right', f left = f left' → f right = f right' →
    f (join token left op right) = f (join token' left' op right')

variable {operator : Kind → Option ω} {tier : ω → Nat} {join : Token → α → ω → α → α}
variable {T : α → Nat} {L : α → Prop} {W : α → List Word} {A : α → Kind → Prop} {C : α → Prop}
variable {f : α → β} {word : ω → Word} {v first : α} {ws rest : List Word}

namespace Nested

theorem isOperand_first (h : Nested tier join T L W word v first ws) : L first := by
  induction h with
  | operand h => exact h
  | join _ _ _ _ _ ihl _ => exact ihl

theorem clean_first (hF : Folds operator tier join T A C f word)
    (h : Nested tier join T L W word v first ws) (hc : C v) : C first := by
  induction h with
  | operand => exact hc
  | join token hl hr htl htr ihl _ => exact ihl ((hF.clean_join ..).1 hc).1

/-- What follows the leftmost operand is what follows the tree, or an operator. -/
theorem admits_first (hF : Folds operator tier join T A C f word)
    (h : Nested tier join T L W word v first ws) (ha : A v (Word.headKind rest)) :
    A first (Word.headKind (ws ++ rest)) := by
  induction h generalizing rest with
  | operand => exact ha
  | join token hl hr htl htr ihl _ =>
      rw [List.append_assoc]
      exact ihl (hF.admits_word ..)

end Nested

namespace Ensures

variable {operand : Rule n α} {s : Stream} {c : Prop} {post : α → Stream → Prop} {min : Nat} {u : α}

/-- Folding onto the leftmost operand of a tree comes to the point where the tree is folded, and
goes on from there. -/
theorem climb_nested (hF : Folds operator tier join T A C f word)
    (ho : operand.Replays (fun v k => L v ∧ A v k) W C f)
    (h : Nested tier join T L W word v first ws) (hmin : min ≤ T v)
    (hu : f u = f first) (hfirst : C first) (ha : A v (Word.headKind rest))
    (hn : ∀ op, operator (Word.headKind rest) = some op → tier op ≤ T v)
    (hs : s.Holds (ws ++ rest)) (hc : c → C v)
    (hrest : ∀ u t, C v → f u = f v → t.Holds rest →
      Ensures (Rule.climb operator tier operand join min u) t post (¬c)) :
    Ensures (Rule.climb operator tier operand join min u) s post (¬c) := by
  induction h generalizing min u s rest post c with
  | operand => exact hrest u s hfirst hu hs
  | @join left right first first' ws ws' op token hl hr htl htr ihl ihr =>
      rw [hF.tier_join] at hmin hn
      have hclean := hF.clean_join token left op right
      simp only [List.append_assoc, List.cons_append] at hs
      refine ihl (Nat.le_trans hmin htl) hu hfirst (hF.admits_word _ op) (fun op' h' => ?_) hs
        (fun h => (hclean.1 (hc h)).1) fun u t hcl hul ht => ?_
      · obtain rfl := Option.some.inj ((hF.operator_word op).symm.trans h')
        exact htl
      obtain ⟨t', hadvance, ht'⟩ := ht.exists_advance
      have hop : operator t.current.kind = some op := by rw [ht.kind]; exact hF.operator_word op
      have har := hF.admits_join _ _ _ _ _ ha
      refine climb_step hop hmin ht.ne_eof hadvance ?_
      refine (ho ⟨hr.isOperand_first, hr.admits_first hF har⟩ ht').mono (fun x y hx => ?_)
        (mt fun h => hr.clean_first hF (hclean.1 (hc h)).2)
      obtain ⟨hcx, hfx, hy⟩ := hx
      refine ihr htr hfx hcx har (fun op' h' => Nat.le_of_lt (Nat.lt_of_le_of_lt (hn op' h') htr))
        hy (fun h => (hclean.1 (hc h)).2) fun x y hcr hfr hy => ?_
      refine climb_stop (fun op' h' => .inl ?_) (hrest _ _ (hclean.2 ⟨hcl, hcr⟩)
        (hF.congr _ _ _ _ _ _ _ hul hfr) hy)
      rw [hy.kind] at h'
      exact Nat.lt_succ_of_le (hn op' h')

/-- Folding onto the leftmost operand of a tree reads the tree, if no operator follows. -/
theorem holds_climb (hF : Folds operator tier join T A C f word)
    (ho : operand.Replays (fun v k => L v ∧ A v k) W C f)
    (h : Nested tier join T L W word v first ws) (hmin : min ≤ T v) (hu : f u = f first)
    (hfirst : C first) (ha : A v (Word.headKind rest)) (hn : operator (Word.headKind rest) = none)
    (hs : s.Holds (ws ++ rest)) :
    Ensures (Rule.climb operator tier operand join min u) s
      (fun u t => C v ∧ f u = f v ∧ t.Holds rest) (¬C v) := by
  refine climb_nested hF ho h hmin hu hfirst ha (fun op h' => ?_) hs id fun u t hv hu ht => ?_
  · rw [hn] at h'
    cases h'
  · refine climb_stop (fun op h' => ?_) ⟨hv, hu, ht⟩
    rw [ht.kind, hn] at h'
    cases h'

end Ensures

end Transact.Rule
