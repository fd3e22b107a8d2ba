import Mathlib.Logic.Basic
import Transact.Proofs.Rule.Climb

namespace Transact

def Stream.left (s : Stream) : List Token :=
  if s.current.kind = .eof then s.upcoming else s.current :: s.upcoming

theorem Stream.left_of_ne {s : Stream} (h : s.current.kind ≠ .eof) :
    s.left = s.current :: s.upcoming := if_neg h

theorem Stream.left_suffix_upcoming {s t : Stream} (h : s.advance = .ok t) :
    t.left <:+ s.upcoming := by
  simp only [advance] at h
  split at h
  · rename_i u us fault hu
    cases h
    rw [left, hu]
    split
    · exact List.suffix_cons _ _
    · exact List.suffix_rfl
  · cases h
  · cases h
    simp [left, Token.eof]

theorem Stream.upcoming_suffix_left (s : Stream) : s.upcoming <:+ s.left := by
  rw [left]
  split
  · exact List.suffix_rfl
  · exact List.suffix_cons _ _

theorem Stream.left_advance {s t : Stream} (h : s.advance = .ok t) : t.left.Sublist s.upcoming :=
  (left_suffix_upcoming h).sublist

theorem Stream.upcoming_left (s : Stream) : s.upcoming.Sublist s.left :=
  s.upcoming_suffix_left.sublist

namespace Rule

variable {α β ω : Type} {n : Nat} {s : Stream} {l : List Token} {f : α → List Token}
variable {g : β → List Token} {p : Rule n α}

def CollectsAt (p : Rule n α) (s : Stream) (l : List Token) (f : α → List Token) : Prop :=
  p.Ensures s (fun v t => (f v ++ t.left).Sublist (l ++ s.left)) True

/-- A success takes tokens from the front of the stream, and the value keeps some of them behind
some of `l`. -/
def Collects (p : Rule n α) (l : List Token) (f : α → List Token) : Prop :=
  ∀ s, p.CollectsAt s l f

namespace CollectsAt

theorem bind {q : α → Rule n β} (h : p.CollectsAt s l f) (hq : ∀ v, (q v).Collects (f v) g) :
    (p >>= q).CollectsAt s l g :=
  Ensures.bind h fun v t hv => (hq v t).imp fun _ _ hw => hw.trans hv

theorem unexpected : (Rule.unexpected : Rule n α).CollectsAt s l f := Ensures.unexpected trivial

theorem take {q : Token → Rule n α} (h : s.current.kind ≠ .eof →
    (q s.current).Collects (l ++ [s.current]) f) : (Rule.take q).CollectsAt s l f := by
  apply Ensures.take
  · intro t hk ht
    apply (h hk t).imp
    intro v u hv
    apply hv.trans
    rw [List.append_assoc, Stream.left_of_ne hk]
    exact ((Stream.left_advance ht).cons_cons _).append_left l
  · exact fun _ => trivial
  · exact fun _ _ => trivial

theorem advance (h : s.current.kind ≠ .eof) :
    (Rule.advance : Rule n Token).CollectsAt s l fun x => l ++ [x] := by
  apply Ensures.advance
  · intro t ht
    rw [List.append_assoc, Stream.left_of_ne h]
    exact ((Stream.left_advance ht).cons_cons _).append_left l
  · exact fun _ _ => trivial

end CollectsAt

namespace Collects

theorem pure {v : α} (h : (f v).Sublist l) : (pure v : Rule n α).Collects l f :=
  fun s => Ensures.pure (h.append_right s.left)

theorem unexpected : (Rule.unexpected : Rule n α).Collects l f := fun _ => CollectsAt.unexpected

theorem expected {what : Expectation} : (Rule.expected what : Rule n α).Collects l f :=
  fun _ => Ensures.expected trivial

theorem fail {e : SyntaxError} : (Rule.fail e : Rule n α).Collects l f :=
  fun _ => Ensures.fail trivial

theorem bind {q : α → Rule n β} (h : p.Collects l f) (hq : ∀ v, (q v).Collects (f v) g) :
    (p >>= q).Collects l g :=
  fun s => (h s).bind hq

theorem drop (h : p.Collects [] f) : p.Collects l f :=
  fun s => (h s).imp fun _ _ hv => hv.trans (List.sublist_append_right l s.left)

theorem behind (h : p.Collects [] f) (l : List Token) : p.Collects l fun v => l ++ f v := by
  intro s
  apply (h s).imp
  intro v t hv
  rw [List.append_assoc]
  exact hv.append_left l

theorem next {q : α → Rule n β} (h : p.Collects [] f) (hq : ∀ v, (q v).Collects (l ++ f v) g) :
    (p >>= q).Collects l g :=
  (h.behind l).bind hq

theorem skip {q : α → Rule n β} (h : p.Collects [] fun _ => []) (hq : ∀ v, (q v).Collects l g) :
    (p >>= q).Collects l g :=
  h.next fun v => by simpa using hq v

theorem map {c : α → β} (h : p.Collects l f) (hc : ∀ v, (g (c v)).Sublist (f v)) :
    (c <$> p).Collects l g :=
  h.bind fun v => pure (hc v)

theorem ite {c : Prop} [Decidable c] {q : Rule n α} (h : p.Collects l f) (h' : q.Collects l f) :
    (if c then p else q).Collects l f := by
  split
  · exact h
  · exact h'

theorem onKind {q : Kind → Rule n α} (h : ∀ s : Stream, (q s.current.kind).CollectsAt s l f) :
    (Rule.kind >>= q).Collects l f :=
  fun s => Ensures.kind (h s)

theorem kind {q : Kind → Rule n α} (h : ∀ k, (q k).Collects l f) : (Rule.kind >>= q).Collects l f :=
  onKind fun s => h s.current.kind s

theorem current : (Rule.current : Rule n Token).Collects [] fun _ => [] :=
  fun _ _ => List.Sublist.refl _

theorem advance : (Rule.advance : Rule n Token).Collects [] fun _ => [] := by
  intro s
  apply Ensures.advance
  · exact fun t ht => (Stream.left_advance ht).trans s.upcoming_left
  · exact fun _ _ => trivial

theorem take {q : Token → Rule n α} (h : ∀ x, (q x).Collects (l ++ [x]) f) :
    (Rule.take q).Collects l f :=
  fun s => CollectsAt.take fun _ => h s.current

theorem eat {k : Kind} : (Rule.eat k : Rule n Bool).Collects [] fun _ => [] :=
  kind fun _ => ite (advance.skip fun _ => pure (.refl _)) (pure (.refl _))

theorem expect {k : Kind} : (Rule.expect k : Rule n Token).Collects [] fun _ => [] :=
  kind fun _ => ite advance expected

theorem begin {k : Kind} {q : Token → Rule n α} (h : ∀ x, (q x).Collects (l ++ [x]) f) :
    (Rule.begin k q).Collects l f :=
  kind fun _ => ite (take h) expected

theorem loop (step : α → Kind → Option (Token → Rule n α))
    (h : ∀ v k q x, step v k = some q → (q x).Collects (f v) f) (v : α) :
    Collects (Rule.loop step v) (f v) f := by
  intro s
  apply (Ensures.loop (fun w t => (f w ++ t.left).Sublist (f v ++ s.left)) _ (.refl _)).imp
    fun _ _ hw => hw.1
  intro w t q u hw hq hk ha
  apply (h w _ q t.current hq u).imp
  intro x r hx
  apply hx.trans
  exact (((Stream.left_advance ha).trans t.upcoming_left).append_left _).trans hw

theorem commaSeparated (h : p.Collects [] f) :
    (Rule.commaSeparated p).Collects [] fun vs => vs.flatMap f := by
  apply h.bind
  intro first
  have hloop := loop (f := fun vs : List α => vs.flatMap f)
    (fun (items : List α) k =>
      if k = .mark .comma then some fun _ => do return items ++ [← p] else none) ?_ [first]
  · simpa using hloop
  · intro vs k q x hq
    split at hq
    · cases hq
      apply h.next
      intro v
      exact pure (by simp)
    · cases hq

theorem climb {operator : Kind → Option ω} {tier : ω → Nat} {join : Token → α → ω → α → α}
    (h : p.Collects [] f)
    (hjoin : ∀ x a op b, (f (join x a op b)).Sublist (f a ++ f b)) (min : Nat) (left : α) :
    Collects (Rule.climb operator tier p join min left) (f left) f := by
  intro s
  induction s using Stream.bySize generalizing min left with
  | step s ih =>
    by_cases hstop : ∀ op, operator s.current.kind = some op →
        tier op < min ∨ s.current.kind = .eof
    · exact Ensures.climb_stop hstop (.refl _)
    · obtain ⟨op, ho, hstop⟩ := by simpa only [not_forall] using hstop
      obtain ⟨hm, hk⟩ := not_or.1 hstop
      cases ha : s.advance with
      | error e => exact Ensures.climb_fault ho (Nat.le_of_not_lt hm) hk ha trivial
      | ok t =>
          have lt := Stream.size_advance_lt ha hk
          have hleft := (Stream.left_advance ha).trans s.upcoming_left
          apply Ensures.climb_step ho (Nat.le_of_not_lt hm) hk ha
          apply (h t).sized.imp
          rintro right u ⟨hu, hle⟩
          apply (ih u (by omega) (tier op + 1) right).sized.imp
          rintro right w ⟨hw, hle'⟩
          apply (ih w (by omega) min (join s.current left op right)).imp
          intro v x hv
          have hjoined : (f (join s.current left op right) ++ w.left).Sublist
              (f left ++ (f right ++ w.left)) := by
            rw [← List.append_assoc]
            exact (hjoin _ _ _ _).append_right w.left
          exact hv.trans (hjoined.trans (((hw.trans hu).trans hleft).append_left _))

theorem many {stop : Kind → Bool} {shrinks : Shrinks p} (h : p.Collects [] f) :
    Collects (Rule.many stop p shrinks []) [] fun vs => vs.flatMap f := by
  intro s
  apply (Ensures.many (fun vs t => (vs.flatMap f ++ t.left).Sublist s.left) _ (.refl _)).imp
    fun _ _ hv => hv.1
  intro vs t hvs _
  apply (h t).imp
  intro v u hv
  rw [List.flatMap_append, List.append_assoc]
  simpa using (hv.append_left (vs.flatMap f)).trans hvs

end Collects

end Rule

end Transact
