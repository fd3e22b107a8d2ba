import Transact.Proofs.Traversal.Children

namespace Transact

namespace Visit

def below (v : Visit) : List Visit := v.visits.tail

theorem below_eq (v : Visit) : v.below = v.children.flatMap visits := by
  rw [below, visits_eq, List.tail_cons]

inductive Nested : List Visit → Prop
  | nil : Nested []
  | node (v : Visit) {vs : List Visit} (hbelow : Nested v.below) (h : Nested vs) :
      Nested (v :: (v.below ++ vs))

namespace Nested

variable {vs us ts : List Visit}

theorem append (h : Nested vs) (h' : Nested us) : Nested (vs ++ us) := by
  induction h with
  | nil => exact h'
  | node v hbelow _ _ ih =>
      rw [List.cons_append, List.append_assoc]
      exact .node v hbelow ih

theorem flatMap {α : Type} {f : α → List Visit} {as : List α} (h : ∀ a ∈ as, Nested (f a)) :
    Nested (as.flatMap f) := by
  induction as with
  | nil => exact .nil
  | cons a as ih =>
      rw [List.forall_mem_cons] at h
      exact h.1.append (ih h.2)

theorem below_subset {v : Visit} (h : Nested vs) (hv : v ∈ vs) : v.below ⊆ vs := by
  induction h with
  | nil => cases hv
  | @node u vs _ _ ihbelow ih =>
      have hsub : u.below ⊆ u :: (u.below ++ vs) := fun _ hw => by simp [hw]
      have hsub' : vs ⊆ u :: (u.below ++ vs) := fun _ hw => by simp [hw]
      rw [List.mem_cons, List.mem_append] at hv
      obtain rfl | hv | hv := hv
      · exact hsub
      · exact List.Subset.trans (ihbelow hv) hsub
      · exact List.Subset.trans (ih hv) hsub'

end Nested

end Visit

open Visit (Nested)

namespace Visit

/-- On every walk each node is followed by the nodes below it. -/
theorem nested (v : Visit) : Nested v.visits := by
  induction v using byChildren with
  | step v ih =>
    have hnode := Nested.node v (v.below_eq ▸ .flatMap ih) .nil
    rwa [List.append_nil, v.below_eq, ← v.visits_eq] at hnode

end Visit

theorem Expression.nested (e : Expression) : Visit.Nested e.visits := (Visit.expression e).nested

theorem Predicate.nested (p : Predicate) : Visit.Nested p.visits := (Visit.predicate p).nested

theorem Statements.nested (ss : List Statement) : Nested (Statements.visits ss) := by
  rw [Statements.visits_eq]
  exact .flatMap fun s _ => Visit.visits_visit_statement s ▸ s.visit.nested

namespace Visit

variable {stops stops' : Visit → Bool} {v : Visit} {vs us : List Visit}

/-- The nodes of a walk that neither are such nodes nor stand below one, when the first of them are
skipped. -/
def outsideAfter (stops : Visit → Bool) : Nat → List Visit → List Visit
  | _, [] => []
  | n + 1, _ :: vs => outsideAfter stops n vs
  | 0, v :: vs =>
    if stops v then outsideAfter stops v.below.length vs else v :: outsideAfter stops 0 vs

def outside (stops : Visit → Bool) (visits : List Visit) : List Visit := outsideAfter stops 0 visits

theorem outsideAfter_length (stops : Visit → Bool) (vs us : List Visit) :
    outsideAfter stops vs.length (vs ++ us) = outside stops us := by
  induction vs with
  | nil => rfl
  | cons v vs ih => exact ih

theorem outside_stop (h : stops v = true) (vs : List Visit) :
    outside stops (v :: (v.below ++ vs)) = outside stops vs := by
  rw [outside, outsideAfter, if_pos h, outsideAfter_length]

theorem outside_keep (h : stops v = false) (vs : List Visit) :
    outside stops (v :: vs) = v :: outside stops vs := by
  rw [outside, outsideAfter, if_neg (by simp [h]), outside]

theorem Nested.outside_append (h : Nested vs) (us : List Visit) :
    outside stops (vs ++ us) = outside stops vs ++ outside stops us := by
  induction h generalizing us with
  | nil => rfl
  | @node v vs _ _ ihbelow ih =>
      rw [List.cons_append, List.append_assoc]
      cases hv : stops v with
      | true => rw [outside_stop hv, outside_stop hv, ih]
      | false =>
          rw [outside_keep hv, outside_keep hv, ihbelow, ihbelow, ih, List.cons_append,
            List.append_assoc]

/-- If there is less to stop at, more of a walk is outside. -/
theorem Nested.outside_sublist (h : Nested vs)
    (hstops : ∀ v ∈ vs, stops' v = true → stops v = true) :
    (outside stops vs).Sublist (outside stops' vs) := by
  induction h with
  | nil => exact .slnil
  | @node v vs hbelow _ ihbelow ih =>
      have hvs := ih fun u hu => hstops u (by simp [hu])
      have hbelows := ihbelow fun u hu => hstops u (by simp [hu])
      cases hv : stops v with
      | true =>
          rw [outside_stop hv]
          cases hv' : stops' v with
          | true => rwa [outside_stop hv']
          | false =>
              rw [outside_keep hv', hbelow.outside_append]
              exact (hvs.trans (List.sublist_append_right _ _)).cons v
      | false =>
          have hv' : stops' v = false := Bool.eq_false_iff.2 fun h' =>
            Bool.false_ne_true (hv.symm.trans (hstops v (List.mem_cons_self ..) h'))
          rw [outside_keep hv, outside_keep hv', hbelow.outside_append, hbelow.outside_append]
          exact (hbelows.append hvs).cons_cons v

end Visit

end Transact
