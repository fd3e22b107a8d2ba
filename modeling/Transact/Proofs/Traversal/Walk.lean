import Transact.Proofs.Traversal.Children

namespace Transact

/-- Whether the node is a part of a statement that has no children of its own on a walk, or one
whose children follow it. Tables are left out: their names go with them. -/
def Visit.isInner : Visit → Bool
  | select _ | expression _ | predicate _ | column _ | subquerySource _ | row _
  | reference _ => true
  | _ => false

/-- A property of the nodes that a walk meets which walks over larger trees keep. -/
structure Visit.Composed (M : List Visit → Prop) : Prop where
  nil : M []
  append {vs us : List Visit} (hv : M vs) (hu : M us) : M (vs ++ us)
  node {v : Visit} {vs : List Visit} (hv : v.isInner = true) (h : M vs) : M (v :: vs)
  table (source : TableSource) {vs : List Visit} (h : M vs) :
    M (.tableSource source :: .reference source.name :: vs)

namespace Visit

def isPart : Visit → Bool
  | tableSource _ => true
  | v => v.isInner

theorem isPart_visit (s : Source) : s.visit.isPart = true := by cases s <;> rfl

theorem isPart_children {v u : Visit} (hv : v.isPart = true) (hu : u ∈ v.children) :
    u.isPart = true := by
  revert u
  cases v with
  | expression e => cases e <;> simp [children, Expression.children, isPart, isInner]
  | predicate p => cases p <;> simp [children, Predicate.children, isPart, isInner]
  | column c => cases c <;> simp [children, Column.children, isPart, isInner]
  | select s =>
    simp only [children, List.forall_mem_append, List.forall_mem_map]
    exact ⟨⟨⟨fun _ _ => rfl, fun _ _ => rfl⟩, fun s _ => isPart_visit s⟩, fun _ _ => rfl⟩
  | tableSource s | subquerySource s | row s | reference s => simp [children, isPart, isInner]
  | _ => cases hv

variable {M : List Visit → Prop}

theorem Composed.flatMap (hM : Composed M) {α : Type} {f : α → List Visit} {as : List α}
    (h : ∀ a ∈ as, M (f a)) : M (as.flatMap f) := by
  induction as with
  | nil => exact hM.nil
  | cons a as ih =>
      rw [List.forall_mem_cons] at h
      exact hM.append h.1 (ih h.2)

theorem composed (hM : Composed M) (v : Visit) (hv : v.isPart = true) : M v.visits := by
  induction v using byChildren with
  | step v ih =>
    have hchildren u (hu : u ∈ v.children) : M u.visits := ih u hu (isPart_children hv hu)
    cases v with
    | tableSource s =>
      rw [visits_eq, children, List.flatMap_cons]
      exact hM.table s (hM.flatMap fun u hu => hchildren u (List.mem_cons_of_mem _ hu))
    | _ =>
      rw [visits_eq]
      exact hM.node hv (hM.flatMap hchildren)

end Visit

variable {M : List Visit → Prop} (hM : Visit.Composed M)

include hM

theorem OptionalExpression.composed (e : Option Expression) : M (OptionalExpression.visits e) := by
  rw [OptionalExpression.visits_eq]
  exact hM.flatMap fun e _ => (Visit.expression e).composed hM rfl

theorem Columns.composed (cs : List Column) : M (Columns.visits cs) := by
  rw [Columns.visits_eq]
  exact hM.flatMap fun c _ => (Visit.column c).composed hM rfl

theorem Sources.composed (ss : List Source) : M (Sources.visits ss) := by
  rw [Sources.visits_eq]
  exact hM.flatMap fun s _ =>
    Visit.visits_visit_source s ▸ s.visit.composed hM (Visit.isPart_visit s)

theorem OptionalPredicate.composed (p : Option Predicate) : M (OptionalPredicate.visits p) := by
  rw [OptionalPredicate.visits_eq]
  exact hM.flatMap fun p _ => (Visit.predicate p).composed hM rfl

theorem References.composed (names : List Reference) : M (names.map .reference) := by
  rw [List.map_eq_flatMap]
  exact hM.flatMap fun name _ => (Visit.reference name).composed hM rfl

end Transact
