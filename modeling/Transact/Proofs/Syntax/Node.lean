import Transact.Proofs.Syntax.Formed
import Transact.Proofs.Traversal.Children

namespace Transact

theorem Statements.forall_formed {ss : List Statement} (h : Statements.Formed ss) :
    ∀ s ∈ ss, s.Formed := by
  induction ss with
  | nil => simp
  | cons s ss ih => exact List.forall_mem_cons.2 ⟨h.1, ih h.2.2⟩

theorem OptionalExpression.formed_iff (e : Option Expression) :
    OptionalExpression.Formed e ↔ ∀ x ∈ e.toList, x.Formed := by
  cases e <;> simp [OptionalExpression.Formed]

theorem OptionalPredicate.formed_iff (p : Option Predicate) :
    OptionalPredicate.Formed p ↔ ∀ x ∈ p.toList, x.Formed := by
  cases p <;> simp [OptionalPredicate.Formed]

theorem Else.formed_iff (s : Option Statement) :
    Else.Formed s ↔ ∀ x ∈ s.toList, x.Formed := by
  cases s <;> simp [Else.Formed]

namespace Visit

def Formed : Visit → Prop
  | select s => s.Formed
  | insertValues s => s.Formed
  | insertSelect s => s.Formed
  | update s => s.Formed
  | delete s => s.Formed
  | conditional s => s.Formed
  | loop s => s.Formed
  | block s => s.Formed
  | empty s => (Statement.empty s).Formed
  | expression e => e.Formed
  | predicate p => p.Formed
  | column c => c.Formed
  | tableSource s => s.Formed
  | subquerySource s => s.Formed
  | row r => r.Formed
  | reference name => name.Formed

theorem formed_visit_source {s : Source} : s.visit.Formed ↔ s.Formed := by cases s <;> rfl

theorem formed_visit_statement {s : Statement} : s.visit.Formed ↔ s.Formed := by cases s <;> rfl

/-- What is below a well-formed node is well formed. -/
theorem Formed.children {v : Visit} (h : v.Formed) : ∀ u ∈ v.children, u.Formed := by
  cases v with
  | expression e =>
    cases e <;> simp_all [Visit.children, Expression.children, Formed, Expression.Formed,
      Expressions.formed_iff]
  | predicate p =>
    cases p <;> simp_all [Visit.children, Predicate.children, Formed, Predicate.Formed,
      Expressions.formed_iff]
  | column c => cases c <;> simp_all [Visit.children, Column.children, Formed, Column.Formed]
  | row r => simp_all [Visit.children, Formed, Row.Formed, Expressions.formed_iff]
  | reference name => exact List.forall_mem_nil _
  | empty s => exact List.forall_mem_nil _
  | select s =>
    cases s
    simp only [Visit.children, List.forall_mem_append, List.forall_mem_map]
    exact ⟨⟨⟨(OptionalExpression.formed_iff _).1 h.1.1, (Columns.formed_iff _).1 h.2.1.2.1⟩,
      fun s hs => formed_visit_source.2 ((Sources.formed_iff _).1 h.2.2.1.1 s hs)⟩,
      (OptionalPredicate.formed_iff _).1 h.2.2.2⟩
  | insertValues s =>
    simp only [Visit.children, List.forall_mem_append, List.forall_mem_cons, List.forall_mem_map]
    exact ⟨(OptionalExpression.formed_iff _).1 h.top.1, h.target, h.columns, h.rows⟩
  | insertSelect s =>
    simp only [Visit.children, List.forall_mem_append, List.forall_mem_cons, List.forall_mem_map]
    exact ⟨(OptionalExpression.formed_iff _).1 h.top.1, h.target, h.columns, h.select,
      List.forall_mem_nil _⟩
  | update s =>
    simp only [Visit.children, List.forall_mem_append, List.forall_mem_cons, List.forall_mem_map]
    exact ⟨(OptionalExpression.formed_iff _).1 h.top, h.target,
      ⟨(Columns.formed_iff _).1 h.assignments,
        fun s hs => formed_visit_source.2 ((Sources.formed_iff _).1 h.sources s hs)⟩,
      (OptionalPredicate.formed_iff _).1 h.filter⟩
  | delete s =>
    simp only [Visit.children, List.forall_mem_append, List.forall_mem_cons, List.forall_mem_map]
    exact ⟨(OptionalExpression.formed_iff _).1 h.top.1, h.target,
      fun s hs => formed_visit_source.2 ((Sources.formed_iff _).1 h.sources s hs),
      (OptionalPredicate.formed_iff _).1 h.filter⟩
  | conditional s =>
    cases s
    simp only [Visit.children, List.forall_mem_append, List.forall_mem_cons, List.forall_mem_map]
    exact ⟨⟨h.1, formed_visit_statement.2 h.2.1, List.forall_mem_nil _⟩,
      fun s hs => formed_visit_statement.2 ((Else.formed_iff _).1 h.2.2.1 s hs)⟩
  | loop s =>
    cases s
    simp only [Visit.children, List.forall_mem_cons]
    exact ⟨h.1, formed_visit_statement.2 h.2, List.forall_mem_nil _⟩
  | block s =>
    cases s
    simp only [Visit.children, List.forall_mem_map]
    exact fun s hs => formed_visit_statement.2 (Statements.forall_formed h s hs)
  | tableSource s =>
    cases s
    simp only [Visit.children, List.forall_mem_cons, List.forall_mem_map]
    exact ⟨h.1, (OptionalPredicate.formed_iff _).1 h.2.2.1⟩
  | subquerySource s =>
    cases s
    simp only [Visit.children, List.forall_mem_cons, List.forall_mem_map]
    exact ⟨h.1.1, (OptionalPredicate.formed_iff _).1 h.2.2.1⟩

/-- All nodes that a walk over a well-formed node meets are well formed. -/
theorem Formed.visits {v : Visit} (h : v.Formed) : ∀ u ∈ v.visits, u.Formed := by
  induction v using byChildren with
  | step v ih =>
    rw [v.visits_eq, List.forall_mem_cons, List.forall_mem_flatMap]
    exact ⟨h, fun u hu => ih u hu (h.children u hu)⟩

end Visit

theorem Statements.formed_visits {ss : List Statement} (h : Statements.Formed ss) :
    ∀ v ∈ Statements.visits ss, v.Formed := by
  rw [Statements.visits_eq, List.forall_mem_flatMap]
  intro s hs
  rw [← Visit.visits_visit_statement]
  exact (Visit.formed_visit_statement.2 (Statements.forall_formed h s hs)).visits

end Transact
