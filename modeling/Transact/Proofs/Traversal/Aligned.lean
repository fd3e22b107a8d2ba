import Mathlib.Data.List.Forall2
import Transact.Proofs.Traversal.Rename

namespace Transact

namespace Renaming

def own? (m : Renaming) : Visit → Option (Reference × Reference)
  | .tableSource s => some (s.name, m.table s.name)
  | .insertValues s => some (s.target, m.inserted s.target)
  | .insertSelect s => some (s.target, m.inserted s.target)
  | .update s => some (s.target, m.changed s.sources s.target)
  | .delete s => some (s.target, m.changed s.sources s.target)
  | _ => none

/-- The nodes of a walk, and those of a walk after renaming. -/
inductive Aligned (m : Renaming) : List Visit → List Visit → Prop
  | nil : Aligned m [] []
  | node {v : Visit} {vs us : List Visit} (hv : m.own? v = none) (h : Aligned m vs us) :
      Aligned m (v :: vs) (v.rename m :: us)
  | owner {v : Visit} {name name' : Reference} {ts ts' vs us : List Visit}
      (hv : m.own? v = some (name, name')) (ht : Aligned m ts ts') (h : Aligned m vs us) :
      Aligned m (v :: (ts ++ .reference name :: vs)) (v.rename m :: (ts' ++ .reference name' :: us))

variable {m : Renaming}

theorem Aligned.append {vs us ws zs : List Visit} (h : m.Aligned vs us) (h' : m.Aligned ws zs) :
    m.Aligned (vs ++ ws) (us ++ zs) := by
  induction h with
  | nil => exact h'
  | node hv _ ih => exact .node hv ih
  | owner hv ht _ _ ih =>
      simp only [List.cons_append, List.append_assoc]
      exact .owner hv ht ih

theorem Aligned.flatMap {α : Type} {f g : α → List Visit} {as : List α}
    (h : ∀ a ∈ as, m.Aligned (f a) (g a)) : m.Aligned (as.flatMap f) (as.flatMap g) := by
  induction as with
  | nil => exact .nil
  | cons a as ih =>
      rw [List.forall_mem_cons] at h
      exact h.1.append (ih h.2)

/-- Nodes that are no names are renamed where they stand. -/
theorem Aligned.forall₂ {vs us : List Visit} (h : m.Aligned vs us) :
    List.Forall₂ (fun v u => (∀ name, v ≠ .reference name) → u = v.rename m) vs us := by
  induction h with
  | nil => exact .nil
  | node _ _ ih => exact .cons (fun _ => rfl) ih
  | owner _ _ _ iht ih =>
      refine .cons (fun _ => rfl) (List.rel_append iht (.cons ?_ ih))
      exact fun hne => absurd rfl (hne _)

theorem Aligned.getElem?_eq {vs us : List Visit} (h : m.Aligned vs us) {i : Nat} {v : Visit}
    (hi : vs[i]? = some v) (hv : ∀ name, v ≠ .reference name) : us[i]? = some (v.rename m) := by
  obtain ⟨hlength, hget⟩ := List.forall₂_iff_get.1 h.forall₂
  obtain ⟨hlt, rfl⟩ := List.getElem?_eq_some_iff.1 hi
  rw [List.getElem?_eq_getElem (hlength ▸ hlt)]
  exact congrArg some (hget i hlt _ hv)

end Renaming

variable {m : Renaming}

namespace Visit

theorem children_rename {v : Visit} (h : m.own? v = none) :
    (v.rename m).children = v.children.map (rename m) := by
  cases v with
  | expression e =>
    cases e <;> simp [children, Expression.children, rename, Expression.rename,
      Expressions.rename_eq]
  | predicate p =>
    cases p <;> simp [children, Predicate.children, rename, Predicate.rename,
      Expressions.rename_eq]
  | column c => cases c <;> simp [children, Column.children, rename, Column.rename]
  | row r => simp [children, rename, Row.rename, Expressions.rename_eq]
  | reference name => rfl
  | empty s => rfl
  | tableSource s | insertValues s | insertSelect s | update s | delete s => cases h
  | _ s =>
    cases s
    simp only [children, List.map_append, List.map_cons, List.map_nil, List.map_map,
      Function.comp_def, Source.visit_rename, Statement.visit_rename]
    simp [rename, Select.rename, SubquerySource.rename, If.rename, While.rename, Block.rename,
      OptionalExpression.rename_eq, Columns.rename_eq, Sources.rename_eq,
      OptionalPredicate.rename_eq, OptionalStatement.rename_eq, Statements.rename_eq,
      Option.toList_map, Function.comp_def]

theorem children_rename_of_own? {v : Visit} {p : Reference × Reference} (h : m.own? v = some p) :
    ∃ ts us, v.children = ts ++ reference p.1 :: us ∧
      (v.rename m).children = ts.map (rename m) ++ reference p.2 :: us.map (rename m) := by
  cases v with
  | tableSource s =>
    cases h
    refine ⟨[], _, rfl, ?_⟩
    cases s
    simp [children, rename, TableSource.rename, OptionalPredicate.rename_eq, Option.toList_map,
      Function.comp_def]
  | insertValues s | insertSelect s | update s | delete s =>
    cases h
    refine ⟨_, _, rfl, ?_⟩
    simp only [List.map_append, List.map_cons, List.map_nil, List.map_map, Function.comp_def,
      Source.visit_rename]
    simp [children, rename, InsertValues.rename, InsertSelect.rename, Update.rename,
      Delete.rename, OptionalExpression.rename_eq, Columns.rename_eq, Sources.rename_eq,
      OptionalPredicate.rename_eq, Option.toList_map, Function.comp_def]
  | _ => cases h

/-- Walks over a tree and over the renamed tree meet the same nodes, each renamed, and names in the
same places. -/
theorem aligned (v : Visit) : m.Aligned v.visits (v.rename m).visits := by
  induction v using byChildren with
  | step v ih =>
    rw [v.visits_eq, (v.rename m).visits_eq]
    cases h : m.own? v with
    | none =>
      rw [children_rename h, List.flatMap_map]
      exact .node h (.flatMap ih)
    | some p =>
      obtain ⟨ts, us, hv, hr⟩ := children_rename_of_own? h
      rw [hv, List.forall_mem_append, List.forall_mem_cons] at ih
      rw [hv, hr, List.flatMap_append, List.flatMap_append, List.flatMap_map, List.flatMap_cons,
        List.flatMap_cons, List.flatMap_map]
      exact .owner h (.flatMap ih.1) (.flatMap ih.2.2)

end Visit

theorem Predicate.aligned (p : Predicate) : m.Aligned p.visits (p.rename m).visits :=
  (Visit.predicate p).aligned

theorem Select.aligned (s : Select) : m.Aligned s.visits (s.rename m).visits :=
  (Visit.select s).aligned

theorem Source.aligned (s : Source) : m.Aligned s.visits (s.rename m).visits := by
  rw [← Visit.visits_visit_source, ← Visit.visits_visit_source, ← s.visit_rename]
  exact s.visit.aligned

theorem Statement.aligned (s : Statement) : m.Aligned s.visits (s.rename m).visits := by
  rw [← Visit.visits_visit_statement, ← Visit.visits_visit_statement, ← s.visit_rename]
  exact s.visit.aligned

theorem Columns.aligned (cs : List Column) :
    m.Aligned (Columns.visits cs) (Columns.visits (Columns.rename m cs)) := by
  rw [Columns.visits_eq, Columns.rename_eq, Columns.visits_eq, List.flatMap_map]
  exact .flatMap fun c _ => (Visit.column c).aligned

theorem Sources.aligned (ss : List Source) :
    m.Aligned (Sources.visits ss) (Sources.visits (Sources.rename m ss)) := by
  rw [Sources.visits_eq, Sources.rename_eq, Sources.visits_eq, List.flatMap_map]
  exact .flatMap fun s _ => s.aligned

theorem Rows.aligned (rs : List Row) :
    m.Aligned (rs.flatMap Row.visits) ((rs.map (Row.rename m)).flatMap Row.visits) := by
  rw [List.flatMap_map]
  exact .flatMap fun r _ => (Visit.row r).aligned

theorem OptionalPredicate.aligned (p : Option Predicate) : m.Aligned (OptionalPredicate.visits p)
    (OptionalPredicate.visits (OptionalPredicate.rename m p)) := by
  rw [OptionalPredicate.visits_eq, OptionalPredicate.rename_eq, OptionalPredicate.visits_eq,
    Option.toList_map, List.flatMap_map]
  exact .flatMap fun p _ => (Visit.predicate p).aligned

theorem Statements.aligned (ss : List Statement) :
    m.Aligned (Statements.visits ss) (Statements.visits (Statements.rename m ss)) := by
  rw [Statements.visits_eq, Statements.rename_eq, Statements.visits_eq, List.flatMap_map]
  exact .flatMap fun s _ => s.aligned

end Transact
