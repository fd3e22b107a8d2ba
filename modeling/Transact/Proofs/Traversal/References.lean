import Transact.Proofs.Table.Reported
import Transact.Proofs.Traversal.Aligned
import Transact.Proofs.Traversal.Order
import Transact.Proofs.Traversal.Rewriting

namespace Transact

/-- The rewriter whose only hook puts `f name` in the place of each reference. -/
def Rewriter.references {σ : Type} (f : Reference → Reference) : Rewriter σ where
  reference name := return f name

namespace Renaming

def each (f : Reference → Reference) : Renaming where
  column := f
  table := f
  inserted := f
  changed := fun _ => f

variable {f g : Reference → Reference}

theorem each_andThen : (each f).andThen (each g) = each (g ∘ f) := rfl

theorem own?_each {v : Visit} {name name' : Reference} (h : (each f).own? v = some (name, name')) :
    name' = f name := by
  cases v <;> simp only [own?, each, Option.some.injEq, Prod.mk.injEq, reduceCtorEq] at h
  all_goals exact h.1 ▸ h.2.symm

/-- Under one function for all references, the names of tables and of targets are renamed as other
names are. -/
theorem Aligned.eq_map {vs us : List Visit} (h : (each f).Aligned vs us) :
    us = vs.map (Visit.rename (each f)) := by
  induction h with
  | nil => rfl
  | node _ _ ih => rw [List.map_cons, ← ih]
  | owner hv _ _ iht ih =>
      rw [List.map_cons, List.map_append, List.map_cons, ← iht, ← ih, own?_each hv]
      rfl

end Renaming

theorem Visit.reference?_rename_each (f : Reference → Reference) (v : Visit) :
    (v.rename (.each f)).reference? = v.reference?.map f := by
  cases v <;> rfl

theorem Visit.filterMap_reference?_rename_each (f : Reference → Reference) (visits : List Visit) :
    (visits.map (Visit.rename (.each f))).filterMap Visit.reference? =
      (visits.filterMap Visit.reference?).map f := by
  rw [List.filterMap_map, List.map_filterMap]
  exact List.filterMap_congr fun v _ => v.reference?_rename_each f

namespace Rewriter

variable {σ : Type} (f g : Reference → Reference)

/-- The hook keeps the state, as an observer does that looks away. -/
theorem references_renames :
    (references f : Rewriter σ).Renames (.each f) (.ofSee fun _ s => s) := by
  constructor
  case origin | function => rfl
  case tableSource =>
    intro n
    cases n
    exact ⟨_, fun _ _ => rfl, fun _ _ => rfl⟩
  case insertValues => exact fun n => ⟨n.target, fun _ _ => rfl, fun _ _ => rfl⟩
  case insertSelect => exact fun n => ⟨n.target, fun _ _ => rfl, fun _ _ => rfl⟩
  case update => exact fun n => ⟨n.target, fun _ _ => rfl, fun _ _ => rfl⟩
  case delete => exact fun n => ⟨n.target, fun _ _ => rfl, fun _ _ => rfl⟩
  all_goals exact fun _ _ _ => rfl

theorem run_references_eq (statements : List Statement) (state : σ) :
    (references f).run statements state = (Statements.rename (.each f) statements, state) := by
  have hwalk : walk statements (fun _ s => s) state = state := by
    change (Statements.visits statements).foldl (fun s _ => s) state = state
    rw [List.foldl_const, Function.iterate_fixed rfl]
  rw [run_eq_rename (references_renames f) statements trivial]
  exact congrArg _ hwalk

theorem shown_rename_each (statements : List Statement) :
    shown (Statements.rename (.each f) statements) =
      (shown statements).map (Visit.rename (.each f)) := by
  rw [shown_eq_visits, shown_eq_visits]
  exact (Statements.aligned statements).eq_map

/-- A rewriting walk whose only hook applies `f` to references gives all of them their new names and
keeps the state. A walk over the new statements meets the nodes of the old ones, each renamed, and
so the references that it meets are those that a walk met before, each with `f` applied once. Apart
from their references the statements are the same: if all are given one name, no difference is left.
A second such walk makes the two one walk with the functions one after the other. -/
theorem run_references (statements : List Statement) (state : σ) :
    ∃ rewritten, (references f).run statements state = (rewritten, state) ∧
      rewritten = Statements.rename (.each f) statements ∧
      shown rewritten = (shown statements).map (Visit.rename (.each f)) ∧
      (shown rewritten).filterMap Visit.reference? =
        ((shown statements).filterMap Visit.reference?).map f ∧
      (∀ name, Statements.rename (.each fun _ => name) rewritten =
        Statements.rename (.each fun _ => name) statements) ∧
      (references g).run rewritten state = (references (g ∘ f)).run statements state := by
  refine ⟨_, run_references_eq f statements state, rfl, shown_rename_each f statements, ?_,
    fun name => ?_, ?_⟩
  · rw [shown_rename_each, Visit.filterMap_reference?_rename_each]
  · rw [Statements.rename_rename, Renaming.each_andThen]
    rfl
  · rw [run_references_eq, run_references_eq, Statements.rename_rename, Renaming.each_andThen]

end Rewriter

end Transact
