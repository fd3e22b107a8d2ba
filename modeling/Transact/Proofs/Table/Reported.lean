import Mathlib.Algebra.Order.Group.Multiset
import Transact.Proofs.Traversal.Walk
import Transact.Table.Use

namespace Transact

namespace Visit

def isChange : Visit → Bool
  | insertValues _ | insertSelect _ | update _ | delete _ => true
  | _ => false

def written? : Visit → Option Reference
  | insertValues s => some s.target
  | insertSelect s => some s.target
  | update s => if TableUse.resolves s.target s.sources then none else some s.target
  | delete s => if TableUse.resolves s.target s.sources then none else some s.target
  | _ => none

def changeTop : Visit → List Visit
  | insertValues s => OptionalExpression.visits s.top
  | insertSelect s => OptionalExpression.visits s.top
  | update s => OptionalExpression.visits s.top
  | delete s => OptionalExpression.visits s.top
  | _ => []

def changeUses : Visit → List TableUse
  | insertValues s => s.uses
  | insertSelect s => s.uses
  | update s => s.uses
  | delete s => s.uses
  | _ => []

def reference? : Visit → Option Reference
  | reference name => some name
  | _ => none

def names (visits : List Visit) : Multiset Reference :=
  (visits.filterMap reference? : List Reference)

def tables (visits : List Visit) : Multiset Reference :=
  ((tableSources visits).map TableSource.name : List Reference)

def written (visits : List Visit) : Multiset Reference :=
  (visits.filterMap written? : List Reference)

def unread (visits : List Visit) : Multiset Reference :=
  (visits.flatMap fun v => (tableSources v.changeTop).map TableSource.name : List Reference)

variable {v : Visit} {vs us : List Visit}

theorem not_isChange_of_isInner (h : v.isInner = true) : v.isChange = false := by
  cases v <;> first | rfl | cases h

theorem written?_of_not_isChange (h : v.isChange = false) : v.written? = none := by
  cases v <;> first | rfl | cases h

theorem changeTop_of_not_isChange (h : v.isChange = false) : v.changeTop = [] := by
  cases v <;> first | rfl | cases h

theorem changeUses_of_not_isChange (h : v.isChange = false) : v.changeUses = [] := by
  cases v <;> first | rfl | cases h

@[simp] theorem tables_nil : tables [] = 0 := rfl

@[simp] theorem names_append : names (vs ++ us) = names vs + names us := by
  simp [names]

@[simp] theorem tables_append : tables (vs ++ us) = tables vs + tables us := by
  simp [tables, tableSources]

@[simp] theorem written_append : written (vs ++ us) = written vs + written us := by
  simp [written]

@[simp] theorem unread_append : unread (vs ++ us) = unread vs + unread us := by
  simp [unread]

@[simp] theorem names_cons :
    names (v :: vs) = (v.reference?.toList : List Reference) + names vs := by
  simp only [names, List.filterMap_cons]
  cases v.reference? <;> simp

@[simp] theorem written_cons :
    written (v :: vs) = (v.written?.toList : List Reference) + written vs := by
  simp only [written, List.filterMap_cons]
  cases v.written? <;> simp

@[simp] theorem unread_cons : unread (v :: vs) = tables v.changeTop + unread vs := by
  simp [unread, tables]

@[simp] theorem tables_cons_table (source : TableSource) :
    tables (.tableSource source :: vs) = source.name ::ₘ tables vs := rfl

@[simp] theorem tables_names (targets : List Reference) : tables (targets.map .reference) = 0 := by
  induction targets with
  | nil => rfl
  | cons target targets ih => exact ih

theorem tables_cons (h : v.isInner = true ∨ v.isChange = true) : tables (v :: vs) = tables vs := by
  cases v <;> first | rfl | simp [isInner, isChange] at h

/-- A walk that meets no change, and the names of the tables that it meets. -/
structure Plain (visits : List Visit) : Prop where
  le : tables visits ≤ names visits
  unchanged : ∀ v ∈ visits, v.isChange = false

namespace Plain

theorem nil : Plain [] := ⟨le_refl 0, by simp⟩

theorem append (h : Plain vs) (h' : Plain us) : Plain (vs ++ us) := by
  constructor
  · rw [tables_append, names_append]
    exact add_le_add h.le h'.le
  · intro v hv
    exact (List.mem_append.1 hv).elim (h.unchanged v) (h'.unchanged v)

theorem node (h : Plain vs) (hv : v.isInner = true) : Plain (v :: vs) := by
  constructor
  · rw [tables_cons (.inl hv), names_cons]
    exact h.le.trans (Multiset.le_add_left _ _)
  · intro u hu
    rcases List.mem_cons.1 hu with rfl | hu
    · exact not_isChange_of_isInner hv
    · exact h.unchanged u hu

theorem table (source : TableSource) (h : Plain vs) :
    Plain (.tableSource source :: .reference source.name :: vs) := by
  constructor
  · rw [tables_cons_table, tables_cons (.inl rfl)]
    simpa [reference?] using h.le
  · intro u hu
    obtain rfl | rfl | hu := by simpa using hu
    · rfl
    · rfl
    · exact h.unchanged u hu

theorem composed : Composed Plain :=
  ⟨nil, append, fun hv h => node h hv, fun source => table source⟩

theorem written_eq (h : Plain vs) : written vs = 0 := by
  have hnone : vs.filterMap written? = [] := by
    rw [List.filterMap_eq_nil_iff]
    exact fun v hv => written?_of_not_isChange (h.unchanged v hv)
  rw [written, hnone]
  rfl

theorem unread_eq (h : Plain vs) : unread vs = 0 := by
  have hnone : (vs.flatMap fun v => (tableSources v.changeTop).map TableSource.name) = [] := by
    rw [List.flatMap_eq_nil_iff]
    intro v hv
    rw [changeTop_of_not_isChange (h.unchanged v hv)]
    rfl
  rw [unread, hnone]
  rfl

end Plain

end Visit

namespace TableUse

def reported (uses : List TableUse) : Multiset Reference := (uses.map table : List Reference)

@[simp] theorem reported_cons (u : TableUse) (uses : List TableUse) :
    reported (u :: uses) = u.table ::ₘ reported uses := rfl

@[simp] theorem reported_append (uses uses' : List TableUse) :
    reported (uses ++ uses') = reported uses + reported uses' := by
  simp [reported]

@[simp] theorem reported_read (context : UsageContext) (visits : List Visit) :
    reported (read context visits) = Visit.tables visits := by
  rw [reported, read, List.map_map]
  rfl

theorem reported_changed (context reading : UsageContext) (target : Reference)
    (sources : List Source) (visits : List Visit) :
    reported (changed context reading target sources visits) =
      ((if resolves target sources then none else some target).toList : List Reference) +
        Visit.tables visits := by
  rw [changed]
  split
  · rw [reported, List.map_map]
    exact (zero_add _).symm
  · simp

/-- The uses report the nodes that a walk meets: the targets of its changes and the tables of its
`FROM` lists, but for those in the `TOP` of a change. What belongs to a change is met and reported
with the rest. -/
structure Report (uses : List TableUse) (visits : List Visit) : Prop where
  total : reported uses + Visit.unread visits = Visit.written visits + Visit.tables visits
  le : Visit.written visits + Visit.tables visits ≤ Visit.names visits
  changes : ∀ v ∈ visits, v.changeUses ⊆ uses
  tops : ∀ v ∈ visits, v.changeTop ⊆ visits

namespace Report

open Visit

variable {uses uses' : List TableUse} {visits visits' : List Visit}

theorem nil : Report [] [] := ⟨rfl, le_refl 0, by simp, by simp⟩

theorem append (h : Report uses visits) (h' : Report uses' visits') :
    Report (uses ++ uses') (visits ++ visits') := by
  constructor
  · rw [reported_append, unread_append, add_add_add_comm, h.total, h'.total, add_add_add_comm,
      written_append, tables_append]
  · rw [written_append, tables_append, add_add_add_comm, names_append]
    exact add_le_add h.le h'.le
  · intro v hv
    rcases List.mem_append.1 hv with hv | hv
    · exact List.subset_append_of_subset_left _ (h.changes v hv)
    · exact List.subset_append_of_subset_right _ (h'.changes v hv)
  · intro v hv
    rcases List.mem_append.1 hv with hv | hv
    · exact List.subset_append_of_subset_left _ (h.tops v hv)
    · exact List.subset_append_of_subset_right _ (h'.tops v hv)

theorem plain (h : Plain visits) (context : UsageContext) :
    Report (read context visits) visits := by
  constructor
  · rw [reported_read, h.unread_eq, h.written_eq, add_zero, zero_add]
  · rw [h.written_eq, zero_add]
    exact h.le
  · intro v hv
    rw [changeUses_of_not_isChange (h.unchanged v hv)]
    exact List.nil_subset _
  · intro v hv
    rw [changeTop_of_not_isChange (h.unchanged v hv)]
    exact List.nil_subset _

theorem node {v : Visit} (hv : v.isChange = false)
    (ht : ∀ visits, tables (v :: visits) = tables visits) (h : Report uses visits) :
    Report uses (v :: visits) := by
  constructor
  · rw [unread_cons, changeTop_of_not_isChange hv, written_cons, written?_of_not_isChange hv, ht]
    simpa using h.total
  · have hwritten : written (v :: visits) = written visits := by
      simp [written?_of_not_isChange hv]
    rw [hwritten, ht, names_cons]
    exact h.le.trans (Multiset.le_add_left _ _)
  · intro u hu
    rcases List.mem_cons.1 hu with rfl | hu
    · rw [changeUses_of_not_isChange hv]
      exact List.nil_subset _
    · exact h.changes u hu
  · intro u hu
    rcases List.mem_cons.1 hu with rfl | hu
    · rw [changeTop_of_not_isChange hv]
      exact List.nil_subset _
    · exact List.subset_cons_of_subset _ (h.tops u hu)

theorem change {v : Visit} {target : Reference} (hv : v.isChange = true) (htop : Plain v.changeTop)
    (hrest : Plain visits) (hw : ∀ r, v.written? = some r → target = r)
    (huses : reported v.changeUses = (v.written?.toList : List Reference) + tables visits) :
    Report v.changeUses (v :: (v.changeTop ++ .reference target :: visits)) := by
  have hchildren : ∀ u ∈ v.changeTop ++ .reference target :: visits, u.isChange = false :=
    (htop.append (hrest.node rfl)).unchanged
  have hwritten : written (v :: (v.changeTop ++ .reference target :: visits)) =
      (v.written?.toList : List Reference) := by
    simp [htop.written_eq, hrest.written_eq, written?]
  have htables : tables (v :: (v.changeTop ++ .reference target :: visits)) =
      tables v.changeTop + tables visits := by
    rw [tables_cons (.inr hv), tables_append, tables_cons (.inl rfl)]
  have hunread : unread (v :: (v.changeTop ++ .reference target :: visits)) =
      tables v.changeTop := by
    have htarget : tables (reference target).changeTop = 0 := rfl
    simp [htop.unread_eq, hrest.unread_eq, htarget]
  constructor
  · rw [huses, hunread, hwritten, htables, add_assoc, add_comm (tables visits)]
  · have hle : ((v.written?.toList : List Reference) : Multiset Reference) ≤ {target} := by
      cases ho : v.written? with
      | none => exact Multiset.zero_le _
      | some r =>
          rw [hw r ho]
          exact le_refl _
    rw [hwritten, htables, add_left_comm]
    apply (add_le_add htop.le (add_le_add hle hrest.le)).trans
    rw [names_cons, names_append, names_cons]
    exact Multiset.le_add_left _ _
  · intro u hu
    rcases List.mem_cons.1 hu with rfl | hu
    · exact List.Subset.refl _
    · rw [changeUses_of_not_isChange (hchildren u hu)]
      exact List.nil_subset _
  · intro u hu
    rcases List.mem_cons.1 hu with rfl | hu
    · exact List.subset_cons_of_subset _ (List.subset_append_left _ _)
    · rw [changeTop_of_not_isChange (hchildren u hu)]
      exact List.nil_subset _

end Report

end TableUse

section

open Visit

theorem InsertValues.report (s : InsertValues) : TableUse.Report s.uses s.visits := by
  have hrest : Plain (s.columns.map .reference ++ s.rows.flatMap Row.visits) :=
    (References.composed Plain.composed _).append
      (Plain.composed.flatMap fun r _ => (row r).composed Plain.composed rfl)
  apply TableUse.Report.change (v := .insertValues s) rfl
    (OptionalExpression.composed Plain.composed _) hrest (by simp [written?])
  simp [changeUses, written?, InsertValues.uses]

theorem InsertSelect.report (s : InsertSelect) : TableUse.Report s.uses s.visits := by
  have hrest : Plain (s.columns.map .reference ++ s.select.visits) :=
    (References.composed Plain.composed _).append
      ((Visit.select s.select).composed Plain.composed rfl)
  apply TableUse.Report.change (v := .insertSelect s) rfl
    (OptionalExpression.composed Plain.composed _) hrest (by simp [written?])
  simp [changeUses, written?, InsertSelect.uses]

theorem Update.report (s : Update) : TableUse.Report s.uses s.visits := by
  have hrest : Plain (Columns.visits s.assignments ++ Sources.visits s.sources ++
      OptionalPredicate.visits s.filter) :=
    ((Columns.composed Plain.composed _).append (Sources.composed Plain.composed _)).append
      (OptionalPredicate.composed Plain.composed _)
  apply TableUse.Report.change (v := .update s) rfl
    (OptionalExpression.composed Plain.composed _) hrest (by simp [written?])
  simp only [changeUses, written?, Update.uses, TableUse.reported_changed, tables_append]
  rw [add_comm (tables (Columns.visits s.assignments))]

theorem Delete.report (s : Delete) : TableUse.Report s.uses s.visits := by
  have hrest : Plain (Sources.visits s.sources ++ OptionalPredicate.visits s.filter) :=
    (Sources.composed Plain.composed _).append (OptionalPredicate.composed Plain.composed _)
  apply TableUse.Report.change (v := .delete s) rfl
    (OptionalExpression.composed Plain.composed _) hrest (by simp [written?])
  simp only [changeUses, written?, Delete.uses, TableUse.reported_changed]

mutual

theorem Statement.report : (s : Statement) → TableUse.Report s.uses s.visits
  | .select s => by
      rw [Statement.uses, Statement.visits]
      exact .plain ((Visit.select s).composed Plain.composed rfl) .select
  | .insertValues s => by
      rw [Statement.uses, Statement.visits]
      exact s.report
  | .insertSelect s => by
      rw [Statement.uses, Statement.visits]
      exact s.report
  | .update s => by
      rw [Statement.uses, Statement.visits]
      exact s.report
  | .delete s => by
      rw [Statement.uses, Statement.visits]
      exact s.report
  | .conditional s => by
      rw [Statement.uses, Statement.visits]
      exact s.report
  | .loop s => by
      rw [Statement.uses, Statement.visits]
      exact s.report
  | .block s => by
      rw [Statement.uses, Statement.visits]
      exact s.report
  | .empty s => by
      rw [Statement.uses, Statement.visits]
      exact .node rfl (fun _ => rfl) .nil

theorem OptionalStatement.report : (s : Option Statement) →
    TableUse.Report (OptionalStatement.uses s) (OptionalStatement.visits s)
  | none => by
      rw [OptionalStatement.uses, OptionalStatement.visits]
      exact .nil
  | some s => by
      rw [OptionalStatement.uses, OptionalStatement.visits]
      exact s.report

theorem If.report : (s : If) → TableUse.Report s.uses s.visits
  | ⟨_, test, thenBranch, elseBranch⟩ => by
      rw [If.uses, If.visits]
      have htest :=
        TableUse.Report.plain ((Visit.predicate test).composed Plain.composed rfl) .select
      exact .node rfl (fun _ => rfl)
        ((htest.append thenBranch.report).append (OptionalStatement.report elseBranch))

theorem While.report : (s : While) → TableUse.Report s.uses s.visits
  | ⟨_, test, body⟩ => by
      rw [While.uses, While.visits]
      have htest :=
        TableUse.Report.plain ((Visit.predicate test).composed Plain.composed rfl) .select
      exact .node rfl (fun _ => rfl) (htest.append body.report)

theorem Block.report : (s : Block) → TableUse.Report s.uses s.visits
  | ⟨_, body⟩ => by
      rw [Block.uses, Block.visits]
      exact .node rfl (fun _ => rfl) (Statements.report body)

theorem Statements.report :
    (ss : List Statement) → TableUse.Report (Statements.uses ss) (Statements.visits ss)
  | [] => by
      rw [Statements.uses, Statements.visits]
      exact .nil
  | s :: ss => by
      rw [Statements.uses, Statements.visits]
      exact s.report.append (Statements.report ss)

end

end

end Transact
