import Transact.Proofs.Traversal.Leaf
import Transact.Proofs.Traversal.Rename
import Transact.Traversal.Rewrite

namespace Transact

structure Observer (σ : Type) where
  see : Visit → σ → σ
  holds : σ → Prop
  keeps : ∀ v s, holds s → holds (see v s)

namespace Observer

variable {σ α β : Type}

def ofSee (f : Visit → σ → σ) : Observer σ := ⟨f, fun _ => True, fun _ _ h => h⟩

variable (o : Observer σ)

def seeAll (visits : List Visit) (s : σ) : σ := visits.foldl (fun s v => o.see v s) s

theorem holds_seeAll (visits : List Visit) {s : σ} (h : o.holds s) :
    o.holds (o.seeAll visits s) := by
  induction visits generalizing s with
  | nil => exact h
  | cons v visits ih => exact ih (o.keeps v s h)

/-- An action returns a value, and the nodes are what it shows the observer. -/
def Shows (p : StateM σ α) (a : α) (visits : List Visit) : Prop :=
  ∀ s, o.holds s → p.run s = (a, o.seeAll visits s)

namespace Shows

variable {o} {p : StateM σ α} {a : α} {b : β} {vs us : List Visit}

theorem pure (a : α) : o.Shows (Pure.pure a) a [] := fun _ _ => rfl

theorem bind {k : α → StateM σ β} (h : o.Shows p a vs) (hk : o.Shows (k a) b us) :
    o.Shows (p >>= k) b (vs ++ us) := by
  intro s hs
  have hnext := hk _ (o.holds_seeAll vs hs)
  rw [seeAll, List.foldl_append]
  rw [StateT.run_bind, h s hs]
  exact hnext

theorem map (h : o.Shows p a vs) (g : α → β) :
    o.Shows (do let a ← p; return g a) (g a) vs := by
  have := h.bind (k := fun a => Pure.pure (g a)) (pure (g a))
  rwa [List.append_nil] at this

/-- A node is shown before its children. -/
theorem node {k : α → StateM σ β} {v : Visit} (h : o.Shows p a [v]) (hk : o.Shows (k a) b us) :
    o.Shows (p >>= k) b (v :: us) :=
  h.bind hk

theorem option {walk : α → StateM σ α} {g : α → α} {visits : α → List Visit} {x : Option α}
    (h : ∀ a ∈ x.toList, o.Shows (walk a) (g a) (visits a)) :
    o.Shows (Rewriter.option walk x) (x.map g) (x.toList.flatMap visits) := by
  cases x with
  | none => exact .pure none
  | some a =>
      rw [Option.toList_some, List.flatMap_singleton]
      exact (h a (List.mem_singleton_self a)).map some

theorem mapM {walk : α → StateM σ α} {g : α → α} {visits : α → List Visit} {xs : List α}
    (h : ∀ a ∈ xs, o.Shows (walk a) (g a) (visits a)) :
    o.Shows (xs.mapM walk) (xs.map g) (xs.flatMap visits) := by
  induction xs with
  | nil => exact .pure []
  | cons x xs ih =>
      rw [List.forall_mem_cons] at h
      rw [List.mapM_cons, List.flatMap_cons]
      apply h.1.bind
      exact (ih h.2).map _

end Shows

/-- A walk over trees of at most so many levels shows all their nodes and gives new trees. -/
def Follows (depth : Nat) (walk : α → StateM σ α) (g : α → α) (node : α → Visit) : Prop :=
  ∀ a, (node a).depth ≤ depth → o.Shows (walk a) (g a) (node a).visits

theorem follows_zero {walk : α → StateM σ α} {g : α → α} {node : α → Visit} :
    o.Follows 0 walk g node :=
  fun a ha => absurd (node a).depth_pos (Nat.not_lt.2 ha)

end Observer

namespace Rewriter

open Observer

variable {σ : Type}

/-- The hooks show an observer their nodes and rename at most the names of tables and of targets,
which the hook of names then brings to their final form. -/
structure Renames (r : Rewriter σ) (m : Renaming) (o : Observer σ) : Prop where
  origin : m.origin = id
  function : m.function = id
  select n : o.Shows (r.select n) n [.select n]
  conditional n : o.Shows (r.conditional n) n [.conditional n]
  loop n : o.Shows (r.loop n) n [.loop n]
  block n : o.Shows (r.block n) n [.block n]
  empty n : o.Shows (r.empty n) n [.empty n]
  expression n : o.Shows (r.expression n) n [.expression n]
  predicate n : o.Shows (r.predicate n) n [.predicate n]
  column n : o.Shows (r.column n) n [.column n]
  subquerySource n : o.Shows (r.subquerySource n) n [.subquerySource n]
  row n : o.Shows (r.row n) n [.row n]
  reference n : o.Shows (r.reference n) (m.column n) [.reference n]
  tableSource n : ∃ name, o.Shows (r.tableSource n) { n with name } [.tableSource n] ∧
    o.Shows (r.reference name) (m.table n.name) [.reference n.name]
  insertValues n : ∃ target, o.Shows (r.insertValues n) { n with target } [.insertValues n] ∧
    o.Shows (r.reference target) (m.inserted n.target) [.reference n.target]
  insertSelect n : ∃ target, o.Shows (r.insertSelect n) { n with target } [.insertSelect n] ∧
    o.Shows (r.reference target) (m.inserted n.target) [.reference n.target]
  update n : ∃ target, o.Shows (r.update n) { n with target } [.update n] ∧
    o.Shows (r.reference target) (m.changed n.sources n.target) [.reference n.target]
  delete n : ∃ target, o.Shows (r.delete n) { n with target } [.delete n] ∧
    o.Shows (r.reference target) (m.changed n.sources n.target) [.reference n.target]

structure Walks.Rename (w : Walks σ) (m : Renaming) (o : Observer σ) (depth : Nat) : Prop where
  expression : o.Follows depth w.expression (Expression.rename m) .expression
  predicate : o.Follows depth w.predicate (Predicate.rename m) .predicate
  select : o.Follows depth w.select (Select.rename m) .select
  statement : o.Follows depth w.statement (Statement.rename m) Statement.visit

section

variable {r : Rewriter σ} {m : Renaming} {o : Observer σ} {w : Walks σ} {depth : Nat}

section

variable (hw : w.Rename m o depth)
include hw

theorem Walks.Rename.shows_statement (s : Statement) (h : s.visit.depth ≤ depth) :
    o.Shows (w.statement s) (s.rename m) s.visits :=
  Visit.visits_visit_statement s ▸ hw.statement s h

theorem shows_expressions {es : List Expression}
    (h : ∀ e ∈ es, (Visit.expression e).depth ≤ depth) :
    o.Shows (es.mapM w.expression) (Expressions.rename m es) (Expressions.visits es) := by
  rw [Expressions.rename_eq, Expressions.visits_eq]
  exact .mapM fun e he => hw.expression e (h e he)

theorem shows_optionalExpression {e : Option Expression}
    (h : ∀ x ∈ e.toList, (Visit.expression x).depth ≤ depth) :
    o.Shows (option w.expression e) (OptionalExpression.rename m e)
      (OptionalExpression.visits e) := by
  rw [OptionalExpression.rename_eq, OptionalExpression.visits_eq]
  exact .option fun e he => hw.expression e (h e he)

theorem shows_optionalPredicate {p : Option Predicate}
    (h : ∀ x ∈ p.toList, (Visit.predicate x).depth ≤ depth) :
    o.Shows (option w.predicate p) (OptionalPredicate.rename m p) (OptionalPredicate.visits p) := by
  rw [OptionalPredicate.rename_eq, OptionalPredicate.visits_eq]
  exact .option fun p hp => hw.predicate p (h p hp)

variable (hr : r.Renames m o)
include hr

theorem shows_expressionChildren (e : Expression) (h : ∀ u ∈ e.children, u.depth ≤ depth) :
    o.Shows (r.expressionChildren w e) (e.rename m) e.visits.tail := by
  cases e <;> simp only [Expression.children, List.forall_mem_cons, List.forall_mem_map] at h
  all_goals simp only [Expression.visits, Expression.rename, hr.origin, hr.function, id_eq,
    List.tail_cons]
  case unary t operator operand => exact (hw.expression operand h.1).map _
  case grouped t inner => exact (hw.expression inner h.1).map _
  case null t => exact .pure _
  case constant t value => exact .pure _
  case subquery t select => exact (hw.select select h.1).map _
  case reference name => exact (hr.reference name).map _
  case call t function arguments => exact (shows_expressions hw h).map _
  case binary t left operator right =>
    apply (hw.expression left h.1).bind
    exact (hw.expression right h.2.1).map _

theorem shows_predicateChildren (p : Predicate) (h : ∀ u ∈ p.children, u.depth ≤ depth) :
    o.Shows (predicateChildren w p) (p.rename m) p.visits.tail := by
  cases p <;> simp only [Predicate.children, List.forall_mem_cons, List.forall_mem_map] at h
  all_goals simp only [Predicate.visits, Predicate.rename, hr.origin, id_eq, List.tail_cons]
  case not t inner => exact (hw.predicate inner h.1).map _
  case existence t subquery => exact (hw.select subquery h.1).map _
  case inSubquery t left negated subquery =>
    apply (hw.expression left h.1).bind
    exact (hw.select subquery h.2.1).map _
  case inList t left negated list =>
    apply (hw.expression left h.1).bind
    exact (shows_expressions hw h.2).map _
  case between t left negated low high =>
    rw [List.append_assoc]
    apply (hw.expression left h.1).bind
    apply (hw.expression low h.2.1).bind
    exact (hw.expression high h.2.2.1).map _
  case grouped t inner => exact (hw.predicate inner h.1).map _
  case quantified t left operator quantifier subquery =>
    apply (hw.expression left h.1).bind
    exact (hw.select subquery h.2.1).map _
  case nullCheck t left isNull => exact (hw.expression left h.1).map _
  case comparison t left operator right =>
    apply (hw.expression left h.1).bind
    exact (hw.expression right h.2.1).map _
  case binary t left operator right =>
    apply (hw.predicate left h.1).bind
    exact (hw.predicate right h.2.1).map _

theorem shows_column (c : Column) (h : (Visit.column c).depth ≤ depth) :
    o.Shows (r.walkColumn w c) (c.rename m) c.visits := by
  replace h := Visit.children_depth_le (Nat.le_succ_of_le h)
  cases c <;> simp only [Visit.children, Column.children, List.forall_mem_cons] at h
  all_goals simp only [Column.visits, Column.rename, hr.origin, id_eq]
  all_goals apply (hr.column _).node
  case star t table => exact .pure _
  case value t expression aliasName => exact (hw.expression expression h.1).map _
  case assignment t target expression =>
    apply (hr.reference target).node
    exact (hw.expression expression h.2.1).map _

theorem shows_columns {cs : List Column} (h : ∀ c ∈ cs, (Visit.column c).depth ≤ depth) :
    o.Shows (cs.mapM (r.walkColumn w)) (Columns.rename m cs) (Columns.visits cs) := by
  rw [Columns.rename_eq, Columns.visits_eq]
  exact .mapM fun c hc => shows_column hw hr c (h c hc)

theorem shows_source (s : Source) (h : s.visit.depth ≤ depth) :
    o.Shows (r.walkSource w s) (s.rename m) s.visits := by
  replace h := Visit.children_depth_le (Nat.le_succ_of_le h)
  cases s with
  | table s =>
      obtain ⟨t, name, aliasName, join, hints, condition⟩ := s
      simp only [Source.visit, Visit.children, List.forall_mem_cons, List.forall_mem_map] at h
      simp only [Source.visits, Source.rename, TableSource.visits, TableSource.rename,
        hr.origin, id_eq]
      obtain ⟨name', hsource, hname⟩ := hr.tableSource ⟨t, name, aliasName, join, hints, condition⟩
      apply hsource.node
      apply hname.node
      exact (shows_optionalPredicate hw h.2).map _
  | subquery s =>
      obtain ⟨t, subquery, aliasName, join, condition⟩ := s
      simp only [Source.visit, Visit.children, List.forall_mem_cons, List.forall_mem_map] at h
      simp only [Source.visits, Source.rename, SubquerySource.visits, SubquerySource.rename,
        hr.origin, id_eq]
      apply (hr.subquerySource _).node
      apply (hw.select subquery h.1).bind
      exact (shows_optionalPredicate hw h.2).map _

theorem shows_sources {ss : List Source} (h : ∀ s ∈ ss, s.visit.depth ≤ depth) :
    o.Shows (ss.mapM (r.walkSource w)) (Sources.rename m ss) (Sources.visits ss) := by
  rw [Sources.rename_eq, Sources.visits_eq]
  exact .mapM fun s hs => shows_source hw hr s (h s hs)

theorem shows_row (row : Row) (h : (Visit.row row).depth ≤ depth) :
    o.Shows (r.walkRow w row) (row.rename m) row.visits := by
  replace h := Visit.children_depth_le (Nat.le_succ_of_le h)
  simp only [Visit.children, List.forall_mem_map] at h
  simp only [Row.visits, Row.rename, hr.origin, id_eq]
  apply (hr.row row).node
  exact (shows_expressions hw h).map _

theorem shows_selectChildren (s : Select) (h : (Visit.select s).depth ≤ depth + 1) :
    o.Shows (r.selectChildren w s) (s.rename m) s.visits.tail := by
  obtain ⟨t, top, columns, sources, filter, terminated⟩ := s
  replace h := Visit.children_depth_le h
  simp only [Visit.children, List.forall_mem_append, List.forall_mem_map] at h
  obtain ⟨⟨⟨htop, hcolumns⟩, hsources⟩, hfilter⟩ := h
  simp only [Select.visits, Select.rename, hr.origin, id_eq, List.tail_cons, List.append_assoc]
  apply (shows_optionalExpression hw htop).bind
  apply (shows_columns hw hr hcolumns).bind
  apply (shows_sources hw hr hsources).bind
  exact (shows_optionalPredicate hw hfilter).map _

omit hw in
theorem shows_references (names : List Reference) :
    o.Shows (names.mapM r.reference) (names.map m.column) (names.map .reference) := by
  have h := Shows.mapM fun name (_ : name ∈ names) => hr.reference name
  rwa [← List.map_eq_flatMap] at h

/- The hook of a change may rename the target, which is shown to the hook of names only behind the
`TOP` of the change. So a change is shown as a whole. -/

theorem shows_insertValues (s : InsertValues) (h : (Visit.insertValues s).depth ≤ depth + 1) :
    o.Shows (r.insertValues s >>= r.insertValuesChildren w) (s.rename m) s.visits := by
  obtain ⟨target, hinsert, htarget⟩ := hr.insertValues s
  replace h := Visit.children_depth_le h
  simp only [Visit.children, List.forall_mem_append, List.forall_mem_cons, List.forall_mem_map] at h
  obtain ⟨htop, -, -, hrows⟩ := h
  simp only [InsertValues.visits, InsertValues.rename, hr.origin, id_eq]
  apply hinsert.node
  apply (shows_optionalExpression hw htop).bind
  apply htarget.node
  apply (shows_references hr s.columns).bind
  exact (Shows.mapM fun row hrow => shows_row hw hr row (hrows row hrow)).map _

theorem shows_insertSelect (s : InsertSelect) (h : (Visit.insertSelect s).depth ≤ depth + 1) :
    o.Shows (r.insertSelect s >>= r.insertSelectChildren w) (s.rename m) s.visits := by
  obtain ⟨target, hinsert, htarget⟩ := hr.insertSelect s
  replace h := Visit.children_depth_le h
  simp only [Visit.children, List.forall_mem_append, List.forall_mem_cons, List.forall_mem_map] at h
  obtain ⟨htop, -, -, hselect, -⟩ := h
  simp only [InsertSelect.visits, InsertSelect.rename, hr.origin, id_eq]
  apply hinsert.node
  apply (shows_optionalExpression hw htop).bind
  apply htarget.node
  apply (shows_references hr s.columns).bind
  exact (hw.select s.select hselect).map _

theorem shows_update (s : Update) (h : (Visit.update s).depth ≤ depth + 1) :
    o.Shows (r.update s >>= r.updateChildren w) (s.rename m) s.visits := by
  obtain ⟨target, hupdate, htarget⟩ := hr.update s
  replace h := Visit.children_depth_le h
  simp only [Visit.children, List.forall_mem_append, List.forall_mem_cons, List.forall_mem_map] at h
  obtain ⟨htop, -, ⟨hassignments, hsources⟩, hfilter⟩ := h
  simp only [Update.visits, Update.rename, hr.origin, id_eq, List.append_assoc]
  apply hupdate.node
  apply (shows_optionalExpression hw htop).bind
  apply htarget.node
  apply (shows_columns hw hr hassignments).bind
  apply (shows_sources hw hr hsources).bind
  exact (shows_optionalPredicate hw hfilter).map _

theorem shows_delete (s : Delete) (h : (Visit.delete s).depth ≤ depth + 1) :
    o.Shows (r.delete s >>= r.deleteChildren w) (s.rename m) s.visits := by
  obtain ⟨target, hdelete, htarget⟩ := hr.delete s
  replace h := Visit.children_depth_le h
  simp only [Visit.children, List.forall_mem_append, List.forall_mem_cons, List.forall_mem_map] at h
  obtain ⟨htop, -, hsources, hfilter⟩ := h
  simp only [Delete.visits, Delete.rename, hr.origin, id_eq]
  apply hdelete.node
  apply (shows_optionalExpression hw htop).bind
  apply htarget.node
  apply (shows_sources hw hr hsources).bind
  exact (shows_optionalPredicate hw hfilter).map _

theorem shows_hookedStatement (s : Statement) (h : s.visit.depth ≤ depth + 1) :
    o.Shows (do r.statementChildren w (← r.hook s)) (s.rename m) s.visits := by
  cases s <;> simp only [Statement.visit] at h
  all_goals simp only [Statement.visits, Statement.rename]
  all_goals simp only [hook, bind_assoc, pure_bind, statementChildren]
  case select s =>
    rw [s.visits_eq]
    apply (hr.select s).node
    exact (shows_selectChildren hw hr s h).map _
  case insertValues s =>
    have hs := (shows_insertValues hw hr s h).map Statement.insertValues
    rwa [bind_assoc] at hs
  case insertSelect s =>
    have hs := (shows_insertSelect hw hr s h).map Statement.insertSelect
    rwa [bind_assoc] at hs
  case update s =>
    have hs := (shows_update hw hr s h).map Statement.update
    rwa [bind_assoc] at hs
  case delete s =>
    have hs := (shows_delete hw hr s h).map Statement.delete
    rwa [bind_assoc] at hs
  case conditional s =>
    obtain ⟨t, test, thenBranch, elseBranch⟩ := s
    replace h := Visit.children_depth_le h
    simp only [Visit.children, List.forall_mem_append, List.forall_mem_cons,
      List.forall_mem_map] at h
    obtain ⟨⟨htest, hthen, -⟩, helse⟩ := h
    simp only [If.visits, If.rename, OptionalStatement.visits_eq, OptionalStatement.rename_eq,
      hr.origin, id_eq, List.append_assoc]
    apply (hr.conditional _).node
    apply (hw.predicate test htest).bind
    apply (hw.shows_statement thenBranch hthen).bind
    exact (Shows.option fun s hs => hw.shows_statement s (helse s hs)).map _
  case loop s =>
    obtain ⟨t, test, body⟩ := s
    replace h := Visit.children_depth_le h
    simp only [Visit.children, List.forall_mem_cons] at h
    simp only [While.visits, While.rename, hr.origin, id_eq]
    apply (hr.loop _).node
    apply (hw.predicate test h.1).bind
    exact (hw.shows_statement body h.2.1).map _
  case block s =>
    obtain ⟨t, body⟩ := s
    replace h := Visit.children_depth_le h
    simp only [Visit.children, List.forall_mem_map] at h
    simp only [Block.visits, Block.rename, Statements.visits_eq, Statements.rename_eq, hr.origin,
      id_eq]
    apply (hr.block _).node
    exact (Shows.mapM fun s hs => hw.shows_statement s (h s hs)).map _
  case empty s =>
    simp only [hr.origin, id_eq]
    apply (hr.empty s).node
    exact .pure _

end

/-- A walk of so many levels reaches all nodes of trees that have no more levels. -/
theorem walks_rename (hr : r.Renames m o) (depth : Nat) : (r.walks depth).Rename m o depth := by
  induction depth with
  | zero => exact ⟨follows_zero o, follows_zero o, follows_zero o, follows_zero o⟩
  | succ depth ih =>
      constructor
      · intro e h
        rw [Visit.visits, e.visits_eq]
        exact (hr.expression e).node
          (shows_expressionChildren ih hr e (Visit.children_depth_le h))
      · intro p h
        rw [Visit.visits, p.visits_eq]
        exact (hr.predicate p).node (shows_predicateChildren ih hr p (Visit.children_depth_le h))
      · intro s h
        rw [Visit.visits, s.visits_eq]
        exact (hr.select s).node (shows_selectChildren ih hr s h)
      · intro s h
        rw [Visit.visits_visit_statement]
        exact shows_hookedStatement ih hr s h

theorem shows_walkStatement (hr : r.Renames m o) (s : Statement) :
    o.Shows (r.walkStatement s) (s.rename m) s.visits := by
  rw [← Visit.visits_visit_statement]
  exact (walks_rename hr _).statement s (Nat.le_add_right _ _)

/-- A walk whose hooks rename at most names renames the statements, and an observer ends in the
state of a walk that only observes. -/
theorem run_eq_rename (hr : r.Renames m o) (statements : List Statement) {state : σ}
    (hs : o.holds state) :
    r.run statements state = (Statements.rename m statements, walk statements o.see state) := by
  have h := Shows.mapM (fun s (_ : s ∈ statements) => shows_walkStatement hr s) state hs
  rwa [← Statements.rename_eq, ← Statements.visits_eq] at h

end

theorem observing_renames (f : Visit → σ → σ) :
    (observing f).Renames .identity (.ofSee f) := by
  constructor
  case origin | function => rfl
  case tableSource =>
    intro n
    -- Entries of `FROM` lists hold trees of their own kind and are no records to Lean.
    cases n
    exact ⟨_, fun _ _ => rfl, fun _ _ => rfl⟩
  case insertValues => exact fun n => ⟨n.target, fun _ _ => rfl, fun _ _ => rfl⟩
  case insertSelect => exact fun n => ⟨n.target, fun _ _ => rfl, fun _ _ => rfl⟩
  case update => exact fun n => ⟨n.target, fun _ _ => rfl, fun _ _ => rfl⟩
  case delete => exact fun n => ⟨n.target, fun _ _ => rfl, fun _ _ => rfl⟩
  all_goals exact fun _ _ _ => rfl

/-- A rewriting walk whose hooks only observe leaves the statements as they are, and it leaves the
observer as a walk does that rewrites nothing. -/
theorem run_observing (f : Visit → σ → σ) (statements : List Statement) (state : σ) :
    (observing f).run statements state = (statements, walk statements f state) := by
  rw [run_eq_rename (observing_renames f) statements trivial, Statements.rename_identity]
  rfl

end Rewriter

end Transact
