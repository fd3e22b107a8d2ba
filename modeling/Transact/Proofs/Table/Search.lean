import Transact.Proofs.Grammar.Leaves
import Transact.Proofs.Table.Reported

namespace Transact

def Reference.position (r : Reference) : Nat × Nat := (r.origin.place.line, r.origin.place.column)

namespace Hit

def position (h : Hit) : Nat × Nat := (h.line, h.column)

def atName (r : Reference) (hits : List Hit) : List Hit :=
  hits.filter fun h => h.position = r.position

end Hit

theorem mem_findTables {q : SearchQuery} {statements : List Statement} {h : Hit} :
    h ∈ findTables q statements ↔
      ∃ u ∈ Statements.uses statements, q.wants u = true ∧ u.hit = h := by
  simp [findTables, and_assoc]

namespace Visit

variable {visits : List Visit} {x y : TableSource}

theorem mem_tableSources : x ∈ tableSources visits ↔ .tableSource x ∈ visits := by
  induction visits with
  | nil => simp [tableSources]
  | cons v visits ih =>
      simp only [tableSources] at ih
      cases v <;> simp [tableSources, ih]

theorem mem_tables {r : Reference} :
    r ∈ tables visits ↔ ∃ x, .tableSource x ∈ visits ∧ x.name = r := by
  simp [tables, mem_tableSources]

theorem mem_written {r : Reference} :
    r ∈ written visits ↔ ∃ v ∈ visits, v.written? = some r := by
  simp [written]

theorem mem_unread {r : Reference} :
    r ∈ unread visits ↔ ∃ v ∈ visits, ∃ x, .tableSource x ∈ v.changeTop ∧ x.name = r := by
  simp [unread, mem_tableSources]

def IsUnread (visits : List Visit) (x : TableSource) : Prop :=
  ∃ v ∈ visits, .tableSource x ∈ v.changeTop

theorem IsUnread.name_mem (h : IsUnread visits x) : x.name ∈ unread visits := by
  obtain ⟨v, hv, hx⟩ := h
  exact mem_unread.2 ⟨v, hv, x, hx, rfl⟩

theorem origins_sublist (visits : List Visit) :
    ((visits.filterMap reference?).map Reference.origin).Sublist (leaves visits) := by
  induction visits with
  | nil => exact .slnil
  | cons v visits ih =>
      have hrest : (leaves visits).Sublist (leaves (v :: visits)) := by
        rw [leaves_cons]
        exact List.sublist_append_right _ _
      cases v
      case reference name => exact ih.cons_cons name.origin
      all_goals exact ih.trans hrest

end Visit

/-- The names that a walk over a parsed source meets are at different places. -/
theorem parse_names_nodup {source : String} {vs : List Statement} (h : parse source = .ok vs) :
    ((Visit.names (Statements.visits vs)).map Reference.position).Nodup := by
  have hleaves := (parse_leaves_pairwise h).sublist (Visit.origins_sublist _)
  rw [Visit.names, Multiset.map_coe, Multiset.coe_nodup, List.Nodup, List.pairwise_map]
  rw [List.pairwise_map] at hleaves
  exact hleaves.imp Place.Precedes.position_ne

namespace TableUse.Report

open Visit

variable {uses : List TableUse} {visits : List Visit} {x y : TableSource} {u w : TableUse}
  {r : Reference}

/-- Targets and tables are reported, but for what is read for a `TOP`. -/
theorem exists_of_total (h : Report uses visits) (hr : r ∈ written visits + tables visits)
    (hu : ∀ y, IsUnread visits y → y.name ≠ r) : ∃ u ∈ uses, u.table = r := by
  rw [← h.total] at hr
  rcases Multiset.mem_add.1 hr with hr | hr
  · exact List.mem_map.1 (Multiset.mem_coe.1 hr)
  · obtain ⟨v, hv, y, hy, hname⟩ := mem_unread.1 hr
    exact absurd hname (hu y ⟨v, hv, hy⟩)

variable (h : Report uses visits) (hn : ((names visits).map Reference.position).Nodup)
include h hn

theorem total_nodup : ((written visits + tables visits).map Reference.position).Nodup :=
  Multiset.nodup_of_le (Multiset.map_le_map h.le) hn

theorem uses_nodup : (uses.map fun u => u.table.position).Nodup := by
  have hnodup := h.total_nodup hn
  rw [← h.total, Multiset.map_add, Multiset.nodup_add] at hnodup
  have huses := hnodup.1
  rwa [reported, Multiset.map_coe, Multiset.coe_nodup, List.map_map] at huses

theorem use_unique (hu : u ∈ uses) (hw : w ∈ uses) (hp : u.table.position = w.table.position) :
    u = w :=
  List.inj_on_of_nodup_map (h.uses_nodup hn) hu hw hp

theorem position_ne (hu : u ∈ uses) (hr : r ∈ unread visits) : u.table.position ≠ r.position := by
  have hnodup := h.total_nodup hn
  rw [← h.total, Multiset.map_add, Multiset.nodup_add] at hnodup
  have hu' : u.table ∈ reported uses := Multiset.mem_coe.2 (List.mem_map_of_mem hu)
  intro he
  apply Multiset.disjoint_left.1 hnodup.2.2 (Multiset.mem_map_of_mem _ hu')
  rw [he]
  exact Multiset.mem_map_of_mem _ hr

theorem source_unique (hx : .tableSource x ∈ visits) (hy : .tableSource y ∈ visits)
    (hp : x.name.position = y.name.position) : x = y := by
  have hnodup := h.total_nodup hn
  rw [Multiset.map_add, Multiset.nodup_add] at hnodup
  have htables := hnodup.2.1
  rw [tables, Multiset.map_coe, Multiset.coe_nodup, List.map_map] at htables
  exact List.inj_on_of_nodup_map htables (mem_tableSources.2 hx) (mem_tableSources.2 hy) hp

theorem exists_of_tableSource (hx : .tableSource x ∈ visits) (hu : ¬IsUnread visits x) :
    ∃ u ∈ uses, u.table = x.name := by
  apply h.exists_of_total (Multiset.mem_add.2 (.inr (mem_tables.2 ⟨x, hx, rfl⟩)))
  rintro y ⟨v, hv, hy⟩ hname
  have hyx := h.source_unique hn (h.tops v hv hy) hx (congrArg Reference.position hname)
  exact hu ⟨v, hv, hyx ▸ hy⟩

theorem exists_of_written {v : Visit} (hv : v ∈ visits) (hr : v.written? = some r) :
    ∃ u ∈ uses, u.table = r := by
  have hmem : r ∈ written visits := mem_written.2 ⟨v, hv, hr⟩
  apply h.exists_of_total (Multiset.mem_add.2 (.inl hmem))
  rintro y ⟨v', hv', hy⟩ rfl
  have hnodup := h.total_nodup hn
  rw [Multiset.map_add, Multiset.nodup_add] at hnodup
  have hy' : y.name ∈ tables visits := mem_tables.2 ⟨y, h.tops v' hv' hy, rfl⟩
  exact Multiset.disjoint_left.1 hnodup.2.2 (Multiset.mem_map_of_mem _ hmem)
    (Multiset.mem_map_of_mem _ hy')

end TableUse.Report

theorem filter_eq_singleton {α β : Type} [DecidableEq β] {f : α → β} {l : List α} {a : α}
    (h : (l.map f).Nodup) (ha : a ∈ l) : l.filter (fun b => f b = f a) = [a] := by
  induction l with
  | nil => cases ha
  | cons b l ih =>
      rw [List.map_cons, List.nodup_cons] at h
      rcases List.mem_cons.1 ha with rfl | ha
      · have hrest : l.filter (fun b => f b = f a) = [] := by
          rw [List.filter_eq_nil_iff]
          intro b hb he
          exact h.1 (List.mem_map.2 ⟨b, hb, of_decide_eq_true he⟩)
        rw [List.filter_cons_of_pos (by simp), hrest]
      · have hne : f b ≠ f a := fun he => h.1 (he ▸ List.mem_map_of_mem ha)
        rw [List.filter_cons_of_neg (by simpa using hne)]
        exact ih h.2 ha

theorem findTables_nodup {source : String} {vs : List Statement} (h : parse source = .ok vs)
    (q : SearchQuery) : ((findTables q vs).map Hit.position).Nodup := by
  have huses := (Statements.report vs).uses_nodup (parse_names_nodup h)
  have hsub : ((Statements.uses vs).filter q.wants).Sublist (Statements.uses vs) :=
    List.filter_sublist
  rw [findTables, List.map_map]
  exact (hsub.map _).nodup huses

section

variable {source : String} {vs : List Statement} {p : TablePattern}

theorem atName_of_use (h : parse source = .ok vs) {u : TableUse} (hu : u ∈ Statements.uses vs)
    (hp : p.accepts u.table = true) : Hit.atName u.table (findTables ⟨p, []⟩ vs) = [u.hit] := by
  have hmem : u.hit ∈ findTables ⟨p, []⟩ vs :=
    mem_findTables.2 ⟨u, hu, by simpa [SearchQuery.wants] using hp, rfl⟩
  exact filter_eq_singleton (findTables_nodup h ⟨p, []⟩) hmem

theorem atName_of_isUnread (h : parse source = .ok vs) {x : TableSource}
    (hx : Visit.IsUnread (Statements.visits vs) x) (q : SearchQuery) :
    Hit.atName x.name (findTables q vs) = [] := by
  rw [Hit.atName, List.filter_eq_nil_iff]
  intro hit hhit he
  obtain ⟨u, hu, -, rfl⟩ := mem_findTables.1 hhit
  exact (Statements.report vs).position_ne (parse_names_nodup h) hu hx.name_mem
    (of_decide_eq_true he)

/-- A search without contexts finds each entry of a `FROM` list that matches once, at its line and
column, but for those that are read for the `TOP` of a change, and each target once that does not
stand for an entry of its own `FROM` list. -/
theorem findTables_once (h : parse source = .ok vs) (p : TablePattern) :
    (∀ x, .tableSource x ∈ Statements.visits vs → p.accepts x.name = true →
      (Visit.IsUnread (Statements.visits vs) x →
        Hit.atName x.name (findTables ⟨p, []⟩ vs) = []) ∧
      (¬Visit.IsUnread (Statements.visits vs) x →
        ∃ c, Hit.atName x.name (findTables ⟨p, []⟩ vs) = [TableUse.hit ⟨c, x.name⟩])) ∧
    ∀ v ∈ Statements.visits vs, ∀ r, v.written? = some r → p.accepts r = true →
      ∃ c, Hit.atName r (findTables ⟨p, []⟩ vs) = [TableUse.hit ⟨c, r⟩] := by
  have hreport := Statements.report vs
  have hnodup := parse_names_nodup h
  constructor
  · intro x hx hp
    constructor
    · intro hunread
      exact atName_of_isUnread h hunread _
    · intro hread
      obtain ⟨u, hu, hname⟩ := hreport.exists_of_tableSource hnodup hx hread
      rw [← hname] at hp ⊢
      exact ⟨u.context, atName_of_use h hu hp⟩
  · intro v hv r hr hp
    obtain ⟨u, hu, rfl⟩ := hreport.exists_of_written hnodup hv hr
    exact ⟨u.context, atName_of_use h hu hp⟩

/-- What holds of the statements of a source can be found out by parsing it. -/
theorem exists_of_parse (source : String) (holds : List Statement → Bool)
    (h : (parse source).toOption.any holds = true) :
    ∃ vs, parse source = .ok vs ∧ holds vs = true := by
  cases hvs : parse source with
  | error e =>
      rw [hvs] at h
      cases h
  | ok vs =>
      rw [hvs] at h
      exact ⟨vs, rfl, h⟩

/-- Of three tables of one name, that of a `TOP` is not found, while the target and the table of a
condition are. -/
theorem findTables_once_delete : ∃ vs,
    parse "DELETE TOP (SELECT 1 FROM t) t WHERE EXISTS (SELECT 1 FROM t)" = .ok vs ∧
    (∃ x, .tableSource x ∈ Statements.visits vs ∧
      Hit.atName x.name (findTables ⟨.name ["t"], []⟩ vs) = []) ∧
    (∃ x c, .tableSource x ∈ Statements.visits vs ∧
      Hit.atName x.name (findTables ⟨.name ["t"], []⟩ vs) = [TableUse.hit ⟨c, x.name⟩]) ∧
    ∃ v ∈ Statements.visits vs, ∃ r c, v.written? = some r ∧
      Hit.atName r (findTables ⟨.name ["t"], []⟩ vs) = [TableUse.hit ⟨c, r⟩] := by
  obtain ⟨p, hp⟩ : ∃ p, TablePattern.name ["t"] = p := ⟨_, rfl⟩
  obtain ⟨vs, hvs, h⟩ := exists_of_parse
    "DELETE TOP (SELECT 1 FROM t) t WHERE EXISTS (SELECT 1 FROM t)"
    (fun vs =>
      ((Statements.visits vs).any fun v =>
        (Visit.tableSources v.changeTop).any fun x => p.accepts x.name) &&
      ((Visit.tableSources (Statements.visits vs)).any fun x => p.accepts x.name &&
        (Statements.visits vs).all fun v =>
          (Visit.tableSources v.changeTop).all fun y => y.name ≠ x.name) &&
      (Statements.visits vs).any fun v => v.written?.any p.accepts) (by subst hp; decide +kernel)
  simp only [Bool.and_eq_true, List.any_eq_true, List.all_eq_true, Option.any_eq_true,
    decide_eq_true_eq, Visit.mem_tableSources] at h
  obtain ⟨⟨⟨v, hv, x, hx, hpx⟩, y, hy, hpy, hall⟩, w, hw, r, hr, hpr⟩ := h
  obtain ⟨hsources, htargets⟩ := findTables_once hvs p
  have hvisit : .tableSource x ∈ Statements.visits vs := (Statements.report vs).tops v hv hx
  have hread : ¬Visit.IsUnread (Statements.visits vs) y := by
    rintro ⟨u, hu, hyu⟩
    exact hall u hu y hyu rfl
  obtain ⟨c, hc⟩ := (hsources y hy hpy).2 hread
  obtain ⟨d, hd⟩ := htargets w hw r hr hpr
  rw [hp]
  exact ⟨vs, hvs, ⟨x, hvisit, (hsources x hvisit hpx).1 ⟨v, hv, hx⟩⟩, ⟨y, c, hy, hc⟩,
    w, hw, r, d, hr, hd⟩

/-- A table that is read for the `TOP` of a change is met on a walk and matches, and it is not
found. -/
theorem findTables_top_missed : ∃ vs, parse "DELETE TOP (SELECT 1 FROM t) x" = .ok vs ∧
    ∃ x, .tableSource x ∈ Statements.visits vs ∧
      TablePattern.accepts (.name ["t"]) x.name = true ∧
      Hit.atName x.name (findTables ⟨.name ["t"], []⟩ vs) = [] := by
  obtain ⟨vs, hvs, h⟩ := exists_of_parse "DELETE TOP (SELECT 1 FROM t) x"
    (fun vs => (Visit.tableSources (Statements.visits vs)).any fun x =>
      TablePattern.accepts (.name ["t"]) x.name &&
        (Hit.atName x.name (findTables ⟨.name ["t"], []⟩ vs)).isEmpty) (by decide +kernel)
  simp only [List.any_eq_true, Bool.and_eq_true, List.isEmpty_iff, Visit.mem_tableSources] at h
  exact ⟨vs, hvs, h⟩

end

end Transact
