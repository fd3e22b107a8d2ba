import Transact.Proofs.Table.Search

namespace Transact

def Visit.tableName? : Visit → Option Reference
  | tableSource s => some s.name
  | insertValues s => some s.target
  | insertSelect s => some s.target
  | update s => some s.target
  | delete s => some s.target
  | _ => none

structure Hit.Shows (h : Hit) (r : Reference) : Prop where
  line_eq : h.line = r.origin.place.line
  column_eq : h.column = r.origin.place.column
  table_eq : h.table = r.identifier

theorem TableUse.hit_shows (u : TableUse) : u.hit.Shows u.table := ⟨rfl, rfl, rfl⟩

theorem Visit.tableName?_of_written? {v : Visit} {r : Reference} (h : v.written? = some r) :
    v.tableName? = some r := by
  cases v
  case update s => exact (Option.ite_none_left_eq_some.1 h).2
  case delete s => exact (Option.ite_none_left_eq_some.1 h).2
  all_goals first | exact h | cases h

/-- What is used is the table of a `FROM` list or the target of a change. -/
theorem TableUse.Report.exists_of_use {uses : List TableUse} {visits : List Visit} {u : TableUse}
    (h : Report uses visits) (hu : u ∈ uses) : ∃ v ∈ visits, v.tableName? = some u.table := by
  have hreported : u.table ∈ reported uses := Multiset.mem_coe.2 (List.mem_map_of_mem hu)
  have hmem : u.table ∈ Visit.written visits + Visit.tables visits := by
    rw [← h.total]
    exact Multiset.mem_add.2 (.inl hreported)
  rcases Multiset.mem_add.1 hmem with hwritten | htable
  · obtain ⟨v, hv, hr⟩ := Visit.mem_written.1 hwritten
    exact ⟨v, hv, Visit.tableName?_of_written? hr⟩
  · obtain ⟨x, hx, hname⟩ := Visit.mem_tables.1 htable
    exact ⟨.tableSource x, hx, congrArg some hname⟩

theorem findTables_eq_filter {q : SearchQuery} (hq : q.contexts ≠ []) (vs : List Statement) :
    findTables q vs =
      (findTables { q with contexts := [] } vs).filter fun hit => hit.context ∈ q.contexts := by
  have hwants (u : TableUse) : q.wants u =
      (decide (u.hit.context ∈ q.contexts) && SearchQuery.wants { q with contexts := [] } u) := by
    have hempty : q.contexts.isEmpty = false := List.isEmpty_eq_false_iff.2 hq
    rw [Bool.eq_iff_iff, Bool.and_eq_true, decide_eq_true_eq]
    simp only [SearchQuery.wants, hempty, TableUse.hit, List.isEmpty_nil, Bool.false_or,
      Bool.true_or, Bool.true_and, Bool.and_eq_true, List.contains_iff_mem]
  rw [findTables, findTables, List.filter_map, List.filter_filter]
  exact congrArg (List.map TableUse.hit) (List.filter_congr fun u _ => hwants u)

/-- The hits of a search in a parsed source are at tables of `FROM` lists and targets of changes
that match, and at different places; with contexts they are the hits without contexts that are in
one of these, in the same order. -/
theorem findTables_met_once {source : String} {vs : List Statement} (h : parse source = .ok vs)
    (q : SearchQuery) :
    (∀ hit ∈ findTables q vs, ∃ v ∈ Statements.visits vs, ∃ r, v.tableName? = some r ∧
      q.pattern.accepts r = true ∧ hit.Shows r) ∧
    ((findTables q vs).map Hit.position).Nodup ∧
    (q.contexts ≠ [] → findTables q vs =
      (findTables { q with contexts := [] } vs).filter fun hit => hit.context ∈ q.contexts) := by
  refine ⟨fun hit hhit => ?_, findTables_nodup h q, fun hq => findTables_eq_filter hq vs⟩
  obtain ⟨u, hu, hwants, rfl⟩ := mem_findTables.1 hhit
  obtain ⟨v, hv, hname⟩ := (Statements.report vs).exists_of_use hu
  have haccepts : q.pattern.accepts u.table = true := (Bool.and_eq_true_iff.1 hwants).2
  exact ⟨v, hv, u.table, hname, haccepts, u.hit_shows⟩

/-- A table that is updated under its alias, read for the update and read by a query, where the
read for the update is not asked for. -/
theorem findTables_met_once_update : ∃ vs hit v r,
    parse "update o set a = (select max(b) from orders) from Orders o; select c from dbo.orders" =
      .ok vs ∧
    (findTables ⟨.ofName "[orders]", [.select, .update]⟩ vs).map Hit.position =
      [(1, 51), (1, 75)] ∧
    hit ∈ findTables ⟨.ofName "[orders]", [.select, .update]⟩ vs ∧
    (v ∈ Statements.visits vs ∧ v.tableName? = some r ∧
      TablePattern.accepts (.ofName "[orders]") r = true ∧ hit.Shows r) ∧
    ((findTables ⟨.ofName "[orders]", [.select, .update]⟩ vs).map Hit.position).Nodup ∧
    [UsageContext.select, .update] ≠ [] ∧
    findTables ⟨.ofName "[orders]", [.select, .update]⟩ vs =
      (findTables ⟨.ofName "[orders]", []⟩ vs).filter fun hit =>
        hit.context ∈ [UsageContext.select, .update] := by
  obtain ⟨q, hq⟩ : ∃ q, SearchQuery.mk (.ofName "[orders]") [.select, .update] = q := ⟨_, rfl⟩
  obtain ⟨vs, hvs, h⟩ := exists_of_parse
    "update o set a = (select max(b) from orders) from Orders o; select c from dbo.orders"
    (fun vs => (findTables q vs).map Hit.position = [(1, 51), (1, 75)])
    (by subst hq; decide +kernel)
  have hpositions := of_decide_eq_true h
  obtain ⟨hit, hhit⟩ : ∃ hit, hit ∈ findTables q vs := by
    apply List.exists_mem_of_ne_nil
    intro hnil
    simp [hnil] at hpositions
  obtain ⟨hmet, hnodup, hfilter⟩ := findTables_met_once hvs q
  obtain ⟨v, hv, r, hr⟩ := hmet hit hhit
  subst hq
  have hcontexts : [UsageContext.select, .update] ≠ [] := by simp
  exact ⟨vs, hit, v, r, hvs, hpositions, hhit, ⟨hv, hr⟩, hnodup, hcontexts, hfilter hcontexts⟩

end Transact
