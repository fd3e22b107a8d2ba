import Transact.Proofs.Table.Search

namespace Transact

/-- A change with a `FROM` list, with the contexts of the tables that it writes and reads, and all
its nodes. -/
structure JoinedChange where
  context : UsageContext
  reading : UsageContext
  target : Reference
  sources : List Source
  nodes : List Visit

namespace Visit

def joinedChange? : Visit → Option JoinedChange
  | update s => some ⟨.update, .selectInUpdate, s.target, s.sources, s.visits⟩
  | delete s => some ⟨.delete, .selectInDelete, s.target, s.sources, s.visits⟩
  | _ => none

end Visit

namespace JoinedChange

def entries (c : JoinedChange) : List TableSource :=
  c.sources.filterMap fun s => match s with
    | .table source => some source
    | .subquery _ => none

def names (c : JoinedChange) (x : TableSource) : Bool :=
  Text.sameWord c.target.objectName (x.aliasName.getD x.name.objectName)

/-- The context in which a table is found. -/
def contextOf (c : JoinedChange) (x : TableSource) : UsageContext :=
  if TableUse.resolves c.target c.sources && c.names x then c.context else c.reading

variable {c : JoinedChange} {x : TableSource}

theorem mem_entries : x ∈ c.entries ↔ .table x ∈ c.sources := by
  rw [entries, List.mem_filterMap]
  constructor
  · rintro ⟨s, hs, hx⟩
    cases s with
    | table y =>
        cases hx
        exact hs
    | subquery y => cases hx
  · intro hx
    exact ⟨.table x, hx, rfl⟩

/-- A target in one part that goes by the name of an entry stands for an entry. -/
theorem resolves_of_mem_entries (hx : x ∈ c.entries) (hs : c.target.isSingle = true)
    (hn : c.names x = true) : TableUse.resolves c.target c.sources = true := by
  have hname : Sources.names c.sources c.target.objectName = true := by
    rw [Sources.names, List.any_eq_true]
    refine ⟨.table x, mem_entries.1 hx, ?_⟩
    rw [names, Text.sameWord_comm] at hn
    simpa [Source.visibleName] using hn
  rw [TableUse.resolves, hs, hname]
  rfl

/-- Entries are found as written exactly where the target, in one part, goes by their name. -/
theorem contextOf_eq_context_iff (hne : c.context ≠ c.reading) (hx : x ∈ c.entries) :
    c.contextOf x = c.context ↔ c.target.isSingle = true ∧ c.names x = true := by
  rw [contextOf]
  constructor
  · intro h
    split at h
    · rename_i hc
      obtain ⟨hr, hn⟩ := Bool.and_eq_true_iff.1 hc
      rw [TableUse.resolves] at hr
      exact ⟨(Bool.and_eq_true_iff.1 hr).1, hn⟩
    · exact absurd h.symm hne
  · rintro ⟨hs, hn⟩
    rw [resolves_of_mem_entries hx hs hn, hn]
    rfl

end JoinedChange

namespace TableUse

theorem mem_changed {c : JoinedChange} {visits : List Visit} {x : TableSource}
    (hx : .tableSource x ∈ visits) :
    ⟨c.contextOf x, x.name⟩ ∈ changed c.context c.reading c.target c.sources visits := by
  have hx := Visit.mem_tableSources.2 hx
  by_cases hr : resolves c.target c.sources = true
  · have hcontext : c.contextOf x = if c.names x then c.context else c.reading := by
      rw [JoinedChange.contextOf, hr, Bool.true_and]
    rw [changed, if_pos hr, hcontext]
    exact List.mem_map_of_mem hx
  · have hcontext : c.contextOf x = c.reading := by
      simp [JoinedChange.contextOf, hr]
    rw [changed, if_neg hr, hcontext]
    apply List.mem_cons_of_mem
    exact List.mem_map_of_mem (f := fun source => TableUse.mk c.reading source.name) hx

end TableUse

namespace Visit

variable {v : Visit} {c : JoinedChange} {x : TableSource}

theorem context_ne_of_joinedChange (hc : v.joinedChange? = some c) : c.context ≠ c.reading := by
  cases v <;> simp only [joinedChange?, Option.some.injEq, reduceCtorEq] at hc
  all_goals
    subst hc
    exact UsageContext.noConfusion

theorem mem_nodes_of_mem_entries (hc : v.joinedChange? = some c) (hx : x ∈ c.entries) :
    .tableSource x ∈ c.nodes := by
  have hvisit : .tableSource x ∈ x.visits := by
    cases x
    simp [TableSource.visits]
  have hsources : .tableSource x ∈ Sources.visits c.sources := by
    rw [Sources.visits_eq, List.mem_flatMap]
    refine ⟨.table x, JoinedChange.mem_entries.1 hx, ?_⟩
    rw [Source.visits]
    exact hvisit
  cases v <;> simp only [joinedChange?, Option.some.injEq, reduceCtorEq] at hc
  case update s =>
    subst hc
    simp [Update.visits, hsources]
  case delete s =>
    subst hc
    simp [Delete.visits, hsources]

/-- A table in a change is read for its `TOP`, or the change makes a use of it. -/
theorem use_of_joinedChange (hc : v.joinedChange? = some c) (hx : .tableSource x ∈ c.nodes) :
    .tableSource x ∈ v.changeTop ∨ ⟨c.contextOf x, x.name⟩ ∈ v.changeUses := by
  cases v <;> simp only [joinedChange?, Option.some.injEq, reduceCtorEq] at hc
  case update s =>
    subst hc
    simp only [Update.visits, List.mem_cons, List.mem_append, reduceCtorEq, false_or] at hx
    rcases hx with htop | hrest
    · exact .inl htop
    · right
      apply TableUse.mem_changed (c := ⟨.update, .selectInUpdate, s.target, s.sources, s.visits⟩)
      rw [List.mem_append, List.mem_append]
      exact hrest.imp_left Or.symm
  case delete s =>
    subst hc
    simp only [Delete.visits, List.mem_cons, List.mem_append, reduceCtorEq, false_or] at hx
    rcases hx with htop | hrest
    · exact .inl htop
    · right
      apply TableUse.mem_changed (c := ⟨.delete, .selectInDelete, s.target, s.sources, s.visits⟩)
      exact List.mem_append.2 hrest

end Visit

/-- A table inside a change with a `FROM` list is found in the context of the change where the
target stands for an entry of the list and goes by the name of the table; for the entries themselves
that is where the target, in one part, goes by their name. Elsewhere it is found as read. -/
theorem findTables_context {source : String} {vs : List Statement} (h : parse source = .ok vs)
    {q : SearchQuery} {hit : Hit} (hhit : hit ∈ findTables q vs) {v : Visit}
    (hv : v ∈ Statements.visits vs) {c : JoinedChange} (hc : v.joinedChange? = some c)
    {x : TableSource} (hx : .tableSource x ∈ c.nodes) (hp : hit.position = x.name.position) :
    hit.context = c.contextOf x ∧
      (x ∈ c.entries →
        (hit.context = c.context ↔ c.target.isSingle = true ∧ c.names x = true)) := by
  have hreport := Statements.report vs
  have hnodup := parse_names_nodup h
  obtain ⟨u, hu, -, rfl⟩ := mem_findTables.1 hhit
  have hcontext : u.hit.context = c.contextOf x := by
    rcases Visit.use_of_joinedChange hc hx with htop | huse
    · have hunread : Visit.IsUnread (Statements.visits vs) x := ⟨v, hv, htop⟩
      exact absurd hp (hreport.position_ne hnodup hu hunread.name_mem)
    · rw [hreport.use_unique hnodup hu (hreport.changes v hv huse) hp]
      rfl
  refine ⟨hcontext, fun hentry => ?_⟩
  rw [hcontext]
  exact JoinedChange.contextOf_eq_context_iff (Visit.context_ne_of_joinedChange hc) hentry

/-- The table of the `FROM` list is found as written, in a search for deletions. -/
theorem findTables_context_delete : ∃ vs hit v c x,
    parse "DELETE O FROM orders AS o WHERE EXISTS (SELECT 1 FROM orders)" = .ok vs ∧
      hit ∈ findTables ⟨.name ["orders"], [.delete]⟩ vs ∧ v ∈ Statements.visits vs ∧
      v.joinedChange? = some c ∧ .tableSource x ∈ c.nodes ∧ hit.position = x.name.position ∧
      x ∈ c.entries ∧ hit.context = c.contextOf x ∧
      (hit.context = c.context ↔ c.target.isSingle = true ∧ c.names x = true) := by
  obtain ⟨q, hq⟩ : ∃ q, SearchQuery.mk (.name ["orders"]) [.delete] = q := ⟨_, rfl⟩
  obtain ⟨vs, hvs, h⟩ := exists_of_parse
    "DELETE O FROM orders AS o WHERE EXISTS (SELECT 1 FROM orders)"
    (fun vs => (findTables q vs).any fun hit => (Statements.visits vs).any fun v =>
      v.joinedChange?.any fun c => c.entries.any fun x => hit.position = x.name.position)
    (by subst hq; decide +kernel)
  simp only [List.any_eq_true, Option.any_eq_true, decide_eq_true_eq] at h
  obtain ⟨hit, hhit, v, hv, c, hc, x, hentry, hp⟩ := h
  have hx := Visit.mem_nodes_of_mem_entries hc hentry
  obtain ⟨hcontext, hiff⟩ := findTables_context hvs hhit hv hc hx hp
  rw [hq]
  exact ⟨vs, hit, v, c, x, hvs, hhit, hv, hc, hx, hp, hentry, hcontext, hiff hentry⟩

/-- A table that is only read inside the condition of a change, by the name of the target, is found
as written. -/
theorem findTables_context_shadowed : ∃ vs,
    parse "UPDATE o SET a = 1 FROM orders o WHERE EXISTS (SELECT 1 FROM orders o)" = .ok vs ∧
      ∃ v ∈ Statements.visits vs, ∃ c, v.joinedChange? = some c ∧
        ∃ x, .tableSource x ∈ c.nodes ∧ x ∉ c.entries ∧
          ∃ hit ∈ findTables ⟨.name ["orders"], []⟩ vs, hit.position = x.name.position ∧
            hit.context = c.context := by
  obtain ⟨vs, hvs, h⟩ := exists_of_parse
    "UPDATE o SET a = 1 FROM orders o WHERE EXISTS (SELECT 1 FROM orders o)"
    (fun vs => (Statements.visits vs).any fun v => v.joinedChange?.any fun c =>
      (Visit.tableSources c.nodes).any fun x => (c.entries.all fun y => y.name ≠ x.name) &&
        (findTables ⟨.name ["orders"], []⟩ vs).any fun hit =>
          hit.position = x.name.position ∧ hit.context = c.context) (by decide +kernel)
  simp only [List.any_eq_true, List.all_eq_true, Option.any_eq_true, Bool.and_eq_true,
    decide_eq_true_eq, Visit.mem_tableSources] at h
  obtain ⟨v, hv, c, hc, x, hx, hall, hit, hhit, hp, hcontext⟩ := h
  have hentry : x ∉ c.entries := fun hx' => hall x hx' rfl
  exact ⟨vs, hvs, v, hv, c, hc, x, hx, hentry, hit, hhit, hp, hcontext⟩

end Transact
