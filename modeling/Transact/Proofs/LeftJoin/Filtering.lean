import Transact.LeftJoin
import Transact.Proofs.Table.Reported
import Transact.Proofs.Traversal.Leaf
import Transact.Proofs.Traversal.Nested

namespace Transact

structure Filtering where
  sources : List Source
  condition : Predicate

namespace Visit

def filtering? : Visit → Option Filtering
  | select s => s.filter.map (⟨s.sources, ·⟩)
  | update s => s.filter.map (⟨s.sources, ·⟩)
  | delete s => s.filter.map (⟨s.sources, ·⟩)
  | _ => none

def isExempt : Visit → Bool
  | predicate (.nullCheck _ _ isNull) => isNull
  | select _ => true
  | _ => false

/-- The names that a walk meets outside checks that ask for `NULL` and outside queries. -/
def filterNames (visits : List Visit) : List Reference :=
  (outside isExempt visits).filterMap reference?

variable {v : Visit} {vs us : List Visit}

theorem filterNames_node (hv : v.isExempt = false) (hname : v.reference? = none) :
    filterNames (v :: vs) = filterNames vs := by
  rw [filterNames, outside_keep hv, List.filterMap_cons_none hname, filterNames]

theorem filterNames_reference (name : Reference) :
    filterNames (.reference name :: vs) = name :: filterNames vs := by
  rw [filterNames, outside_keep rfl, filterNames]
  rfl

theorem filterNames_exempt (hv : v.isExempt = true) : filterNames (v :: v.below) = [] := by
  have houtside := outside_stop hv []
  rw [List.append_nil] at houtside
  rw [filterNames, houtside]
  rfl

theorem Nested.filterNames_append (h : Nested vs) :
    filterNames (vs ++ us) = filterNames vs ++ filterNames us := by
  rw [filterNames, h.outside_append, List.filterMap_append, filterNames, filterNames]

end Visit

namespace Filtering

def references (f : Filtering) : List Reference := Visit.filterNames f.condition.visits

end Filtering

open Visit (filterNames filterNames_node filterNames_reference filterNames_exempt)

theorem Select.filterNames (s : Select) : filterNames s.visits = [] := by
  rw [s.visits_eq]
  exact filterNames_exempt (v := .select s) rfl

mutual

theorem Expression.filterNames : (e : Expression) → filterNames e.visits = e.ownReferences
  | .unary _ _ operand => by
      rw [Expression.visits, filterNames_node rfl rfl, operand.filterNames,
        Expression.ownReferences]
  | .grouped _ inner => by
      rw [Expression.visits, filterNames_node rfl rfl, inner.filterNames,
        Expression.ownReferences]
  | .null _ => by
      rw [Expression.visits, filterNames_node rfl rfl, Expression.ownReferences]
      rfl
  | .constant _ _ => by
      rw [Expression.visits, filterNames_node rfl rfl, Expression.ownReferences]
      rfl
  | .subquery _ select => by
      rw [Expression.visits, filterNames_node rfl rfl, select.filterNames,
        Expression.ownReferences]
  | .reference name => by
      rw [Expression.visits, filterNames_node rfl rfl, filterNames_reference,
        Expression.ownReferences]
      rfl
  | .call _ _ arguments => by
      rw [Expression.visits, filterNames_node rfl rfl, Expressions.filterNames arguments,
        Expression.ownReferences]
  | .binary _ left _ right => by
      rw [Expression.visits, filterNames_node rfl rfl, left.nested.filterNames_append,
        left.filterNames, right.filterNames, Expression.ownReferences]

theorem Expressions.filterNames : (es : List Expression) →
    filterNames (Expressions.visits es) = Expressions.ownReferences es
  | [] => by
      rw [Expressions.visits, Expressions.ownReferences]
      rfl
  | e :: es => by
      rw [Expressions.visits, e.nested.filterNames_append, e.filterNames,
        Expressions.filterNames es, Expressions.ownReferences]

end

/-- The names by which a condition filters are those that a walk over it meets outside checks that
ask for `NULL` and outside subqueries, in the order of the walk. -/
theorem Predicate.filterNames : (p : Predicate) → filterNames p.visits = p.filterReferences
  | .not _ inner => by
      rw [Predicate.visits, filterNames_node rfl rfl, inner.filterNames,
        Predicate.filterReferences]
  | .existence _ subquery => by
      rw [Predicate.visits, filterNames_node rfl rfl, subquery.filterNames,
        Predicate.filterReferences]
  | .inSubquery _ left _ subquery => by
      rw [Predicate.visits, filterNames_node rfl rfl, left.nested.filterNames_append,
        left.filterNames, subquery.filterNames, Predicate.filterReferences, List.append_nil]
  | .inList _ left _ list => by
      rw [Predicate.visits, filterNames_node rfl rfl, left.nested.filterNames_append,
        left.filterNames, Expressions.filterNames list, Predicate.filterReferences]
  | .between _ left _ low high => by
      rw [Predicate.visits, filterNames_node rfl rfl,
        (left.nested.append low.nested).filterNames_append, left.nested.filterNames_append,
        left.filterNames, low.filterNames, high.filterNames, Predicate.filterReferences]
  | .grouped _ inner => by
      rw [Predicate.visits, filterNames_node rfl rfl, inner.filterNames,
        Predicate.filterReferences]
  | .quantified _ left _ _ subquery => by
      rw [Predicate.visits, filterNames_node rfl rfl, left.nested.filterNames_append,
        left.filterNames, subquery.filterNames, Predicate.filterReferences, List.append_nil]
  | .nullCheck t left true => by
      rw [(Predicate.nullCheck t left true).visits_eq, Predicate.filterReferences]
      exact filterNames_exempt (v := .predicate (.nullCheck t left true)) rfl
  | .nullCheck _ left false => by
      rw [Predicate.visits, filterNames_node rfl rfl, left.filterNames,
        Predicate.filterReferences]
  | .comparison _ left _ right => by
      rw [Predicate.visits, filterNames_node rfl rfl, left.nested.filterNames_append,
        left.filterNames, right.filterNames, Predicate.filterReferences]
  | .binary _ left _ right => by
      rw [Predicate.visits, filterNames_node rfl rfl, left.nested.filterNames_append,
        left.filterNames, right.filterNames, Predicate.filterReferences]

namespace Visit

variable {v : Visit} {vs : List Visit} {f : Filtering}

/-- A node with a `WHERE` clause. Queries are such nodes also without one. -/
def mayFilter : Visit → Bool
  | select _ | update _ | delete _ => true
  | _ => false

theorem filtering?_eq_none (h : v.mayFilter = false) : v.filtering? = none := by
  cases v <;> first | rfl | cases h

theorem reference?_eq_none (h : v.mayFilter = true) : v.reference? = none := by
  cases v <;> first | rfl | cases h

/-- In a condition only queries have conditions of their own. -/
theorem composed_isExempt :
    Composed fun vs => ∀ v ∈ vs, v.mayFilter = true → v.isExempt = true where
  nil := by simp
  append hv hu v h := (List.mem_append.1 h).elim (hv v) (hu v)
  node {v vs} hv h := by
    have hroot (hmay : v.mayFilter = true) : v.isExempt = true := by
      cases v <;> simp_all [isInner, mayFilter, isExempt]
    exact List.forall_mem_cons.2 ⟨hroot, h⟩
  table source vs h := List.forall_mem_cons.2 ⟨nofun, List.forall_mem_cons.2 ⟨nofun, h⟩⟩

/-- The condition of a `WHERE` clause is the last child of its statement. -/
theorem exists_children_eq (h : v.filtering? = some f) :
    ∃ us, v.children = us ++ [.predicate f.condition] := by
  have hfilter {sources : List Source} {filter : Option Predicate}
      (h : filter.map (⟨sources, ·⟩ : Predicate → Filtering) = some f) :
      filter.toList.map predicate = [.predicate f.condition] := by
    obtain ⟨condition, rfl, rfl⟩ := Option.map_eq_some_iff.1 h
    rfl
  cases v <;> simp only [filtering?, reduceCtorEq] at h
  case select s => exact ⟨_, congrArg _ (hfilter h)⟩
  case update s =>
    refine ⟨s.top.toList.map expression ++ reference s.target :: (s.assignments.map column ++
      s.sources.map Source.visit), ?_⟩
    simp only [children, hfilter h, List.append_assoc, List.cons_append]
  case delete s =>
    refine ⟨s.top.toList.map expression ++ reference s.target :: s.sources.map Source.visit, ?_⟩
    simp only [children, hfilter h, List.append_assoc, List.cons_append]

/-- The condition of a `WHERE` clause comes last below its statement. -/
theorem exists_below_eq (h : v.filtering? = some f) :
    ∃ us, Nested us ∧ v.below = us ++ f.condition.visits := by
  obtain ⟨us, hchildren⟩ := exists_children_eq h
  refine ⟨us.flatMap visits, .flatMap fun u _ => u.nested, ?_⟩
  rw [below_eq, hchildren, List.flatMap_append, List.flatMap_singleton]
  rfl

theorem references_le (v : Visit) :
    ((v.filtering?.elim [] Filtering.references : List Reference) : Multiset Reference) ≤
      names (outside mayFilter v.below) := by
  cases h : v.filtering? with
  | none => exact Multiset.zero_le _
  | some f =>
      obtain ⟨us, hus, hbelow⟩ := exists_below_eq h
      have hcut : (outside isExempt f.condition.visits).Sublist
          (outside mayFilter f.condition.visits) :=
        f.condition.nested.outside_sublist ((predicate f.condition).composed composed_isExempt rfl)
      rw [hbelow, hus.outside_append]
      exact Multiset.coe_le.2
        ((hcut.trans (List.sublist_append_right _ _)).filterMap reference?).subperm

def filtered (visits : List Visit) : List Reference :=
  (visits.filterMap filtering?).flatMap Filtering.references

theorem filtered_append (vs us : List Visit) :
    filtered (vs ++ us) = filtered vs ++ filtered us := by
  rw [filtered, List.filterMap_append, List.flatMap_append, filtered, filtered]

theorem filtered_cons (v : Visit) (vs : List Visit) :
    filtered (v :: vs) = (v.filtering?.elim [] Filtering.references) ++ filtered vs := by
  rw [filtered, List.filterMap_cons]
  cases v.filtering? <;> rfl

/-- A name that filters at one node of a walk does so at no other, and those that are outside all
nodes with conditions do so at none. -/
theorem Nested.filtered_add_le (h : Nested vs) :
    (filtered vs : Multiset Reference) + names (outside mayFilter vs) ≤ names vs := by
  induction h with
  | nil => exact le_refl 0
  | @node v vs hbelow _ ihbelow ih =>
      rw [filtered_cons, filtered_append]
      rw [Multiset.le_iff_count] at ihbelow ih ⊢
      intro r
      have hbelows := ihbelow r
      have hvs := ih r
      cases hmay : v.mayFilter with
      | true =>
          have hown := Multiset.le_iff_count.1 (references_le v) r
          rw [outside_stop hmay]
          simp only [names_cons, names_append, reference?_eq_none hmay, ← Multiset.coe_add,
            Multiset.count_add] at hbelows hvs hown ⊢
          omega
      | false =>
          rw [outside_keep hmay, hbelow.outside_append, filtering?_eq_none hmay]
          simp only [names_cons, names_append, Option.elim_none, List.nil_append,
            ← Multiset.coe_add, Multiset.count_add] at hbelows hvs ⊢
          omega

end Visit

end Transact
