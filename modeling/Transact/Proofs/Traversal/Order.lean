import Transact.Proofs.Grammar.Leaves

namespace Transact

def shown (statements : List Statement) : List Visit :=
  walk statements (fun v nodes => nodes ++ [v]) []

theorem shown_eq_visits (statements : List Statement) :
    shown statements = Statements.visits statements := by
  have hfold (visits nodes : List Visit) :
      visits.foldl (fun nodes v => nodes ++ [v]) nodes = nodes ++ visits := by
    induction visits generalizing nodes with
    | nil => exact (List.append_nil nodes).symm
    | cons v visits ih => rw [List.foldl_cons, ih, List.append_assoc, List.singleton_append]
  exact hfold (Statements.visits statements) []

/-- Nodes with tokens at growing indexes are different ones. -/
theorem Visit.nodup_of_leaves_increasing {visits : List Visit}
    (h : (leaves visits).Pairwise fun t u => t.place.index < u.place.index) :
    (visits.filter fun v => v.leaf?.isSome).Nodup := by
  rw [leaves, List.pairwise_filterMap] at h
  rw [List.Nodup, List.pairwise_filter]
  apply h.imp
  rintro v u hvu hv - rfl
  obtain ⟨t, ht⟩ := Option.isSome_iff_exists.1 hv
  exact Nat.lt_irrefl _ (hvu t ht t ht)

/-- The names and the literals that a walk over a parsed source shows begin at indexes that grow
from each of them to the next, and no such node is shown twice. -/
theorem parse_shown_increasing {source : String} {vs : List Statement}
    (h : parse source = .ok vs) :
    ((shown vs).filterMap Visit.leaf?).Pairwise (fun t u => t.place.index < u.place.index) ∧
      ((shown vs).filter fun v => v.leaf?.isSome).Nodup := by
  have hindex := (parse_leaves_pairwise h).imp Place.Precedes.index
  rw [shown_eq_visits]
  exact ⟨hindex, Visit.nodup_of_leaves_increasing hindex⟩

/-- The names and literals of an update with subqueries in its `FROM` list and in its condition. -/
theorem parse_shown_increasing_update : ∃ vs,
    parse "update top (1) t set a = null from t cross join (select x = b) u where a not like '%'
      and b between 2 and (select top (3) c from d)" = .ok vs ∧
    ((shown vs).filterMap Visit.leaf?).Pairwise (fun t u => t.place.index < u.place.index) ∧
      ((shown vs).filter fun v => v.leaf?.isSome).Nodup := by
  obtain ⟨vs, hvs⟩ := exists_parse_eq
    (s := "update top (1) t set a = null from t cross join (select x = b) u where a not like '%'
      and b between 2 and (select top (3) c from d)") (by decide +kernel)
  exact ⟨vs, hvs, parse_shown_increasing hvs⟩

end Transact
