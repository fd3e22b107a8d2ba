import Mathlib.Data.List.MinMax
import Transact.Traversal.Children

namespace Transact.Visit

/-- What holds of a node when it holds of its children holds of all nodes. -/
@[elab_as_elim]
theorem byChildren {motive : Visit → Prop} (step : ∀ v, (∀ u ∈ v.children, motive u) → motive v)
    (v : Visit) : motive v :=
  step v fun u _ => byChildren step u
termination_by v.visits.length
decreasing_by exact length_visits_lt ‹_›

theorem depth_eq (v : Visit) : v.depth = (v.children.map depth).foldr max 0 + 1 := by
  rw [depth, List.attach_map_val]

theorem depth_lt {u v : Visit} (h : u ∈ v.children) : u.depth < v.depth := by
  rw [v.depth_eq]
  exact Nat.lt_succ_of_le (List.le_max_of_le' 0 (List.mem_map_of_mem h) (Nat.le_refl _))

theorem children_depth_le {v : Visit} {n : Nat} (h : v.depth ≤ n + 1) :
    ∀ u ∈ v.children, u.depth ≤ n :=
  fun _ hu => Nat.le_of_lt_succ ((depth_lt hu).trans_le h)

theorem depth_pos (v : Visit) : 0 < v.depth := by
  rw [v.depth_eq]
  exact Nat.succ_pos _

end Transact.Visit
