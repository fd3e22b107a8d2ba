import Transact.Grammar.Expression
import Transact.Traversal.Children

namespace Transact

theorem Expression.visits_eq (e : Expression) : e.visits = .expression e :: e.visits.tail := by
  cases e <;> rw [Expression.visits] <;> rfl

theorem Predicate.visits_eq (p : Predicate) : p.visits = .predicate p :: p.visits.tail := by
  cases p <;> rw [Predicate.visits] <;> rfl

theorem Select.visits_eq (s : Select) : s.visits = .select s :: s.visits.tail := by
  cases s
  rw [Select.visits]
  rfl

def Grammar.Operand.visits : Operand → List Visit
  | .value e => e.visits
  | .predicate p => p.visits

namespace Visit

@[simp] def leaf? : Visit → Option Token
  | reference name => some name.origin
  | expression (.constant origin _) => some origin
  | expression (.null origin) => some origin
  | _ => none

def leaves (visits : List Visit) : List Token := visits.filterMap leaf?

variable {v : Visit} {vs us : List Visit}

@[simp] theorem leaves_nil : leaves [] = [] := rfl

@[simp] theorem leaves_append : leaves (vs ++ us) = leaves vs ++ leaves us :=
  List.filterMap_append

@[simp] theorem leaves_cons : leaves (v :: vs) = v.leaf?.toList ++ leaves vs := by
  rw [leaves, List.filterMap_cons]
  cases v.leaf? <;> rfl

theorem leaves_flatMap {α : Type} (f : α → List Visit) (xs : List α) :
    leaves (xs.flatMap f) = xs.flatMap fun x => leaves (f x) := by
  induction xs with
  | nil => rfl
  | cons x xs ih => rw [List.flatMap_cons, leaves_append, ih, List.flatMap_cons]

theorem leaves_names (names : List Reference) :
    leaves (names.map .reference) = names.flatMap fun name => [name.origin] := by
  rw [List.map_eq_flatMap, leaves_flatMap]
  rfl

end Visit

end Transact
