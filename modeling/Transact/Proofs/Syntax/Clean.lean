import Transact.Grammar.Select
import Transact.Proofs.Syntax.Formed
import Transact.Proofs.Traversal.Nested

namespace Transact

open Visit (Nested)

/-- Whether the expression begins with a name that ends in a point, with a multiplication sign
behind it. -/
def Expression.isCaptured : Expression → Bool
  | .binary _ left operator _ =>
    (operator = .multiply ∧ (Grammar.starTable? left).isSome) || left.isCaptured
  | _ => false

namespace Visit

def isCaptured : Visit → Bool
  | column (.value _ value _) => value.isCaptured
  | _ => false

def isOpen : Visit → Bool
  | reference name => name.objectName == ""
  | expression (.call _ function _) => function.objectName == ""
  | _ => false

end Visit

def Clean (visits : List Visit) : Prop := ∀ v ∈ visits, v.isCaptured = false

/-- No name among the nodes ends in a point. -/
def Closed (visits : List Visit) : Prop := ∀ v ∈ visits, v.isOpen = false

section

variable {v : Visit} {vs us : List Visit}

@[simp] theorem clean_nil : Clean [] := by simp [Clean]

@[simp] theorem clean_cons : Clean (v :: vs) ↔ v.isCaptured = false ∧ Clean vs := by simp [Clean]

@[simp] theorem clean_append : Clean (vs ++ us) ↔ Clean vs ∧ Clean us := by
  simp [Clean, or_imp, forall_and]

@[simp] theorem closed_cons : Closed (v :: vs) ↔ v.isOpen = false ∧ Closed vs := by simp [Closed]

@[simp] theorem closed_append : Closed (vs ++ us) ↔ Closed vs ∧ Closed us := by
  simp [Closed, or_imp, forall_and]

end

theorem Expression.not_isCaptured_of_closed (e : Expression) (h : Closed e.visits) :
    e.isCaptured = false := by
  induction e using Expression.isCaptured.induct with
  | case1 _ left op _ ih =>
      simp only [visits, closed_cons, closed_append] at h
      rw [isCaptured, ih h.2.1, Bool.or_false, decide_eq_false_iff_not]
      rintro ⟨-, ht⟩
      cases left with
      | reference name =>
          simp only [visits, closed_cons, Visit.isOpen, beq_eq_false_iff_ne] at h
          simp [Grammar.starTable?, h.2.1.2.1] at ht
      | _ => simp [Grammar.starTable?] at ht
  | case2 e hb =>
      cases e with
      | binary t left op right => exact absurd rfl (hb t left op right)
      | _ => rfl

/-- On a walk on which no name ends in a point, no column is captured. -/
theorem Closed.clean {vs : List Visit} (h : Closed vs) (hvs : Nested vs) : Clean vs := by
  intro v hv
  cases v with
  | column c =>
      cases c with
      | value t value aliasName =>
          have hvalue : value.visits ⊆ vs := by
            simpa [Visit.below, Visit.visits, Column.visits] using hvs.below_subset hv
          exact value.not_isCaptured_of_closed fun u hu => h u (hvalue hu)
      | _ => rfl
  | _ => rfl

theorem Statements.clean_of_closed (vs : List Statement) (h : Closed (Statements.visits vs)) :
    Clean (Statements.visits vs) :=
  h.clean (Statements.nested vs)

theorem clean_references (names : List Reference) : Clean (names.map Visit.reference) := by
  intro v hv
  obtain ⟨name, -, rfl⟩ := List.mem_map.1 hv
  rfl

end Transact
