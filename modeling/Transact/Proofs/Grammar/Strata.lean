import Transact.Proofs.Grammar.Fixpoint
import Transact.Proofs.Rule.Climb

namespace Transact.Grammar

open Rule

variable {n : Nat}

def additive? : Kind → Option BinaryOperator
  | .mark .plus => some .add
  | .mark .minus => some .subtract
  | .mark .ampersand => some .bitwiseAnd
  | .mark .pipe => some .bitwiseOr
  | .mark .caret => some .bitwiseXor
  | _ => none

def multiplicative? : Kind → Option BinaryOperator
  | .mark .star => some .multiply
  | .mark .slash => some .divide
  | .mark .percent => some .modulo
  | _ => none

def disjunctive? : Kind → Option LogicalOperator
  | .keyword .OR => some .or
  | _ => none

def conjunctive? : Kind → Option LogicalOperator
  | .keyword .AND => some .and
  | _ => none

section

variable (primary : Rule n Expression)

def termFrom (first : Expression) : Rule n Expression :=
  chain multiplicative? Expression.binary primary first

def term : Rule n Expression := do termFrom primary (← primary)

def sumFrom (first : Expression) : Rule n Expression := do
  chain additive? Expression.binary (term primary) (← termFrom primary first)

def sum : Rule n Expression := do
  chain additive? Expression.binary (term primary) (← term primary)

end

section

variable (primary : Rule n Predicate)

def conjunctionFrom (first : Predicate) : Rule n Predicate :=
  chain conjunctive? Predicate.binary primary first

def conjunction : Rule n Predicate := do conjunctionFrom primary (← primary)

def disjunctionFrom (first : Predicate) : Rule n Predicate := do
  chain disjunctive? Predicate.binary (conjunction primary) (← conjunctionFrom primary first)

def disjunction : Rule n Predicate := do
  chain disjunctive? Predicate.binary (conjunction primary) (← conjunction primary)

end

theorem additive?_eq :
    (fun k => (BinaryOperator.ofKind? k).filter fun op => op.tier = 1) = additive? := by
  funext k
  cases k with
  | mark m => cases m <;> rfl
  | _ => rfl

theorem multiplicative?_eq :
    (fun k => (BinaryOperator.ofKind? k).filter fun op => op.tier = 2) = multiplicative? := by
  funext k
  cases k with
  | mark m => cases m <;> rfl
  | _ => rfl

theorem disjunctive?_eq :
    (fun k => (LogicalOperator.ofKind? k).filter fun op => op.tier = 1) = disjunctive? := by
  funext k
  cases k with
  | keyword w => cases w <;> rfl
  | _ => rfl

theorem conjunctive?_eq :
    (fun k => (LogicalOperator.ofKind? k).filter fun op => op.tier = 2) = conjunctive? := by
  funext k
  cases k with
  | keyword w => cases w <;> rfl
  | _ => rfl

/-- Climbing over two tiers is a chain of the looser operators between chains of the tighter
ones. -/
theorem climbing_two {α ω : Type} (operator : Kind → Option ω) {tier : ω → Nat}
    (operand : Rule n α) (join : Token → α → ω → α → α) (h : ∀ op, tier op < 3) (first : α) :
    climbing operator tier operand join 1 first =
      (chain (fun k => (operator k).filter fun op => tier op = 2) join operand first >>=
        chain (fun k => (operator k).filter fun op => tier op = 1) join
          (operand >>=
            chain (fun k => (operator k).filter fun op => tier op = 2) join operand)) := by
  have htop : climbing operator tier operand join 3 = (pure : α → Rule n α) :=
    funext (climbing_top h)
  have htight (v : α) : climbing operator tier operand join 2 v =
      chain (fun k => (operator k).filter fun op => tier op = 2) join operand v := by
    rw [climbing_succ, htop, pure_bind, bind_pure]
  rw [climbing_succ, htight, funext htight]

theorem climbExpression_eq (primary : Rule n Expression) (first : Expression) :
    climbExpression primary first = sumFrom primary first := by
  have htier : ∀ op : BinaryOperator, op.tier < 3 := fun op => by cases op <;> decide
  have h := climbing_two BinaryOperator.ofKind? primary Expression.binary htier first
  rw [additive?_eq, multiplicative?_eq] at h
  exact h

theorem climbPredicate_eq (primary : Rule n Predicate) (first : Predicate) :
    climbPredicate primary first = disjunctionFrom primary first := by
  have htier : ∀ op : LogicalOperator, op.tier < 3 := fun op => by cases op <;> decide
  have h := climbing_two LogicalOperator.ofKind? primary Predicate.binary htier first
  rw [disjunctive?_eq, conjunctive?_eq] at h
  exact h

theorem expression_eq_sum (primary : Rule n Expression) : expression primary = sum primary := by
  simp only [expression, climbExpression_eq, sumFrom, sum, term]
  exact (bind_assoc primary _ _).symm

theorem predicate_eq_disjunction (primary : Rule n Predicate) :
    predicate primary = disjunction primary := by
  simp only [predicate, climbPredicate_eq, disjunctionFrom, disjunction, conjunction]
  exact (bind_assoc primary _ _).symm

/-- Values and predicates are read as the strata of the grammar read them, with the same tree and
rest of the stream or the same error. Climbing from a primary that is already read is the rest of
the stratum, for every rule of primaries; and so is climbing with an inner loop for the operators
that bind tighter than the one at hand. -/
theorem climbing_eq_strata :
    (∀ s : Stream, s.expression = sum s.rules.primary s (Nat.lt_succ_self _)) ∧
    (∀ s : Stream, s.predicate = disjunction s.rules.predicatePrimary s (Nat.lt_succ_self _)) ∧
    (∀ n (primary : Rule n Expression) first,
      climbExpression primary first = sumFrom primary first ∧
      nested BinaryOperator.ofKind? BinaryOperator.tier primary Expression.binary 1 first =
        sumFrom primary first) ∧
    (∀ n (primary : Rule n Predicate) first,
      climbPredicate primary first = disjunctionFrom primary first ∧
      nested LogicalOperator.ofKind? LogicalOperator.tier primary Predicate.binary 1 first =
        disjunctionFrom primary first) := by
  refine ⟨fun s => ?_, fun s => ?_, fun n primary first => ?_, fun n primary first => ?_⟩
  · rw [← expression_eq_sum, Stream.expression, Stream.rules, expression_rules]
  · rw [← predicate_eq_disjunction, Stream.predicate, Stream.rules, predicate_rules]
  · have h := climbExpression_eq primary first
    exact ⟨h, (funext fun s => funext fun hs => nested_eq_climb hs).trans h⟩
  · have h := climbPredicate_eq primary first
    exact ⟨h, (funext fun s => funext fun hs => nested_eq_climb hs).trans h⟩

end Transact.Grammar
