import Transact.Proofs.Grammar.Fixpoint
import Transact.Proofs.Rule.Built

namespace Transact.Grammar

open Rule

variable {n : Nat}

instance built_referenceFrom {origin : Token} {parts : Parts} :
    Built (referenceFrom (n := n) origin parts) := by
  refine .bind (.loop (fun p => by simp [Parts.step]) (fun p k f t hf => ?_) parts)
    fun parts => inferInstance
  simp only [Parts.step] at hf
  split at hf
  · cases hf
    infer_instance
  · cases hf

instance built_reference : Built (reference (n := n)) := by
  unfold reference
  infer_instance

instance built_aliasName {allowString : Bool} : Built (aliasName (n := n) allowString) := by
  refine .bind inferInstance fun explicit => .onKind fun k => ?_
  split <;> infer_instance

instance built_hint : Built (hint (n := n)) := by
  refine .bind inferInstance fun token => ?_
  dsimp only
  split <;> infer_instance

instance built_hints {bare : Bool} : Built (hints (n := n) bare) := by
  unfold hints
  infer_instance

class Rules.Built (R : Rules n) : Prop where
  primary : R.primary.Built
  expression : R.expression.Built
  predicatePrimary : R.predicatePrimary.Built
  predicate : R.predicate.Built
  parenthesized : R.parenthesized.Built
  select : R.select.Built
  statement : R.statement.Built

attribute [instance] Rules.Built.primary Rules.Built.expression Rules.Built.predicatePrimary
  Rules.Built.predicate Rules.Built.parenthesized Rules.Built.select Rules.Built.statement

section

variable {expression : Rule n Expression} {select : Rule n Select} {left : Expression}

instance built_arguments [Built expression] : Built (arguments expression) := by
  unfold arguments
  infer_instance

instance built_climbExpression [Built expression] : Built (climbExpression expression left) :=
  .climb rfl inferInstance

instance built_expression [Built expression] : Built (Grammar.expression expression) := by
  unfold Grammar.expression
  infer_instance

instance built_subquery [Built select] : Built (subquery select) := by
  unfold subquery
  infer_instance

instance built_nullCheck : Built (nullCheck (n := n) left) := by
  unfold nullCheck
  infer_instance

instance built_between [Built expression] {negated : Bool} :
    Built (between expression left negated) := by
  unfold between
  infer_instance

instance built_membership [Built expression] [Built select] {negated : Bool} :
    Built (membership expression select left negated) := by
  unfold membership
  infer_instance

instance built_negated [Built expression] [Built select] :
    Built (negated expression select left) := by
  refine .bind inferInstance fun origin => .onKind fun k => ?_
  split <;> infer_instance

instance built_compared [Built expression] [Built select] {operator : ComparisonOperator} :
    Built (compared expression select left operator) := by
  refine .bind inferInstance fun origin => .onKind fun k => ?_
  split <;> infer_instance

instance built_comparison [Built expression] [Built select] :
    Built (comparison expression select left) := by
  refine .onKind fun k => ?_
  split
  all_goals try infer_instance
  split <;> infer_instance

instance built_climbPredicate {primary : Rule n Predicate} {left : Predicate} [Built primary] :
    Built (climbPredicate primary left) := .climb rfl inferInstance

instance built_predicate {primary : Rule n Predicate} [Built primary] :
    Built (predicate primary) := by
  unfold predicate
  infer_instance

end

section

variable {R : Rules n} [R.Built]

instance built_call {function : Reference} : Built (call R function) := by
  unfold call
  infer_instance

instance built_named {first : Token} : Built (named R first) := by
  unfold named
  infer_instance

instance built_builtIn {word : Token} : Built (builtIn R word) := by
  unfold builtIn
  infer_instance

instance built_group {paren : Token} : Built (group R paren) := by
  unfold group
  infer_instance

instance built_primary : Built (primary R) := by
  refine .onKindAgree fun k => ?_
  split
  · exact ⟨_, inferInstance, fun _ _ _ => rfl⟩
  · split
    · rename_i type _
      refine ⟨literal, inferInstance, fun s hs hk => ?_⟩
      rw [literal, kind_bind_eq, hk]
    all_goals exact ⟨_, inferInstance, fun _ _ _ => rfl⟩

instance built_top {parenthesized : Bool} : Built (top R parenthesized) := by
  unfold top
  infer_instance

instance built_filter : Built (filter R) := by
  unfold filter
  infer_instance

instance built_aliased {origin : Token} {first : Expression} :
    Built (aliased R origin first) := by
  unfold aliased
  infer_instance

instance built_column : Built (column R) := by
  refine .bind inferInstance fun origin => .bind inferInstance fun star => ?_
  split
  · infer_instance
  · refine .bind inferInstance fun first => .onKind fun k => ?_
    split <;> infer_instance

instance built_condition {join : Join} : Built (condition R join) := by
  unfold condition
  infer_instance

instance built_source {join : Join} : Built (source R join) := by
  unfold source
  infer_instance

instance built_eatApply : Built (eatApply (n := n)) := by
  unfold eatApply
  infer_instance

instance built_outerJoin {join : Join} : Built (outerJoin (n := n) join) := by
  unfold outerJoin
  infer_instance

instance built_crossed : Built (crossed (n := n)) := by
  unfold crossed
  infer_instance

instance built_outerApply : Built (outerApply (n := n)) := by
  unfold outerApply
  infer_instance

theorem built_of_joinFrom? {k : Kind} {joined : Rule n Join} (h : joinFrom? k = some joined) :
    Built joined := by
  unfold joinFrom? at h
  split at h <;> cases h <;> infer_instance

instance built_sources : Built (sources R) := by
  refine .bind inferInstance fun found => ?_
  split
  · refine .bind inferInstance fun first =>
      .loop (fun _ => rfl) (fun entries k f t hf => ?_) [first]
    obtain ⟨joined, hj, rfl⟩ := Option.map_eq_some_iff.1 hf
    have hjoined := built_of_joinFrom? hj
    infer_instance
  · infer_instance

instance built_selectFrom {origin : Token} : Built (selectFrom R origin) := by
  unfold selectFrom
  infer_instance

instance built_select : Built (select R) := by
  unfold select
  infer_instance

instance built_operandRest {first : Operand} : Built (operandRest R first) := by
  cases first <;> (unfold operandRest; infer_instance)

instance built_parenthesizedFrom {paren : Token} : Built (parenthesizedFrom R paren) := by
  refine .onKind fun k => ?_
  split <;> infer_instance

instance built_parenthesized : Built (parenthesized R) := by
  unfold parenthesized
  infer_instance

instance built_operandFirst : Built (operandFirst R) := by
  have hrest (first : Operand) : Built (match first with
      | .predicate found => return found
      | .value first => do
        comparison (expression (primary R)) (select R) (← climbExpression (primary R) first)) := by
    cases first <;> infer_instance
  unfold operandFirst
  infer_instance

instance built_predicatePrimary : Built (predicatePrimary R) := by
  refine .onKind fun k => ?_
  split <;> infer_instance

instance built_insertColumns : Built (insertColumns (n := n)) := by
  unfold insertColumns
  infer_instance

instance built_row : Built (row R) := by
  unfold row
  infer_instance

instance built_insert {origin : Token} : Built (insert R origin) := by
  refine .bind inferInstance fun top => .bind inferInstance fun introduced =>
    .bind inferInstance fun target => .bind inferInstance fun hints =>
      .bind inferInstance fun columns => .onKind fun k => ?_
  split <;> infer_instance

instance built_assignment : Built (assignment R) := by
  unfold assignment
  infer_instance

instance built_update {origin : Token} : Built (update R origin) := by
  unfold update
  infer_instance

instance built_delete {origin : Token} : Built (delete R origin) := by
  unfold delete
  infer_instance

instance built_conditional {origin : Token} : Built (conditional R origin) := by
  unfold conditional
  infer_instance

instance built_repeated {origin : Token} : Built (repeated R origin) := by
  unfold repeated
  infer_instance

instance built_terminated {body : Rule n Statement} [Built body] : Built (terminated body) := by
  unfold terminated
  infer_instance

instance built_block {origin : Token} : Built (block R origin) :=
  .bind .many fun _ => inferInstance

def statementOf (R : Rules n) : Kind → Rule (n + 1) Statement
  | .keyword .SELECT => take fun t => terminated (Statement.select <$> selectFrom R t)
  | .keyword .INSERT => take fun t => terminated (insert R t)
  | .keyword .UPDATE => take fun t => terminated (update R t)
  | .keyword .DELETE => take fun t => terminated (delete R t)
  | .keyword .IF => take (conditional R)
  | .keyword .WHILE => take (repeated R)
  | .keyword .BEGIN => take (block R)
  | .mark .semicolon => take fun t => return .empty ⟨t, true⟩
  | _ => unexpected

omit [R.Built] in
theorem statement_eq : statement R = (kind >>= statementOf R) := by
  funext s hs
  rw [kind_bind_eq, statement]
  generalize s.current.kind = k
  split
  case h_9 => rw [statementOf] <;> assumption
  all_goals rfl

instance built_statement : Built (statement R) := by
  rw [statement_eq]
  refine .onKind fun k => ?_
  unfold statementOf
  split <;> infer_instance

end

instance built_rules : (rules n).Built := by
  induction n with
  | zero =>
      have none {α : Type} (p : Rule 0 α) : Built p := rule_zero_eq Rule.unexpected p ▸ .unexpected
      exact ⟨none _, none _, none _, none _, none _, none _, none _⟩
  | succ n ih =>
      have hprimary : Built (rules (n + 1)).primary := by
        rw [primary_rules_succ]
        infer_instance
      have hpredicatePrimary : Built (rules (n + 1)).predicatePrimary := by
        rw [predicatePrimary_rules_succ]
        infer_instance
      constructor
      · exact hprimary
      · rw [expression_rules]
        infer_instance
      · exact hpredicatePrimary
      · rw [predicate_rules]
        infer_instance
      · rw [parenthesized_rules_succ]
        infer_instance
      · rw [select_rules_succ]
        infer_instance
      · rw [statement_rules_succ]
        infer_instance

end Transact.Grammar
