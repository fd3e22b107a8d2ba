import Transact.Proofs.Rule.Restrict

namespace Transact.Grammar

open Rule

variable {m n : Nat}

namespace Rules

def restrict (h : m ≤ n) (R : Rules n) : Rules m :=
  { primary := Rule.restrict h R.primary
    expression := Rule.restrict h R.expression
    predicatePrimary := Rule.restrict h R.predicatePrimary
    predicate := Rule.restrict h R.predicate
    parenthesized := Rule.restrict h R.parenthesized
    select := Rule.restrict h R.select
    statement := Rule.restrict h R.statement
    shrinks := R.shrinks.restrict h }

end Rules

section

variable (h : m ≤ n) (R : Rules n)

@[simp] theorem restrict_referenceFrom (origin : Token) (parts : Parts) :
    Rule.restrict h (referenceFrom origin parts) = referenceFrom origin parts := by
  have hstep : (fun (p : Parts) (k : Kind) =>
      (Parts.step p k : Option (Token → Rule n Parts)).map fun f t => Rule.restrict h (f t)) =
      Parts.step := by
    funext p k
    simp only [Parts.step]
    split <;> rfl
  change (Rule.restrict h (loop Parts.step parts) >>= fun parts => Rule.restrict h
    (if parts.isNamed then pure (Reference.mk origin parts.all)
      else expected (.kind .identifier))) = _
  simp only [restrict_loop, hstep, restrict_ite]
  rfl

@[simp] theorem restrict_reference : Rule.restrict h reference = reference := by simp [reference]

@[simp] theorem restrict_aliasName (allowString : Bool) :
    Rule.restrict h (aliasName allowString) = aliasName allowString := by
  simp only [aliasName, restrict_bind, restrict_eat, restrict_kind]
  refine bind_congr fun explicit => ?_
  refine bind_congr fun k => ?_
  split
  · rfl
  · simp
  · simp

@[simp] theorem restrict_hint : Rule.restrict h hint = hint := by
  simp only [hint, restrict_bind, restrict_current]
  refine bind_congr fun token => ?_
  split <;> rfl

@[simp] theorem restrict_hints (bare : Bool) : Rule.restrict h (hints bare) = hints bare := by
  simp [hints]

@[simp] theorem restrict_constant : Rule.restrict h constant = constant := by
  simp only [constant, restrict_bind, restrict_advance]
  refine bind_congr fun token => ?_
  split <;> rfl

@[simp] theorem restrict_arguments (expression : Rule n Expression) :
    Rule.restrict h (arguments expression) = arguments (Rule.restrict h expression) := by
  simp [arguments]

@[simp] theorem restrict_call (function : Reference) :
    Rule.restrict h (call R function) = call (R.restrict h) function := by
  simp [call, Rules.restrict]

@[simp] theorem restrict_named (first : Token) :
    Rule.restrict h (named R first) = named (R.restrict h) first := by
  simp [named]

@[simp] theorem restrict_builtIn (word : Token) :
    Rule.restrict h (builtIn R word) = builtIn (R.restrict h) word := by
  simp [builtIn]

@[simp] theorem restrict_group (paren : Token) :
    Rule.restrict h (group R paren) = group (R.restrict h) paren := by
  simp [group, Rules.restrict]

@[simp] theorem restrict_primary (h' : m + 1 ≤ n + 1) :
    Rule.restrict h' (primary R) = primary (R.restrict (Nat.le_of_succ_le_succ h')) := by
  simp only [primary, restrict_bind, restrict_kind]
  refine bind_congr fun k => ?_
  split
  · simp [Rules.restrict]
  · split <;> simp

@[simp] theorem restrict_climbExpression (operand : Rule n Expression) (left : Expression) :
    Rule.restrict h (climbExpression operand left) =
      climbExpression (Rule.restrict h operand) left :=
  restrict_climb h _ _ _ _ _ _

@[simp] theorem restrict_expression (operand : Rule n Expression) :
    Rule.restrict h (expression operand) = expression (Rule.restrict h operand) := by
  simp [expression]

@[simp] theorem restrict_top (parenthesized : Bool) :
    Rule.restrict h (top R parenthesized) = top (R.restrict h) parenthesized := by
  cases parenthesized <;> simp [top, Rules.restrict]

@[simp] theorem restrict_filter : Rule.restrict h (filter R) = filter (R.restrict h) := by
  simp [filter, Rules.restrict]

@[simp] theorem restrict_aliased (origin : Token) (first : Expression) :
    Rule.restrict h (aliased R origin first) = aliased (R.restrict h) origin first := by
  simp [aliased, Rules.restrict]

@[simp] theorem restrict_column : Rule.restrict h (column R) = column (R.restrict h) := by
  simp only [column, restrict_bind, restrict_current, restrict_eat, restrict_ite, restrict_pure]
  refine bind_congr fun origin => ?_
  refine bind_congr fun star => ?_
  congr 1
  simp only [restrict_kind]
  refine bind_congr fun first => ?_
  refine bind_congr fun k => ?_
  split <;> simp [Rules.restrict]

@[simp] theorem restrict_condition (join : Join) :
    Rule.restrict h (condition R join) = condition (R.restrict h) join := by
  simp [condition, Rules.restrict]

@[simp] theorem restrict_source (join : Join) :
    Rule.restrict h (source R join) = source (R.restrict h) join := by
  simp [source, Rules.restrict]

@[simp] theorem restrict_eatApply : Rule.restrict h eatApply = eatApply := by simp [eatApply]

@[simp] theorem restrict_outerJoin (join : Join) :
    Rule.restrict h (outerJoin join) = outerJoin join := by simp [outerJoin]

@[simp] theorem restrict_crossed : Rule.restrict h crossed = crossed := by simp [crossed]

@[simp] theorem restrict_outerApply : Rule.restrict h outerApply = outerApply := by
  simp [outerApply]

@[simp] theorem map_restrict_joinFrom? (k : Kind) :
    (joinFrom? k).map (Rule.restrict h) = joinFrom? k := by
  unfold joinFrom?
  split <;> simp

@[simp] theorem restrict_sources : Rule.restrict h (sources R) = sources (R.restrict h) := by
  have hstep : (fun (entries : List Source) (k : Kind) =>
      ((joinFrom? k).map fun joined (_ : Token) =>
        (do return entries ++ [← source R (← joined)] : Rule n (List Source))).map
          fun f t => Rule.restrict h (f t)) =
      fun entries k => (joinFrom? k).map fun joined _ =>
        do return entries ++ [← source (R.restrict h) (← joined)] := by
    funext entries k
    rw [← map_restrict_joinFrom? h k, Option.map_map, Option.map_map]
    congr 1
    funext joined t
    simp
  simp only [sources, restrict_bind, restrict_eat]
  refine bind_congr fun found => ?_
  split
  · change (Rule.restrict h (source R .first) >>= fun first => Rule.restrict h (loop _ [first])) = _
    simp only [restrict_source, restrict_loop, hstep]
  · rfl

@[simp] theorem restrict_selectFrom (origin : Token) :
    Rule.restrict h (selectFrom R origin) = selectFrom (R.restrict h) origin := by
  simp [selectFrom]

@[simp] theorem restrict_select (h' : m + 1 ≤ n + 1) :
    Rule.restrict h' (select R) = select (R.restrict (Nat.le_of_succ_le_succ h')) := by
  simp [select]

@[simp] theorem restrict_subquery (select : Rule n Select) :
    Rule.restrict h (subquery select) = subquery (Rule.restrict h select) := by simp [subquery]

variable (operand : Rule n Expression) (select : Rule n Select) (left : Expression)

@[simp] theorem restrict_between (negated : Bool) :
    Rule.restrict h (between operand left negated) =
      between (Rule.restrict h operand) left negated := by simp [between]

@[simp] theorem restrict_membership (negated : Bool) :
    Rule.restrict h (membership operand select left negated) =
      membership (Rule.restrict h operand) (Rule.restrict h select) left negated := by
  simp [membership]

@[simp] theorem restrict_nullCheck : Rule.restrict h (nullCheck left) = nullCheck left := by
  simp [nullCheck]

@[simp] theorem restrict_negated :
    Rule.restrict h (negated operand select left) =
      negated (Rule.restrict h operand) (Rule.restrict h select) left := by
  simp only [negated, restrict_bind, restrict_expect, restrict_kind]
  refine bind_congr fun origin => ?_
  refine bind_congr fun k => ?_
  split <;> simp

@[simp] theorem restrict_compared (operator : ComparisonOperator) :
    Rule.restrict h (compared operand select left operator) =
      compared (Rule.restrict h operand) (Rule.restrict h select) left operator := by
  simp only [compared, restrict_bind, restrict_advance, restrict_kind]
  refine bind_congr fun origin => ?_
  refine bind_congr fun k => ?_
  split <;> simp

@[simp] theorem restrict_comparison :
    Rule.restrict h (comparison operand select left) =
      comparison (Rule.restrict h operand) (Rule.restrict h select) left := by
  simp only [comparison, restrict_bind, restrict_kind]
  refine bind_congr fun k => ?_
  split
  all_goals try simp
  split <;> simp

@[simp] theorem restrict_climbPredicate (operand : Rule n Predicate) (left : Predicate) :
    Rule.restrict h (climbPredicate operand left) =
      climbPredicate (Rule.restrict h operand) left :=
  restrict_climb h _ _ _ _ _ _

@[simp] theorem restrict_predicate (operand : Rule n Predicate) :
    Rule.restrict h (predicate operand) = predicate (Rule.restrict h operand) := by
  simp [predicate]

@[simp] theorem restrict_operandRest (first : Operand) :
    Rule.restrict h (operandRest R first) = operandRest (R.restrict h) first := by
  cases first <;> simp [operandRest, Rules.restrict]

@[simp] theorem restrict_parenthesizedFrom (paren : Token) :
    Rule.restrict h (parenthesizedFrom R paren) = parenthesizedFrom (R.restrict h) paren := by
  simp only [parenthesizedFrom, restrict_bind, restrict_kind]
  refine bind_congr fun k => ?_
  split <;> simp [Rules.restrict]

@[simp] theorem restrict_parenthesized (h' : m + 1 ≤ n + 1) :
    Rule.restrict h' (parenthesized R) =
      parenthesized (R.restrict (Nat.le_of_succ_le_succ h')) := by
  simp [parenthesized]

@[simp] theorem restrict_operandFirst (h' : m + 1 ≤ n + 1) :
    Rule.restrict h' (operandFirst R) =
      operandFirst (R.restrict (Nat.le_of_succ_le_succ h')) := by
  simp only [operandFirst, restrict_bind, restrict_kind, restrict_ite, restrict_parenthesized,
    restrict_map, restrict_primary]
  refine bind_congr fun k => ?_
  split
  all_goals
    refine bind_congr (m := Rule (m + 1)) fun first => ?_
    cases first <;> simp

@[simp] theorem restrict_predicatePrimary (h' : m + 1 ≤ n + 1) :
    Rule.restrict h' (predicatePrimary R) =
      predicatePrimary (R.restrict (Nat.le_of_succ_le_succ h')) := by
  simp only [predicatePrimary, restrict_bind, restrict_kind]
  refine bind_congr fun k => ?_
  split <;> simp [Rules.restrict]

@[simp] theorem restrict_insertColumns : Rule.restrict h insertColumns = insertColumns := by
  simp [insertColumns]

@[simp] theorem restrict_row : Rule.restrict h (row R) = row (R.restrict h) := by
  simp [row, Rules.restrict]

@[simp] theorem restrict_insert (origin : Token) :
    Rule.restrict h (insert R origin) = insert (R.restrict h) origin := by
  simp only [insert, restrict_bind, restrict_top, restrict_eat, restrict_reference,
    restrict_hints, restrict_insertColumns, restrict_kind]
  refine bind_congr fun top => ?_
  refine bind_congr fun introduced => ?_
  refine bind_congr fun target => ?_
  refine bind_congr fun hints => ?_
  refine bind_congr fun columns => ?_
  refine bind_congr fun k => ?_
  split <;> simp [Rules.restrict]

@[simp] theorem restrict_assignment :
    Rule.restrict h (assignment R) = assignment (R.restrict h) := by
  simp [assignment, Rules.restrict]

@[simp] theorem restrict_update (origin : Token) :
    Rule.restrict h (update R origin) = update (R.restrict h) origin := by
  simp [update]

@[simp] theorem restrict_delete (origin : Token) :
    Rule.restrict h (delete R origin) = delete (R.restrict h) origin := by
  simp [delete]

@[simp] theorem restrict_conditional (origin : Token) :
    Rule.restrict h (conditional R origin) = conditional (R.restrict h) origin := by
  simp [conditional, Rules.restrict]

@[simp] theorem restrict_repeated (origin : Token) :
    Rule.restrict h (repeated R origin) = repeated (R.restrict h) origin := by
  simp [repeated, Rules.restrict]

@[simp] theorem restrict_terminated (body : Rule n Statement) :
    Rule.restrict h (terminated body) = terminated (Rule.restrict h body) := by
  simp [terminated]

@[simp] theorem restrict_block (origin : Token) :
    Rule.restrict h (block R origin) = block (R.restrict h) origin := by
  change (Rule.restrict h (many _ R.statement R.shrinks []) >>= fun body => Rule.restrict h do
    let _ ← expect (.keyword .END)
    return Statement.block ⟨origin, body⟩) = _
  simp only [restrict_many, restrict_bind, restrict_expect, restrict_pure]
  rfl

theorem restrict_statement (h' : m + 1 ≤ n + 1) :
    Rule.restrict h' (statement R) = statement (R.restrict (Nat.le_of_succ_le_succ h')) := by
  have at_stream {p : Rule (n + 1) Statement} {q : Rule (m + 1) Statement}
      (hpq : Rule.restrict h' p = q) (s : Stream) (hs : s.size < m + 1) :
      p s (Nat.lt_of_lt_of_le hs h') = q s hs := congrFun (congrFun hpq s) hs
  funext s hs
  simp only [Rule.restrict, statement]
  split <;> exact at_stream (by simp) s hs

end

/-- The rules for streams of fewer than `n` tokens treat shorter streams as the rules for these. -/
theorem restrict_rules (h : m ≤ n) : (rules n).restrict h = rules m := by
  rw [rules, rules]
  rfl

/-- A rule that is built from the rules for streams shorter than the one at hand is built from
those for all streams shorter than `n + 1` tokens. -/
theorem eq_built {α : Type} {b : ∀ k, Rules k → Rule (k + 1) α}
    (h : ∀ {m n : Nat} (h : m + 1 ≤ n + 1) (R : Rules n),
      Rule.restrict h (b n R) = b m (R.restrict (Nat.le_of_succ_le_succ h))) :
    (fun s (_ : s.size < n + 1) => b s.size (rules s.size) s (Nat.lt_succ_self _)) =
      b n (rules n) := by
  funext s hs
  have hr := h hs (rules n)
  rw [restrict_rules] at hr
  exact (congrFun (congrFun hr s) (Nat.lt_succ_self _)).symm

theorem primary_rules_succ : (rules (n + 1)).primary = primary (rules n) := by
  rw [rules]
  exact eq_built fun h R => restrict_primary R h

theorem parenthesized_rules_succ : (rules (n + 1)).parenthesized = parenthesized (rules n) := by
  rw [rules]
  exact eq_built fun h R => restrict_parenthesized R h

theorem select_rules_succ : (rules (n + 1)).select = select (rules n) := by
  rw [rules]
  exact eq_built fun h R => restrict_select R h

theorem predicatePrimary_rules_succ :
    (rules (n + 1)).predicatePrimary = predicatePrimary (rules n) := by
  rw [rules]
  exact eq_built fun h R => restrict_predicatePrimary R h

theorem statement_rules_succ : (rules (n + 1)).statement = statement (rules n) := by
  rw [rules]
  exact eq_built fun h R => restrict_statement R h

theorem rule_zero_eq {α : Type} (p q : Rule 0 α) : p = q :=
  funext fun _ => funext fun hs => absurd hs (Nat.not_lt_zero _)

theorem expression_rules : (rules n).expression = expression (rules n).primary := by
  cases n with
  | zero => exact rule_zero_eq _ _
  | succ n =>
      rw [primary_rules_succ, rules]
      exact eq_built (b := fun _ R => expression (primary R)) fun h R => by simp

theorem predicate_rules : (rules n).predicate = predicate (rules n).predicatePrimary := by
  cases n with
  | zero => exact rule_zero_eq _ _
  | succ n =>
      rw [predicatePrimary_rules_succ, rules]
      exact eq_built (b := fun _ R => predicate (predicatePrimary R)) fun h R => by simp

end Transact.Grammar
