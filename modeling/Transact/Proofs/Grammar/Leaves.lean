import Transact.Proofs.Grammar.Fixpoint
import Transact.Proofs.Grammar.Session
import Transact.Proofs.Rule.Collects
import Transact.Proofs.Sound.Parse
import Transact.Proofs.Token.Order
import Transact.Proofs.Traversal.Leaf

namespace Transact.Grammar

open Rule Visit

variable {n : Nat}

section Names

abbrev Skips {α : Type} (p : Rule n α) : Prop := p.Collects [] fun _ => []

theorem loop_parts_skips (parts : Parts) : Skips (Rule.loop (n := n) Parts.step parts) := by
  apply Collects.loop (f := fun _ => []) Parts.step
  intro parts k q x hq
  simp only [Parts.step] at hq
  split at hq
  · cases hq
    exact .pure (.refl _)
  · cases hq

theorem referenceFrom_collects (origin : Token) (parts : Parts) :
    (referenceFrom (n := n) origin parts).Collects [origin] fun r => [r.origin] :=
  (loop_parts_skips parts).skip fun _ => .ite (.pure (.refl _)) .expected

theorem reference_collects : (reference (n := n)).Collects [] fun r => [r.origin] := by
  intro s
  apply Ensures.current
  have hloop : Ensures (Rule.loop (n := n) Parts.step .start) s
      (fun parts t => parts = .start ∨ ([s.current] ++ t.left).Sublist s.left) True := by
    apply (Ensures.loop (fun (parts : Parts) t => (parts = .start ∧ t = s) ∨
      ([s.current] ++ t.left).Sublist s.left) _ (.inl ⟨rfl, rfl⟩)).imp
    · exact fun _ _ h => h.1.imp_left And.left
    · intro parts t q u ht hq hk ha
      simp only [Parts.step] at hq
      split at hq
      · cases hq
        apply Ensures.pure
        right
        obtain ⟨-, rfl⟩ | ht := ht
        · rw [Stream.left_of_ne hk]
          exact (Stream.left_advance ha).cons_cons _
        · exact (((Stream.left_advance ha).trans t.upcoming_left).append_left _).trans ht
      · cases hq
  apply hloop.bind
  rintro parts t hparts
  split
  · rename_i hnamed
    apply Ensures.pure
    obtain rfl | ht := hparts
    · cases hnamed
    · exact ht
  · exact Ensures.expected trivial

theorem aliasName_skips (allowString : Bool) : Skips (aliasName (n := n) allowString) := by
  apply Collects.eat.skip
  intro explicit
  apply Collects.kind
  intro k
  split
  · exact Collects.advance.skip fun _ => .pure (.refl _)
  · exact .ite (Collects.advance.skip fun _ => .pure (.refl _)) (.ite .expected (.pure (.refl _)))
  · exact .ite .expected (.pure (.refl _))

theorem hint_skips : Skips (hint (n := n)) := by
  apply Collects.current.skip
  intro x
  dsimp only
  split
  · exact Collects.advance.skip fun _ => .pure (.refl _)
  · exact .unexpected

theorem hints_skips (bare : Bool) : Skips (hints (n := n) bare) := by
  apply Collects.eat.skip
  intro introduced
  apply Collects.kind
  intro k
  apply Collects.ite _ (.pure (.refl _))
  apply Collects.expect.skip
  intro _
  apply hint_skips.commaSeparated.next
  intro found
  exact Collects.expect.skip fun _ => .pure (List.nil_sublist _)

end Names

/-- The leaves of the trees that a rule reads are tokens that it takes. -/
abbrev Walks {α : Type} (p : Rule n α) (visits : α → List Visit) : Prop :=
  p.Collects [] fun v => leaves (visits v)

structure Rules.Walk (R : Rules n) : Prop where
  primary : Walks R.primary Expression.visits
  expression : Walks R.expression Expression.visits
  predicatePrimary : Walks R.predicatePrimary Predicate.visits
  predicate : Walks R.predicate Predicate.visits
  parenthesized : Walks R.parenthesized Operand.visits
  select : Walks R.select Select.visits
  statement : Walks R.statement Statement.visits

section Expressions

variable {e : Rule n Expression}

theorem Walks.commaSeparated {α : Type} {p : Rule n α} {visits : α → List Visit}
    {all : List α → List Visit} (h : Walks p visits) (hall : ∀ vs, all vs = vs.flatMap visits) :
    Walks (Rule.commaSeparated p) all := by
  have h := Collects.commaSeparated h
  simpa only [Walks, hall, leaves_flatMap] using h

theorem constant_walks {s : Stream} (h : s.current.kind ≠ .eof) :
    (constant (n := n)).CollectsAt s [] fun e => leaves e.visits := by
  apply (CollectsAt.advance h).bind
  intro x
  split
  · exact .pure (by simp [Expression.visits])
  · exact .fail

theorem arguments_walks (h : Walks e Expression.visits) :
    Walks (arguments e) Expressions.visits := by
  have close (es) : (do let _ ← expect (n := n) (.mark .rightParen); return es).Collects
      (leaves (Expressions.visits es)) fun es => leaves (Expressions.visits es) :=
    Collects.expect.skip fun _ => .pure (.refl _)
  apply Collects.expect.skip
  intro _
  apply Collects.kind
  intro k
  apply Collects.ite
  · rw [pure_bind]
    exact Collects.expect.skip fun _ => .pure (by simp [Expressions.visits])
  · exact (h.commaSeparated Expressions.visits_eq).bind close

theorem climbExpression_walks (h : Walks e Expression.visits) (left : Expression) :
    (climbExpression e left).Collects (leaves left.visits) fun e => leaves e.visits :=
  .climb h (fun _ _ _ _ => by simp [Expression.visits]) 1 left

theorem expression_walks (h : Walks e Expression.visits) :
    Walks (expression e) Expression.visits :=
  h.bind fun left => climbExpression_walks h left

end Expressions

variable {R : Rules n}

section

variable (h : R.Walk)
include h

theorem call_walks (function : Reference) : Walks (call R function) Expression.visits :=
  (arguments_walks h.expression).next fun _ => .pure (by simp [Expression.visits])

theorem named_walks (first : Token) :
    (named R first).Collects [first] fun e => leaves e.visits := by
  apply (referenceFrom_collects first _).bind
  intro name
  apply Collects.kind
  intro k
  exact .ite (call_walks h name).drop (.pure (by simp [Expression.visits]))

theorem builtIn_walks (word : Token) : Walks (builtIn R word) Expression.visits :=
  .kind fun _ => .ite (call_walks h _) .expected

theorem group_walks (paren : Token) : Walks (group R paren) Expression.visits := by
  apply Collects.kind
  intro k
  apply Collects.ite
  · apply h.select.next
    intro select
    exact Collects.expect.skip fun _ => .pure (by simp [Expression.visits])
  · apply h.expression.next
    intro inner
    exact Collects.expect.skip fun _ => .pure (by simp [Expression.visits])

theorem primary_walks : Walks (primary R) Expression.visits := by
  apply Collects.onKind
  intro s
  split
  · apply Collects.take
    intro sign
    exact h.primary.drop.bind fun _ => .pure (by simp [Expression.visits])
  · split
    · rename_i hk
      exact constant_walks (by simp [hk])
    · rename_i hk
      apply (CollectsAt.advance (by simp [hk])).bind
      intro x
      exact .pure (by simp [Expression.visits])
    · exact Collects.take (named_walks h) s
    · exact Collects.take (named_walks h) s
    · exact Collects.take (fun x => (builtIn_walks h x).drop) s
    · exact Collects.take (fun x => (builtIn_walks h x).drop) s
    · exact Collects.take (fun x => (builtIn_walks h x).drop) s
    · exact Collects.take (fun x => (builtIn_walks h x).drop) s
    · exact Collects.take (fun x => (group_walks h x).drop) s
    · exact CollectsAt.unexpected

theorem top_walks (parenthesized : Bool) :
    Walks (top R parenthesized) OptionalExpression.visits := by
  apply Collects.eat.skip
  intro found
  apply Collects.ite _ (.pure (by simp [OptionalExpression.visits]))
  apply Collects.ite
  · exact .kind fun k => .ite
      (h.primary.bind fun _ => .pure (by simp [OptionalExpression.visits])) .expected
  · exact h.expression.bind fun _ => .pure (by simp [OptionalExpression.visits])

theorem filter_walks : Walks (filter R) OptionalPredicate.visits := by
  apply Collects.eat.skip
  intro found
  exact .ite (h.predicate.bind fun _ => .pure (by simp [OptionalPredicate.visits]))
    (.pure (by simp [OptionalPredicate.visits]))

theorem aliased_walks (origin : Token) (first : Expression) :
    (aliased R origin first).Collects (leaves first.visits) fun c => leaves c.visits := by
  apply (climbExpression_walks h.primary first).bind
  intro value
  exact (aliasName_skips true).skip fun _ => .pure (by simp [Column.visits])

/-- An alias in front of a value is read as a name or a literal and is no node of the column. -/
theorem column_walks : Walks (column R) Column.visits := by
  apply Collects.current.skip
  intro origin
  apply Collects.eat.skip
  intro found
  apply Collects.ite (.pure (by simp [Column.visits]))
  apply h.primary.bind
  intro first
  apply Collects.kind
  intro k
  split
  · exact Collects.advance.skip fun _ => .pure (by simp [Column.visits])
  · apply Collects.advance.skip
    intro _
    exact h.expression.drop.bind fun _ => .pure (by simp [Column.visits])
  · exact aliased_walks h origin first

theorem condition_walks (join : Join) : Walks (condition R join) OptionalPredicate.visits := by
  apply Collects.ite _ (.pure (by simp [OptionalPredicate.visits]))
  apply Collects.expect.skip
  intro _
  exact h.predicate.bind fun _ => .pure (by simp [OptionalPredicate.visits])

theorem source_walks (join : Join) : Walks (source R join) Source.visits := by
  apply Collects.current.skip
  intro origin
  apply Collects.eat.skip
  intro opened
  apply Collects.ite
  · apply h.select.bind
    intro select
    apply Collects.expect.skip
    intro _
    apply (aliasName_skips false).skip
    intro name
    exact (condition_walks h join).next fun _ =>
      .pure (by simp [Source.visits, SubquerySource.visits])
  · apply reference_collects.bind
    intro table
    apply (aliasName_skips false).skip
    intro name
    apply (hints_skips true).skip
    intro found
    exact (condition_walks h join).next fun _ =>
      .pure (by simp [Source.visits, TableSource.visits])

end

theorem eatApply_skips : Skips (eatApply (n := n)) := by
  apply Collects.current.skip
  intro x
  exact .ite (Collects.advance.skip fun _ => .pure (.refl _)) (.pure (.refl _))

theorem outerJoin_skips (join : Join) : Skips (outerJoin (n := n) join) :=
  Collects.eat.skip fun _ => Collects.expect.skip fun _ => .pure (.refl _)

theorem joinFrom_skips {k : Kind} {joined : Rule n Join} (h : joinFrom? k = some joined) :
    Skips joined := by
  simp only [joinFrom?] at h
  split at h <;> cases h
  · exact .pure (.refl _)
  · exact Collects.expect.skip fun _ => .pure (.refl _)
  · exact outerJoin_skips _
  · exact outerJoin_skips _
  · exact outerJoin_skips _
  · apply Collects.eat.skip
    intro joined
    exact .ite (.pure (.refl _)) (eatApply_skips.skip fun _ => .ite (.pure (.refl _)) .expected)
  · exact eatApply_skips.skip fun _ => .ite (.pure (.refl _)) .expected

section

variable (h : R.Walk)
include h

theorem sources_walks : Walks (sources R) Sources.visits := by
  apply Collects.eat.skip
  intro found
  apply Collects.ite _ (.pure (by simp [Sources.visits]))
  apply (source_walks h .first).bind
  intro first
  have hloop := Collects.loop (n := n) (f := fun ss => leaves (Sources.visits ss))
    (fun entries k => (joinFrom? k).map fun joined _ => do
      return entries ++ [← source R (← joined)]) ?_ [first]
  · simpa [Sources.visits] using hloop
  · intro entries k q x hq
    obtain ⟨joined, hj, rfl⟩ := Option.map_eq_some_iff.1 hq
    apply (joinFrom_skips hj).skip
    intro join
    exact (source_walks h join).next fun _ => .pure (by simp [Sources.visits_eq])

theorem selectFrom_walks (origin : Token) : Walks (selectFrom R origin) Select.visits := by
  apply (top_walks h true).bind
  intro top
  apply ((column_walks h).commaSeparated Columns.visits_eq).next
  intro columns
  apply (sources_walks h).next
  intro sources
  exact (filter_walks h).next fun _ => .pure (by simp [Select.visits])

theorem select_walks : Walks (select R) Select.visits :=
  .begin fun origin => (selectFrom_walks h origin).drop

end

section Comparisons

variable {e : Rule n Expression} {q : Rule n Select}
variable (he : Walks e Expression.visits) (hq : Walks q Select.visits) (left : Expression)

include hq in
theorem subquery_walks : Walks (subquery q) Select.visits := by
  apply Collects.expect.skip
  intro _
  apply hq.bind
  intro select
  exact Collects.expect.skip fun _ => .pure (.refl _)

theorem nullCheck_walks : (nullCheck (n := n) left).Collects (leaves left.visits)
    fun p => leaves p.visits := by
  apply Collects.expect.skip
  intro origin
  apply Collects.eat.skip
  intro negated
  exact Collects.expect.skip fun _ => .pure (by simp [Predicate.visits])

include he

theorem between_walks (negated : Bool) : (between e left negated).Collects (leaves left.visits)
    fun p => leaves p.visits := by
  apply Collects.expect.skip
  intro origin
  apply he.next
  intro low
  apply Collects.expect.skip
  intro _
  exact he.next fun _ => .pure (by simp [Predicate.visits])

include hq

theorem membership_walks (negated : Bool) : (membership e q left negated).Collects
    (leaves left.visits) fun p => leaves p.visits := by
  apply Collects.expect.skip
  intro origin
  apply Collects.expect.skip
  intro _
  apply Collects.kind
  intro k
  apply Collects.ite
  · apply hq.next
    intro select
    exact Collects.expect.skip fun _ => .pure (by simp [Predicate.visits])
  · apply (he.commaSeparated Expressions.visits_eq).next
    intro list
    exact Collects.expect.skip fun _ => .pure (by simp [Predicate.visits])

theorem negated_walks : (negated e q left).Collects (leaves left.visits)
    fun p => leaves p.visits := by
  apply Collects.expect.skip
  intro origin
  apply Collects.kind
  intro k
  split
  · exact between_walks he left true
  · exact membership_walks he hq left true
  · apply Collects.advance.skip
    intro like
    exact he.next fun _ => .pure (by simp [Predicate.visits])
  · exact .expected

theorem compared_walks (operator : ComparisonOperator) : (compared e q left operator).Collects
    (leaves left.visits) fun p => leaves p.visits := by
  apply Collects.advance.skip
  intro origin
  apply Collects.kind
  intro k
  split
  · apply Collects.advance.skip
    intro _
    exact (subquery_walks hq).next fun _ => .pure (by simp [Predicate.visits])
  · exact he.next fun _ => .pure (by simp [Predicate.visits])

theorem comparison_walks : (comparison e q left).Collects (leaves left.visits)
    fun p => leaves p.visits := by
  apply Collects.kind
  intro k
  split
  · exact nullCheck_walks left
  · exact negated_walks he hq left
  · exact between_walks he left false
  · exact membership_walks he hq left false
  · split
    · exact compared_walks he hq left _
    · exact .unexpected

end Comparisons

theorem climbPredicate_walks {p : Rule n Predicate} (h : Walks p Predicate.visits)
    (left : Predicate) :
    (climbPredicate p left).Collects (leaves left.visits) fun p => leaves p.visits :=
  .climb h (fun _ _ _ _ => by simp [Predicate.visits]) 1 left

theorem predicate_walks {p : Rule n Predicate} (h : Walks p Predicate.visits) :
    Walks (predicate p) Predicate.visits :=
  h.bind fun left => climbPredicate_walks h left

section

variable (h : R.Walk)
include h

theorem operandRest_walks (first : Operand) :
    (operandRest R first).Collects (leaves first.visits) fun o => leaves o.visits := by
  cases first with
  | predicate first =>
      exact (climbPredicate_walks h.predicatePrimary first).bind fun _ => .pure (.refl _)
  | value first =>
      apply (climbExpression_walks h.primary first).bind
      intro value
      apply Collects.kind
      intro k
      apply Collects.ite _ (.pure (.refl _))
      apply (comparison_walks h.expression h.select value).bind
      intro compared
      exact (climbPredicate_walks h.predicatePrimary compared).bind fun _ => .pure (.refl _)

omit h in
theorem Operand.leaves_grouped (paren : Token) (o : Operand) :
    leaves (o.grouped paren).visits = leaves o.visits := by
  cases o <;> simp [Operand.grouped, Operand.visits, Expression.visits, Predicate.visits]

omit h in
theorem value_walks {p : Rule n Expression} (hp : Walks p Expression.visits) :
    Walks (Operand.value <$> p) Operand.visits :=
  Collects.map hp fun _ => .refl _

theorem parenthesizedFrom_walks (paren : Token) :
    Walks (parenthesizedFrom R paren) Operand.visits := by
  have rest (first : Operand) : (do
      let inner ← operandRest R first
      let _ ← expect (.mark .rightParen)
      return inner.grouped paren).Collects (leaves first.visits) fun o => leaves o.visits := by
    apply (operandRest_walks h first).bind
    intro inner
    exact Collects.expect.skip fun _ => .pure (by simp [Operand.leaves_grouped])
  have closed : Walks (do
      let inner ← R.predicate
      let _ ← expect (.mark .rightParen)
      return Operand.predicate (.grouped paren inner)) Operand.visits := by
    apply h.predicate.bind
    intro inner
    exact Collects.expect.skip fun _ => .pure (by simp [Operand.visits, Predicate.visits])
  apply Collects.kind
  intro k
  split
  · apply h.select.bind
    intro select
    exact Collects.expect.skip fun _ => .pure (by simp [Operand.visits, Expression.visits])
  · exact closed
  · exact closed
  · apply Collects.ite
    · exact h.parenthesized.bind rest
    · exact (value_walks h.primary).bind rest

theorem parenthesized_walks : Walks (parenthesized R) Operand.visits :=
  .begin fun paren => (parenthesizedFrom_walks h paren).drop

theorem operandFirst_walks : Walks (operandFirst R) Predicate.visits := by
  have hprimary := primary_walks h
  have value (first : Expression) : (do
      comparison (expression (primary R)) (select R) (← climbExpression (primary R) first)).Collects
        (leaves first.visits) fun p => leaves p.visits := by
    apply (climbExpression_walks hprimary first).bind
    intro left
    exact comparison_walks (expression_walks hprimary) (select_walks h) left
  apply Collects.kind
  intro k
  refine .ite ((parenthesized_walks h).bind ?_) ((value_walks hprimary).bind ?_)
  all_goals
    intro first
    cases first with
    | predicate found => exact .pure (.refl _)
    | value first => exact value first

theorem predicatePrimary_walks : Walks (predicatePrimary R) Predicate.visits := by
  apply Collects.kind
  intro k
  split
  · apply Collects.take
    intro word
    exact h.predicatePrimary.drop.bind fun _ => .pure (by simp [Predicate.visits])
  · apply Collects.take
    intro word
    exact (subquery_walks h.select).drop.bind fun _ => .pure (by simp [Predicate.visits])
  · exact operandFirst_walks h

omit h in
theorem insertColumns_walks :
    Walks (insertColumns (n := n)) fun columns => columns.map Visit.reference := by
  apply Collects.eat.skip
  intro opened
  apply Collects.ite _ (.pure (by simp))
  apply (reference_collects.commaSeparated).bind
  intro columns
  exact Collects.expect.skip fun _ => .pure (by simp [leaves_names])

theorem row_walks : Walks (row R) Row.visits := by
  apply Collects.expect.skip
  intro origin
  apply (h.expression.commaSeparated Expressions.visits_eq).bind
  intro values
  exact Collects.expect.skip fun _ => .pure (by simp [Row.visits])

theorem insert_walks (origin : Token) : Walks (insert R origin) Statement.visits := by
  apply (top_walks h true).bind
  intro top
  apply Collects.eat.skip
  intro _
  apply reference_collects.next
  intro target
  apply (hints_skips false).skip
  intro hints
  apply insertColumns_walks.next
  intro columns
  apply Collects.kind
  intro k
  split
  · apply Collects.advance.skip
    intro _
    exact ((row_walks h).commaSeparated fun _ => rfl).next fun _ =>
      .pure (by simp [Statement.visits, InsertValues.visits])
  · exact h.select.next fun _ => .pure (by simp [Statement.visits, InsertSelect.visits])
  · exact .expected

theorem assignment_walks : Walks (assignment R) Column.visits := by
  apply Collects.current.skip
  intro origin
  apply reference_collects.bind
  intro target
  apply Collects.expect.skip
  intro _
  exact h.expression.next fun _ => .pure (by simp [Column.visits])

theorem update_walks (origin : Token) : Walks (update R origin) Statement.visits := by
  apply (top_walks h false).bind
  intro top
  apply reference_collects.next
  intro target
  apply Collects.expect.skip
  intro _
  apply ((assignment_walks h).commaSeparated Columns.visits_eq).next
  intro assignments
  apply (sources_walks h).next
  intro sources
  exact (filter_walks h).next fun _ => .pure (by simp [Statement.visits, Update.visits])

theorem delete_walks (origin : Token) : Walks (delete R origin) Statement.visits := by
  apply (top_walks h true).bind
  intro top
  apply Collects.eat.skip
  intro _
  apply reference_collects.next
  intro target
  apply (sources_walks h).next
  intro sources
  exact (filter_walks h).next fun _ => .pure (by simp [Statement.visits, Delete.visits])

theorem conditional_walks (origin : Token) : Walks (conditional R origin) Statement.visits := by
  apply h.predicate.bind
  intro test
  apply h.statement.next
  intro thenBranch
  apply Collects.eat.skip
  intro found
  apply Collects.ite
  · exact h.statement.next fun _ =>
      .pure (by simp [Statement.visits, If.visits, OptionalStatement.visits])
  · exact .pure (by simp [Statement.visits, If.visits, OptionalStatement.visits])

theorem repeated_walks (origin : Token) : Walks (repeated R origin) Statement.visits := by
  apply h.predicate.bind
  intro test
  exact h.statement.next fun _ => .pure (by simp [Statement.visits, While.visits])

omit h in
theorem leaves_withTerminator (s : Statement) (terminated : Bool) :
    leaves (s.withTerminator terminated).visits = leaves s.visits := by
  cases s with
  | select s =>
      cases s
      simp [Statement.withTerminator, Statement.visits, Select.visits]
  | _ => simp [Statement.withTerminator, Statement.visits, InsertValues.visits,
      InsertSelect.visits, Update.visits, Delete.visits]

omit h in
theorem terminated_walks {body : Rule n Statement} (hb : Walks body Statement.visits) :
    Walks (terminated body) Statement.visits := by
  apply Collects.bind hb
  intro statement
  exact Collects.eat.skip fun _ => .pure (by simp [leaves_withTerminator])

theorem block_walks (origin : Token) : Walks (block R origin) Statement.visits := by
  have hbody : Walks (Rule.many (fun k => k = .keyword .END || k = .eof) R.statement R.shrinks [])
      Statements.visits := by
    simpa only [Walks, Statements.visits_eq, leaves_flatMap] using h.statement.many
  apply hbody.bind
  intro body
  exact Collects.expect.skip fun _ => .pure (by simp [Statement.visits, Block.visits])

theorem statement_walks : Walks (statement R) Statement.visits := by
  have begun {f : Token → Rule n Statement} (hf : ∀ x, Walks (f x) Statement.visits) :
      Walks (Rule.take f) Statement.visits := .take fun x => (hf x).drop
  intro s hs
  simp only [statement]
  split
  · exact begun (fun x => terminated_walks (.map (selectFrom_walks h x) fun _ =>
      by simp [Statement.visits])) s hs
  · exact begun (fun x => terminated_walks (insert_walks h x)) s hs
  · exact begun (fun x => terminated_walks (update_walks h x)) s hs
  · exact begun (fun x => terminated_walks (delete_walks h x)) s hs
  · exact begun (conditional_walks h) s hs
  · exact begun (repeated_walks h) s hs
  · exact begun (block_walks h) s hs
  · exact begun (fun x => .pure (by simp [Statement.visits])) s hs
  · exact Collects.unexpected s hs

end

theorem rules_walk (n : Nat) : (rules n).Walk := by
  induction n with
  | zero =>
      have none {α : Type} (p : Rule 0 α) (visits : α → List Visit) : Walks p visits :=
        fun _ hs => absurd hs (Nat.not_lt_zero _)
      exact ⟨none _ _, none _ _, none _ _, none _ _, none _ _, none _ _, none _ _⟩
  | succ n ih =>
      have primary : Walks (rules (n + 1)).primary Expression.visits := by
        rw [primary_rules_succ]
        exact primary_walks ih
      have predicatePrimary : Walks (rules (n + 1)).predicatePrimary Predicate.visits := by
        rw [predicatePrimary_rules_succ]
        exact predicatePrimary_walks ih
      constructor
      · exact primary
      · rw [expression_rules]
        exact expression_walks primary
      · exact predicatePrimary
      · rw [predicate_rules]
        exact predicate_walks predicatePrimary
      · rw [parenthesized_rules_succ]
        exact parenthesized_walks ih
      · rw [select_rules_succ]
        exact select_walks ih
      · rw [statement_rules_succ]
        exact statement_walks ih

end Transact.Grammar

namespace Transact

open Visit

theorem Session.walks {s : Stream} {vs : List Statement} (h : (started s).statements = .ok vs) :
    (leaves (Statements.visits vs)).Sublist s.left := by
  induction s using Stream.bySize generalizing vs with
  | step s ih =>
    by_cases hk : s.current.kind = .eof
    · rw [statements_started_eof hk] at h
      cases h
      simp [Statements.visits]
    · have hfirst := (Grammar.rules_walk (s.size + 1)).statement s (Nat.lt_succ_self _)
      change Outcome.Meets _ _ s.statement at hfirst
      cases ho : s.statement with
      | error e rest =>
          rw [statements_started_error hk ho] at h
          cases h
      | ok v rest le =>
          rw [statements_started_ok hk ho] at h
          rw [ho] at hfirst
          cases hws : (started rest).statements with
          | error e =>
              rw [hws] at h
              cases h
          | ok ws =>
              rw [hws] at h
              cases h
              rw [Statements.visits, leaves_append]
              have hrest := ih rest (Stream.size_statement_lt ho) hws
              exact (hrest.append_left _).trans hfirst

theorem parse_leaves {source : String} {vs : List Statement} (h : parse source = .ok vs) :
    ∃ ts, lex source = .ok ts ∧ (leaves (Statements.visits vs)).Sublist ts := by
  obtain ⟨ts, hts, -⟩ := parse_sound h
  refine ⟨ts, hts, ?_⟩
  rw [parse_eq_parseTokens hts, parseTokens] at h
  cases ha : (Stream.ofTokens ts none).advance with
  | error e =>
      rw [Stream.statements_eq_error ha] at h
      cases h
  | ok s =>
      rw [Stream.statements_eq_started ha] at h
      have hs := (Session.walks h).trans (Stream.left_advance ha)
      exact hs.trans List.filter_sublist

/-- A walk over a parsed source meets names and literals in the order in which they stand. -/
theorem parse_leaves_pairwise {source : String} {vs : List Statement}
    (h : parse source = .ok vs) :
    (leaves (Statements.visits vs)).Pairwise fun t u => t.place.Precedes u.place := by
  obtain ⟨ts, hts, hsub⟩ := parse_leaves h
  exact (lex_pairwise hts).sublist hsub

end Transact
