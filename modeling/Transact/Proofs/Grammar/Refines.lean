import Transact.Grammar.Parse
import Transact.Proofs.Rule.Refines

namespace Transact.Grammar

open Rule

variable {n : Nat}

structure Rules.Refines (R R' : Rules n) : Prop where
  primary : R.primary.Refines R'.primary
  expression : R.expression.Refines R'.expression
  predicatePrimary : R.predicatePrimary.Refines R'.predicatePrimary
  predicate : R.predicate.Refines R'.predicate
  select : R.select.Refines R'.select
  statement : R.statement.Refines R'.statement

section Expressions

variable {e e' : Rule n Expression}

theorem arguments_refines (h : e.Refines e') : (arguments e).Refines (arguments e') :=
  .next fun _ => .next fun _ => .ite (.refl _) (.first (.commaSeparated h))

theorem climbExpression_refines (h : e.Refines e') (left : Expression) :
    (climbExpression e left).Refines (climbExpression e' left) :=
  .climb rfl h 1 left

theorem expression_refines (h : e.Refines e') : (expression e).Refines (expression e') :=
  .bind h fun left => climbExpression_refines h left

end Expressions

variable {R R' : Rules n}

section

variable (h : R.Refines R')
include h

theorem call_refines (function : Reference) : (call R function).Refines (call R' function) :=
  .first (arguments_refines h.expression)

theorem named_refines (first : Token) : (named R first).Refines (named R' first) :=
  .next fun name => .next fun _ => .ite (call_refines h name) (.refl _)

theorem builtIn_refines (word : Token) : (builtIn R word).Refines (builtIn R' word) :=
  .next fun _ => .ite (call_refines h _) (.refl _)

theorem group_refines (paren : Token) : (group R paren).Refines (group R' paren) :=
  .next fun _ => .ite (.first h.select) (.first h.expression)

theorem primary_refines : (primary R).Refines (primary R') := by
  refine .next fun k => ?_
  split
  · exact .take fun sign => .first h.primary
  · split
    · exact .refl _
    · exact .refl _
    · exact .take (named_refines h)
    · exact .take (named_refines h)
    · exact .take (builtIn_refines h)
    · exact .take (builtIn_refines h)
    · exact .take (builtIn_refines h)
    · exact .take (builtIn_refines h)
    · exact .take (group_refines h)
    · exact .refl _

theorem top_refines (parenthesized : Bool) :
    (top R parenthesized).Refines (top R' parenthesized) :=
  .next fun _ => .ite
    (.ite (.next fun _ => .ite (.first h.primary) (.refl _)) (.first h.expression)) (.refl _)

theorem filter_refines : (filter R).Refines (filter R') :=
  .next fun _ => .ite (.first h.predicate) (.refl _)

theorem aliased_refines (origin : Token) (first : Expression) :
    (aliased R origin first).Refines (aliased R' origin first) :=
  .first (climbExpression_refines h.primary first)

theorem column_refines : (column R).Refines (column R') := by
  refine .next fun origin => .next fun _ => .ite (.refl _) (.bind h.primary fun first => ?_)
  refine .next fun k => ?_
  split
  · exact .refl _
  · exact .next fun _ => .first h.expression
  · exact aliased_refines h origin first

theorem condition_refines (join : Join) : (condition R join).Refines (condition R' join) :=
  .ite (.next fun _ => .first h.predicate) (.refl _)

theorem source_refines (join : Join) : (source R join).Refines (source R' join) :=
  .next fun _ => .next fun _ => .ite
    (.bind h.select fun _ => .next fun _ => .next fun _ => .first (condition_refines h join))
    (.next fun _ => .next fun _ => .next fun _ => .first (condition_refines h join))

theorem sources_refines : (sources R).Refines (sources R') := by
  refine .next fun _ => .ite (.bind (source_refines h .first) fun first => ?_) (.refl _)
  refine .loop ?_ ?_ [first]
  · intro entries k f hf
    obtain ⟨joined, hj, rfl⟩ := Option.map_eq_some_iff.1 hf
    exact ⟨_, by rw [hj]; rfl, fun _ => .next fun join => .first (source_refines h join)⟩
  · intro entries k hk
    rw [Option.map_eq_none_iff.1 hk]
    rfl

theorem selectFrom_refines (origin : Token) :
    (selectFrom R origin).Refines (selectFrom R' origin) :=
  .bind (top_refines h true) fun _ => .bind (.commaSeparated (column_refines h)) fun _ =>
    .bind (sources_refines h) fun _ => .first (filter_refines h)

theorem select_refines : (select R).Refines (select R') := .begin (selectFrom_refines h)

end

section Comparisons

variable {e e' : Rule n Expression} {q q' : Rule n Select}

theorem subquery_refines (hq : q.Refines q') : (subquery q).Refines (subquery q') :=
  .next fun _ => .first hq

theorem between_refines (he : e.Refines e') (left : Expression) (negated : Bool) :
    (between e left negated).Refines (between e' left negated) :=
  .next fun _ => .bind he fun _ => .next fun _ => .first he

theorem membership_refines (he : e.Refines e') (hq : q.Refines q') (left : Expression)
    (negated : Bool) : (membership e q left negated).Refines (membership e' q' left negated) :=
  .next fun _ => .next fun _ => .next fun _ => .ite (.first hq) (.first (.commaSeparated he))

theorem negated_refines (he : e.Refines e') (hq : q.Refines q') (left : Expression) :
    (negated e q left).Refines (negated e' q' left) := by
  refine .next fun origin => .next fun k => ?_
  split
  · exact between_refines he left true
  · exact membership_refines he hq left true
  · exact .next fun _ => .first he
  · exact .refl _

theorem compared_refines (he : e.Refines e') (hq : q.Refines q') (left : Expression)
    (operator : ComparisonOperator) :
    (compared e q left operator).Refines (compared e' q' left operator) := by
  refine .next fun origin => .next fun k => ?_
  split
  · exact .next fun _ => .first (subquery_refines hq)
  · exact .first he

theorem comparison_refines (he : e.Refines e') (hq : q.Refines q') (left : Expression) :
    (comparison e q left).Refines (comparison e' q' left) := by
  refine .next fun k => ?_
  split
  · exact .refl _
  · exact negated_refines he hq left
  · exact between_refines he left false
  · exact membership_refines he hq left false
  · split
    · exact compared_refines he hq left _
    · exact .refl _

theorem climbPredicate_refines {p p' : Rule n Predicate} (h : p.Refines p') (left : Predicate) :
    (climbPredicate p left).Refines (climbPredicate p' left) :=
  .climb rfl h 1 left

theorem predicate_refines {p p' : Rule n Predicate} (h : p.Refines p') :
    (predicate p).Refines (predicate p') :=
  .bind h fun left => climbPredicate_refines h left

end Comparisons

section

variable (h : R.Refines R')
include h

theorem row_refines : (row R).Refines (row R') :=
  .next fun _ => .first (.commaSeparated h.expression)

theorem insert_refines (origin : Token) : (insert R origin).Refines (insert R' origin) := by
  refine .bind (top_refines h true) fun top => .next fun _ => .next fun target => ?_
  refine .next fun hints => .next fun columns => .next fun k => ?_
  split
  · exact .next fun _ => .first (.commaSeparated (row_refines h))
  · exact .first h.select
  · exact .refl _

theorem assignment_refines : (assignment R).Refines (assignment R') :=
  .next fun _ => .next fun _ => .next fun _ => .first h.expression

theorem update_refines (origin : Token) : (update R origin).Refines (update R' origin) :=
  .bind (top_refines h false) fun _ => .next fun _ => .next fun _ =>
    .bind (.commaSeparated (assignment_refines h)) fun _ => .bind (sources_refines h) fun _ =>
      .first (filter_refines h)

theorem delete_refines (origin : Token) : (delete R origin).Refines (delete R' origin) :=
  .bind (top_refines h true) fun _ => .next fun _ => .next fun _ =>
    .bind (sources_refines h) fun _ => .first (filter_refines h)

theorem conditional_refines (origin : Token) :
    (conditional R origin).Refines (conditional R' origin) :=
  .bind h.predicate fun _ => .bind h.statement fun _ => .next fun _ =>
    .ite (.first h.statement) (.refl _)

theorem repeated_refines (origin : Token) : (repeated R origin).Refines (repeated R' origin) :=
  .bind h.predicate fun _ => .first h.statement

theorem block_refines (origin : Token) : (block R origin).Refines (block R' origin) :=
  .first (.many h.statement [])

theorem statement_refines : (statement R).Refines (statement R') := by
  have terminated_refines {p q : Rule n Statement} (hpq : p.Refines q) :
      (terminated p).Refines (terminated q) := .first hpq
  intro s v t hv
  obtain ⟨hs, le, hv⟩ := hv
  have at_stream {p q : Rule (n + 1) Statement} (hpq : p.Refines q) (hp : p s hs = .ok v t le) :
      ∃ le, q s hs = .ok v t le := by
    obtain ⟨_, le, hq⟩ := hpq s v t ⟨hs, le, hp⟩
    exact ⟨le, hq⟩
  refine ⟨hs, ?_⟩
  simp only [statement] at hv ⊢
  split at hv
  · exact at_stream (.take fun t => terminated_refines (.map (selectFrom_refines h t))) hv
  · exact at_stream (.take fun t => terminated_refines (insert_refines h t)) hv
  · exact at_stream (.take fun t => terminated_refines (update_refines h t)) hv
  · exact at_stream (.take fun t => terminated_refines (delete_refines h t)) hv
  · exact at_stream (.take (conditional_refines h)) hv
  · exact at_stream (.take (repeated_refines h)) hv
  · exact at_stream (.take (block_refines h)) hv
  · exact ⟨le, hv⟩
  · exact ⟨le, hv⟩

end

end Transact.Grammar
