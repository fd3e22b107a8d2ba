import Transact.Traversal.Visit

namespace Transact

theorem Expressions.visits_eq (es : List Expression) :
    Expressions.visits es = es.flatMap Expression.visits := by
  induction es with
  | nil => rw [Expressions.visits, List.flatMap_nil]
  | cons e es ih => rw [Expressions.visits, ih, List.flatMap_cons]

theorem OptionalExpression.visits_eq (e : Option Expression) :
    OptionalExpression.visits e = e.toList.flatMap Expression.visits := by
  cases e <;> simp [OptionalExpression.visits]

theorem OptionalPredicate.visits_eq (p : Option Predicate) :
    OptionalPredicate.visits p = p.toList.flatMap Predicate.visits := by
  cases p <;> simp [OptionalPredicate.visits]

theorem OptionalStatement.visits_eq (s : Option Statement) :
    OptionalStatement.visits s = s.toList.flatMap Statement.visits := by
  cases s <;> simp [OptionalStatement.visits]

theorem Columns.visits_eq (cs : List Column) : Columns.visits cs = cs.flatMap Column.visits := by
  induction cs with
  | nil => rw [Columns.visits, List.flatMap_nil]
  | cons c cs ih => rw [Columns.visits, ih, List.flatMap_cons]

theorem Sources.visits_eq (ss : List Source) : Sources.visits ss = ss.flatMap Source.visits := by
  induction ss with
  | nil => rw [Sources.visits, List.flatMap_nil]
  | cons s ss ih => rw [Sources.visits, ih, List.flatMap_cons]

theorem Statements.visits_eq (ss : List Statement) :
    Statements.visits ss = ss.flatMap Statement.visits := by
  induction ss with
  | nil => rw [Statements.visits, List.flatMap_nil]
  | cons s ss ih => rw [Statements.visits, ih, List.flatMap_cons]

def Source.visit : Source → Visit
  | .table source => .tableSource source
  | .subquery source => .subquerySource source

def Expression.children : Expression → List Visit
  | .unary _ _ operand => [.expression operand]
  | .grouped _ inner => [.expression inner]
  | .null _ | .constant _ _ => []
  | .subquery _ select => [.select select]
  | .reference name => [.reference name]
  | .call _ _ arguments => arguments.map .expression
  | .binary _ left _ right => [.expression left, .expression right]

def Predicate.children : Predicate → List Visit
  | .not _ inner | .grouped _ inner => [.predicate inner]
  | .existence _ subquery => [.select subquery]
  | .inSubquery _ left _ subquery | .quantified _ left _ _ subquery =>
    [.expression left, .select subquery]
  | .inList _ left _ list => .expression left :: list.map .expression
  | .between _ left _ low high => [.expression left, .expression low, .expression high]
  | .nullCheck _ left _ => [.expression left]
  | .comparison _ left _ right => [.expression left, .expression right]
  | .binary _ left _ right => [.predicate left, .predicate right]

def Column.children : Column → List Visit
  | .star _ _ => []
  | .value _ expression _ => [.expression expression]
  | .assignment _ target expression => [.reference target, .expression expression]

namespace Visit

/-- The nodes right below a node, in the order of a walk. -/
def children : Visit → List Visit
  | select s =>
    s.top.toList.map expression ++ s.columns.map column ++ s.sources.map Source.visit ++
      s.filter.toList.map predicate
  | insertValues s =>
    s.top.toList.map expression ++ reference s.target :: (s.columns.map reference ++ s.rows.map row)
  | insertSelect s =>
    s.top.toList.map expression ++ reference s.target ::
      (s.columns.map reference ++ [select s.select])
  | update s =>
    s.top.toList.map expression ++ reference s.target ::
      (s.assignments.map column ++ s.sources.map Source.visit ++ s.filter.toList.map predicate)
  | delete s =>
    s.top.toList.map expression ++ reference s.target ::
      (s.sources.map Source.visit ++ s.filter.toList.map predicate)
  | conditional s =>
    [predicate s.test, s.thenBranch.visit] ++ s.elseBranch.toList.map Statement.visit
  | loop s => [predicate s.test, s.body.visit]
  | block s => s.body.map Statement.visit
  | expression e => e.children
  | predicate p => p.children
  | column c => c.children
  | tableSource s => reference s.name :: s.condition.toList.map predicate
  | subquerySource s => select s.subquery :: s.condition.toList.map predicate
  | row r => r.values.map expression
  | empty _ | reference _ => []

def visits : Visit → List Visit
  | select s => s.visits
  | insertValues s => s.visits
  | insertSelect s => s.visits
  | update s => s.visits
  | delete s => s.visits
  | conditional s => s.visits
  | loop s => s.visits
  | block s => s.visits
  | expression e => e.visits
  | predicate p => p.visits
  | column c => c.visits
  | tableSource s => s.visits
  | subquerySource s => s.visits
  | row r => r.visits
  | empty s => [empty s]
  | reference name => [reference name]

theorem visits_visit_source (s : Source) : s.visit.visits = s.visits := by
  cases s <;> simp [Source.visit, visits, Source.visits]

theorem visits_visit_statement (s : Statement) : s.visit.visits = s.visits := by
  cases s <;> simp [Statement.visit, visits, Statement.visits]

theorem visits_eq (v : Visit) : v.visits = v :: v.children.flatMap visits := by
  cases v with
  | expression e =>
    cases e <;> simp [visits, Expression.visits, children, Expression.children,
      Expressions.visits_eq, List.flatMap_map]
  | predicate p =>
    cases p <;> simp [visits, Predicate.visits, children, Predicate.children,
      Expressions.visits_eq, List.flatMap_map]
  | column c => cases c <;> simp [visits, Column.visits, children, Column.children]
  | row r => simp [visits, Row.visits, children, Expressions.visits_eq, List.flatMap_map]
  | reference name => simp [visits, children]
  | empty s => simp [visits, children]
  | _ s =>
    cases s
    simp only [children, List.flatMap_append, List.flatMap_cons, List.flatMap_nil, List.flatMap_map,
      visits_visit_source, visits_visit_statement]
    simp [visits, Select.visits, InsertValues.visits, InsertSelect.visits, Update.visits,
      Delete.visits, If.visits, While.visits, Block.visits, TableSource.visits,
      SubquerySource.visits, OptionalExpression.visits_eq, Columns.visits_eq, Sources.visits_eq,
      OptionalPredicate.visits_eq, OptionalStatement.visits_eq, Statements.visits_eq,
      List.map_eq_flatMap]

theorem length_visits_lt {u v : Visit} (h : u ∈ v.children) :
    u.visits.length < v.visits.length := by
  obtain ⟨front, back, hsplit⟩ := List.append_of_mem h
  rw [v.visits_eq, hsplit, List.flatMap_append, List.flatMap_cons]
  simp only [List.length_cons, List.length_append]
  omega

def depth (v : Visit) : Nat := (v.children.attach.map fun u => u.1.depth).foldr max 0 + 1
termination_by v.visits.length
decreasing_by exact length_visits_lt u.2

end Visit

end Transact
