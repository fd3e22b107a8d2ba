import Transact.Syntax.Basic

namespace Transact

inductive Visit where
  | select (node : Select)
  | insertValues (node : InsertValues)
  | insertSelect (node : InsertSelect)
  | update (node : Update)
  | delete (node : Delete)
  | conditional (node : If)
  | loop (node : While)
  | block (node : Block)
  | empty (node : Empty)
  | expression (node : Expression)
  | predicate (node : Predicate)
  | column (node : Column)
  | tableSource (node : TableSource)
  | subquerySource (node : SubquerySource)
  | row (node : Row)
  | reference (node : Reference)

mutual

def Expression.visits : Expression → List Visit
  | .unary t operator operand => .expression (.unary t operator operand) :: operand.visits
  | .grouped t inner => .expression (.grouped t inner) :: inner.visits
  | .null t => [.expression (.null t)]
  | .constant t value => [.expression (.constant t value)]
  | .subquery t select => .expression (.subquery t select) :: select.visits
  | .reference name => [.expression (.reference name), .reference name]
  | .call t function arguments =>
    .expression (.call t function arguments) :: Expressions.visits arguments
  | .binary t left operator right =>
    .expression (.binary t left operator right) :: (left.visits ++ right.visits)

def Expressions.visits : List Expression → List Visit
  | [] => []
  | e :: es => e.visits ++ Expressions.visits es

def OptionalExpression.visits : Option Expression → List Visit
  | some e => e.visits
  | none => []

def Predicate.visits : Predicate → List Visit
  | .not t inner => .predicate (.not t inner) :: inner.visits
  | .existence t subquery => .predicate (.existence t subquery) :: subquery.visits
  | .inSubquery t left negated subquery =>
    .predicate (.inSubquery t left negated subquery) :: (left.visits ++ subquery.visits)
  | .inList t left negated list =>
    .predicate (.inList t left negated list) :: (left.visits ++ Expressions.visits list)
  | .between t left negated low high =>
    .predicate (.between t left negated low high) :: (left.visits ++ low.visits ++ high.visits)
  | .grouped t inner => .predicate (.grouped t inner) :: inner.visits
  | .quantified t left operator quantifier subquery =>
    .predicate (.quantified t left operator quantifier subquery) ::
      (left.visits ++ subquery.visits)
  | .nullCheck t left isNull => .predicate (.nullCheck t left isNull) :: left.visits
  | .comparison t left operator right =>
    .predicate (.comparison t left operator right) :: (left.visits ++ right.visits)
  | .binary t left operator right =>
    .predicate (.binary t left operator right) :: (left.visits ++ right.visits)

def OptionalPredicate.visits : Option Predicate → List Visit
  | some p => p.visits
  | none => []

def Select.visits : Select → List Visit
  | ⟨t, top, columns, sources, filter, terminated⟩ =>
    .select ⟨t, top, columns, sources, filter, terminated⟩ ::
      (OptionalExpression.visits top ++ Columns.visits columns ++ Sources.visits sources ++
        OptionalPredicate.visits filter)

def Column.visits : Column → List Visit
  | .star t table => [.column (.star t table)]
  | .value t expression aliasName => .column (.value t expression aliasName) :: expression.visits
  | .assignment t target expression =>
    .column (.assignment t target expression) :: .reference target :: expression.visits

def Columns.visits : List Column → List Visit
  | [] => []
  | c :: cs => c.visits ++ Columns.visits cs

def Source.visits : Source → List Visit
  | .table source => source.visits
  | .subquery source => source.visits

def Sources.visits : List Source → List Visit
  | [] => []
  | s :: ss => s.visits ++ Sources.visits ss

def TableSource.visits : TableSource → List Visit
  | ⟨t, name, aliasName, join, hints, condition⟩ =>
    .tableSource ⟨t, name, aliasName, join, hints, condition⟩ :: .reference name ::
      OptionalPredicate.visits condition

def SubquerySource.visits : SubquerySource → List Visit
  | ⟨t, subquery, aliasName, join, condition⟩ =>
    .subquerySource ⟨t, subquery, aliasName, join, condition⟩ ::
      (subquery.visits ++ OptionalPredicate.visits condition)

end

def Row.visits (r : Row) : List Visit := .row r :: Expressions.visits r.values

def InsertValues.visits (s : InsertValues) : List Visit :=
  .insertValues s :: (OptionalExpression.visits s.top ++ .reference s.target ::
    (s.columns.map Visit.reference ++ s.rows.flatMap Row.visits))

def InsertSelect.visits (s : InsertSelect) : List Visit :=
  .insertSelect s :: (OptionalExpression.visits s.top ++ .reference s.target ::
    (s.columns.map Visit.reference ++ s.select.visits))

def Update.visits (s : Update) : List Visit :=
  .update s :: (OptionalExpression.visits s.top ++ .reference s.target ::
    (Columns.visits s.assignments ++ Sources.visits s.sources ++
      OptionalPredicate.visits s.filter))

def Delete.visits (s : Delete) : List Visit :=
  .delete s :: (OptionalExpression.visits s.top ++ .reference s.target ::
    (Sources.visits s.sources ++ OptionalPredicate.visits s.filter))

mutual

def Statement.visits : Statement → List Visit
  | .select statement => statement.visits
  | .insertValues statement => statement.visits
  | .insertSelect statement => statement.visits
  | .update statement => statement.visits
  | .delete statement => statement.visits
  | .conditional statement => statement.visits
  | .loop statement => statement.visits
  | .block statement => statement.visits
  | .empty statement => [.empty statement]

def OptionalStatement.visits : Option Statement → List Visit
  | some s => s.visits
  | none => []

def If.visits : If → List Visit
  | ⟨t, test, thenBranch, elseBranch⟩ =>
    .conditional ⟨t, test, thenBranch, elseBranch⟩ ::
      (test.visits ++ thenBranch.visits ++ OptionalStatement.visits elseBranch)

def While.visits : While → List Visit
  | ⟨t, test, body⟩ => .loop ⟨t, test, body⟩ :: (test.visits ++ body.visits)

def Block.visits : Block → List Visit
  | ⟨t, body⟩ => .block ⟨t, body⟩ :: Statements.visits body

def Statements.visits : List Statement → List Visit
  | [] => []
  | s :: ss => s.visits ++ Statements.visits ss

end

def Statement.visit : Statement → Visit
  | .select statement => .select statement
  | .insertValues statement => .insertValues statement
  | .insertSelect statement => .insertSelect statement
  | .update statement => .update statement
  | .delete statement => .delete statement
  | .conditional statement => .conditional statement
  | .loop statement => .loop statement
  | .block statement => .block statement
  | .empty statement => .empty statement

structure Walker (σ : Type) where
  observer : Option (Visit → σ → σ)

namespace Walker

variable {σ : Type}

def empty : Walker σ := ⟨none⟩

def observing (f : Visit → σ → σ) : Walker σ := ⟨some f⟩

def run (w : Walker σ) (visits : List Visit) (state : σ) : σ :=
  match w.observer with
  | some f => visits.foldl (fun state v => f v state) state
  | none => state

end Walker

def walk {σ : Type} (statements : List Statement) (f : Visit → σ → σ) (state : σ) : σ :=
  (Walker.observing f).run (Statements.visits statements) state

end Transact
