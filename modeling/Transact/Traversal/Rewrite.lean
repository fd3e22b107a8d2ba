import Transact.Traversal.Children

namespace Transact

structure Rewriter (σ : Type) where
  select : Select → StateM σ Select := pure
  insertValues : InsertValues → StateM σ InsertValues := pure
  insertSelect : InsertSelect → StateM σ InsertSelect := pure
  update : Update → StateM σ Update := pure
  delete : Delete → StateM σ Delete := pure
  conditional : If → StateM σ If := pure
  loop : While → StateM σ While := pure
  block : Block → StateM σ Block := pure
  empty : Empty → StateM σ Empty := pure
  expression : Expression → StateM σ Expression := pure
  predicate : Predicate → StateM σ Predicate := pure
  column : Column → StateM σ Column := pure
  tableSource : TableSource → StateM σ TableSource := pure
  subquerySource : SubquerySource → StateM σ SubquerySource := pure
  row : Row → StateM σ Row := pure
  reference : Reference → StateM σ Reference := pure
  /-- How many levels the hooks may put below what was the last one. -/
  growth : Nat := 0

namespace Rewriter

variable {σ : Type}

def idle : Rewriter σ := {}

def observing (f : Visit → σ → σ) : Rewriter σ where
  select n := fun s => (n, f (.select n) s)
  insertValues n := fun s => (n, f (.insertValues n) s)
  insertSelect n := fun s => (n, f (.insertSelect n) s)
  update n := fun s => (n, f (.update n) s)
  delete n := fun s => (n, f (.delete n) s)
  conditional n := fun s => (n, f (.conditional n) s)
  loop n := fun s => (n, f (.loop n) s)
  block n := fun s => (n, f (.block n) s)
  empty n := fun s => (n, f (.empty n) s)
  expression n := fun s => (n, f (.expression n) s)
  predicate n := fun s => (n, f (.predicate n) s)
  column n := fun s => (n, f (.column n) s)
  tableSource n := fun s => (n, f (.tableSource n) s)
  subquerySource n := fun s => (n, f (.subquerySource n) s)
  row n := fun s => (n, f (.row n) s)
  reference n := fun s => (n, f (.reference n) s)

/-- Calls the hook of a statement and leaves its children alone. -/
def hook (r : Rewriter σ) : Statement → StateM σ Statement
  | .select s => return .select (← r.select s)
  | .insertValues s => return .insertValues (← r.insertValues s)
  | .insertSelect s => return .insertSelect (← r.insertSelect s)
  | .update s => return .update (← r.update s)
  | .delete s => return .delete (← r.delete s)
  | .conditional s => return .conditional (← r.conditional s)
  | .loop s => return .loop (← r.loop s)
  | .block s => return .block (← r.block s)
  | .empty s => return .empty (← r.empty s)

structure Walks (σ : Type) where
  expression : Expression → StateM σ Expression := pure
  predicate : Predicate → StateM σ Predicate := pure
  select : Select → StateM σ Select := pure
  statement : Statement → StateM σ Statement := pure

def option {α : Type} (f : α → StateM σ α) : Option α → StateM σ (Option α)
  | some a => return some (← f a)
  | none => return none

def expressionChildren (r : Rewriter σ) (w : Walks σ) : Expression → StateM σ Expression
  | .unary t operator operand => return .unary t operator (← w.expression operand)
  | .grouped t inner => return .grouped t (← w.expression inner)
  | .null t => return .null t
  | .constant t value => return .constant t value
  | .subquery t select => return .subquery t (← w.select select)
  | .reference name => return .reference (← r.reference name)
  | .call t function arguments => return .call t function (← arguments.mapM w.expression)
  | .binary t left operator right => do
    let left ← w.expression left
    return .binary t left operator (← w.expression right)

def predicateChildren (w : Walks σ) : Predicate → StateM σ Predicate
  | .not t inner => return .not t (← w.predicate inner)
  | .existence t subquery => return .existence t (← w.select subquery)
  | .inSubquery t left negated subquery => do
    let left ← w.expression left
    return .inSubquery t left negated (← w.select subquery)
  | .inList t left negated list => do
    let left ← w.expression left
    return .inList t left negated (← list.mapM w.expression)
  | .between t left negated low high => do
    let left ← w.expression left
    let low ← w.expression low
    return .between t left negated low (← w.expression high)
  | .grouped t inner => return .grouped t (← w.predicate inner)
  | .quantified t left operator quantifier subquery => do
    let left ← w.expression left
    return .quantified t left operator quantifier (← w.select subquery)
  | .nullCheck t left isNull => return .nullCheck t (← w.expression left) isNull
  | .comparison t left operator right => do
    let left ← w.expression left
    return .comparison t left operator (← w.expression right)
  | .binary t left operator right => do
    let left ← w.predicate left
    return .binary t left operator (← w.predicate right)

def walkColumn (r : Rewriter σ) (w : Walks σ) (c : Column) : StateM σ Column := do
  match ← r.column c with
  | .star t table => return .star t table
  | .value t expression aliasName => return .value t (← w.expression expression) aliasName
  | .assignment t target expression => do
    let target ← r.reference target
    return .assignment t target (← w.expression expression)

def walkSource (r : Rewriter σ) (w : Walks σ) : Source → StateM σ Source
  | .table s => do
    let s ← r.tableSource s
    let name ← r.reference s.name
    let condition ← option w.predicate s.condition
    return .table { s with name, condition }
  | .subquery s => do
    let s ← r.subquerySource s
    let subquery ← w.select s.subquery
    let condition ← option w.predicate s.condition
    return .subquery { s with subquery, condition }

def walkRow (r : Rewriter σ) (w : Walks σ) (row : Row) : StateM σ Row := do
  let row ← r.row row
  return { row with values := ← row.values.mapM w.expression }

def selectChildren (r : Rewriter σ) (w : Walks σ) (s : Select) : StateM σ Select := do
  let top ← option w.expression s.top
  let columns ← s.columns.mapM (r.walkColumn w)
  let sources ← s.sources.mapM (r.walkSource w)
  let filter ← option w.predicate s.filter
  return { s with top, columns, sources, filter }

def insertValuesChildren (r : Rewriter σ) (w : Walks σ) (s : InsertValues) :
    StateM σ InsertValues := do
  let top ← option w.expression s.top
  let target ← r.reference s.target
  let columns ← s.columns.mapM r.reference
  let rows ← s.rows.mapM (r.walkRow w)
  return { s with top, target, columns, rows }

def insertSelectChildren (r : Rewriter σ) (w : Walks σ) (s : InsertSelect) :
    StateM σ InsertSelect := do
  let top ← option w.expression s.top
  let target ← r.reference s.target
  let columns ← s.columns.mapM r.reference
  let select ← w.select s.select
  return { s with top, target, columns, select }

def updateChildren (r : Rewriter σ) (w : Walks σ) (s : Update) : StateM σ Update := do
  let top ← option w.expression s.top
  let target ← r.reference s.target
  let assignments ← s.assignments.mapM (r.walkColumn w)
  let sources ← s.sources.mapM (r.walkSource w)
  let filter ← option w.predicate s.filter
  return { s with top, target, assignments, sources, filter }

def deleteChildren (r : Rewriter σ) (w : Walks σ) (s : Delete) : StateM σ Delete := do
  let top ← option w.expression s.top
  let target ← r.reference s.target
  let sources ← s.sources.mapM (r.walkSource w)
  let filter ← option w.predicate s.filter
  return { s with top, target, sources, filter }

def statementChildren (r : Rewriter σ) (w : Walks σ) : Statement → StateM σ Statement
  | .select s => return .select (← r.selectChildren w s)
  | .insertValues s => return .insertValues (← r.insertValuesChildren w s)
  | .insertSelect s => return .insertSelect (← r.insertSelectChildren w s)
  | .update s => return .update (← r.updateChildren w s)
  | .delete s => return .delete (← r.deleteChildren w s)
  | .conditional s => do
    let test ← w.predicate s.test
    let thenBranch ← w.statement s.thenBranch
    let elseBranch ← option w.statement s.elseBranch
    return .conditional { s with test, thenBranch, elseBranch }
  | .loop s => do
    let test ← w.predicate s.test
    let body ← w.statement s.body
    return .loop { s with test, body }
  | .block s => return .block { s with body := ← s.body.mapM w.statement }
  | .empty s => return .empty s

/-- Walks that go down the given number of levels. Below that nodes are left as they are. -/
def walks (r : Rewriter σ) : Nat → Walks σ
  | 0 => {}
  | depth + 1 =>
    let below := r.walks depth
    { expression := fun e => do r.expressionChildren below (← r.expression e)
      predicate := fun p => do predicateChildren below (← r.predicate p)
      select := fun s => do r.selectChildren below (← r.select s)
      statement := fun s => do r.statementChildren below (← r.hook s) }

/-- Walks a statement, with the levels that the hooks may add to it. -/
def walkStatement (r : Rewriter σ) (s : Statement) : StateM σ Statement :=
  (r.walks (s.visit.depth + r.growth)).statement s

def run (r : Rewriter σ) (statements : List Statement) (state : σ) : List Statement × σ :=
  (statements.mapM r.walkStatement).run state

end Rewriter

end Transact
