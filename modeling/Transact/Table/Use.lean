import Transact.Table.Pattern
import Transact.Table.Schema

namespace Transact

inductive UsageContext where
  | select | selectInInsert | selectInUpdate | selectInDelete
  | insert | update | delete
  deriving DecidableEq

namespace UsageContext

def all : List UsageContext :=
  [select, selectInInsert, selectInUpdate, selectInDelete, insert, update, delete]

def name : UsageContext → String
  | select => "SELECT"
  | selectInInsert => "SELECT-IN-INSERT"
  | selectInUpdate => "SELECT-IN-UPDATE"
  | selectInDelete => "SELECT-IN-DELETE"
  | insert => "INSERT"
  | update => "UPDATE"
  | delete => "DELETE"

def word (c : UsageContext) : String := Text.lower c.name

def ofWord? (word : String) : Option UsageContext := all.find? fun c => c.word == word

end UsageContext

structure TableUse where
  context : UsageContext
  table : Reference

def Visit.tableSources (visits : List Visit) : List TableSource :=
  visits.filterMap fun v => match v with
    | .tableSource source => some source
    | _ => none

namespace TableUse

def read (context : UsageContext) (visits : List Visit) : List TableUse :=
  (Visit.tableSources visits).map fun source => ⟨context, source.name⟩

/-- Whether a target is an entry of its own `FROM` list. -/
def resolves (target : Reference) (sources : List Source) : Bool :=
  target.isSingle && Sources.names sources target.objectName

/-- The uses of a change with a `FROM` list. A target that resolves through the list is reported at
the entries of its name, and only there. -/
def changed (context reading : UsageContext) (target : Reference) (sources : List Source)
    (visits : List Visit) : List TableUse :=
  if resolves target sources then
    (Visit.tableSources visits).map fun source =>
      let visible := source.aliasName.getD source.name.objectName
      ⟨if Text.sameWord target.objectName visible then context else reading, source.name⟩
  else ⟨context, target⟩ :: read reading visits

end TableUse

def InsertValues.uses (s : InsertValues) : List TableUse :=
  ⟨.insert, s.target⟩ :: TableUse.read .selectInInsert (s.rows.flatMap Row.visits)

def InsertSelect.uses (s : InsertSelect) : List TableUse :=
  ⟨.insert, s.target⟩ :: TableUse.read .selectInInsert s.select.visits

def Update.uses (s : Update) : List TableUse :=
  TableUse.changed .update .selectInUpdate s.target s.sources
    (Sources.visits s.sources ++ Columns.visits s.assignments ++
      OptionalPredicate.visits s.filter)

def Delete.uses (s : Delete) : List TableUse :=
  TableUse.changed .delete .selectInDelete s.target s.sources
    (Sources.visits s.sources ++ OptionalPredicate.visits s.filter)

mutual

def Statement.uses : Statement → List TableUse
  | .select s => TableUse.read .select s.visits
  | .insertValues s => s.uses
  | .insertSelect s => s.uses
  | .update s => s.uses
  | .delete s => s.uses
  | .conditional s => s.uses
  | .loop s => s.uses
  | .block s => s.uses
  | .empty _ => []

def OptionalStatement.uses : Option Statement → List TableUse
  | some s => s.uses
  | none => []

def If.uses : If → List TableUse
  | ⟨_, test, thenBranch, elseBranch⟩ =>
    TableUse.read .select test.visits ++ thenBranch.uses ++ OptionalStatement.uses elseBranch

def While.uses : While → List TableUse
  | ⟨_, test, body⟩ => TableUse.read .select test.visits ++ body.uses

def Block.uses : Block → List TableUse
  | ⟨_, body⟩ => Statements.uses body

def Statements.uses : List Statement → List TableUse
  | [] => []
  | s :: ss => s.uses ++ Statements.uses ss

end

structure Hit where
  context : UsageContext
  table : String
  line : Nat
  column : Nat
  deriving DecidableEq

namespace Hit

def message (h : Hit) : String := s!"{h.line}:{h.column} {h.context.name} {h.table}"

end Hit

def TableUse.hit (u : TableUse) : Hit :=
  ⟨u.context, u.table.identifier, u.table.origin.place.line, u.table.origin.place.column⟩

/-- What is searched for. Without contexts every use counts. -/
structure SearchQuery where
  pattern : TablePattern
  contexts : List UsageContext

namespace SearchQuery

def wants (q : SearchQuery) (u : TableUse) : Bool :=
  (q.contexts.isEmpty || q.contexts.contains u.context) && q.pattern.accepts u.table

end SearchQuery

def findTables (q : SearchQuery) (statements : List Statement) : List Hit :=
  ((Statements.uses statements).filter q.wants).map TableUse.hit

end Transact
