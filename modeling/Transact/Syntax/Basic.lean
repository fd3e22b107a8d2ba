import Transact.Syntax.Operator
import Transact.Text.Dotted
import Transact.Token.Basic
import Transact.Vocabulary.TableHint

namespace Transact

/-- The origin of nodes that were not read from a source. -/
def Token.nowhere : Token := .eof ⟨0, 0, 0⟩

/-- A dotted name. Parts may be empty: in `db..t` the middle one stands for the default schema. -/
structure Reference where
  origin : Token
  parts : List String
  deriving DecidableEq

inductive Constant where
  | int (number : Int32)
  | bigInt (number : Int64)
  | numeric (number : Decimal)
  | real (number : Binary64)
  | varchar (text : String)
  | nvarchar (text : String)
  deriving DecidableEq

inductive Join where
  /-- The first entry. -/
  | first
  | inner | left | right | full
  | cross | crossApply | outerApply
  deriving DecidableEq

mutual

inductive Expression where
  | unary (origin : Token) (operator : UnaryOperator) (operand : Expression)
  | grouped (origin : Token) (inner : Expression)
  | null (origin : Token)
  | constant (origin : Token) (value : Constant)
  /-- A parenthesized `SELECT` that stands for its value. -/
  | subquery (origin : Token) (select : Select)
  /-- A column, a variable or another named value. -/
  | reference (name : Reference)
  | call (origin : Token) (function : Reference) (arguments : List Expression)
  | binary (origin : Token) (left : Expression) (operator : BinaryOperator) (right : Expression)

inductive Predicate where
  | not (origin : Token) (inner : Predicate)
  | existence (origin : Token) (subquery : Select)
  | inSubquery (origin : Token) (left : Expression) (negated : Bool) (subquery : Select)
  | inList (origin : Token) (left : Expression) (negated : Bool) (list : List Expression)
  | between (origin : Token) (left : Expression) (negated : Bool) (low high : Expression)
  | grouped (origin : Token) (inner : Predicate)
  /-- A comparison with all or some rows of a subquery. -/
  | quantified (origin : Token) (left : Expression) (operator : ComparisonOperator)
      (quantifier : Quantifier) (subquery : Select)
  | nullCheck (origin : Token) (left : Expression) (isNull : Bool)
  | comparison (origin : Token) (left : Expression) (operator : ComparisonOperator)
      (right : Expression)
  | binary (origin : Token) (left : Predicate) (operator : LogicalOperator) (right : Predicate)

structure Select where
  origin : Token
  top : Option Expression
  columns : List Column
  sources : List Source
  filter : Option Predicate
  terminated : Bool

/-- An entry of a column list or of a `SET` list. An alias that was written as a string keeps its
quotes. -/
inductive Column where
  | star (origin : Token) (table : Option String)
  | value (origin : Token) (expression : Expression) (aliasName : Option String)
  /-- `target = expression` in a `SET` list. -/
  | assignment (origin : Token) (target : Reference) (expression : Expression)

inductive Source where
  | table (source : TableSource)
  | subquery (source : SubquerySource)

structure TableSource where
  origin : Token
  name : Reference
  aliasName : Option String
  join : Join
  hints : List TableHint
  condition : Option Predicate

structure SubquerySource where
  origin : Token
  subquery : Select
  aliasName : Option String
  join : Join
  condition : Option Predicate

end

structure Row where
  origin : Token
  values : List Expression

structure InsertValues where
  origin : Token
  top : Option Expression
  target : Reference
  hints : List TableHint
  columns : List Reference
  rows : List Row
  terminated : Bool

structure InsertSelect where
  origin : Token
  top : Option Expression
  target : Reference
  hints : List TableHint
  columns : List Reference
  select : Select
  terminated : Bool

structure Update where
  origin : Token
  top : Option Expression
  target : Reference
  assignments : List Column
  sources : List Source
  filter : Option Predicate
  terminated : Bool

structure Delete where
  origin : Token
  top : Option Expression
  target : Reference
  sources : List Source
  filter : Option Predicate
  terminated : Bool

structure Empty where
  origin : Token
  terminated : Bool

mutual

inductive Statement where
  | select (statement : Select)
  | insertValues (statement : InsertValues)
  | insertSelect (statement : InsertSelect)
  | update (statement : Update)
  | delete (statement : Delete)
  | conditional (statement : If)
  | loop (statement : While)
  | block (statement : Block)
  | empty (statement : Empty)

structure If where
  origin : Token
  test : Predicate
  thenBranch : Statement
  elseBranch : Option Statement

structure While where
  origin : Token
  test : Predicate
  body : Statement

structure Block where
  origin : Token
  body : List Statement

end

namespace Reference

def ofDotted (name : String) : Reference :=
  ⟨.nowhere, (Text.splitDots name.toList).map String.ofList⟩

def identifier (r : Reference) : String :=
  String.ofList (Text.joinDots (r.parts.map String.toList))

def objectName (r : Reference) : String := r.parts.getLastD ""

def isSingle (r : Reference) : Bool := r.parts.length == 1

end Reference

namespace Join

def needsCondition : Join → Bool
  | inner | left | right | full => true
  | first | cross | crossApply | outerApply => false

def introduction : Join → String
  | first => ""
  | inner => "INNER JOIN "
  | left => "LEFT JOIN "
  | right => "RIGHT JOIN "
  | full => "FULL OUTER JOIN "
  | cross => "CROSS JOIN "
  | crossApply => "CROSS APPLY "
  | outerApply => "OUTER APPLY "

end Join

def Expression.origin : Expression → Token
  | unary origin .. | grouped origin .. | null origin | constant origin .. | subquery origin ..
  | call origin .. | binary origin .. => origin
  | reference name => name.origin

def Predicate.origin : Predicate → Token
  | not origin .. | existence origin .. | inSubquery origin .. | inList origin ..
  | between origin .. | grouped origin .. | quantified origin .. | nullCheck origin ..
  | comparison origin .. | binary origin .. => origin

def Column.origin : Column → Token
  | star origin .. | value origin .. | assignment origin .. => origin

namespace Source

def origin : Source → Token
  | table s => s.origin
  | subquery s => s.origin

def join : Source → Join
  | table s => s.join
  | subquery s => s.join

/-- The name by which the columns of an entry are qualified: the alias, or else the object name of
the table. -/
def visibleName : Source → Option String
  | table s => some (s.aliasName.getD s.name.objectName)
  | subquery s => s.aliasName

end Source

namespace Statement

def origin : Statement → Token
  | select s => s.origin
  | insertValues s => s.origin
  | insertSelect s => s.origin
  | update s => s.origin
  | delete s => s.origin
  | conditional s => s.origin
  | loop s => s.origin
  | block s => s.origin
  | empty s => s.origin

/-- Whether a semicolon ended the statement; `none` for those that never take one. -/
def terminated? : Statement → Option Bool
  | select s => some s.terminated
  | insertValues s => some s.terminated
  | insertSelect s => some s.terminated
  | update s => some s.terminated
  | delete s => some s.terminated
  | empty s => some s.terminated
  | conditional _ | loop _ | block _ => none

def withTerminator (terminated : Bool) : Statement → Statement
  | select s => select { s with terminated }
  | insertValues s => insertValues { s with terminated }
  | insertSelect s => insertSelect { s with terminated }
  | update s => update { s with terminated }
  | delete s => delete { s with terminated }
  | empty s => empty { s with terminated }
  | other => other

end Statement

end Transact
