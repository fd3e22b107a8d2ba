import Transact.Syntax.Basic

namespace Transact

def Reference.same (a b : Reference) : Bool := a.parts == b.parts

def Constant.same : Constant → Constant → Bool
  | int a, int b => a == b
  | bigInt a, bigInt b => a == b
  | numeric a, numeric b => a.sameValue b
  | real a, real b => a.sameValue b
  | varchar a, varchar b => a == b
  | nvarchar a, nvarchar b => a == b
  | _, _ => false

def References.same : List Reference → List Reference → Bool
  | [], [] => true
  | a :: as, b :: bs => a.same b && References.same as bs
  | _, _ => false

mutual

def Expression.same : Expression → Expression → Bool
  | .unary _ f a, .unary _ g b => f == g && a.same b
  | .grouped _ a, .grouped _ b => a.same b
  | .null _, .null _ => true
  | .constant _ a, .constant _ b => a.same b
  | .subquery _ a, .subquery _ b => a.same b
  | .reference a, .reference b => a.same b
  | .call _ f as, .call _ g bs => f.same g && Expressions.same as bs
  | .binary _ a f c, .binary _ b g d => a.same b && f == g && c.same d
  | _, _ => false

def Expressions.same : List Expression → List Expression → Bool
  | [], [] => true
  | a :: as, b :: bs => a.same b && Expressions.same as bs
  | _, _ => false

def OptionalExpression.same : Option Expression → Option Expression → Bool
  | none, none => true
  | some a, some b => a.same b
  | _, _ => false

def Predicate.same : Predicate → Predicate → Bool
  | .not _ a, .not _ b => a.same b
  | .existence _ a, .existence _ b => a.same b
  | .inSubquery _ a m c, .inSubquery _ b n d => a.same b && m == n && c.same d
  | .inList _ a m as, .inList _ b n bs => a.same b && m == n && Expressions.same as bs
  | .between _ a m c e, .between _ b n d f => a.same b && m == n && c.same d && e.same f
  | .grouped _ a, .grouped _ b => a.same b
  | .quantified _ a f p c, .quantified _ b g q d => a.same b && f == g && p == q && c.same d
  | .nullCheck _ a m, .nullCheck _ b n => a.same b && m == n
  | .comparison _ a f c, .comparison _ b g d => a.same b && f == g && c.same d
  | .binary _ a f c, .binary _ b g d => a.same b && f == g && c.same d
  | _, _ => false

def OptionalPredicate.same : Option Predicate → Option Predicate → Bool
  | none, none => true
  | some a, some b => a.same b
  | _, _ => false

def Select.same : Select → Select → Bool
  | ⟨_, top, columns, sources, filter, terminated⟩, ⟨_, top', columns', sources', filter', term'⟩ =>
    OptionalExpression.same top top' && Columns.same columns columns' &&
      Sources.same sources sources' && OptionalPredicate.same filter filter' && terminated == term'

def Column.same : Column → Column → Bool
  | .star _ s, .star _ t => s == t
  | .value _ a s, .value _ b t => a.same b && s == t
  | .assignment _ r a, .assignment _ s b => r.same s && a.same b
  | _, _ => false

def Columns.same : List Column → List Column → Bool
  | [], [] => true
  | a :: as, b :: bs => a.same b && Columns.same as bs
  | _, _ => false

def Source.same : Source → Source → Bool
  | .table a, .table b => a.same b
  | .subquery a, .subquery b => a.same b
  | _, _ => false

def Sources.same : List Source → List Source → Bool
  | [], [] => true
  | a :: as, b :: bs => a.same b && Sources.same as bs
  | _, _ => false

def TableSource.same : TableSource → TableSource → Bool
  | ⟨_, name, aliasName, join, hints, condition⟩,
    ⟨_, name', aliasName', join', hints', condition'⟩ =>
    name.same name' && aliasName == aliasName' && join == join' && hints == hints' &&
      OptionalPredicate.same condition condition'

def SubquerySource.same : SubquerySource → SubquerySource → Bool
  | ⟨_, select, aliasName, join, condition⟩, ⟨_, select', aliasName', join', condition'⟩ =>
    select.same select' && aliasName == aliasName' && join == join' &&
      OptionalPredicate.same condition condition'

end

def Row.same (a b : Row) : Bool := Expressions.same a.values b.values

def Rows.same : List Row → List Row → Bool
  | [], [] => true
  | a :: as, b :: bs => a.same b && Rows.same as bs
  | _, _ => false

def InsertValues.same (a b : InsertValues) : Bool :=
  OptionalExpression.same a.top b.top && a.target.same b.target && a.hints == b.hints &&
    References.same a.columns b.columns && Rows.same a.rows b.rows && a.terminated == b.terminated

def InsertSelect.same (a b : InsertSelect) : Bool :=
  OptionalExpression.same a.top b.top && a.target.same b.target && a.hints == b.hints &&
    References.same a.columns b.columns && a.select.same b.select && a.terminated == b.terminated

def Update.same (a b : Update) : Bool :=
  OptionalExpression.same a.top b.top && a.target.same b.target &&
    Columns.same a.assignments b.assignments && Sources.same a.sources b.sources &&
    OptionalPredicate.same a.filter b.filter && a.terminated == b.terminated

def Delete.same (a b : Delete) : Bool :=
  OptionalExpression.same a.top b.top && a.target.same b.target &&
    Sources.same a.sources b.sources && OptionalPredicate.same a.filter b.filter &&
    a.terminated == b.terminated

mutual

def Statement.same : Statement → Statement → Bool
  | .select a, .select b => a.same b
  | .insertValues a, .insertValues b => a.same b
  | .insertSelect a, .insertSelect b => a.same b
  | .update a, .update b => a.same b
  | .delete a, .delete b => a.same b
  | .conditional a, .conditional b => a.same b
  | .loop a, .loop b => a.same b
  | .block a, .block b => a.same b
  | .empty a, .empty b => a.terminated == b.terminated
  | _, _ => false

def OptionalStatement.same : Option Statement → Option Statement → Bool
  | none, none => true
  | some a, some b => a.same b
  | _, _ => false

def If.same : If → If → Bool
  | ⟨_, test, thenBranch, elseBranch⟩, ⟨_, test', thenBranch', elseBranch'⟩ =>
    test.same test' && thenBranch.same thenBranch' && OptionalStatement.same elseBranch elseBranch'

def While.same : While → While → Bool
  | ⟨_, test, body⟩, ⟨_, test', body'⟩ => test.same test' && body.same body'

def Block.same : Block → Block → Bool
  | ⟨_, body⟩, ⟨_, body'⟩ => Statements.same body body'

def Statements.same : List Statement → List Statement → Bool
  | [], [] => true
  | a :: as, b :: bs => a.same b && Statements.same as bs
  | _, _ => false

end

end Transact
