import Transact.Grammar.Name

namespace Transact

/-- The value of a literal token, whatever its kind says. A text needs a kind that tells its
type. -/
def Constant.ofToken? (t : Token) : Option Constant :=
  match t.kind, t.value with
  | .constant .varchar, .text text => some (.varchar text)
  | .constant .nvarchar, .text text => some (.nvarchar text)
  | _, .int number => some (.int number)
  | _, .bigInt number => some (.bigInt number)
  | _, .numeric number => some (.numeric number)
  | _, .real number => some (.real number)
  | _, _ => none

namespace Grammar

open Rule

/-- What stands between parentheses where a predicate may stand: a value or a predicate. -/
inductive Operand where
  | value (expression : Expression)
  | predicate (predicate : Predicate)

structure Rules (n : Nat) where
  primary : Rule n Expression
  expression : Rule n Expression
  predicatePrimary : Rule n Predicate
  predicate : Rule n Predicate
  parenthesized : Rule n Operand
  select : Rule n Select
  statement : Rule n Statement
  shrinks : Shrinks statement

variable {n : Nat}

def constant : Rule n Expression := do
  let token ← advance
  match Constant.ofToken? token with
  | some value => return .constant token value
  | none => fail (.unexpected token)

def arguments (expression : Rule n Expression) : Rule n (List Expression) := do
  let _ ← expect (.mark .leftParen)
  let values ← if (← kind) = .mark .rightParen then pure [] else commaSeparated expression
  let _ ← expect (.mark .rightParen)
  return values

def call (R : Rules n) (function : Reference) : Rule n Expression :=
  return .call function.origin function (← arguments R.expression)

def named (R : Rules n) (first : Token) : Rule n Expression := do
  let name ← referenceFrom first (Parts.start.add first)
  if (← kind) = .mark .leftParen then call R name else return .reference name

def builtIn (R : Rules n) (word : Token) : Rule n Expression := do
  if (← kind) = .mark .leftParen then call R ⟨word, [word.text]⟩ else expected .openParen

def group (R : Rules n) (paren : Token) : Rule n Expression := do
  if (← kind) = .keyword .SELECT then
    let select ← R.select
    let _ ← expect (.mark .rightParen)
    return .subquery paren select
  else
    let inner ← R.expression
    let _ ← expect (.mark .rightParen)
    return .grouped paren inner

def primary (R : Rules n) : Rule (n + 1) Expression := do
  let k ← kind
  match UnaryOperator.ofKind? k with
  | some operator => take fun sign => return .unary sign operator (← R.primary)
  | none =>
    match k with
    | .constant _ => constant
    | .keyword .NULL => return .null (← advance)
    | .identifier | .mark .dot => take (named R)
    | .keyword .COALESCE | .keyword .NULLIF | .keyword .LEFT | .keyword .RIGHT => take (builtIn R)
    | .mark .leftParen => take (group R)
    | _ => unexpected

def climbExpression (primary : Rule n Expression) (left : Expression) : Rule n Expression :=
  climb BinaryOperator.ofKind? BinaryOperator.tier primary Expression.binary 1 left

def expression (primary : Rule n Expression) : Rule n Expression := do
  climbExpression primary (← primary)

end Grammar

end Transact
