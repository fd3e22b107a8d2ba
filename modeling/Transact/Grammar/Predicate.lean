import Transact.Grammar.Select

namespace Transact.Grammar

open Rule

variable {n : Nat}

def subquery (select : Rule n Select) : Rule n Select := do
  let _ ← expect (.mark .leftParen)
  let found ← select
  let _ ← expect (.mark .rightParen)
  return found

def between (expression : Rule n Expression) (left : Expression) (negated : Bool) :
    Rule n Predicate := do
  let origin ← expect (.keyword .BETWEEN)
  let low ← expression
  let _ ← expect (.keyword .AND)
  let high ← expression
  return .between origin left negated low high

def membership (expression : Rule n Expression) (select : Rule n Select) (left : Expression)
    (negated : Bool) : Rule n Predicate := do
  let origin ← expect (.keyword .IN)
  let _ ← expect (.mark .leftParen)
  if (← kind) = .keyword .SELECT then
    let found ← select
    let _ ← expect (.mark .rightParen)
    return .inSubquery origin left negated found
  else
    let list ← commaSeparated expression
    let _ ← expect (.mark .rightParen)
    return .inList origin left negated list

def nullCheck (left : Expression) : Rule n Predicate := do
  let origin ← expect (.keyword .IS)
  let negated ← eat (.keyword .NOT)
  let _ ← expect (.keyword .NULL)
  return .nullCheck origin left !negated

/-- What may follow `NOT` after a value. A negated `LIKE` is the negation of a comparison. -/
def negated (expression : Rule n Expression) (select : Rule n Select) (left : Expression) :
    Rule n Predicate := do
  let origin ← expect (.keyword .NOT)
  match ← kind with
  | .keyword .BETWEEN => between expression left true
  | .keyword .IN => membership expression select left true
  | .keyword .LIKE => do
    let like ← advance
    return .not origin (.comparison like left .like (← expression))
  | _ => expected (.kind (.keyword .LIKE))

def compared (expression : Rule n Expression) (select : Rule n Select) (left : Expression)
    (operator : ComparisonOperator) : Rule n Predicate := do
  let origin ← advance
  match Quantifier.ofKind? (← kind) with
  | some quantifier => do
    let _ ← advance
    return .quantified origin left operator quantifier (← subquery select)
  | none => return .comparison origin left operator (← expression)

def comparison (expression : Rule n Expression) (select : Rule n Select) (left : Expression) :
    Rule n Predicate := do
  match ← kind with
  | .keyword .IS => nullCheck left
  | .keyword .NOT => negated expression select left
  | .keyword .BETWEEN => between expression left false
  | .keyword .IN => membership expression select left false
  | k =>
    match ComparisonOperator.ofKind? k with
    | some operator => compared expression select left operator
    | none => unexpected

def beginsComparison (k : Kind) : Bool :=
  (ComparisonOperator.ofKind? k).isSome || k = .keyword .NOT || k = .keyword .BETWEEN ||
    k = .keyword .IN || k = .keyword .IS

def climbPredicate (primary : Rule n Predicate) (left : Predicate) : Rule n Predicate :=
  climb LogicalOperator.ofKind? LogicalOperator.tier primary Predicate.binary 1 left

def predicate (primary : Rule n Predicate) : Rule n Predicate := do
  climbPredicate primary (← primary)

/-- Reads on from what a parenthesis begins with. A value becomes a predicate when a comparison
follows it. -/
def operandRest (R : Rules n) : Operand → Rule n Operand
  | .predicate first => return .predicate (← climbPredicate R.predicatePrimary first)
  | .value first => do
    let value ← climbExpression R.primary first
    if beginsComparison (← kind) then
      let compared ← comparison R.expression R.select value
      return .predicate (← climbPredicate R.predicatePrimary compared)
    else return .value value

def Operand.grouped (paren : Token) : Operand → Operand
  | .value inner => .value (.grouped paren inner)
  | .predicate inner => .predicate (.grouped paren inner)

def parenthesizedFrom (R : Rules n) (paren : Token) : Rule n Operand := do
  match ← kind with
  | .keyword .SELECT => do
    let select ← R.select
    let _ ← expect (.mark .rightParen)
    return .value (.subquery paren select)
  | .keyword .NOT | .keyword .EXISTS => do
    let inner ← R.predicate
    let _ ← expect (.mark .rightParen)
    return .predicate (.grouped paren inner)
  | k => do
    let first ← if k = .mark .leftParen then R.parenthesized else Operand.value <$> R.primary
    let inner ← operandRest R first
    let _ ← expect (.mark .rightParen)
    return inner.grouped paren

def parenthesized (R : Rules n) : Rule (n + 1) Operand :=
  begin (.mark .leftParen) (parenthesizedFrom R)

def operandFirst (R : Rules n) : Rule (n + 1) Predicate := do
  let primary := primary R
  match ← if (← kind) = .mark .leftParen then parenthesized R
    else Operand.value <$> primary with
  | .predicate found => return found
  | .value first =>
    comparison (expression primary) (select R) (← climbExpression primary first)

def predicatePrimary (R : Rules n) : Rule (n + 1) Predicate := do
  match ← kind with
  | .keyword .NOT => take fun word => return .not word (← R.predicatePrimary)
  | .keyword .EXISTS => take fun word => return .existence word (← subquery R.select)
  | _ => operandFirst R

end Transact.Grammar
