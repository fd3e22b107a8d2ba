import Transact.Grammar.Expression

namespace Transact.Grammar

open Rule

variable {n : Nat}

/-- `TOP` and a value, which has to stand in parentheses if `parenthesized` says so. -/
def top (R : Rules n) (parenthesized : Bool) : Rule n (Option Expression) := do
  if ← eat (.keyword .TOP) then
    if parenthesized then
      if (← kind) = .mark .leftParen then return some (← R.primary) else expected .openParen
    else return some (← R.expression)
  else return none

def filter (R : Rules n) : Rule n (Option Predicate) := do
  if ← eat (.keyword .WHERE) then return some (← R.predicate) else return none

/-- The table whose columns `t.*` stands for, when the star follows a name with an empty last
part. -/
def starTable? : Expression → Option String
  | .reference name =>
    if name.parts.length > 1 && name.objectName.isEmpty then
      some (Reference.identifier ⟨name.origin, name.parts.dropLast⟩)
    else none
  | _ => none

/-- The alias that a value is when an equals sign follows it. -/
def leadingAlias? : Expression → Option String
  | .reference name =>
    if name.isSingle && !name.objectName.isEmpty then some name.identifier else none
  | .constant _ (.varchar text) => some (Text.Quoted.quote text)
  | _ => none

def aliased (R : Rules n) (origin : Token) (first : Expression) : Rule n Column := do
  let value ← climbExpression R.primary first
  return .value origin value (← aliasName true)

def column (R : Rules n) : Rule n Column := do
  let origin ← current
  if ← eat (.mark .star) then return .star origin none
  else
    let first ← R.primary
    match ← kind, starTable? first, leadingAlias? first with
    | .mark .star, some table, _ => do
      let _ ← advance
      return .star origin (some table)
    | .mark .eq, _, some name => do
      let _ ← advance
      return .value origin (← R.expression) (some name)
    | _, _, _ => aliased R origin first

def condition (R : Rules n) (join : Join) : Rule n (Option Predicate) := do
  if join.needsCondition then
    let _ ← expect (.keyword .ON)
    return some (← R.predicate)
  else return none

def source (R : Rules n) (join : Join) : Rule n Source := do
  let origin ← current
  if ← eat (.mark .leftParen) then
    let select ← R.select
    let _ ← expect (.mark .rightParen)
    let name ← aliasName false
    return .subquery ⟨origin, select, name, join, ← condition R join⟩
  else
    let table ← reference
    let name ← aliasName false
    let found ← hints true
    return .table ⟨origin, table, name, join, found, ← condition R join⟩

/-- `APPLY` is not reserved and arrives as an identifier. -/
def eatApply : Rule n Bool := do
  let token ← current
  if token.kind = .identifier ∧ Text.sameWord token.text "APPLY" then
    let _ ← advance
    return true
  else return false

def outerJoin (join : Join) : Rule n Join := do
  let _ ← eat (.keyword .OUTER)
  let _ ← expect (.keyword .JOIN)
  return join

def crossed : Rule n Join := do
  if ← eat (.keyword .JOIN) then return .cross
  else if ← eatApply then return .crossApply
  else expected (.kind (.keyword .JOIN))

def outerApply : Rule n Join := do
  if ← eatApply then return .outerApply else expected .apply

def joinFrom? : Kind → Option (Rule n Join)
  | .keyword .JOIN => some (pure .inner)
  | .keyword .INNER => some do
    let _ ← expect (.keyword .JOIN)
    return .inner
  | .keyword .LEFT => some (outerJoin .left)
  | .keyword .RIGHT => some (outerJoin .right)
  | .keyword .FULL => some (outerJoin .full)
  | .keyword .CROSS => some crossed
  | .keyword .OUTER => some outerApply
  | _ => none

def sources (R : Rules n) : Rule n (List Source) := do
  if ← eat (.keyword .FROM) then
    let first ← source R .first
    loop (fun entries k =>
      (joinFrom? k).map fun joined _ => return entries ++ [← source R (← joined)]) [first]
  else return []

def selectFrom (R : Rules n) (origin : Token) : Rule n Select := do
  let top ← top R true
  let columns ← commaSeparated (column R)
  let sources ← sources R
  let filter ← filter R
  return ⟨origin, top, columns, sources, filter, false⟩

def select (R : Rules n) : Rule (n + 1) Select := begin (.keyword .SELECT) (selectFrom R)

end Transact.Grammar
