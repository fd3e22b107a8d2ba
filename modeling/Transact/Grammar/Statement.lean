import Transact.Grammar.Predicate

namespace Transact.Grammar

open Rule

variable {n : Nat}

def insertColumns : Rule n (List Reference) := do
  if ← eat (.mark .leftParen) then
    let columns ← commaSeparated reference
    let _ ← expect (.mark .rightParen)
    return columns
  else return []

def row (R : Rules n) : Rule n Row := do
  let origin ← expect (.mark .leftParen)
  let values ← commaSeparated R.expression
  let _ ← expect (.mark .rightParen)
  return ⟨origin, values⟩

/-- A bare parenthesis after the target opens the columns and not the hints. -/
def insert (R : Rules n) (origin : Token) : Rule n Statement := do
  let top ← top R true
  let _ ← eat (.keyword .INTO)
  let target ← reference
  let hints ← hints false
  let columns ← insertColumns
  match ← kind with
  | .keyword .VALUES => do
    let _ ← advance
    let rows ← commaSeparated (row R)
    return .insertValues ⟨origin, top, target, hints, columns, rows, false⟩
  | .keyword .SELECT => do
    let select ← R.select
    return .insertSelect ⟨origin, top, target, hints, columns, select, false⟩
  | _ => expected (.kind (.keyword .VALUES))

def assignment (R : Rules n) : Rule n Column := do
  let origin ← current
  let target ← reference
  let _ ← expect (.mark .eq)
  return .assignment origin target (← R.expression)

def update (R : Rules n) (origin : Token) : Rule n Statement := do
  let top ← top R false
  let target ← reference
  let _ ← expect (.keyword .SET)
  let assignments ← commaSeparated (assignment R)
  let sources ← sources R
  let filter ← filter R
  return .update ⟨origin, top, target, assignments, sources, filter, false⟩

def delete (R : Rules n) (origin : Token) : Rule n Statement := do
  let top ← top R true
  let _ ← eat (.keyword .FROM)
  let target ← reference
  let sources ← sources R
  let filter ← filter R
  return .delete ⟨origin, top, target, sources, filter, false⟩

/-- An `ELSE` belongs to the nearest `IF`. -/
def conditional (R : Rules n) (origin : Token) : Rule n Statement := do
  let test ← R.predicate
  let thenBranch ← R.statement
  if ← eat (.keyword .ELSE) then
    return .conditional ⟨origin, test, thenBranch, some (← R.statement)⟩
  else return .conditional ⟨origin, test, thenBranch, none⟩

def repeated (R : Rules n) (origin : Token) : Rule n Statement := do
  let test ← R.predicate
  return .loop ⟨origin, test, ← R.statement⟩

def terminated (body : Rule n Statement) : Rule n Statement := do
  let statement ← body
  return statement.withTerminator (← eat (.mark .semicolon))

def block (R : Rules n) (origin : Token) : Rule n Statement := do
  let body ← many (fun k => k = .keyword .END || k = .eof) R.statement R.shrinks []
  let _ ← expect (.keyword .END)
  return .block ⟨origin, body⟩

def statement (R : Rules n) : Rule (n + 1) Statement := fun s hs =>
  match s.current.kind with
  | .keyword .SELECT => take (fun t => terminated (Statement.select <$> selectFrom R t)) s hs
  | .keyword .INSERT => take (fun t => terminated (insert R t)) s hs
  | .keyword .UPDATE => take (fun t => terminated (update R t)) s hs
  | .keyword .DELETE => take (fun t => terminated (delete R t)) s hs
  | .keyword .IF => take (conditional R) s hs
  | .keyword .WHILE => take (repeated R) s hs
  | .keyword .BEGIN => take (block R) s hs
  | .mark .semicolon => take (fun t => return .empty ⟨t, true⟩) s hs
  | _ => unexpected s hs

theorem shrinks_statement (R : Rules n) : Shrinks (statement R) := by
  intro s hs value rest le h
  simp only [statement] at h
  split at h
  case h_9 => exact shrinks_unexpected s hs value rest le h
  all_goals exact shrinks_take _ s hs value rest le h

end Transact.Grammar
