import Transact.Grammar.Rule
import Transact.Syntax.Basic

namespace Transact.Grammar

open Rule

variable {n : Nat}

/-- The parts of a dotted name read so far. A part may still follow at the start and after a
point. -/
structure Parts where
  parts : List String
  isOpen : Bool
  isNamed : Bool

namespace Parts

def start : Parts := ⟨[], true, false⟩

def all (p : Parts) : List String := if p.isOpen then p.parts ++ [""] else p.parts

/-- Adds a point or an identifier. A point where a part could stand leaves that part empty. -/
def add (p : Parts) (t : Token) : Parts :=
  if t.kind = .mark .dot then ⟨p.all, true, p.isNamed⟩ else ⟨p.parts ++ [t.text], false, true⟩

def step (p : Parts) (k : Kind) : Option (Token → Rule n Parts) :=
  if k = .mark .dot ∨ (k = .identifier ∧ p.isOpen) then some fun t => return p.add t else none

end Parts

def referenceFrom (origin : Token) (parts : Parts) : Rule n Reference := do
  let parts ← loop Parts.step parts
  if parts.isNamed then return ⟨origin, parts.all⟩ else expected (.kind .identifier)

def reference : Rule n Reference := do referenceFrom (← current) .start

/-- `AS` and a name, or a name alone. After `AS` an alias of a column may be a string, which keeps
its quotes. -/
def aliasName (allowString : Bool) : Rule n (Option String) := do
  let explicit ← eat (.keyword .AS)
  match ← kind with
  | .identifier => return some (← advance).text
  | .constant .varchar =>
    if explicit && allowString then return some (Text.Quoted.quote (← advance).text)
    else if explicit then expected (.kind .identifier)
    else return none
  | _ => if explicit then expected (.kind .identifier) else return none

def hint : Rule n TableHint := do
  let token ← current
  let named : Bool := token.kind = .identifier ∨ token.kind = .keyword .HOLDLOCK
  match if named then TableHint.ofWord? token.text else none with
  | some found => do
    let _ ← advance
    return found
  | none => unexpected

/-- `WITH` and a list of hints. With `bare` the list may stand alone. -/
def hints (bare : Bool) : Rule n (List TableHint) := do
  let introduced ← eat (.keyword .WITH)
  if introduced || (bare && (← kind) = .mark .leftParen) then
    let _ ← expect (.mark .leftParen)
    let found ← commaSeparated hint
    let _ ← expect (.mark .rightParen)
    return found
  else return []

end Transact.Grammar
