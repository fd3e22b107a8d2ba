import Transact.Regex.Pattern
import Transact.Syntax.Basic
import Transact.Text.Caseless

namespace Transact

inductive TablePattern where
  | name (parts : List String)
  | regex (expression : Regex)

def Text.undelimited (part : String) : String :=
  let inner := part.toList.dropWhile fun c => c == '[' || c == '"'
  String.ofList (inner.reverse.dropWhile fun c => c == ']' || c == '"').reverse

namespace TablePattern

/-- The parts without a schema that is the default one. The schema is the last part but one. -/
def dropDefaultSchema (parts : List String) : List String :=
  match parts.reverse with
  | object :: schema :: outer =>
    if schema = "" ∨ schema = "dbo" then (object :: outer).reverse else parts
  | _ => parts

/-- The form in which names are compared. -/
def normalized (r : Reference) : List String :=
  dropDefaultSchema (r.parts.map fun part => Text.lower (Text.undelimited part))

def ofName (name : String) : TablePattern := .name (normalized (.ofDotted name))

def ofRegex? (pattern : String) : Option TablePattern := (Regex.ofPattern? pattern).map .regex

def accepts (p : TablePattern) (r : Reference) : Bool :=
  match p with
  | name parts => normalized r == parts
  | regex expression => expression.matchesIn r.identifier

end TablePattern

end Transact
