import Transact.Input
import Transact.Layout.Statement
import Transact.LeftJoin
import Transact.Record
import Transact.Table.Schema
import Transact.Table.Use

namespace Transact

structure SearchOptions where
  /-- A name, or else a regular expression. -/
  table : String
  isRegex : Bool
  contexts : List UsageContext
  json : Bool
  deriving DecidableEq

inductive Command where
  | tokens
  | check (json : Bool)
  /-- Names without schema get the given one. -/
  | format (schema : Option String)
  | lint (json : Bool)
  | search (options : SearchOptions)
  deriving DecidableEq

inductive CommandError where
  | input (error : InputError)
  | unreadable (cause : ReadError)
  | badPattern
  deriving DecidableEq

namespace CommandError

def message : CommandError → String
  | input error => error.message
  | unreadable cause => "IO error: " ++ cause.message
  | badPattern => "Invalid pattern"

end CommandError

structure CheckReport where
  tokens : Nat
  statements : Nat
  deriving DecidableEq

namespace CheckReport

def message (r : CheckReport) : String :=
  s!"{r.statements} statement(s), {r.tokens} token(s)\n"

def record (r : CheckReport) : Record :=
  [("tokens", .number r.tokens), ("statements", .number r.statements)]

end CheckReport

def Finding.record (f : Finding) : Record :=
  [("line", .number f.line), ("column", .number f.column), ("alias", .text f.aliasName),
    ("reference", .text f.reference)]

def Hit.record (h : Hit) : Record :=
  [("context", .text h.context.word), ("table", .text h.table), ("line", .number h.line),
    ("column", .number h.column)]

namespace SearchOptions

def pattern? (o : SearchOptions) : Option TablePattern :=
  if o.isRegex then TablePattern.ofRegex? o.table else some (.ofName o.table)

end SearchOptions

def lines (entries : List String) : String := String.join (entries.map (· ++ "\n"))

namespace Command

def statements (source : String) : Except CommandError (List Statement) :=
  (parseInput (some source)).mapError .input

def listTokens (source : String) : Except CommandError String := do
  let tokens ← (lexInput (some source)).mapError .input
  return lines (tokens.map Token.toText)

/-- Lexical errors are found before any error of the grammar. -/
def report (source : String) : Except CommandError CheckReport := do
  let tokens ← (lexInput (some source)).mapError .input
  return ⟨tokens.length, (← statements source).length⟩

def reformat (schema : Option String) (source : String) : Except CommandError String := do
  let statements ← statements source
  match schema with
  | some schema => return Transact.format (qualifyTables schema statements).1
  | none => return Transact.format statements

def listFindings (json : Bool) (source : String) : Except CommandError String := do
  let findings := checkLeftJoins (← statements source)
  return if json then Record.entries (findings.map Finding.record)
    else lines (findings.map Finding.message)

/-- A bad pattern is found before any error of the source. -/
def listHits (options : SearchOptions) (source : String) : Except CommandError String := do
  let some pattern := options.pattern? | throw .badPattern
  let hits := findTables ⟨pattern, options.contexts⟩ (← statements source)
  return if options.json then Record.entries (hits.map Hit.record)
    else lines (hits.map Hit.message)

def run (c : Command) (source : String) : Except CommandError String :=
  match c with
  | tokens => listTokens source
  | check json => do
    let report ← report source
    return if json then report.record.compact ++ "\n" else report.message
  | format schema => reformat schema source
  | lint json => listFindings json source
  | search options => listHits options source

def runContents (c : Command) (contents : Except ReadError (List UInt8)) :
    Except CommandError String :=
  match decodeContents contents with
  | .ok source => c.run source
  | .error cause => .error (.unreadable cause)

end Command

end Transact
