import Transact.Command.Basic

namespace Transact

namespace CommandLine

inductive Parameter where
  | input | version | json | qualify | regex | context
  deriving DecidableEq

namespace Parameter

def name : Parameter → String
  | input => "input"
  | version => "version"
  | json => "json"
  | qualify => "qualify"
  | regex => "regex"
  | context => "context"

def letter? : Parameter → Option Char
  | input => some 'i'
  | version => some 'V'
  | _ => none

def takesValue : Parameter → Bool
  | input | qualify | context => true
  | version | json | regex => false

end Parameter

inductive Word where
  | operand (text : String)
  /-- The word `--`, behind which all words are operands. -/
  | terminator
  | flag (parameter : Parameter)
  | setting (parameter : Parameter) (value : String)
  /-- A parameter whose value is to be the next word. -/
  | awaiting (parameter : Parameter)
  | unknown

namespace Word

def ofLong (known : List Parameter) (text : List Char) : Word :=
  let name := String.ofList (text.takeWhile (· != '='))
  match known.find? (fun p => p.name == name), text.dropWhile (· != '=') with
  | some p, [] => if p.takesValue then awaiting p else flag p
  | some p, _ :: value => if p.takesValue then setting p (String.ofList value) else unknown
  | none, _ => unknown

/-- A letter, behind one hyphen, with the value that follows it at once or behind an equals sign. A
flag with a letter ends the reading, whatever follows it. -/
def ofLetter (known : List Parameter) (letter : Char) (rest : List Char) : Word :=
  match known.find? fun p => p.letter? == some letter with
  | some p =>
    if p.takesValue then
      match rest with
      | [] => awaiting p
      | '=' :: value => setting p (String.ofList value)
      | value => setting p (String.ofList value)
    else flag p
  | none => unknown

/-- What a word means where the given parameters may stand. A lone hyphen is an operand. -/
def read (known : List Parameter) (word : String) : Word :=
  match word.toList with
  | ['-', '-'] => terminator
  | '-' :: '-' :: text => ofLong known text
  | '-' :: letter :: rest => ofLetter known letter rest
  | _ => operand word

end Word

inductive Item where
  | operand (text : String)
  | setting (parameter : Parameter) (value : String)

/-- The items of the words behind a command; `none` when they are misused. -/
def items? (known : List Parameter) : List String → Option (List Item)
  | [] => some []
  | word :: rest =>
    match Word.read known word with
    | .operand text => (items? known rest).map (.operand text :: ·)
    | .terminator => some (rest.map .operand)
    | .flag p => (items? known rest).map (.setting p "" :: ·)
    | .setting p value => (items? known rest).map (.setting p value :: ·)
    | .awaiting p =>
      match rest with
      | [] => none
      | next :: rest =>
        match Word.read known next with
        | .operand value => (items? known rest).map (.setting p value :: ·)
        | _ => none
    | .unknown => none

def operands (items : List Item) : List String :=
  items.filterMap fun item => match item with
    | .operand text => some text
    | .setting _ _ => none

def values (p : Parameter) (items : List Item) : List String :=
  items.filterMap fun item => match item with
    | .setting q value => if p = q then some value else none
    | .operand _ => none

def single? (p : Parameter) (items : List Item) : Option (Option String) :=
  match values p items with
  | [] => some none
  | [value] => some (some value)
  | _ => none

def flag? (p : Parameter) (items : List Item) : Option Bool := (single? p items).map Option.isSome

def path? (value : String) : Option String := if value.isEmpty then none else some value

def splitCommas (value : String) : List String :=
  (value.toList.splitOn ',').map String.ofList

def contexts? (items : List Item) : Option (List UsageContext) :=
  ((values .context items).flatMap splitCommas).mapM UsageContext.ofWord?

def parameters? (command : String) : Option (List Parameter) :=
  match command with
  | "tokens" => some []
  | "check" => some [.json]
  | "format" => some [.qualify]
  | "lint" => some [.json]
  | "search" => some [.regex, .context, .json]
  | _ => none

def command? (command : String) (items : List Item) : Option Command :=
  match command, operands items with
  | "tokens", [] => some .tokens
  | "check", [] => return .check (← flag? .json items)
  | "format", [] => return .format (← single? .qualify items)
  | "lint", [] => return .lint (← flag? .json items)
  | "search", [table] =>
    return .search ⟨table, ← flag? .regex items, ← contexts? items, ← flag? .json items⟩
  | _, _ => none

end CommandLine

inductive Request where
  | version
  | run (input : Option String) (command : Command)
  deriving DecidableEq

namespace Request

open CommandLine

def versionText : String := "tsqlc 0.3.0\n"

/-- The request for a command. An input file named behind the command counts more than one named
before it. -/
def ofCommand? (input : Option String) (command : String) (words : List String) :
    Option Request := do
  let items ← items? (.input :: (← parameters? command)) words
  let own ← single? .input items
  let own ← own.mapM path?
  return .run (own <|> input) (← command? command items)

def read? (input : Option String) : List String → Option Request
  | [] => none
  | word :: rest =>
    match Word.read [.input, .version] word with
    | .operand command => ofCommand? input command rest
    | .flag _ => some .version
    | .setting _ value => given input value rest
    | .awaiting _ =>
      match rest with
      | [] => none
      | next :: rest =>
        match Word.read [.input, .version] next with
        | .operand value => given input value rest
        | _ => none
    | .terminator | .unknown => none
where
  /-- Goes on with an input file, unless there was one already. -/
  given (input : Option String) (value : String) (rest : List String) : Option Request :=
    match input with
    | some _ => none
    | none => do read? (some (← path? value)) rest

def ofWords? (words : List String) : Option Request := read? none words

end Request

end Transact
