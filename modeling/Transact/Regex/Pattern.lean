import Transact.Regex.Piece

namespace Transact.Regex

/-- The branches and items of a group as far as they are read, the last first, and the flags that
hold again behind the group. A setting of flags is no item that can be repeated. -/
structure Group where
  captures : Bool
  branches : List Piece
  items : List (Option Piece)
  outside : Flags

structure Reading where
  rest : List Char
  flags : Flags
  group : Group
  outer : List Group
  names : List String

namespace Group

def empty (captures : Bool) (outside : Flags) : Group := ⟨captures, [], [], outside⟩

def branch (g : Group) : Piece := .sequence (g.items.reverse.map fun item => item.getD .empty)

def content (g : Group) : Piece := .alternatives (g.branch :: g.branches).reverse

end Group

def setFlag? (f : Flags) (value : Bool) : Char → Option Flags
  | 'i' => some { f with caseless := value }
  | 'm' => some { f with multiline := value }
  | 's' => some { f with dotAll := value }
  | 'R' => some { f with carriage := value }
  | 'u' => some { f with isUnicode := value }
  | 'x' => some { f with isSpaced := value }
  | 'U' => some f
  | _ => none

def readFlags (f : Flags) (value : Bool) (seen : List Char) : List Char → Option (Flags × List Char)
  | [] => none
  | c :: rest =>
    if c == ':' || c == ')' then
      if seen.head? == some '-' then none else some (f, c :: rest)
    else if seen.contains c then none
    else if c == '-' then readFlags f false (c :: seen) rest
    else do readFlags (← setFlag? f value c) value (c :: seen) rest

def isNameStart (c : Char) : Bool := c == '_' || Unicode.isAlphabetic c

def isNamePart (c : Char) : Bool :=
  c == '_' || c == '.' || c == '[' || c == ']' || Unicode.isAlphanumeric c

def Atom.piece (f : Flags) : Atom → Piece
  | literal c => .one (f.folded (.single c))
  | set s => .one s
  | assertion condition => .assertion f.isUnicode condition

def Reading.repeated? (p : Reading) (least : Nat) (most : Option Nat) (rest : List Char) :
    Option Reading :=
  match p.group.items with
  | some last :: items =>
    let rest := if rest.head? == some '?' then rest.drop 1 else rest
    let repeated := last.repeated least most
    some { p with rest, group := { p.group with items := some repeated :: items } }
  | _ => none

def readCount (f : Flags) (source : List Char) : Option Nat × List Char :=
  let source := source.dropWhile Unicode.isBlank
  let (digits, rest) := takeSpaced f Char.isDigit source.length source
  let value := Nat.ofDigitChars 10 digits 0
  (if digits.isEmpty || value ≥ Nat.pow 2 32 then none else some value,
    rest.dropWhile Unicode.isBlank)

/-- The bounds of a repetition after the opening brace. Without an upper bound the comma stands
right before the closing brace. -/
def readBounds (f : Flags) (source : List Char) : Option (Nat × Option Nat × List Char) := do
  let (least, rest) := readCount f (dropSpace f source)
  let least ← least
  match rest with
  | '\x7d' :: rest => some (least, some least, rest)
  | ',' :: rest =>
    match dropSpace f rest with
    | '\x7d' :: rest => some (least, none, rest)
    | rest =>
      match readCount f rest with
      | (some most, '\x7d' :: rest) => if least ≤ most then some (least, some most, rest) else none
      | _ => none
  | _ => none

namespace Reading

def add (p : Reading) (piece : Piece) (rest : List Char) : Reading :=
  { p with rest, group := { p.group with items := some piece :: p.group.items } }

def openGroup (p : Reading) (captures : Bool) (flags : Flags) (rest : List Char) : Reading :=
  { p with rest, flags, group := .empty captures p.flags, outer := p.group :: p.outer }

def openNamed? (p : Reading) (source : List Char) : Option Reading :=
  let name := source.takeWhile (· != '>')
  match name, source.dropWhile (· != '>') with
  | first :: others, _ :: rest =>
    let text := String.ofList name
    if isNameStart first && others.all isNamePart && !p.names.contains text then
      some { p.openGroup true p.flags rest with names := text :: p.names }
    else none
  | _, _ => none

def open? (p : Reading) (source : List Char) : Option Reading :=
  match source with
  | '?' :: '=' :: _ | '?' :: '!' :: _ | '?' :: '<' :: '=' :: _ | '?' :: '<' :: '!' :: _ => none
  | '?' :: 'P' :: '<' :: rest | '?' :: '<' :: rest => p.openNamed? rest
  | '?' :: rest => do
    let (flags, rest) ← readFlags p.flags true [] rest
    match rest with
    | ':' :: rest => some (p.openGroup false flags rest)
    | _ :: tail =>
      if (source.drop 1).head? == some ')' then none
      else some { p with
        rest := tail, flags, group := { p.group with items := none :: p.group.items } }
    | [] => none
  | _ => some (p.openGroup true p.flags source)

def close? (p : Reading) (rest : List Char) : Option Reading :=
  match p.outer with
  | [] => none
  | group :: outer =>
    let closed := p.group.content.grouped p.group.captures
    some ({ p with flags := p.group.outside, group, outer }.add closed rest)

def step? (p : Reading) : Option Reading :=
  match dropSpace p.flags p.rest with
  | [] => some { p with rest := [] }
  | '(' :: rest => p.open? (dropSpace p.flags rest)
  | ')' :: rest => p.close? rest
  | '|' :: rest =>
    some { p with
      rest, group := { p.group with branches := p.group.branch :: p.group.branches, items := [] } }
  | '[' :: rest => do
    let (found, rest) ← readClass (rest.length + 1) p.flags rest
    some (p.add (.ofClass found) rest)
  | '?' :: rest => p.repeated? 0 (some 1) rest
  | '*' :: rest => p.repeated? 0 none rest
  | '+' :: rest => p.repeated? 1 none rest
  | '\x7b' :: rest => do
    let (least, most, rest) ← readBounds p.flags rest
    p.repeated? least most (dropSpace p.flags rest)
  | '\\' :: rest => do
    let (atom, rest) ← readEscape p.flags rest
    some (p.add (atom.piece p.flags) rest)
  | '.' :: rest =>
    let excluded : CharSet :=
      if p.flags.dotAll then .empty
      else if p.flags.carriage then .union (.single '\r') (.single '\n')
      else .single '\n'
    if p.flags.isUnicode then some (p.add (.one (.complement excluded)) rest) else none
  | '^' :: rest =>
    let condition := if p.flags.multiline then .lineStart p.flags.carriage else .textStart
    some (p.add (.assertion p.flags.isUnicode condition) rest)
  | '$' :: rest =>
    let condition := if p.flags.multiline then .lineEnd p.flags.carriage else .textEnd
    some (p.add (.assertion p.flags.isUnicode condition) rest)
  | c :: rest => some (p.add ((Atom.literal c).piece p.flags) rest)

def run? : Nat → Reading → Option Reading
  | 0, p => if p.rest.isEmpty then some p else none
  | n + 1, p => if p.rest.isEmpty then some p else p.step?.bind (run? n)

end Reading

/-- The expression that a pattern writes; `none` when it is malformed or too large. Every item takes
at least one character. -/
def ofPattern? (pattern : String) : Option Regex := do
  let characters := pattern.toList
  let p ← Reading.run? characters.length ⟨characters, .start, .empty false .start, [], []⟩
  let whole := p.group.content
  if p.outer.isEmpty && whole.isWithinLimits then some whole.regex else none

end Transact.Regex
