import Transact.Regex.Basic

namespace Transact.Regex

structure Flags where
  caseless : Bool
  multiline : Bool
  dotAll : Bool
  carriage : Bool
  isUnicode : Bool
  /-- Blanks and comments of the pattern mean nothing. -/
  isSpaced : Bool

namespace Flags

def start : Flags := ⟨false, false, false, false, true, false⟩

def folded (f : Flags) (set : CharSet) : CharSet :=
  if f.caseless then
    if f.isUnicode then .caseless set else .union set (.ascii (.caseless (.ascii set)))
  else set

/-- Whether a class may hold a character. Without Unicode it has to be in ASCII. -/
def admits (f : Flags) (c : Char) : Bool := f.isUnicode || c.toNat < 128

def classOf (f : Flags) (set : CharSet) : CharSet := if f.isUnicode then set else .ascii set

end Flags

def dropSpace (f : Flags) (source : List Char) : List Char :=
  if f.isSpaced then go source.length source else source
where
  go : Nat → List Char → List Char
    | 0, rest => rest
    | n + 1, rest =>
      match rest.dropWhile Unicode.isBlank with
      | '#' :: rest => go n (rest.dropWhile (· != '\n'))
      | rest => rest

/-- The characters at the start of a source that pass a test, `n` of them at most, and what follows.
Blanks and comments may stand between them where they mean nothing. -/
def takeSpaced (f : Flags) (test : Char → Bool) : Nat → List Char → List Char × List Char
  | n + 1, c :: rest =>
    if test c then
      let (taken, rest) := takeSpaced f test n (dropSpace f rest)
      (c :: taken, rest)
    else ([], c :: rest)
  | _, rest => ([], rest)

inductive Atom where
  | literal (c : Char)
  | set (s : CharSet)
  | assertion (condition : Assertion)

def hexDigit? (c : Char) : Option Nat :=
  if c.isDigit then some (c.toNat - '0'.toNat)
  else if 'a' ≤ c ∧ c ≤ 'f' then some (c.toNat - 'a'.toNat + 10)
  else if 'A' ≤ c ∧ c ≤ 'F' then some (c.toNat - 'A'.toNat + 10)
  else none

def hexChar? (digits : List Char) : Option Char := do
  let value ← digits.foldlM (fun value c => (hexDigit? c).map (16 * value + ·)) 0
  if value.isValidChar then some (Char.ofNat value) else none

def readHex (f : Flags) (count : Nat) (source : List Char) : Option (Atom × List Char) :=
  let isHex (c : Char) : Bool := (hexDigit? c).isSome
  match dropSpace f source with
  | '\x7b' :: rest =>
    match takeSpaced f isHex rest.length (dropSpace f rest) with
    | (digits, '\x7d' :: rest) =>
      if digits.isEmpty then none else (hexChar? digits).map (.literal ·, rest)
    | _ => none
  | rest =>
    let (digits, rest) := takeSpaced f isHex count rest
    if digits.length < count then none else (hexChar? digits).map (.literal ·, rest)

/-- A character by two digits. Without Unicode they stand for a byte, which has to be in ASCII. -/
def readByte (f : Flags) (source : List Char) : Option (Atom × List Char) := do
  let (atom, rest) ← readHex f 2 source
  match atom, dropSpace f source with
  | .literal c, first :: _ => if first == '\x7b' || f.admits c then some (atom, rest) else none
  | _, _ => none

/-- A word boundary, which may be named in braces. A brace without a name begins a repetition. -/
def readBoundary (f : Flags) (source : List Char) : Option (Atom × List Char) :=
  let isNameChar (c : Char) : Bool := c.isAlpha || c == '-'
  match source with
  | '\x7b' :: rest =>
    match takeSpaced f isNameChar rest.length (dropSpace f rest) with
    | ([], []) => none
    | ([], _) => some (.assertion .wordBoundary, source)
    | (name, '\x7d' :: rest) =>
      match String.ofList name with
      | "start" => some (.assertion .wordStart, rest)
      | "end" => some (.assertion .wordEnd, rest)
      | "start-half" => some (.assertion .wordStartHalf, rest)
      | "end-half" => some (.assertion .wordEndHalf, rest)
      | _ => none
    | _ => none
  | _ => some (.assertion .wordBoundary, source)

def isPlainEscape (c : Char) : Bool :=
  c.toNat < 128 && !c.isAlphanum && c != '<' && c != '>'

def readEscape (f : Flags) : List Char → Option (Atom × List Char)
  | [] => none
  | 'd' :: rest => some (.set (f.classOf .digit), rest)
  | 's' :: rest => some (.set (f.classOf .blank), rest)
  | 'w' :: rest => some (.set (f.classOf .word), rest)
  | 'D' :: rest => if f.isUnicode then some (.set (.complement .digit), rest) else none
  | 'S' :: rest => if f.isUnicode then some (.set (.complement .blank), rest) else none
  | 'W' :: rest => if f.isUnicode then some (.set (.complement .word), rest) else none
  | 'x' :: rest => readByte f rest
  | 'u' :: rest => readHex f 4 rest
  | 'U' :: rest => readHex f 8 rest
  | 'a' :: rest => some (.literal '\x07', rest)
  | 'f' :: rest => some (.literal '\x0c', rest)
  | 't' :: rest => some (.literal '\t', rest)
  | 'n' :: rest => some (.literal '\n', rest)
  | 'r' :: rest => some (.literal '\r', rest)
  | 'v' :: rest => some (.literal '\x0b', rest)
  | 'A' :: rest => some (.assertion .textStart, rest)
  | 'z' :: rest => some (.assertion .textEnd, rest)
  | 'b' :: rest => readBoundary f rest
  | 'B' :: rest => some (.assertion .notWordBoundary, rest)
  | '<' :: rest => some (.assertion .wordStart, rest)
  | '>' :: rest => some (.assertion .wordEnd, rest)
  | c :: rest => if isPlainEscape c then some (.literal c, rest) else none

end Transact.Regex
