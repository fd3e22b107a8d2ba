import Transact.Regex.CharSet

namespace Transact

namespace Regex

inductive Assertion where
  | textStart | textEnd
  /-- With `carriage` a line may also end in a carriage return. -/
  | lineStart (carriage : Bool)
  | lineEnd (carriage : Bool)
  | wordBoundary | notWordBoundary
  | wordStart | wordEnd
  | wordStartHalf | wordEndHalf

namespace Assertion

def holds (isWord : Char → Bool) (before after : Option Char) : Assertion → Bool
  | textStart => before.isNone
  | textEnd => after.isNone
  | lineStart carriage =>
    match before with
    | none => true
    | some c => c == '\n' || (carriage && c == '\r' && after != some '\n')
  | lineEnd carriage =>
    match after with
    | none => true
    | some c => if carriage then c == '\r' || (c == '\n' && before != some '\r') else c == '\n'
  | wordBoundary => before.any isWord != after.any isWord
  | notWordBoundary => before.any isWord == after.any isWord
  | wordStart => !before.any isWord && after.any isWord
  | wordEnd => before.any isWord && !after.any isWord
  | wordStartHalf => !before.any isWord
  | wordEndHalf => !after.any isWord

end Assertion

end Regex

inductive Regex where
  | empty
  | one (set : Regex.CharSet)
  | assertion (isUnicode : Bool) (condition : Regex.Assertion)
  | seq (first second : Regex)
  | alt (first second : Regex)
  /-- At least `least` times, and at most `most` times if there is a bound. -/
  | repetition (inner : Regex) (least : Nat) (most : Option Nat)

namespace Regex

def isAsciiWord (c : Char) : Bool := c.isAlphanum || c == '_'

def merge (a b : List Nat) : List Nat := a ++ b.filter fun i => !a.contains i

def stepTimes (step : List Nat → List Nat) : Nat → List Nat → List Nat
  | 0, positions => positions
  | n + 1, positions => if positions.isEmpty then [] else stepTimes step n (step positions)

/-- The positions that are reached by at most `n` steps, with those that are known already. Only
the `latest` of these have their steps to come. -/
def stepUpTo (step : List Nat → List Nat) : Nat → List Nat → List Nat → List Nat
  | 0, known, _ => known
  | n + 1, known, latest =>
    let further := (step latest).filter fun i => !known.contains i
    if further.isEmpty then known else stepUpTo step n (known ++ further) further

def holdsAt (text : Array Char) (isUnicode : Bool) (condition : Assertion) (i : Nat) : Bool :=
  let isWord := if isUnicode then Unicode.isWord else isAsciiWord
  condition.holds isWord (if i = 0 then none else text[i - 1]?) text[i]?

/-- The positions of a text at which a match can end that begins at one of the given positions.
Positions never go back, so that more repetitions than `text.size + 1` reach nothing else. -/
def ends (text : Array Char) : Regex → List Nat → List Nat
  | empty, positions => positions
  | one set, positions => (positions.filter fun i => (text[i]?).any set.contains).map (· + 1)
  | assertion isUnicode condition, positions => positions.filter (holdsAt text isUnicode condition)
  | seq first second, positions => ends text second (ends text first positions)
  | alt first second, positions => merge (ends text first positions) (ends text second positions)
  | repetition inner least most, positions =>
    let bound := text.size + 1
    let more := match most with
      | some n => min (n - least) bound
      | none => bound
    let start := stepTimes (ends text inner) (min least bound) positions
    stepUpTo (ends text inner) more start start

def matchesIn (r : Regex) (text : String) : Bool :=
  let characters := text.toList.toArray
  !(r.ends characters (List.range (characters.size + 1))).isEmpty

end Regex

end Transact
