import Transact.Regex.Escape

namespace Transact.Regex

structure Class where
  set : CharSet
  depth : Nat

structure Stretch where
  set : CharSet
  items : Nat
  depth : Nat

namespace Stretch

def empty : Stretch := ⟨.empty, 0, 0⟩

def add (s : Stretch) (item : Class) : Stretch :=
  ⟨.union s.set item.set, s.items + 1, max s.depth item.depth⟩

def close (s : Stretch) : Class := ⟨s.set, if s.items > 1 then s.depth + 1 else s.depth⟩

end Stretch

/-- The set that is meant by characters between brackets: case is seen to before the negation.
Without Unicode nothing can be negated. -/
def Flags.settled? (f : Flags) (negated : Bool) (set : CharSet) : Option CharSet :=
  if !negated then some (f.folded set)
  else if f.isUnicode then some (.complement (f.folded set))
  else none

def Class.join (f : Flags) (operation : CharSet → CharSet → CharSet) (left right : Class) : Class :=
  ⟨operation (f.folded left.set) (f.folded right.set), max left.depth right.depth + 1⟩

def readClassItem (f : Flags) : List Char → Option (Atom × List Char)
  | '\\' :: rest => readEscape f rest
  | c :: rest => some (.literal c, rest)
  | [] => none

/-- The character by which the hyphen before it is judged. Blanks are passed over where they mean
nothing, but not the text of a comment. -/
def peek (f : Flags) (source : List Char) : Option Char :=
  if f.isSpaced then
    match source.dropWhile Unicode.isBlank with
    | '#' :: rest => (rest.dropWhile Unicode.isBlank).head?
    | rest => rest.head?
  else source.head?

/-- A hyphen between two characters makes a range, unless a bracket or another hyphen follows. -/
def readClassRange (f : Flags) (source : List Char) : Option (CharSet × List Char) := do
  let (first, rest) ← readClassItem f source
  match dropSpace f rest with
  | [] => none
  | c :: tail =>
    if c != '-' || peek f tail == some ']' || peek f tail == some '-' then
      match first with
      | .literal a => if f.admits a then some (.single a, rest) else none
      | .set s => some (s, rest)
      | .assertion _ => none
    else
      let (last, rest) ← readClassItem f (dropSpace f tail)
      match first, last with
      | .literal a, .literal b =>
        if a ≤ b && f.admits a && f.admits b then some (.range a b, rest) else none
      | _, _ => none

def readNamedClass : List Char → Option (Bool × CharSet × List Char)
  | ':' :: rest =>
    let negated := rest.head? == some '^'
    let rest := if negated then rest.drop 1 else rest
    match rest.dropWhile (· != ':') with
    | ':' :: ']' :: tail =>
      (CharSet.named? (String.ofList (rest.takeWhile (· != ':')))).map (negated, ·, tail)
    | _ => none
  | _ => none

def classOperation? : List Char → Option (CharSet → CharSet → CharSet)
  | '&' :: '&' :: _ => some .inter
  | '-' :: '-' :: _ => some .diff
  | '~' :: '~' :: _ => some .symmDiff
  | _ => none

/-- Hyphens or else a bracket that stand at the start of a class for themselves. -/
def classOpening (f : Flags) (source : List Char) : Stretch × List Char :=
  match takeSpaced f (· == '-') source.length source with
  | ([], ']' :: rest) => (Stretch.empty.add ⟨.single ']', 0⟩, dropSpace f rest)
  | (hyphens, rest) => (hyphens.foldl (fun s c => s.add ⟨.single c, 0⟩) .empty, rest)

mutual

def readClass (fuel : Nat) (f : Flags) (source : List Char) : Option (Class × List Char) :=
  match fuel with
  | 0 => none
  | fuel + 1 => do
    let source := dropSpace f source
    let negated := source.head? == some '^'
    let source := if negated then dropSpace f (source.drop 1) else source
    let (opening, rest) := classOpening f source
    let (inner, rest) ← readClassItems fuel f id opening rest
    return (⟨← f.settled? negated inner.set, inner.depth + 1⟩, rest)

/-- The items up to the closing bracket. `combine` applies the operation that is pending to the
stretch that ends. -/
def readClassItems (fuel : Nat) (f : Flags) (combine : Class → Class) (stretch : Stretch)
    (source : List Char) : Option (Class × List Char) :=
  match fuel with
  | 0 => none
  | fuel + 1 =>
    let source := dropSpace f source
    match classOperation? source with
    | some operation =>
      readClassItems fuel f (Class.join f operation (combine stretch.close)) .empty (source.drop 2)
    | none =>
      match source with
      | [] => none
      | ']' :: rest => some (combine stretch.close, rest)
      | '[' :: rest =>
        match readNamedClass rest with
        | some (negated, named, rest) => do
          readClassItems fuel f combine (stretch.add ⟨← f.settled? negated named, 0⟩) rest
        | none => do
          let (inner, rest) ← readClass fuel f rest
          readClassItems fuel f combine (stretch.add inner) rest
      | _ => do
        let (item, rest) ← readClassRange f source
        readClassItems fuel f combine (stretch.add ⟨item, 0⟩) rest

end

end Transact.Regex
