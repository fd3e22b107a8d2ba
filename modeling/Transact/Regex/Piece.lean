import Transact.Regex.Class

namespace Transact.Regex

def stateSize : Nat := 32

namespace CharSet

def transitions : CharSet → Nat
  | empty => 0
  | range first last =>
    if last.toNat < 128 then 8
    else if first = last then stateSize * last.utf8Size + 4
    else stateSize * last.utf8Size * last.utf8Size
  | digit => 5120
  | blank => 616
  | word => 50440
  | union a b | diff a b | symmDiff a b => a.transitions + b.transitions
  | inter a b => min a.transitions b.transitions
  | complement a => a.transitions + 936
  | caseless (range first last) =>
    if first = last then
      (Unicode.caseVariants first).foldl (fun total c =>
        total + if c.toNat < 128 then 8 else stateSize * c.utf8Size + 4) 0
    else 2 * (range first last).transitions + 168
  | caseless a => 2 * a.transitions + 168
  | ascii a => min a.transitions 512

def size : CharSet → Nat
  | range first last =>
    if first = last then stateSize * first.utf8Size
    else 2 * stateSize + (range first last).transitions
  | set => 2 * stateSize + set.transitions

end CharSet

def takesNothing : Regex → Bool
  | empty | assertion _ _ => true
  | one _ => false
  | seq a b | alt a b => a.takesNothing && b.takesNothing
  | repetition inner _ most => inner.takesNothing || most == some 0

structure Piece where
  regex : Regex
  depth : Nat
  size : Nat

namespace Piece

def empty : Piece := ⟨.empty, 0, 0⟩

def one (set : CharSet) : Piece := ⟨.one set, 0, set.size⟩

def assertion (isUnicode : Bool) (condition : Assertion) : Piece :=
  ⟨.assertion isUnicode condition, 0, stateSize⟩

def ofClass (c : Class) : Piece := { one c.set with depth := c.depth }

def maxDepth (pieces : List Piece) : Nat := pieces.foldl (fun d p => max d p.depth) 0

def totalSize (pieces : List Piece) : Nat := pieces.foldl (fun total p => total + p.size) 0

def sequence : List Piece → Piece
  | [] => empty
  | [p] => p
  | pieces =>
    ⟨(pieces.map regex).foldr .seq .empty, maxDepth pieces + 1, totalSize pieces⟩

def alternatives : List Piece → Piece
  | [] => empty
  | [p] => p
  | first :: others =>
    let pieces := first :: others
    ⟨(others.map regex).foldl .alt first.regex, maxDepth pieces + 1,
      totalSize pieces + 2 * stateSize + 4 * pieces.length⟩

def grouped (captures : Bool) (p : Piece) : Piece :=
  { p with depth := p.depth + 1, size := p.size + if captures then 2 * stateSize else 0 }

/-- A piece that matches no text is repeated once at most. -/
def repeated (p : Piece) (least : Nat) (most : Option Nat) : Piece :=
  let bounded (n : Nat) : Nat := if p.regex.takesNothing then min n 1 else n
  let size := match most with
    | some n => bounded n * p.size + (bounded n - bounded least) * (stateSize + 8)
    | none => max (bounded least) 1 * p.size + stateSize + 8
  ⟨.repetition p.regex least most, p.depth + 1, size⟩

/-- A pattern is refused when it is nested deeper or is larger. -/
def isWithinLimits (p : Piece) : Bool := p.depth ≤ 250 && p.size ≤ 10485760

end Piece

end Transact.Regex
