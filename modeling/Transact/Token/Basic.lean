import Transact.Number.Decimal
import Transact.Number.Shortest
import Transact.Text.Quoted
import Transact.Token.Kind

namespace Transact

/-- A place in a source. Lines count from 1. The column is the number of characters of the line up
to and including the one at the place, carriage returns left out, and the index is the number of
characters of the source up to and including it. -/
structure Place where
  line : Nat
  column : Nat
  index : Nat
  deriving DecidableEq

namespace Place

def start : Place := ⟨1, 0, 0⟩

def next (p : Place) (c : Char) : Place :=
  if c = '\n' then ⟨p.line + 1, 0, p.index + 1⟩
  else if c = '\r' then ⟨p.line, p.column, p.index + 1⟩
  else ⟨p.line, p.column + 1, p.index + 1⟩

def advance (p : Place) (text : List Char) : Place := text.foldl next p

theorem advance_nil (p : Place) : p.advance [] = p := rfl

theorem advance_cons (p : Place) (c : Char) (text : List Char) :
    p.advance (c :: text) = (p.next c).advance text := rfl

theorem advance_append (p : Place) (a b : List Char) :
    p.advance (a ++ b) = (p.advance a).advance b := List.foldl_append

theorem index_advance (p : Place) (text : List Char) :
    (p.advance text).index = p.index + text.length := by
  induction text generalizing p with
  | nil => rfl
  | cons c text ih =>
      have hc : (p.next c).index = p.index + 1 := by
        simp only [next]
        split
        · rfl
        · split <;> rfl
      rw [advance_cons, ih, hc, List.length_cons]
      omega

end Place

inductive Value where
  | none
  | text (text : String)
  | int (number : Int32)
  | bigInt (number : Int64)
  | numeric (number : Decimal)
  | real (number : Binary64)
  deriving DecidableEq

structure Token where
  kind : Kind
  place : Place
  value : Value
  deriving DecidableEq

namespace Value

def toText : Value → String
  | .none => ""
  | .text s => s
  | .int number => toString number.toInt
  | .bigInt number => toString number.toInt
  | .numeric number => number.toText
  | .real number => number.positional

end Value

namespace Token

def eof (place : Place) : Token := ⟨.eof, place, .none⟩

def text (t : Token) : String :=
  match t.value with
  | .text text => text
  | _ => ""

def int? (t : Token) : Option Int32 :=
  match t.value with
  | .int number => some number
  | _ => none

def bigInt? (t : Token) : Option Int64 :=
  match t.value with
  | .bigInt number => some number
  | _ => none

def numeric? (t : Token) : Option Decimal :=
  match t.value with
  | .numeric number => some number
  | _ => none

def real? (t : Token) : Option Binary64 :=
  match t.value with
  | .real number => some number
  | _ => none

def shownValue (t : Token) : Option String :=
  match t.kind, t.value with
  | .keyword _, _ => none
  | _, .none => none
  | .constant .varchar, .text text => some (Text.Quoted.quote text)
  | .constant .nvarchar, .text text => some ("N" ++ Text.Quoted.quote text)
  | _, value => some value.toText

def toText (t : Token) : String :=
  let head := s!"Token {t.place.line},{t.place.column} - {t.kind.name}"
  match t.shownValue with
  | some value => head ++ " => " ++ value
  | none => head

end Token

end Transact
