import Transact.Token.Mark
import Transact.Vocabulary.Keyword

namespace Transact

inductive ConstantType where
  | int | bigInt | numeric | real | varchar | nvarchar
  deriving DecidableEq

inductive CommentStyle where
  | line | block
  deriving DecidableEq

inductive Kind where
  /-- A plain or delimited identifier, a variable or the name of a temporary table. -/
  | identifier
  | constant (type : ConstantType)
  | comment (style : CommentStyle)
  | keyword (word : Keyword)
  | mark (mark : Mark)
  /-- The end of the input. -/
  | eof
  deriving DecidableEq

namespace ConstantType

def all : List ConstantType := [.int, .bigInt, .numeric, .real, .varchar, .nvarchar]

def kindName : ConstantType → String
  | .int => "IntConstant"
  | .bigInt => "BigIntConstant"
  | .numeric => "NumericConstant"
  | .real => "RealConstant"
  | .varchar => "VarcharConstant"
  | .nvarchar => "NvarcharConstant"

end ConstantType

namespace Kind

def all : List Kind :=
  [.identifier, .comment .line, .comment .block, .eof] ++ ConstantType.all.map .constant ++
    Mark.all.map .mark ++ Keyword.all.map .keyword

def name : Kind → String
  | .identifier => "Identifier"
  | .constant type => type.kindName
  | .comment .line => "LineComment"
  | .comment .block => "BlockComment"
  | .keyword word => word.spelling
  | .mark m => m.name
  | .eof => "Eof"

def isComment : Kind → Bool
  | .comment _ => true
  | _ => false

/-- The kind of a word: a keyword when it is reserved, an identifier otherwise. -/
def ofWord (word : String) : Kind :=
  match Keyword.ofWord? word with
  | some reserved => .keyword reserved
  | none => .identifier

theorem mem_all (k : Kind) : k ∈ all := by
  cases k with
  | identifier => simp [all]
  | constant type => cases type <;> simp [all, ConstantType.all]
  | comment style => cases style <;> simp [all]
  | keyword word => simp [all, Keyword.mem_all]
  | mark m => simp [all, Mark.mem_all]
  | eof => simp [all]

end Kind

end Transact
