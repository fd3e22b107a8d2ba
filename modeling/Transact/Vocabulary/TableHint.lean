import Transact.Text.Caseless

namespace Transact

inductive TableHint where
  | NOLOCK | NOEXPAND | FORCESCAN | FORCESEEK | HOLDLOCK | NOWAIT | PAGLOCK | READCOMMITTED
  | READCOMMITTEDLOCK | READPAST | READUNCOMMITTED | REPEATABLEREAD | ROWLOCK | SERIALIZABLE
  | SNAPSHOT | SPATIAL_WINDOW_MAX_CELLS | TABLOCK | TABLOCKX | UPDLOCK | XLOCK
  deriving DecidableEq

namespace TableHint

def all : List TableHint := [
  .NOLOCK, .NOEXPAND, .FORCESCAN, .FORCESEEK, .HOLDLOCK, .NOWAIT, .PAGLOCK, .READCOMMITTED,
  .READCOMMITTEDLOCK, .READPAST, .READUNCOMMITTED, .REPEATABLEREAD, .ROWLOCK, .SERIALIZABLE,
  .SNAPSHOT, .SPATIAL_WINDOW_MAX_CELLS, .TABLOCK, .TABLOCKX, .UPDLOCK, .XLOCK]

def spelling : TableHint → String
  | .NOLOCK => "NOLOCK"
  | .NOEXPAND => "NOEXPAND"
  | .FORCESCAN => "FORCESCAN"
  | .FORCESEEK => "FORCESEEK"
  | .HOLDLOCK => "HOLDLOCK"
  | .NOWAIT => "NOWAIT"
  | .PAGLOCK => "PAGLOCK"
  | .READCOMMITTED => "READCOMMITTED"
  | .READCOMMITTEDLOCK => "READCOMMITTEDLOCK"
  | .READPAST => "READPAST"
  | .READUNCOMMITTED => "READUNCOMMITTED"
  | .REPEATABLEREAD => "REPEATABLEREAD"
  | .ROWLOCK => "ROWLOCK"
  | .SERIALIZABLE => "SERIALIZABLE"
  | .SNAPSHOT => "SNAPSHOT"
  | .SPATIAL_WINDOW_MAX_CELLS => "SPATIAL_WINDOW_MAX_CELLS"
  | .TABLOCK => "TABLOCK"
  | .TABLOCKX => "TABLOCKX"
  | .UPDLOCK => "UPDLOCK"
  | .XLOCK => "XLOCK"

def ofWord? (word : String) : Option TableHint :=
  let spelled := Text.upper word
  all.find? fun w => w.spelling == spelled

theorem spelling_eq_of_ofWord? {word : String} {h : TableHint} (hw : ofWord? word = some h) :
    h.spelling = Text.upper word := by
  simpa using List.find?_some hw

theorem mem_all (h : TableHint) : h ∈ all := by cases h <;> decide

end TableHint

end Transact
