import Transact.Text.Caseless
import Transact.Traversal.Rewrite

namespace Transact

def Sources.names (sources : List Source) (name : String) : Bool :=
  sources.any fun s => s.visibleName.any fun visible => Text.sameWord visible name

/-- A schema, and how many names it was put before. -/
structure Qualifier where
  schema : String
  count : Nat

namespace Reference

def needsSchema (r : Reference) : Bool :=
  match r.parts with
  | [name] =>
    match name.toList with
    | [] => false
    | c :: _ => c != '@' && c != '#'
  | _ => false

end Reference

namespace Qualifier

def ofSchema (schema : String) : Qualifier := ⟨schema, 0⟩

def qualify (r : Reference) : StateM Qualifier Reference := fun q =>
  if r.needsSchema then ({ r with parts := q.schema :: r.parts }, { q with count := q.count + 1 })
  else (r, q)

def qualifyTarget (sources : List Source) (target : Reference) : StateM Qualifier Reference :=
  if Sources.names sources target.objectName then pure target else qualify target

/-- Targets are compared with the names of the `FROM` list before these are qualified. -/
def rewriter : Rewriter Qualifier where
  tableSource s := return { s with name := ← qualify s.name }
  insertValues s := return { s with target := ← qualify s.target }
  insertSelect s := return { s with target := ← qualify s.target }
  update s := return { s with target := ← qualifyTarget s.sources s.target }
  delete s := return { s with target := ← qualifyTarget s.sources s.target }

end Qualifier

/-- The statements with all their tables qualified, and how many names were changed. -/
def qualifyTables (schema : String) (statements : List Statement) : List Statement × Nat :=
  let (statements, q) := Qualifier.rewriter.run statements (.ofSchema schema)
  (statements, q.count)

end Transact
