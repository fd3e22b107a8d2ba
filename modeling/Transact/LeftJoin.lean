import Transact.Text.Caseless
import Transact.Traversal.Visit

namespace Transact

structure Finding where
  line : Nat
  column : Nat
  /-- The name by which the joined table is known. -/
  aliasName : String
  reference : String
  deriving DecidableEq

namespace Finding

def message (f : Finding) : String :=
  s!"line {f.line} char {f.column}: `{f.reference}` in WHERE drops the unmatched rows of " ++
    s!"LEFT JOIN `{f.aliasName}`"

end Finding

mutual

def Expression.ownReferences : Expression → List Reference
  | .unary _ _ operand => operand.ownReferences
  | .grouped _ inner => inner.ownReferences
  | .null _ | .constant _ _ | .subquery _ _ => []
  | .reference name => [name]
  | .call _ _ arguments => Expressions.ownReferences arguments
  | .binary _ left _ right => left.ownReferences ++ right.ownReferences

def Expressions.ownReferences : List Expression → List Reference
  | [] => []
  | e :: es => e.ownReferences ++ Expressions.ownReferences es

end

/-- The references by which a condition filters. -/
def Predicate.filterReferences : Predicate → List Reference
  | .not _ inner | .grouped _ inner => inner.filterReferences
  | .existence _ _ | .nullCheck _ _ true => []
  | .nullCheck _ left false | .inSubquery _ left _ _ | .quantified _ left _ _ _ =>
    left.ownReferences
  | .inList _ left _ list => left.ownReferences ++ Expressions.ownReferences list
  | .between _ left _ low high => left.ownReferences ++ low.ownReferences ++ high.ownReferences
  | .comparison _ left _ right => left.ownReferences ++ right.ownReferences
  | .binary _ left _ right => left.filterReferences ++ right.filterReferences

def Sources.leftNames (sources : List Source) : List String :=
  (sources.filter fun s => s.join = .left).filterMap Source.visibleName

namespace LeftJoin

/-- A finding if the first of several parts is one of the names. -/
def finding? (names : List String) (r : Reference) : Option Finding :=
  match r.parts with
  | qualifier :: _ :: _ =>
    (names.find? fun name => Text.sameWord name qualifier).map fun name =>
      ⟨r.origin.place.line, r.origin.place.column, name, r.identifier⟩
  | _ => none

def findings (sources : List Source) : Option Predicate → List Finding
  | some condition => condition.filterReferences.filterMap (finding? (Sources.leftNames sources))
  | none => []

def check : Visit → List Finding
  | .select s => findings s.sources s.filter
  | .update s => findings s.sources s.filter
  | .delete s => findings s.sources s.filter
  | _ => []

end LeftJoin

def checkLeftJoins (statements : List Statement) : List Finding :=
  (Statements.visits statements).flatMap LeftJoin.check

end Transact
