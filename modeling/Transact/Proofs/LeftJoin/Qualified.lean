import Transact.LeftJoin
import Transact.Proofs.Syntax.Renamed
import Transact.Proofs.Table.Qualified

namespace Transact

section

variable (m : Renaming)

mutual

theorem Expression.ownReferences_rename :
    (e : Expression) → (e.rename m).ownReferences = e.ownReferences.map m.column
  | .unary _ _ operand => by
      rw [Expression.rename, Expression.ownReferences, operand.ownReferences_rename,
        Expression.ownReferences]
  | .grouped _ inner => by
      rw [Expression.rename, Expression.ownReferences, inner.ownReferences_rename,
        Expression.ownReferences]
  | .null _ => by
      rw [Expression.rename, Expression.ownReferences]
      rfl
  | .constant _ _ => by
      rw [Expression.rename, Expression.ownReferences]
      rfl
  | .subquery _ _ => by
      rw [Expression.rename, Expression.ownReferences, Expression.ownReferences]
      rfl
  | .reference _ => by
      rw [Expression.rename, Expression.ownReferences, Expression.ownReferences]
      rfl
  | .call _ _ arguments => by
      rw [Expression.rename, Expression.ownReferences, Expressions.ownReferences_rename arguments,
        Expression.ownReferences]
  | .binary _ left _ right => by
      rw [Expression.rename, Expression.ownReferences, left.ownReferences_rename,
        right.ownReferences_rename, Expression.ownReferences, List.map_append]

theorem Expressions.ownReferences_rename : (es : List Expression) →
    Expressions.ownReferences (Expressions.rename m es) =
      (Expressions.ownReferences es).map m.column
  | [] => by
      rw [Expressions.rename, Expressions.ownReferences]
      rfl
  | e :: es => by
      rw [Expressions.rename, Expressions.ownReferences, e.ownReferences_rename,
        Expressions.ownReferences_rename es, Expressions.ownReferences, List.map_append]

end

theorem Predicate.filterReferences_rename :
    (p : Predicate) → (p.rename m).filterReferences = p.filterReferences.map m.column
  | .not _ inner => by
      rw [Predicate.rename, Predicate.filterReferences, inner.filterReferences_rename,
        Predicate.filterReferences]
  | .existence _ _ => by
      rw [Predicate.rename, Predicate.filterReferences, Predicate.filterReferences]
      rfl
  | .inSubquery _ left _ _ => by
      rw [Predicate.rename, Predicate.filterReferences, left.ownReferences_rename,
        Predicate.filterReferences]
  | .inList _ left _ list => by
      rw [Predicate.rename, Predicate.filterReferences, left.ownReferences_rename,
        Expressions.ownReferences_rename, Predicate.filterReferences, List.map_append]
  | .between _ left _ low high => by
      rw [Predicate.rename, Predicate.filterReferences, left.ownReferences_rename,
        low.ownReferences_rename, high.ownReferences_rename, Predicate.filterReferences,
        List.map_append, List.map_append]
  | .grouped _ inner => by
      rw [Predicate.rename, Predicate.filterReferences, inner.filterReferences_rename,
        Predicate.filterReferences]
  | .quantified _ left _ _ _ => by
      rw [Predicate.rename, Predicate.filterReferences, left.ownReferences_rename,
        Predicate.filterReferences]
  | .nullCheck _ _ true => by
      rw [Predicate.rename, Predicate.filterReferences, Predicate.filterReferences]
      rfl
  | .nullCheck _ left false => by
      rw [Predicate.rename, Predicate.filterReferences, left.ownReferences_rename,
        Predicate.filterReferences]
  | .comparison _ left _ right => by
      rw [Predicate.rename, Predicate.filterReferences, left.ownReferences_rename,
        right.ownReferences_rename, Predicate.filterReferences, List.map_append]
  | .binary _ left _ right => by
      rw [Predicate.rename, Predicate.filterReferences, left.filterReferences_rename,
        right.filterReferences_rename, Predicate.filterReferences, List.map_append]

end

variable {schema : String}

theorem Sources.leftNames_rename (sources : List Source) :
    leftNames (Sources.rename (.ofSchema schema) sources) = leftNames sources := by
  rw [Sources.rename_eq, leftNames, leftNames, List.filter_map, List.filterMap_map]
  simp only [Function.comp_def, Source.join_rename, Source.visibleName_rename]

namespace LeftJoin

theorem findings_rename (sources : List Source) (filter : Option Predicate) :
    findings (Sources.rename (.ofSchema schema) sources)
        (OptionalPredicate.rename (.ofSchema schema) filter) =
      findings sources filter := by
  cases filter with
  | none =>
      rw [OptionalPredicate.rename]
      rfl
  | some condition =>
      have hnames : (condition.rename (.ofSchema schema)).filterReferences =
          condition.filterReferences := by
        rw [condition.filterReferences_rename]
        exact List.map_id _
      rw [OptionalPredicate.rename, findings, findings, hnames, Sources.leftNames_rename]

theorem check_rename (v : Visit) : check (v.rename (.ofSchema schema)) = check v := by
  cases v with
  | select s =>
      cases s
      rw [Visit.rename, Select.rename]
      exact findings_rename _ _
  | update s => exact findings_rename s.sources s.filter
  | delete s => exact findings_rename s.sources s.filter
  | _ => rfl

/-- There is no finding at a name, so that it does not matter which names a walk meets. -/
theorem flatMap_check_aligned {vs us : List Visit} (h : (Renaming.ofSchema schema).Aligned vs us) :
    us.flatMap check = vs.flatMap check := by
  have hname (name : Reference) : check (.reference name) = [] := rfl
  induction h with
  | nil => rfl
  | node _ _ ih => rw [List.flatMap_cons, check_rename, ih, List.flatMap_cons]
  | owner _ _ _ iht ih =>
      simp only [List.flatMap_cons, List.flatMap_append, check_rename, hname, iht, ih]

end LeftJoin

/-- Statements have the same findings, in the same order, before and after their tables got a
schema. -/
theorem checkLeftJoins_qualifyTables (schema : String) (statements : List Statement) :
    checkLeftJoins (qualifyTables schema statements).1 = checkLeftJoins statements := by
  rw [qualifyTables_eq, checkLeftJoins, checkLeftJoins]
  exact LeftJoin.flatMap_check_aligned (Statements.aligned statements)

end Transact
