import Transact.Proofs.Table.Qualified

namespace Transact

namespace Reference

/-- A name takes a schema once, whether or not the schema is empty. -/
theorem not_takesSchema_qualified (schema : String) (r : Reference) :
    ¬ (r.qualified schema).TakesSchema := by
  by_cases h : r.TakesSchema
  · rw [qualified_of_takesSchema h]
    obtain ⟨name, hparts, -⟩ := h
    rintro ⟨name', hparts', -⟩
    simp [hparts] at hparts'
  · rwa [qualified_of_not_takesSchema schema h]

theorem qualified_qualified (schema schema' : String) (r : Reference) :
    (r.qualified schema).qualified schema' = r.qualified schema :=
  qualified_of_not_takesSchema schema' (not_takesSchema_qualified schema r)

end Reference

namespace Renaming

/-- Only the first of two schemas counts. -/
theorem ofSchema_andThen (schema schema' : String) :
    (ofSchema schema).andThen (ofSchema schema') = ofSchema schema := by
  ext1
  case column | function | origin => rfl
  case table => exact funext (Reference.qualified_qualified schema schema')
  case inserted => exact funext (Reference.qualified_qualified schema schema')
  case changed =>
    funext sources target
    change (ofSchema schema').changed (Sources.rename (ofSchema schema) sources)
      ((ofSchema schema).changed sources target) = _
    by_cases h : Sources.HasName Text.sameWord sources target.objectName
    · rw [changed_of_hasName h, changed_of_hasName (Sources.hasName_rename.2 h)]
    · -- The list is asked for the name of the target, which has the schema by now.
      have h' : ¬ Sources.HasName Text.sameWord (Sources.rename (ofSchema schema) sources)
          (target.qualified schema).objectName := by
        rwa [Sources.hasName_rename, Reference.objectName_qualified]
      rw [changed_of_not_hasName h, changed_of_not_hasName h',
        Reference.qualified_qualified]

end Renaming

theorem Visit.changes_self (visits : List Visit) : changes visits visits = 0 := by
  have hzip (names : List Reference) : names.zip names = names.map fun r => (r, r) :=
    List.zipWith_self
  rw [changes, hzip, List.countP_map, List.countP_eq_zero]
  intro r _ hr
  exact of_decide_eq_true hr rfl

/-- Statements whose tables got a schema are left as they are by the same or another one, and no
name is counted. -/
theorem qualifyTables_qualifyTables (schema schema' : String) (statements : List Statement) :
    qualifyTables schema' (qualifyTables schema statements).1 =
      ((qualifyTables schema statements).1, 0) := by
  rw [qualifyTables_eq schema, qualifyTables_eq schema']
  have hstay : Statements.rename (.ofSchema schema') (Statements.rename (.ofSchema schema)
      statements) = Statements.rename (.ofSchema schema) statements := by
    rw [Statements.rename_rename, Renaming.ofSchema_andThen]
  have hcount := ((Statements.aligned (m := .ofSchema schema')
    (Statements.rename (.ofSchema schema) statements)).changes rfl).changes_eq
  rw [hstay, Visit.changes_self] at hcount
  exact Prod.ext hstay hcount.symm

end Transact
