import Transact.Proofs.Table.Search

namespace Transact

/-- A table by its name, its schema and what stands in front of the schema, the nearest first. -/
@[ext] structure TableName where
  object : String
  schema : String
  outer : List String
  deriving DecidableEq

namespace TableName

def ofParts? (parts : List String) : Option TableName :=
  match parts.reverse with
  | [] => none
  | [object] => some ⟨object, "dbo", []⟩
  | object :: schema :: outer => some ⟨object, if schema = "" then "dbo" else schema, outer⟩

def withoutDefault (t : TableName) : List String :=
  (if t.schema = "dbo" then t.object :: t.outer else t.object :: t.schema :: t.outer).reverse

/-- Without its default schema, the one name reads like the other: what stands in front of the
default schema is the schema of the other table and what stands in front of that. -/
@[mk_iff] structure MistakenFor (a b : TableName) : Prop where
  object_eq : a.object = b.object
  schema_eq : a.schema = "dbo"
  schema_ne : b.schema ≠ "dbo"
  outer_eq : a.outer = b.schema :: b.outer

/-- Names that are left without the default schema can be mistaken for names with another one. -/
theorem withoutDefault_eq_iff {a b : TableName} :
    a.withoutDefault = b.withoutDefault ↔ a = b ∨ a.MistakenFor b ∨ b.MistakenFor a := by
  rw [withoutDefault, withoutDefault, List.reverse_inj, mistakenFor_iff, mistakenFor_iff,
    TableName.ext_iff]
  by_cases ha : a.schema = "dbo"
  · by_cases hb : b.schema = "dbo"
    · simp [ha, hb]
    · simp [ha, hb, Ne.symm hb]
  · by_cases hb : b.schema = "dbo"
    · simp [ha, hb, eq_comm]
    · simp [ha, hb]

theorem withoutDefault_ne_nil (t : TableName) : t.withoutDefault ≠ [] := by
  rw [withoutDefault, ne_eq, List.reverse_eq_nil_iff]
  split <;> exact List.cons_ne_nil _ _

theorem ofParts?_eq_none_iff {parts : List String} : ofParts? parts = none ↔ parts = [] := by
  rw [← List.reverse_eq_nil_iff, ofParts?]
  split <;> simp_all

end TableName

def Reference.table? (r : Reference) : Option TableName :=
  TableName.ofParts? (r.parts.map fun part => Text.lower (Text.undelimited part))

theorem Reference.table?_eq_none_iff {r : Reference} : r.table? = none ↔ r.parts = [] := by
  rw [table?, TableName.ofParts?_eq_none_iff, List.map_eq_nil_iff]

namespace TablePattern

theorem dropDefaultSchema_eq {parts : List String} {t : TableName}
    (h : TableName.ofParts? parts = some t) : dropDefaultSchema parts = t.withoutDefault := by
  cases hparts : parts.reverse with
  | nil =>
      rw [TableName.ofParts?, hparts] at h
      cases h
  | cons object rest =>
      have hreverse : parts = (object :: rest).reverse := by rw [← hparts, List.reverse_reverse]
      cases rest with
      | nil =>
          rw [TableName.ofParts?, hparts] at h
          cases h
          rw [dropDefaultSchema, hparts]
          exact hreverse
      | cons schema outer =>
          rw [TableName.ofParts?, hparts] at h
          cases h
          rw [dropDefaultSchema, hparts, TableName.withoutDefault]
          by_cases hempty : schema = ""
          · simp [hempty]
          · by_cases hdefault : schema = "dbo"
            · simp [hdefault]
            · simp [hempty, hdefault, hreverse]

theorem normalized_eq {r : Reference} {t : TableName} (h : r.table? = some t) :
    normalized r = t.withoutDefault :=
  dropDefaultSchema_eq h

theorem normalized_eq_nil {r : Reference} (h : r.parts = []) : normalized r = [] := by
  rw [normalized, h]
  rfl

/-- The pattern for a name accepts another name if and only if they stand for the same table or the
one is mistaken for the other. The parts of the pattern are what its points separate. -/
theorem ofName_accepts_iff (name : String) (r : Reference) :
    (ofName name).accepts r = true ↔ ∃ a b, (Reference.ofDotted name).table? = some a ∧
      r.table? = some b ∧ (a = b ∨ a.MistakenFor b ∨ b.MistakenFor a) := by
  have hparts : (Reference.ofDotted name).parts ≠ [] := by
    rw [Reference.ofDotted, ne_eq, List.map_eq_nil_iff]
    exact Text.splitDots_ne_nil name.toList
  obtain ⟨a, ha⟩ : ∃ a, (Reference.ofDotted name).table? = some a :=
    Option.ne_none_iff_exists'.1 (mt Reference.table?_eq_none_iff.1 hparts)
  rw [ofName, accepts, beq_iff_eq, normalized_eq ha, eq_comm]
  cases hb : r.table? with
  | none =>
      rw [normalized_eq_nil (Reference.table?_eq_none_iff.1 hb)]
      constructor
      · exact fun h => absurd h a.withoutDefault_ne_nil
      · rintro ⟨-, b, -, hb', -⟩
        cases hb'
  | some b =>
      rw [normalized_eq hb, TableName.withoutDefault_eq_iff]
      constructor
      · exact fun h => ⟨a, b, ha, rfl, h⟩
      · rintro ⟨a', b', ha', hb', h⟩
        cases ha.symm.trans ha'
        cases hb'
        exact h

/-- A search for a table in a schema finds the table of that name in the default schema of a
database that has the name of the schema. -/
theorem ofName_accepts_database : ∃ vs x, parse "SELECT 1 FROM sales.dbo.orders" = .ok vs ∧
    .tableSource x ∈ Statements.visits vs ∧ (∀ part ∈ x.name.parts, '.' ∉ part.toList) ∧
    (ofName "sales.orders").accepts x.name = true ∧
    (Reference.ofDotted "sales.orders").table? = some ⟨"orders", "sales", []⟩ ∧
    x.name.table? = some ⟨"orders", "dbo", ["sales"]⟩ := by
  obtain ⟨vs, hvs, h⟩ := exists_of_parse "SELECT 1 FROM sales.dbo.orders"
    (fun vs => (Visit.tableSources (Statements.visits vs)).any fun x =>
      (x.name.parts.all fun part => !part.toList.contains '.') &&
        (ofName "sales.orders").accepts x.name &&
        x.name.table? = some ⟨"orders", "dbo", ["sales"]⟩) (by decide +kernel)
  simp only [List.any_eq_true, List.all_eq_true, Bool.and_eq_true, Bool.not_eq_true',
    decide_eq_true_eq, Visit.mem_tableSources] at h
  obtain ⟨x, hx, ⟨hparts, haccepts⟩, htable⟩ := h
  have hname : (Reference.ofDotted "sales.orders").table? = some ⟨"orders", "sales", []⟩ := by
    decide +kernel
  refine ⟨vs, x, hvs, hx, fun part hpart => ?_, haccepts, hname, htable⟩
  simpa using hparts part hpart

end TablePattern

end Transact
