import Transact.Proofs.Table.Context
import Transact.Proofs.Traversal.Aligned
import Transact.Proofs.Traversal.Rewriting

namespace Transact

/-- A name takes a schema if it has one part and belongs neither to a variable nor to a temporary
table. -/
def Reference.TakesSchema (r : Reference) : Prop :=
  ∃ name, r.parts = [name] ∧ name ≠ "" ∧
    name.toList.head? ≠ some '@' ∧ name.toList.head? ≠ some '#'

theorem Reference.needsSchema_iff {r : Reference} : r.needsSchema = true ↔ r.TakesSchema := by
  rw [needsSchema, TakesSchema]
  split
  · rename_i name hparts
    cases hname : name.toList with
    | nil =>
        have hempty : name = "" := String.toList_eq_nil_iff.1 hname
        simp [hparts, hempty]
    | cons c cs =>
        have hne : name ≠ "" := fun h => by simp [h] at hname
        simp [hparts, hname, hne]
  · rename_i hparts
    constructor
    · intro h
      cases h
    · rintro ⟨name, hname, -⟩
      exact absurd hname (hparts name)

instance (r : Reference) : Decidable r.TakesSchema := decidable_of_iff _ Reference.needsSchema_iff

/-- An entry of a `FROM` list goes by its alias, and a table without alias by its own name. -/
inductive Source.GoesBy : Source → String → Prop
  | tableAlias {s : TableSource} {name : String} (h : s.aliasName = some name) :
      GoesBy (.table s) name
  | table {s : TableSource} (h : s.aliasName = none) : GoesBy (.table s) s.name.objectName
  | subquery {s : SubquerySource} {name : String} (h : s.aliasName = some name) :
      GoesBy (.subquery s) name

theorem Source.visibleName_eq_some_iff {s : Source} {name : String} :
    s.visibleName = some name ↔ s.GoesBy name := by
  constructor
  · intro h
    cases s with
    | table s =>
        cases ha : s.aliasName with
        | none =>
            simp only [visibleName, ha, Option.getD_none, Option.some.injEq] at h
            exact h ▸ .table ha
        | some a =>
            simp only [visibleName, ha, Option.getD_some, Option.some.injEq] at h
            exact h ▸ .tableAlias ha
    | subquery s => exact .subquery h
  · intro h
    cases h with
    | tableAlias h => simp [visibleName, h]
    | table h => simp [visibleName, h]
    | subquery h => exact h

def Sources.HasName (same : String → String → Bool) (sources : List Source) (name : String) :
    Prop :=
  ∃ s ∈ sources, ∃ visible, s.GoesBy visible ∧ same visible name = true

theorem Sources.any_visibleName_iff {same : String → String → Bool} {sources : List Source}
    {name : String} :
    (sources.any fun s => s.visibleName.any fun visible => same visible name) = true ↔
      HasName same sources name := by
  simp only [HasName, List.any_eq_true, Option.any_eq_true, Source.visibleName_eq_some_iff]

theorem Sources.names_iff {sources : List Source} {name : String} :
    Sources.names sources name = true ↔ HasName Text.sameWord sources name :=
  any_visibleName_iff

instance (same : String → String → Bool) (sources : List Source) (name : String) :
    Decidable (Sources.HasName same sources name) :=
  decidable_of_iff _ Sources.any_visibleName_iff

def Reference.qualified (schema : String) (r : Reference) : Reference :=
  if r.TakesSchema then { r with parts := schema :: r.parts } else r

namespace Reference

variable {schema : String} {r : Reference}

theorem qualified_of_takesSchema (h : r.TakesSchema) :
    r.qualified schema = { r with parts := schema :: r.parts } :=
  if_pos h

theorem qualified_of_not_takesSchema (schema : String) (h : ¬ r.TakesSchema) :
    r.qualified schema = r :=
  if_neg h

theorem qualified_eq_self_iff : r.qualified schema = r ↔ ¬ r.TakesSchema := by
  constructor
  · intro he h
    rw [qualified_of_takesSchema h] at he
    have hlength := congrArg (fun r => r.parts.length) he
    simp at hlength
  · exact qualified_of_not_takesSchema schema

theorem origin_qualified (schema : String) (r : Reference) :
    (r.qualified schema).origin = r.origin := by
  by_cases ht : r.TakesSchema
  · rw [qualified_of_takesSchema ht]
  · rw [qualified_of_not_takesSchema schema ht]

theorem objectName_qualified (schema : String) (r : Reference) :
    (r.qualified schema).objectName = r.objectName := by
  by_cases ht : r.TakesSchema
  · rw [qualified_of_takesSchema ht]
    obtain ⟨name, hparts, -⟩ := ht
    simp [objectName, hparts]
  · rw [qualified_of_not_takesSchema schema ht]

theorem isSingle_qualified (schema : String) {r : Reference} (h : r.TakesSchema) :
    (r.qualified schema).isSingle = false := by
  rw [qualified_of_takesSchema h]
  obtain ⟨name, hparts, -⟩ := h
  simp [isSingle, hparts]

end Reference

def Renaming.ofSchema (schema : String) : Renaming where
  column := id
  table := Reference.qualified schema
  inserted := Reference.qualified schema
  changed sources target :=
    if Sources.HasName Text.sameWord sources target.objectName then target
    else target.qualified schema

section

variable {schema : String} {sources : List Source} {target : Reference}

/-- A target that goes by the name of an entry of its `FROM` list is left alone. -/
theorem Renaming.changed_of_hasName
    (h : Sources.HasName Text.sameWord sources target.objectName) :
    (ofSchema schema).changed sources target = target :=
  if_pos h

theorem Renaming.changed_of_not_hasName
    (h : ¬ Sources.HasName Text.sameWord sources target.objectName) :
    (ofSchema schema).changed sources target = target.qualified schema :=
  if_neg h

theorem Source.visibleName_rename (s : Source) :
    (s.rename (.ofSchema schema)).visibleName = s.visibleName := by
  cases s with
  | table s =>
      cases s
      rw [Source.rename, TableSource.rename]
      simp only [visibleName, Renaming.ofSchema, Reference.objectName_qualified]
  | subquery s =>
      cases s
      rw [Source.rename, SubquerySource.rename]
      rfl

theorem Sources.names_rename (sources : List Source) (name : String) :
    Sources.names (Sources.rename (.ofSchema schema) sources) name =
      Sources.names sources name := by
  rw [Sources.rename_eq, names, names, List.any_map]
  congr 1
  funext s
  simp only [Function.comp_apply, s.visibleName_rename]

theorem Sources.hasName_rename {name : String} :
    HasName Text.sameWord (Sources.rename (.ofSchema schema) sources) name ↔
      HasName Text.sameWord sources name := by
  rw [← names_iff, ← names_iff, names_rename]

end

def Renaming.alters (m : Renaming) (v : Visit) : Bool := (m.own? v).any fun p => p.1 ≠ p.2

namespace Qualifier

variable {schema : String}

def counted (schema : String) (v : Visit) (q : Qualifier) : Qualifier :=
  if (Renaming.ofSchema schema).alters v then { q with count := q.count + 1 } else q

theorem schema_counted (v : Visit) (q : Qualifier) : (counted schema v q).schema = q.schema := by
  rw [counted]
  split <;> rfl

theorem count_counted (v : Visit) (q : Qualifier) : (counted schema v q).count =
    q.count + if (Renaming.ofSchema schema).alters v then 1 else 0 := by
  rw [counted]
  split <;> rfl

def counter (schema : String) : Observer Qualifier where
  see := counted schema
  holds q := q.schema = schema
  keeps v q := (schema_counted v q).trans

theorem count_seeAll (schema : String) (visits : List Visit) (q : Qualifier) :
    ((counter schema).seeAll visits q).count =
      q.count + visits.countP (Renaming.ofSchema schema).alters := by
  induction visits generalizing q with
  | nil => rfl
  | cons v visits ih =>
      change ((counter schema).seeAll visits (counted schema v q)).count = _
      rw [ih, count_counted, List.countP_cons]
      omega

theorem shows_pure {α : Type} (a : α) {v : Visit}
    (hv : (Renaming.ofSchema schema).alters v = false) :
    (counter schema).Shows (pure a) a [v] := by
  intro q _
  have hq : counted schema v q = q := by simp [counted, hv]
  change (a, q) = (a, counted schema v q)
  rw [hq]

theorem shows_qualify {v : Visit} {name : Reference}
    (hv : (Renaming.ofSchema schema).own? v = some (name, name.qualified schema)) :
    (counter schema).Shows (qualify name) (name.qualified schema) [v] := by
  by_cases h : name.TakesSchema
  · have hne : name ≠ name.qualified schema :=
      fun he => Reference.qualified_eq_self_iff.1 he.symm h
    have halters : (Renaming.ofSchema schema).alters v = true := by
      rw [Renaming.alters, hv]
      simpa using hne
    intro q hq
    have hschema : q.schema = schema := hq
    have hcounted : counted schema v q = { q with count := q.count + 1 } := if_pos halters
    change qualify name q = (_, counted schema v q)
    rw [hcounted, Reference.qualified_of_takesSchema h, ← hschema, qualify,
      if_pos (Reference.needsSchema_iff.2 h)]
  · have hname := Reference.qualified_of_not_takesSchema schema h
    have hpure : qualify name = pure name :=
      funext fun _ => if_neg (mt Reference.needsSchema_iff.1 h)
    rw [hpure, hname]
    apply shows_pure
    rw [Renaming.alters, hv, hname]
    simp

theorem shows_qualifyTarget {v : Visit} {sources : List Source} {name : Reference}
    (hv : (Renaming.ofSchema schema).own? v =
      some (name, (Renaming.ofSchema schema).changed sources name)) :
    (counter schema).Shows (qualifyTarget sources name)
      ((Renaming.ofSchema schema).changed sources name) [v] := by
  by_cases h : Sources.HasName Text.sameWord sources name.objectName
  · have hname : (Renaming.ofSchema schema).changed sources name = name :=
      Renaming.changed_of_hasName h
    rw [hname] at hv ⊢
    rw [qualifyTarget, if_pos (Sources.names_iff.2 h)]
    apply shows_pure
    simp [Renaming.alters, hv]
  · have hname : (Renaming.ofSchema schema).changed sources name = name.qualified schema :=
      Renaming.changed_of_not_hasName h
    rw [hname] at hv ⊢
    rw [qualifyTarget, if_neg (mt Sources.names_iff.1 h)]
    exact shows_qualify hv

theorem rewriter_renames (schema : String) :
    rewriter.Renames (.ofSchema schema) (counter schema) := by
  have hpure {α : Type} (a : α) {v : Visit} (hv : (Renaming.ofSchema schema).own? v = none) :
      (counter schema).Shows (pure a) a [v] := shows_pure a (by simp [Renaming.alters, hv])
  constructor
  case origin | function => rfl
  case tableSource =>
    exact fun n => ⟨_, (shows_qualify (v := .tableSource n) rfl).map _, hpure _ rfl⟩
  case insertValues =>
    exact fun n => ⟨_, (shows_qualify (v := .insertValues n) rfl).map _, hpure _ rfl⟩
  case insertSelect =>
    exact fun n => ⟨_, (shows_qualify (v := .insertSelect n) rfl).map _, hpure _ rfl⟩
  case update =>
    exact fun n => ⟨_, (shows_qualifyTarget (v := .update n) rfl).map _, hpure _ rfl⟩
  case delete =>
    exact fun n => ⟨_, (shows_qualifyTarget (v := .delete n) rfl).map _, hpure _ rfl⟩
  all_goals exact fun _ => hpure _ rfl

end Qualifier

namespace Visit

def changes (before after : List Visit) : Nat :=
  ((before.filterMap reference?).zip (after.filterMap reference?)).countP fun p => p.1 ≠ p.2

/-- Two walks meet equally many names, and so many of them are changed. -/
structure Changes (before after : List Visit) (n : Nat) : Prop where
  length_eq : (before.filterMap reference?).length = (after.filterMap reference?).length
  changes_eq : changes before after = n

namespace Changes

variable {vs us ws zs : List Visit} {n k : Nat}

theorem nil : Changes [] [] 0 := ⟨rfl, rfl⟩

theorem append (h : Changes vs us n) (h' : Changes ws zs k) :
    Changes (vs ++ ws) (us ++ zs) (n + k) := by
  constructor
  · simp only [List.filterMap_append, List.length_append, h.length_eq, h'.length_eq]
  · rw [← h.changes_eq, ← h'.changes_eq, changes, List.filterMap_append, List.filterMap_append,
      List.zip_append h.length_eq, List.countP_append]
    rfl

theorem node {v u : Visit} (hv : v.reference? = none) (hu : u.reference? = none)
    (h : Changes vs us n) : Changes (v :: vs) (u :: us) n := by
  constructor
  · rw [List.filterMap_cons_none hv, List.filterMap_cons_none hu]
    exact h.length_eq
  · rw [changes, List.filterMap_cons_none hv, List.filterMap_cons_none hu]
    exact h.changes_eq

theorem name (r r' : Reference) (h : Changes vs us n) :
    Changes (.reference r :: vs) (.reference r' :: us) (n + if r ≠ r' then 1 else 0) := by
  constructor
  · exact congrArg Nat.succ h.length_eq
  · have hcons : changes (.reference r :: vs) (.reference r' :: us) =
        changes vs us + if decide (r ≠ r') = true then 1 else 0 := List.countP_cons
    rw [hcons, h.changes_eq]
    simp only [decide_eq_true_eq]

end Changes

theorem reference?_rename (m : Renaming) {v : Visit} (h : v.reference? = none) :
    (v.rename m).reference? = none := by
  cases v <;> first | rfl | cases h

theorem exists_eq_reference {v : Visit} (h : v.reference? ≠ none) :
    ∃ name, v = .reference name := by
  cases v <;> first | exact ⟨_, rfl⟩ | exact absurd rfl h

theorem reference?_of_own? {m : Renaming} {v : Visit} {p : Reference × Reference}
    (h : m.own? v = some p) : v.reference? = none := by
  cases v <;> first | rfl | cases h

end Visit

open Visit

/-- If no other names are renamed, the names of tables and targets are those that change. -/
theorem Renaming.Aligned.changes {m : Renaming} {vs us : List Visit} (h : m.Aligned vs us)
    (hm : m.column = id) : Changes vs us (vs.countP m.alters) := by
  induction h with
  | nil => exact .nil
  | @node v vs us hv _ ih =>
      have halters : m.alters v = false := by simp [alters, hv]
      rw [List.countP_cons_of_neg (by simp [halters])]
      by_cases hname : v.reference? = none
      · exact ih.node hname (reference?_rename m hname)
      · obtain ⟨name, rfl⟩ := exists_eq_reference hname
        have hrename : (Visit.reference name).rename m = .reference name := by
          rw [Visit.rename, hm]
          rfl
        rw [hrename]
        simpa using ih.name name name
  | @owner v name name' ts ts' vs us hv _ _ iht ih =>
      -- the change of an owned name is counted at its owner, and not at the name that stands
      -- below
      have hnode := reference?_of_own? hv
      have halters : m.alters v = decide (name ≠ name') := by rw [alters, hv, Option.any_some]
      have h := (iht.append (ih.name name name')).node hnode (reference?_rename m hnode)
      have hname : m.alters (.reference name) = false := rfl
      rw [List.countP_cons, List.countP_append, List.countP_cons, hname, halters]
      simpa [Nat.add_assoc] using h

/-- The statements get the schema wherever it belongs, and it is counted how often that changes a
name. -/
theorem qualifyTables_eq (schema : String) (statements : List Statement) :
    qualifyTables schema statements = (Statements.rename (.ofSchema schema) statements,
      (Statements.visits statements).countP (Renaming.ofSchema schema).alters) := by
  have hstart : (Qualifier.counter schema).holds (.ofSchema schema) := rfl
  have hrun := Rewriter.run_eq_rename (Qualifier.rewriter_renames schema) statements hstart
  have hcount := Qualifier.count_seeAll schema (Statements.visits statements) (.ofSchema schema)
  rw [Qualifier.ofSchema, Nat.zero_add, ← Qualifier.ofSchema] at hcount
  rw [qualifyTables, hrun]
  exact Prod.ext rfl hcount

/-- The statements differ only by the schema before the tables of `FROM` lists and the targets of
changes that take it, where a target that goes by the name of an entry of its own `FROM` list takes
none; and the count is the number of the names that a walk meets changed. -/
theorem qualifyTables_exact (schema : String) (statements : List Statement) :
    (qualifyTables schema statements).1 = Statements.rename (.ofSchema schema) statements ∧
      (qualifyTables schema statements).2 = Visit.changes (Statements.visits statements)
        (Statements.visits (qualifyTables schema statements).1) := by
  rw [qualifyTables_eq]
  exact ⟨rfl, ((Statements.aligned statements).changes rfl).changes_eq.symm⟩

end Transact
