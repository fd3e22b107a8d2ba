import Transact.Proofs.Table.Qualified

namespace Transact

namespace Text

/-- A word in any case, with or without delimiters around it. -/
inductive Writes (word : String) : String → Prop
  | plain {text : String} (h : sameWord text word = true) : Writes word text
  | bracketed {text : String} (h : sameWord text word = true) : Writes word ("[" ++ text ++ "]")
  | quoted {text : String} (h : sameWord text word = true) : Writes word ("\"" ++ text ++ "\"")

def isDelimiter (c : Char) : Bool := c == '[' || c == ']' || c == '"'

/-- The delimiters around a text without any in it are those that are left out. -/
theorem undelimited_append {opening text closing : List Char}
    (ho : ∀ c ∈ opening, (c == '[' || c == '"') = true)
    (hc : ∀ c ∈ closing, (c == ']' || c == '"') = true) (hne : text ≠ [])
    (ht : ∀ c ∈ text, isDelimiter c = false) :
    undelimited (String.ofList (opening ++ (text ++ closing))) = String.ofList text := by
  have hplain (c : Char) (h : c ∈ text) :
      (c == '[' || c == '"') = false ∧ (c == ']' || c == '"') = false := by
    have hdelimiter := ht c h
    simp only [isDelimiter, Bool.or_eq_false_iff] at hdelimiter ⊢
    exact ⟨⟨hdelimiter.1.1, hdelimiter.2⟩, hdelimiter.1.2, hdelimiter.2⟩
  have hfirst : ∀ c, (text ++ closing).head? = some c → (c == '[' || c == '"') = false := by
    intro c h
    rw [List.head?_append_of_ne_nil _ hne] at h
    exact (hplain c (List.mem_of_head? h)).1
  have hlast : ∀ c, text.reverse.head? = some c → (c == ']' || c == '"') = false :=
    fun c h => (hplain c (List.mem_reverse.1 (List.mem_of_head? h))).2
  have hclosing : ∀ c ∈ closing.reverse, (c == ']' || c == '"') = true :=
    fun c h => hc c (List.mem_reverse.1 h)
  simp only [undelimited, String.toList_ofList, Lexeme.dropWhile_append_of_all ho hfirst,
    List.reverse_append, Lexeme.dropWhile_append_of_all hclosing hlast, List.reverse_reverse]

theorem isDelimiter_of_toLower {c : Char} (h : isDelimiter c.toLower = false) :
    isDelimiter c = false := by
  cases hc : isDelimiter c with
  | false => rfl
  | true =>
      simp only [isDelimiter, Bool.or_eq_true, beq_iff_eq] at hc
      rcases hc with (rfl | rfl) | rfl <;> exact absurd h (by decide)

/-- A word without delimiters in it is compared without those that stand around it. -/
theorem lower_undelimited_append {word text : String} (h : sameWord text word = true)
    (hne : word.toList ≠ []) (hw : (word.toList.any fun c => isDelimiter c.toLower) = false)
    {opening closing : List Char} (ho : ∀ c ∈ opening, (c == '[' || c == '"') = true)
    (hc : ∀ c ∈ closing, (c == ']' || c == '"') = true) :
    lower (undelimited (String.ofList (opening ++ (text.toList ++ closing)))) = lower word := by
  have hlower : lower text = lower word := beq_iff_eq.1 h
  have hchars : text.toList.map Char.toLower = word.toList.map Char.toLower := by
    simpa [lower] using congrArg String.toList hlower
  have htext : text.toList ≠ [] := by
    intro he
    rw [he, List.map_nil] at hchars
    exact hne (List.map_eq_nil_iff.1 hchars.symm)
  have hplain (c : Char) (hc : c ∈ text.toList) : isDelimiter c = false := by
    have hmem : c.toLower ∈ word.toList.map Char.toLower := hchars ▸ List.mem_map_of_mem hc
    obtain ⟨d, hd, he⟩ := List.mem_map.1 hmem
    apply isDelimiter_of_toLower
    rw [← he]
    simpa using List.any_eq_false.1 hw d hd
  rw [undelimited_append ho hc htext hplain, String.ofList_toList, hlower]

theorem Writes.lower_undelimited {word text : String} (h : Writes word text)
    (hne : word.toList ≠ [])
    (hw : (word.toList.any fun c => isDelimiter c.toLower) = false) :
    lower (undelimited text) = lower word := by
  cases h with
  | plain h =>
      have hlower := lower_undelimited_append h hne hw (List.forall_mem_nil _)
        (List.forall_mem_nil _)
      rwa [List.nil_append, List.append_nil, String.ofList_toList] at hlower
  | @bracketed text h =>
      have hchars : "[" ++ text ++ "]" = String.ofList (['['] ++ (text.toList ++ [']'])) := by
        rw [← String.toList_inj]
        simp
      rw [hchars]
      exact lower_undelimited_append h hne hw (by simp) (by simp)
  | @quoted text h =>
      have hchars : "\"" ++ text ++ "\"" = String.ofList (['"'] ++ (text.toList ++ ['"'])) := by
        rw [← String.toList_inj]
        simp
      rw [hchars]
      exact lower_undelimited_append h hne hw (by simp) (by simp)

end Text

/-- A schema that is `dbo` in some writing is left out of account. -/
theorem TablePattern.normalized_qualified {schema : String} (h : Text.Writes "dbo" schema)
    (r : Reference) : normalized (r.qualified schema) = normalized r := by
  by_cases ht : r.TakesSchema
  · have hschema : Text.lower (Text.undelimited schema) = "dbo" :=
      (h.lower_undelimited (by decide) (by decide)).trans (by decide)
    rw [Reference.qualified_of_takesSchema ht]
    obtain ⟨name, hparts, -⟩ := ht
    simp [normalized, dropDefaultSchema, hparts, hschema]
  · rw [Reference.qualified_of_not_takesSchema schema ht]

namespace TableUse

def qualified (schema : String) (u : TableUse) : TableUse :=
  { u with table := u.table.qualified schema }

variable {schema : String} {vs us : List Visit} {target : Reference} {sources : List Source}

/-- A target that resolves through its `FROM` list is left alone. -/
theorem changed_of_resolves (h : resolves target sources = true) :
    (Renaming.ofSchema schema).changed sources target = target := by
  rw [resolves, Bool.and_eq_true] at h
  exact Renaming.changed_of_hasName (Sources.names_iff.1 h.2)

/-- A target that does not resolve through its `FROM` list gets the schema. A name of several parts
takes none, also if the list names its object. -/
theorem changed_of_not_resolves (h : resolves target sources = false) :
    (Renaming.ofSchema schema).changed sources target = target.qualified schema := by
  by_cases hn : Sources.HasName Text.sameWord sources target.objectName
  · rw [resolves, Sources.names_iff.2 hn, Bool.and_true] at h
    have htarget : target.qualified schema = target := by
      rw [Reference.qualified_eq_self_iff]
      rintro ⟨name, hparts, -⟩
      simp [Reference.isSingle, hparts] at h
    rw [htarget]
    exact Renaming.changed_of_hasName hn
  · exact Renaming.changed_of_not_hasName hn

/-- A target resolves through its `FROM` list after both got the schema just if it did before. -/
theorem resolves_changed :
    resolves ((Renaming.ofSchema schema).changed sources target)
      (Sources.rename (.ofSchema schema) sources) = resolves target sources := by
  cases h : resolves target sources with
  | true => rwa [changed_of_resolves h, resolves, Sources.names_rename]
  | false =>
      rw [changed_of_not_resolves h, resolves, Sources.names_rename,
        Reference.objectName_qualified]
      by_cases ht : target.TakesSchema
      · rw [Reference.isSingle_qualified schema ht, Bool.false_and]
      · rwa [Reference.qualified_of_not_takesSchema schema ht]

theorem tableSources_aligned {m : Renaming} (h : m.Aligned vs us) :
    Visit.tableSources us = (Visit.tableSources vs).map (TableSource.rename m) := by
  induction h with
  | nil => rfl
  | @node v vs us hv _ ih =>
      simp only [Visit.tableSources] at ih
      cases v <;> simp_all [Visit.tableSources, Visit.rename, Renaming.own?]
  | @owner v name name' ts ts' vs us hv _ _ iht ih =>
      simp only [Visit.tableSources] at iht ih
      cases v <;> simp_all [Visit.tableSources, Visit.rename, Renaming.own?]

theorem read_aligned (context : UsageContext) (h : (Renaming.ofSchema schema).Aligned vs us) :
    read context us = (read context vs).map (qualified schema) := by
  rw [read, read, tableSources_aligned h, List.map_map, List.map_map]
  refine List.map_congr_left fun s _ => ?_
  cases s
  simp only [Function.comp_apply, TableSource.rename, Renaming.ofSchema, qualified]

theorem changed_aligned (context reading : UsageContext)
    (h : (Renaming.ofSchema schema).Aligned vs us) :
    changed context reading ((Renaming.ofSchema schema).changed sources target)
        (Sources.rename (.ofSchema schema) sources) us =
      (changed context reading target sources vs).map (qualified schema) := by
  rw [changed, changed, resolves_changed]
  cases hr : resolves target sources with
  | true =>
      rw [if_pos rfl, if_pos rfl, changed_of_resolves hr, tableSources_aligned h, List.map_map,
        List.map_map]
      refine List.map_congr_left fun s _ => ?_
      cases s
      simp only [Function.comp_apply, TableSource.rename, Renaming.ofSchema, qualified,
        Reference.objectName_qualified]
  | false =>
      rw [if_neg Bool.false_ne_true, if_neg Bool.false_ne_true, changed_of_not_resolves hr,
        read_aligned reading h]
      rfl

end TableUse

variable {schema : String}

theorem InsertValues.uses_rename (s : InsertValues) :
    (s.rename (.ofSchema schema)).uses = s.uses.map (TableUse.qualified schema) :=
  congrArg (_ :: ·) (TableUse.read_aligned .selectInInsert (Rows.aligned s.rows))

theorem InsertSelect.uses_rename (s : InsertSelect) :
    (s.rename (.ofSchema schema)).uses = s.uses.map (TableUse.qualified schema) :=
  congrArg (_ :: ·) (TableUse.read_aligned .selectInInsert s.select.aligned)

theorem Update.uses_rename (s : Update) :
    (s.rename (.ofSchema schema)).uses = s.uses.map (TableUse.qualified schema) :=
  TableUse.changed_aligned .update .selectInUpdate
    (((Sources.aligned s.sources).append (Columns.aligned s.assignments)).append
      (OptionalPredicate.aligned s.filter))

theorem Delete.uses_rename (s : Delete) :
    (s.rename (.ofSchema schema)).uses = s.uses.map (TableUse.qualified schema) :=
  TableUse.changed_aligned .delete .selectInDelete
    ((Sources.aligned s.sources).append (OptionalPredicate.aligned s.filter))

mutual

theorem Statement.uses_rename : (s : Statement) →
    (s.rename (.ofSchema schema)).uses = s.uses.map (TableUse.qualified schema)
  | .select s => by
      rw [Statement.uses, Statement.rename, Statement.uses]
      exact TableUse.read_aligned .select s.aligned
  | .insertValues s => by
      rw [Statement.uses, Statement.rename, Statement.uses]
      exact s.uses_rename
  | .insertSelect s => by
      rw [Statement.uses, Statement.rename, Statement.uses]
      exact s.uses_rename
  | .update s => by
      rw [Statement.uses, Statement.rename, Statement.uses]
      exact s.uses_rename
  | .delete s => by
      rw [Statement.uses, Statement.rename, Statement.uses]
      exact s.uses_rename
  | .conditional s => by
      rw [Statement.uses, Statement.rename, Statement.uses]
      exact s.uses_rename
  | .loop s => by
      rw [Statement.uses, Statement.rename, Statement.uses]
      exact s.uses_rename
  | .block s => by
      rw [Statement.uses, Statement.rename, Statement.uses]
      exact s.uses_rename
  | .empty _ => by
      rw [Statement.rename, Statement.uses]
      rfl

theorem OptionalStatement.uses_rename : (s : Option Statement) →
    OptionalStatement.uses (OptionalStatement.rename (.ofSchema schema) s) =
      (OptionalStatement.uses s).map (TableUse.qualified schema)
  | none => by
      rw [OptionalStatement.rename, OptionalStatement.uses]
      rfl
  | some s => by
      rw [OptionalStatement.uses, OptionalStatement.rename, OptionalStatement.uses]
      exact s.uses_rename

theorem If.uses_rename : (s : If) →
    (s.rename (.ofSchema schema)).uses = s.uses.map (TableUse.qualified schema)
  | ⟨_, test, thenBranch, elseBranch⟩ => by
      rw [If.uses, If.rename, If.uses, TableUse.read_aligned .select test.aligned,
        thenBranch.uses_rename, OptionalStatement.uses_rename elseBranch, List.map_append,
        List.map_append]

theorem While.uses_rename : (s : While) →
    (s.rename (.ofSchema schema)).uses = s.uses.map (TableUse.qualified schema)
  | ⟨_, test, body⟩ => by
      rw [While.uses, While.rename, While.uses, TableUse.read_aligned .select test.aligned,
        body.uses_rename, List.map_append]

theorem Block.uses_rename : (s : Block) →
    (s.rename (.ofSchema schema)).uses = s.uses.map (TableUse.qualified schema)
  | ⟨_, body⟩ => by
      rw [Block.uses, Block.rename, Block.uses]
      exact Statements.uses_rename body

theorem Statements.uses_rename : (ss : List Statement) →
    Statements.uses (Statements.rename (.ofSchema schema) ss) =
      (Statements.uses ss).map (TableUse.qualified schema)
  | [] => by
      rw [Statements.rename, Statements.uses]
      rfl
  | s :: ss => by
      rw [Statements.uses, Statements.rename, Statements.uses, s.uses_rename,
        Statements.uses_rename ss, List.map_append]

end

namespace SearchQuery

variable {q : SearchQuery} {parts : List String}

theorem wants_qualified (h : Text.Writes "dbo" schema) (hq : q.pattern = .name parts)
    (u : TableUse) : q.wants (u.qualified schema) = q.wants u := by
  simp only [wants, hq, TablePattern.accepts, TableUse.qualified,
    TablePattern.normalized_qualified h]

end SearchQuery

def Hit.use (h : Hit) : UsageContext × Nat × Nat := (h.context, h.line, h.column)

theorem TableUse.hit_qualified_use (u : TableUse) : (u.qualified schema).hit.use = u.hit.use := by
  simp only [Hit.use, hit, qualified, Reference.origin_qualified]

/-- A search for a name finds the same uses after the tables got the default schema as before, in
the same order, in the same contexts and at the same places. -/
theorem findTables_qualifyTables (h : Text.Writes "dbo" schema) (name : String)
    (contexts : List UsageContext) (statements : List Statement) :
    (findTables ⟨.ofName name, contexts⟩ (qualifyTables schema statements).1).map Hit.use =
      (findTables ⟨.ofName name, contexts⟩ statements).map Hit.use := by
  have hwants (u : TableUse) := SearchQuery.wants_qualified h
    (q := ⟨.ofName name, contexts⟩) rfl u
  rw [qualifyTables_eq, findTables, findTables, Statements.uses_rename, List.filter_map,
    List.map_map, List.map_map, List.map_map]
  simp only [Function.comp_def, hwants, TableUse.hit_qualified_use]

/-- A table that is updated under its alias and read in a subquery, and the schema in brackets. -/
theorem findTables_qualifyTables_update : ∃ vs,
    parse "update o set a = (select max(b) from Orders) from orders as o where o.a = 1" = .ok vs ∧
      (findTables ⟨.ofName "DBO.orders", []⟩ vs).map Hit.use =
        [(.update, 1, 51), (.selectInUpdate, 1, 38)] ∧
      (findTables ⟨.ofName "DBO.orders", []⟩ (qualifyTables "[Dbo]" vs).1).map Hit.use =
        (findTables ⟨.ofName "DBO.orders", []⟩ vs).map Hit.use := by
  obtain ⟨vs, hvs, h⟩ := exists_of_parse
    "update o set a = (select max(b) from Orders) from orders as o where o.a = 1"
    (fun vs => (findTables ⟨.ofName "DBO.orders", []⟩ vs).map Hit.use =
      [(.update, 1, 51), (.selectInUpdate, 1, 38)]) (by decide +kernel)
  have hword : Text.sameWord "Dbo" "dbo" = true := by decide
  have hschema : Text.Writes "dbo" "[Dbo]" := .bracketed hword
  exact ⟨vs, hvs, of_decide_eq_true h, findTables_qualifyTables hschema "DBO.orders" [] vs⟩

end Transact
