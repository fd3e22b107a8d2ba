import Transact.Proofs.Replay.Parse
import Transact.Proofs.Syntax.Renamed
import Transact.Proofs.Table.Qualified

namespace Transact

/-- A text of one token that is an identifier and takes all of it is the part of a name. -/
theorem Reference.isPart_of_lex {text : String} {t : Token} (h : lex text = .ok [t])
    (hk : t.kind = .identifier) (ht : t.text = text) : IsPart text ∧ text ≠ "" := by
  have hlexical : t.word.IsLexical := by
    have hmem : t ∈ (Cursor.ofSource text).tokens.1 := by
      rw [Cursor.tokens_of_lex h]
      exact List.mem_singleton_self t
    obtain hc | hw := Cursor.isLexical_of_mem_tokens hmem
    · rw [hk] at hc
      cases hc
    · exact hw
  have hname := (t.isName hlexical (.inl hk)).1
  have hkind := t.kind_eq hlexical (.inl hk)
  rw [ht] at hname hkind
  exact ⟨.inr ⟨hname, hkind.trans hk⟩, hname.ne_empty⟩

section

variable {schema : String} {r : Reference}

theorem Reference.IsPart.headKind {part : String} (h : IsPart part) (hne : part ≠ "")
    (ws : List Word) : Word.headKind (partWords part ++ ws) = .identifier := by
  rw [partWords, if_neg hne]
  exact (h.resolve_left hne).2

theorem Reference.Formed.qualified (h : r.Formed) (hs : IsPart schema) :
    (r.qualified schema).Formed := by
  by_cases ht : r.TakesSchema
  · obtain ⟨hparts, p, hp, hne⟩ := h
    rw [qualified_of_takesSchema ht]
    refine ⟨fun q hq => ?_, p, List.mem_cons_of_mem _ hp, hne⟩
    rcases List.mem_cons.1 hq with rfl | hq
    · exact hs
    · exact hparts q hq
  · rwa [qualified_of_not_takesSchema schema ht]

theorem Reference.Formed.headKind_qualified (h : r.Formed) (hs : IsPart schema)
    (hne : schema ≠ "") :
    Word.headKind (r.qualified schema).words = Word.headKind r.words := by
  by_cases ht : r.TakesSchema
  · rw [qualified_of_takesSchema ht]
    obtain ⟨name, hparts, hname, -⟩ := ht
    have hpart : IsPart name := h.1 name (by simp [hparts])
    have hold := hpart.headKind hname []
    rw [List.append_nil] at hold
    rw [words, words, hparts, dotted, hold, dotted_cons (List.cons_ne_nil _ _)]
    exact hs.headKind hne _
  · rw [qualified_of_not_takesSchema schema ht]

theorem Renaming.keepsForm_ofSchema (hs : Reference.IsPart schema) (hne : schema ≠ "") :
    (ofSchema schema).KeepsForm where
  column := rfl
  function := rfl
  table h := h.qualified hs
  inserted h := h.qualified hs
  changed sources r h := by
    rw [ofSchema]
    dsimp only
    split
    · exact h
    · exact h.qualified hs
  head sources r h := by
    rw [ofSchema]
    dsimp only
    split
    · rfl
    · exact h.headKind_qualified hs hne

end

/-- The text of the statements of a source that got a default schema is read as the statements that
it is the text of, if no name of the source ends in a point and the schema is an identifier. -/
theorem parse_format_qualified {source schema : String} {vs : List Statement} {t : Token}
    (h : parse source = .ok vs) (hc : Closed (Statements.visits vs))
    (hschema : lex schema = .ok [t]) (hk : t.kind = .identifier) (ht : t.text = schema) :
    ∃ us, parse (format (qualifyTables schema vs).1) = .ok us ∧
      Statements.same us (qualifyTables schema vs).1 = true := by
  obtain ⟨hpart, hne⟩ := Reference.isPart_of_lex hschema hk ht
  have hm := Renaming.keepsForm_ofSchema hpart hne
  obtain ⟨-, -, hf, -⟩ := parse_sound h
  have hformed := Statements.formed_rename hm vs hf
  have hclean := (Statements.aligned vs).clean hm (Statements.clean_of_closed vs hc)
  have hread := parse_format hformed
  rw [qualifyTables_eq]
  dsimp only
  cases hp : parse (format (Statements.rename (.ofSchema schema) vs)) with
  | error e =>
      rw [hp] at hread
      exact absurd hclean hread
  | ok us =>
      rw [hp] at hread
      exact ⟨us, rfl, Statements.same_of_bare us _ hformed hread.2⟩

/-- A schema in brackets before tables beside an alias, a hint, a join and a `TOP`. -/
theorem parse_format_qualified_update : ∃ vs t us,
    parse "update top (1) t set a = 1 from u (nolock) join t x on 1 = 1; insert t
      select 1 from #u" = .ok vs ∧
    Closed (Statements.visits vs) ∧ lex "[my dbo]" = .ok [t] ∧ t.kind = .identifier ∧
    t.text = "[my dbo]" ∧ parse (format (qualifyTables "[my dbo]" vs).1) = .ok us ∧
    Statements.same us (qualifyTables "[my dbo]" vs).1 = true := by
  obtain ⟨vs, hvs, hclosed⟩ := exists_of_parse
    "update top (1) t set a = 1 from u (nolock) join t x on 1 = 1; insert t
      select 1 from #u"
    (fun vs => (Statements.visits vs).all fun v => !v.isOpen) (by decide +kernel)
  have hc : Closed (Statements.visits vs) := by
    simpa [Closed] using hclosed
  have hlex : lex "[my dbo]" = .ok [⟨.identifier, ⟨1, 1, 1⟩, .text "[my dbo]"⟩] := by
    decide +kernel
  obtain ⟨us, hus, hsame⟩ := parse_format_qualified hvs hc hlex rfl rfl
  exact ⟨vs, _, us, hvs, hc, hlex, rfl, rfl, hus, hsame⟩

end Transact
