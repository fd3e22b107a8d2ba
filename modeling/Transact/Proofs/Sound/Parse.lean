import Transact.Proofs.Grammar.Session
import Transact.Proofs.Layout.Reads
import Transact.Proofs.Sound.Statement

namespace Transact

theorem Session.sound {s : Stream} {vs : List Statement} (h : s.Spends s 0)
    (hp : (started s).statements = .ok vs) :
    Statements.Formed vs ∧ Word.bag s.words = Word.bag (Statements.words vs) ∧
      Word.headKind (Statements.words vs) = s.current.kind ∧ s.fault = none := by
  induction s using Stream.bySize generalizing vs with
  | step s ih =>
      by_cases hk : s.current.kind = .eof
      · rw [statements_started_eof hk] at hp
        cases hp
        exact ⟨trivial, by rw [s.words_of_eof hk]; rfl, hk.symm, (h.ends.atEnd hk).2⟩
      · have hsound := (Grammar.rules_sound _).statement h (Nat.lt_succ_self _)
        cases hs : s.statement with
        | error e rest =>
            rw [statements_started_error hk hs] at hp
            cases hp
        | ok v rest le =>
            change Outcome.Meets _ True s.statement at hsound
            rw [hs] at hsound
            obtain ⟨⟨hf, ha, hhead⟩, hspent⟩ := hsound
            have hlt := Stream.size_statement_lt hs
            rw [statements_started_ok hk hs] at hp
            split at hp
            · rename_i values hvalues
              cases hp
              obtain ⟨hfs, hbag, hnext, hfault⟩ := ih rest hlt hspent.refl hvalues
              refine ⟨⟨hf, hnext ▸ ha, hfs⟩, ?_, ?_, ?_⟩
              · rw [hspent.bag, Statements.words, Word.bag_append, hbag, zero_add]
              · rw [Statements.words, Word.headKind_append v.words_ne_nil, hhead]
              · rw [← hspent.fault, hfault]
            · cases hp

/-- A stream at its first token, if all tokens but comments are lexical. -/
theorem Stream.spends_of_tokens {tokens : List Token} {fault : Option LexicalError} {t : Stream}
    (hl : ∀ u ∈ tokens, u.kind.isComment = true ∨ u.word.IsLexical)
    (h : (ofTokens tokens fault).advance = .ok t) :
    t.Spends t 0 ∧ t.words = (tokens.filter fun u => !u.kind.isComment).map Token.word ∧
      t.fault = fault := by
  have hlexical : ∀ u ∈ tokens.filter fun u => !u.kind.isComment, u.word.IsLexical := by
    intro u hu
    obtain ⟨hu, hc⟩ := List.mem_filter.1 hu
    obtain hc' | hu := hl u hu
    · rw [hc'] at hc
      cases hc
    · exact hu
  simp only [ofTokens, advance] at h
  split at h
  · rename_i f _ _ u us hu
    cases h
    rw [hu] at hlexical ⊢
    have hk : u.kind ≠ .eof := (hlexical u (by simp)).ne_eof
    have hwords : words ⟨u, us, f⟩ = (u :: us).map Token.word := if_neg hk
    refine ⟨⟨⟨fun v hv => (hlexical v (List.mem_cons_of_mem _ hv)).ne_eof,
      fun he => absurd he hk⟩, ?_, rfl, (zero_add _).symm⟩, hwords, rfl⟩
    rw [hwords]
    intro w hw
    obtain ⟨v, hv, rfl⟩ := List.mem_map.1 hw
    exact hlexical v hv
  · cases h
  · rename_i hu
    cases h
    rw [hu]
    exact ⟨⟨⟨by simp, fun _ => ⟨rfl, rfl⟩⟩, by simp [words, Token.eof], rfl, (zero_add _).symm⟩,
      by simp [words, Token.eof], rfl⟩

/-- The statements of a source are well formed, and they are made up of its tokens. -/
theorem parse_sound {source : String} {vs : List Statement} (h : parse source = .ok vs) :
    ∃ ts, lex source = .ok ts ∧ Statements.Formed vs ∧
      Word.bag ((ts.filter fun t => !t.kind.isComment).map Token.word) =
        Word.bag (Statements.words vs) := by
  obtain ⟨tokens, fault, ht⟩ : ∃ tokens fault, (Cursor.ofSource source).tokens = (tokens, fault) :=
    ⟨_, _, rfl⟩
  have hl : ∀ u ∈ tokens, u.kind.isComment = true ∨ u.word.IsLexical := by
    intro u hu
    refine Cursor.isLexical_of_mem_tokens (c := .ofSource source) ?_
    rw [ht]
    exact hu
  simp only [parse, Stream.ofSource, Lexer.tokens_ofSource, ht] at h
  cases ha : (Stream.ofTokens tokens fault).advance with
  | error e =>
      rw [Stream.statements_eq_error ha] at h
      cases h
  | ok t =>
      rw [Stream.statements_eq_started ha] at h
      obtain ⟨hspent, hwords, hfault⟩ := Stream.spends_of_tokens hl ha
      obtain ⟨hf, hbag, -, hnone⟩ := Session.sound hspent h
      refine ⟨tokens, ?_, hf, by rw [← hwords, hbag]⟩
      rw [lex, Lexer.tokens_ofSource, ht, ← hfault, hnone]

theorem exists_parse_eq {s : String} (h : (parse s).isOk = true) : ∃ vs, parse s = .ok vs := by
  cases hp : parse s with
  | error e =>
      rw [hp] at h
      cases h
  | ok vs => exact ⟨vs, rfl⟩

/-- The text of well-formed statements has no lexical error, and its tokens are their words. -/
theorem lex_format {vs : List Statement} (h : Statements.Formed vs) :
    ∃ ts, lex (format vs) = .ok ts ∧ ts.map Token.word = Statements.words vs ∧
      ∀ t ∈ ts, t.kind.isComment = false ∧ t.kind ≠ .eof := by
  obtain ⟨ts, ht, hwords, hk⟩ := (reads_format h).tokens .start
  exact ⟨ts, by rw [lex, Lexer.tokens_ofSource, Cursor.ofSource, ht], hwords, hk⟩

/-- Parsing and formatting neither drop nor invent tokens: the text of the statements of a source
has the tokens of the source, comments left out, each as often as it is counted there. -/
theorem format_conserves_tokens {source : String} {vs : List Statement}
    (h : parse source = .ok vs) :
    ∃ ts us, lex source = .ok ts ∧ lex (format vs) = .ok us ∧
      Word.bag (us.map Token.word) =
        Word.bag ((ts.filter fun t => !t.kind.isComment).map Token.word) := by
  obtain ⟨ts, hts, hf, hbag⟩ := parse_sound h
  obtain ⟨us, hus, hwords, -⟩ := lex_format hf
  exact ⟨ts, us, hts, hus, by rw [hwords, hbag]⟩

/-- An alias in front of its value, a comment, a join without `INNER` and the other spelling of
inequality. -/
theorem format_conserves_tokens_select :
    ∃ vs ts us, parse "select x = - -a from T -- c\n join u on a != 1" = .ok vs ∧
      lex "select x = - -a from T -- c\n join u on a != 1" = .ok ts ∧ lex (format vs) = .ok us ∧
      Word.bag (us.map Token.word) =
        Word.bag ((ts.filter fun t => !t.kind.isComment).map Token.word) := by
  have hok : (parse "select x = - -a from T -- c\n join u on a != 1").isOk = true := by
    decide +kernel
  cases hp : parse "select x = - -a from T -- c\n join u on a != 1" with
  | error e =>
      rw [hp] at hok
      cases hok
  | ok vs =>
      obtain ⟨ts, us, h⟩ := format_conserves_tokens hp
      exact ⟨vs, ts, us, rfl, h⟩

end Transact
