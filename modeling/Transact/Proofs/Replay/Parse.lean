import Transact.Proofs.Replay.Statement
import Transact.Proofs.Sound.Parse
import Transact.Proofs.Syntax.Alike

namespace Transact

/-- No statement begins where the stream is stuck. -/
theorem Session.statements_started_stuck {s : Stream} (h : s.Stuck) :
    ∃ e, (started s).statements = .error e := by
  have hfault := (Grammar.rules_complete _).stuck h (Nat.lt_succ_self _)
  change s.statement.Meets _ _ at hfault
  cases hs : s.statement with
  | ok v rest le =>
      rw [hs] at hfault
      exact hfault.elim
  | error e rest => exact ⟨_, statements_started_error (h.ne rfl) hs⟩

theorem Session.replays {s : Stream} {vs : List Statement} (hf : Statements.Formed vs)
    (h : s.Holds (Statements.words vs)) :
    match (started s).statements with
    | .ok us => Clean (Statements.visits vs) ∧ Statements.rename .bare us =
        Statements.rename .bare vs
    | .error _ => ¬Clean (Statements.visits vs) := by
  induction vs generalizing s with
  | nil =>
      rw [statements_started_eof h.kind]
      exact ⟨clean_nil, rfl⟩
  | cons v vs ih =>
      have hclean : Clean (Statements.visits (v :: vs)) ↔
          Clean v.visits ∧ Clean (Statements.visits vs) := by simp [Statements.visits]
      rw [hclean]
      have hk : s.current.kind ≠ .eof := by
        rw [h.kind, Statements.words]
        exact (v.headKind_words _).2.2
      have hnext : (Word.headKind (Statements.words vs)).endsClauses = true := by
        cases vs with
        | nil => rfl
        | cons x vs => exact (x.headKind_words _).1
      have hread := (Grammar.rules_complete _).statement ⟨⟨hf.1, hf.2.1⟩, hnext⟩ h
        (Nat.lt_succ_self _)
      change s.statement.Meets _ _ at hread
      cases hs : s.statement with
      | error e rest =>
          rw [hs] at hread
          rw [statements_started_error hk hs]
          exact mt And.left hread
      | ok u rest le =>
          rw [hs] at hread
          rw [statements_started_ok hk hs]
          obtain ⟨hc, hu, hrest⟩ | ⟨hn, hstuck⟩ := hread
          · have hih := ih hf.2.2 hrest
            cases hus : (started rest).statements with
            | error e =>
                rw [hus] at hih
                exact mt And.right hih
            | ok us =>
                rw [hus] at hih
                exact ⟨⟨hc, hih.1⟩, by rw [Statements.rename, Statements.rename, hu, hih.2]⟩
          · -- the rest of a captured column stands where a statement has to begin
            obtain ⟨e, he⟩ := statements_started_stuck hstuck
            rw [he]
            exact mt And.left hn

theorem Stream.holds_of_tokens {tokens : List Token} {ws : List Word}
    (hl : ∀ t ∈ tokens, t.kind.isComment = false ∧ t.kind ≠ .eof)
    (hw : tokens.map Token.word = ws) :
    ∃ s, (ofTokens tokens none).advance = .ok s ∧ s.Holds ws := by
  have hall : tokens.filter (fun t => !t.kind.isComment) = tokens :=
    List.filter_eq_self.2 fun t ht => by rw [(hl t ht).1]; rfl
  rw [ofTokens, hall]
  cases tokens with
  | nil =>
      subst hw
      exact ⟨_, rfl, ⟨by simp, fun _ => ⟨rfl, rfl⟩⟩, rfl, rfl⟩
  | cons t ts =>
      have hk : t.kind ≠ .eof := (hl t (by simp)).2
      exact ⟨_, rfl, ⟨fun u hu => (hl u (List.mem_cons_of_mem _ hu)).2, fun he => absurd he hk⟩,
        rfl, (if_neg hk).trans hw⟩

/-- Well-formed statements read back from their text. -/
theorem parse_format {vs : List Statement} (hf : Statements.Formed vs) :
    match parse (format vs) with
    | .ok us => Clean (Statements.visits vs) ∧ Statements.rename .bare us =
        Statements.rename .bare vs
    | .error _ => ¬Clean (Statements.visits vs) := by
  obtain ⟨ts, ht, hwords, hk⟩ := (reads_format hf).tokens .start
  obtain ⟨s, hs, hheld⟩ := Stream.holds_of_tokens hk hwords
  rw [parse, Stream.ofSource, Lexer.tokens_ofSource, Cursor.ofSource, ht,
    Stream.statements_eq_started hs]
  exact Session.replays hf hheld

/-- The text of the statements of a source is parsed exactly if none of their columns is
captured. -/
theorem parse_format_isOk_iff {source : String} {vs : List Statement}
    (h : parse source = .ok vs) :
    (∃ us, parse (format vs) = .ok us) ↔ Clean (Statements.visits vs) := by
  obtain ⟨-, -, hf, -⟩ := parse_sound h
  have hread := parse_format hf
  cases hp : parse (format vs) with
  | ok us =>
      rw [hp] at hread
      exact ⟨fun _ => hread.1, fun _ => ⟨us, rfl⟩⟩
  | error e =>
      rw [hp] at hread
      exact ⟨fun ⟨_, hus⟩ => (nomatch hus), fun hc => absurd hc hread⟩

/-- A name that ends in a point, with an alias behind its value: nothing multiplies it, so that it
is not captured. -/
theorem parse_format_isOk_iff_openName :
    ∃ vs, parse "select a. + 2 as x, t.*" = .ok vs ∧
      ((∃ us, parse (format vs) = .ok us) ↔ Clean (Statements.visits vs)) := by
  obtain ⟨vs, hp⟩ := exists_parse_eq (s := "select a. + 2 as x, t.*") (by decide +kernel)
  exact ⟨vs, hp, parse_format_isOk_iff hp⟩

/-- A product that follows its alias is laid out in front of it, and there it is captured. -/
theorem parse_format_captured :
    ∃ vs e, parse "SELECT x = a. * 2" = .ok vs ∧ parse (format vs) = .error e := by
  have hcaptured : ((parse "SELECT x = a. * 2").toOption.map fun vs => (parse (format vs)).isOk) =
      some false := by decide +kernel
  cases hp : parse "SELECT x = a. * 2" with
  | error e =>
      rw [hp] at hcaptured
      cases hcaptured
  | ok vs =>
      rw [hp] at hcaptured
      cases hq : parse (format vs) with
      | ok us =>
          simp only [Except.toOption, Option.map_some, hq] at hcaptured
          cases hcaptured
      | error e => exact ⟨vs, e, rfl, hq⟩

/-- Formatting and parsing again gives the same statements and the same text, if no name ends in a
point. -/
theorem parse_format_same {source : String} {vs : List Statement} (h : parse source = .ok vs)
    (hc : Closed (Statements.visits vs)) :
    ∃ us, parse (format vs) = .ok us ∧ Statements.same us vs = true ∧ format us = format vs := by
  obtain ⟨-, -, hf, -⟩ := parse_sound h
  have hread := parse_format hf
  cases hp : parse (format vs) with
  | error e =>
      rw [hp] at hread
      exact absurd (Statements.clean_of_closed vs hc) hread
  | ok us =>
      rw [hp] at hread
      refine ⟨us, rfl, Statements.same_of_bare us vs hf hread.2, ?_⟩
      rw [← format_bare us, hread.2, format_bare]

/-- Aliases in front of values, signs in a row, a name with empty parts and an `ELSE` behind a
`WHILE`. -/
theorem parse_format_same_conditional :
    ∃ vs us, parse "if not a like '%' while (b) = - -1 select x = 2., ..t.c; else ;" = .ok vs ∧
      Closed (Statements.visits vs) ∧ parse (format vs) = .ok us ∧
      Statements.same us vs = true ∧ format us = format vs := by
  have hclosed : ((parse "if not a like '%' while (b) = - -1 select x = 2., ..t.c; else ;").toOption
      |>.map fun vs => (Statements.visits vs).all fun v => !v.isOpen) = some true := by
    decide +kernel
  cases hp : parse "if not a like '%' while (b) = - -1 select x = 2., ..t.c; else ;" with
  | error e =>
      rw [hp] at hclosed
      cases hclosed
  | ok vs =>
      rw [hp, Except.toOption, Option.map_some, Option.some.injEq, List.all_eq_true] at hclosed
      have hc : Closed (Statements.visits vs) := fun v hv => by simpa using hclosed v hv
      obtain ⟨us, h⟩ := parse_format_same hp hc
      exact ⟨vs, us, rfl, hc, h⟩

end Transact
