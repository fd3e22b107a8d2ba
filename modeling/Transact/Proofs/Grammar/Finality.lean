import Transact.Proofs.Grammar.Termination
import Transact.Proofs.Rule.Fork
import Transact.Proofs.Token.Lexical

namespace Transact

namespace Stream

variable {s t : Stream} {E F : Ending}

theorem Reaches.exists_read (h : s.Reaches t) : ∃ read last,
    s.current :: s.upcoming = read ++ last :: t.upcoming ∧ t.fault = s.fault ∧
      (t.current = last ∨ t.upcoming = [] ∧ t.fault = none ∧ t.current = .eof last.place) := by
  induction h with
  | refl => exact ⟨[], _, rfl, rfl, .inl rfl⟩
  | @advance t u _ ha ih =>
      obtain ⟨read, last, hread, hfault, hlast⟩ := ih
      obtain ⟨x, xs, hup, rfl⟩ | ⟨hup, hnone, rfl⟩ := advance_cases ha
      · refine ⟨read ++ [last], x, ?_, hfault, .inl rfl⟩
        rw [hread, hup, List.append_assoc]
        rfl
      · refine ⟨read, last, ?_, hnone ▸ hfault, .inr ⟨rfl, rfl, ?_⟩⟩
        · rw [hread, hup]
        · obtain hlast | ⟨-, -, hlast⟩ := hlast <;> rw [hlast]
          rfl

theorem statement_eq_rules (s : Stream) {n : Nat} (hs : s.size < n) :
    s.statement = (Grammar.rules n).statement s hs := by
  have h (m : Nat) (hm : s.size < m) : (Grammar.rules m).statement s hm =
      Grammar.statement (Grammar.rules s.size) s (Nat.lt_succ_self _) := by rw [Grammar.rules]
  exact (h _ _).trans (h n hs).symm

theorem reachedFrom_statement (s : Stream) : s.statement.ReachedFrom s :=
  (Grammar.built_rules (n := s.size + 1)).statement.reads s _

theorem reaches_of_statement {v : Statement} {le : t.size ≤ s.size} (h : s.statement = .ok v t le) :
    s.Reaches t := by
  have hreached := s.reachedFrom_statement
  rw [h] at hreached
  cases hreached with
  | ok ht => exact ht

theorem blames_of_statement {e : SyntaxError} (h : s.statement = .error e t) :
    (∃ f, e = .lexical f) ∨
      s.Reaches t ∧ ∃ found, e.found? = some found ∧ (s.IsValued → found = t.current) := by
  have hreached := s.reachedFrom_statement
  rw [h] at hreached
  cases hreached with
  | lexical => exact .inl ⟨_, rfl⟩
  | blame ht he hat => exact .inr ⟨ht, _, he, hat⟩

theorem Forked.statement (h : Forked E F s t) : s.statement.Forked E F t.statement := by
  have hs : s.size < max s.size t.size + 1 := by omega
  have ht : t.size < max s.size t.size + 1 := by omega
  rw [s.statement_eq_rules hs, t.statement_eq_rules ht]
  exact Grammar.built_rules.statement.forks E F s t h hs ht

end Stream

namespace Session

variable {p q r : Session} {s : Stream} {v : Statement} {vs : List Statement} {e : SyntaxError}
  {found : Token} {E F : Stream.Ending}

/-- Iterating gives the statements and then the error. -/
inductive Fails : Session → List Statement → SyntaxError → Session → Prop where
  | error {p q : Session} {e : SyntaxError} (h : p.next = (some (.error e), q)) : Fails p [] e q
  | statement {p q r : Session} {v : Statement} {vs : List Statement} {e : SyntaxError}
      (h : p.next = (some (.ok v), q)) (hq : Fails q vs e r) : Fails p (v :: vs) e r

def startedAt (p : Session) (s : Stream) : Session := { p with stream := s, isStarted := true }

theorem next_eq_error : p.next = (some (.error e), q) ↔ p.isFinished = false ∧
    ∃ r, p.nextStatement = (.error e, r) ∧ { r with isFinished := true } = q := by
  rw [next]
  cases p.isFinished with
  | true => simp
  | false =>
      obtain ⟨result, r⟩ := p.nextStatement
      cases result with
      | error f => simp [and_assoc]
      | ok value => cases value <;> simp

theorem next_eq_ok : p.next = (some (.ok v), q) ↔
    p.isFinished = false ∧ p.nextStatement = (.ok (some v), q) := by
  rw [next]
  cases p.isFinished with
  | true => simp
  | false =>
      obtain ⟨result, r⟩ := p.nextStatement
      cases result with
      | error f => simp
      | ok value => cases value <;> simp

def BeginsAt (p : Session) (s : Stream) : Prop :=
  p.isStarted = true ∧ p.stream = s ∨ p.isStarted = false ∧ p.stream.advance = .ok s

theorem start_eq (h : p.BeginsAt s) : p.start = (.ok s, p.startedAt s) := by
  obtain ⟨stream, isStarted, isFinished⟩ := p
  obtain ⟨rfl, rfl⟩ | ⟨rfl, ha⟩ := h
  · rfl
  · dsimp only at ha
    simp only [start, ha]
    rfl

theorem BeginsAt.reaches (h : p.BeginsAt s) : p.stream.Reaches s := by
  obtain ⟨-, rfl⟩ | ⟨-, ha⟩ := h
  · exact .refl
  · exact .advance .refl ha

inductive Turn (p : Session) : Except SyntaxError (Option Statement) × Session → Prop where
  | lexical {f : LexicalError} {q : Session} : Turn p (.error (.lexical f), q)
  | finish {s : Stream} (hs : p.BeginsAt s) (hk : s.current.kind = .eof) :
      Turn p (.ok none, p.startedAt s)
  | statement {s rest : Stream} {v : Statement} {le : rest.size ≤ s.size} (hs : p.BeginsAt s)
      (hk : s.current.kind ≠ .eof) (h : s.statement = .ok v rest le) :
      Turn p (.ok (some v), p.startedAt rest)
  | error {s rest : Stream} {e : SyntaxError} (hs : p.BeginsAt s) (hk : s.current.kind ≠ .eof)
      (h : s.statement = .error e rest) : Turn p (.error e, p.startedAt rest)

namespace BeginsAt

variable {rest : Stream} (hs : p.BeginsAt s)
include hs

theorem nextStatement_eof (hk : s.current.kind = .eof) :
    p.nextStatement = (.ok none, p.startedAt s) := by
  simp only [nextStatement, start_eq hs, hk, if_true]

theorem nextStatement_ok {le : rest.size ≤ s.size} (hk : s.current.kind ≠ .eof)
    (h : s.statement = .ok v rest le) : p.nextStatement = (.ok (some v), p.startedAt rest) := by
  simp only [nextStatement, start_eq hs, hk, if_false, h]
  rfl

theorem nextStatement_error (hk : s.current.kind ≠ .eof) (h : s.statement = .error e rest) :
    p.nextStatement = (.error e, p.startedAt rest) := by
  simp only [nextStatement, start_eq hs, hk, if_false, h]
  rfl

theorem turn : p.Turn p.nextStatement := by
  by_cases hk : s.current.kind = .eof
  · rw [hs.nextStatement_eof hk]
    exact .finish hs hk
  · cases h : s.statement with
    | ok v rest le =>
        rw [hs.nextStatement_ok hk h]
        exact .statement hs hk h
    | error e rest =>
        rw [hs.nextStatement_error hk h]
        exact .error hs hk h

end BeginsAt

theorem turn (p : Session) : p.Turn p.nextStatement := by
  cases hp : p.isStarted with
  | true => exact BeginsAt.turn (.inl ⟨hp, rfl⟩)
  | false =>
      cases ha : p.stream.advance with
      | ok s => exact BeginsAt.turn (.inr ⟨hp, ha⟩)
      | error f =>
          simp only [nextStatement, start, hp, ha]
          exact .lexical

/-- A call that gives a statement or an error of the grammar has read one token after another, and
the error blames the last one. -/
theorem reaches_of_nextStatement {result : Except SyntaxError (Option Statement)}
    (h : p.nextStatement = (result, q)) (hn : result ≠ .ok none)
    (hf : ∀ f, result ≠ .error (.lexical f)) :
    ∃ s, p.BeginsAt s ∧ s.current.kind ≠ .eof ∧ s.Reaches q.stream ∧
      ∀ e found, result = .error e → e.found? = some found → s.IsValued →
        found = q.stream.current := by
  have hturn := p.turn
  rw [h] at hturn
  cases hturn with
  | lexical => exact absurd rfl (hf _)
  | finish hs => exact absurd rfl hn
  | @statement s rest v le hs hk ho =>
      exact ⟨s, hs, hk, Stream.reaches_of_statement ho, by simp⟩
  | @error s rest e hs hk ho =>
      obtain ⟨f, rfl⟩ | ⟨hrest, found, he, hat⟩ := Stream.blames_of_statement ho
      · exact absurd rfl (hf f)
      · refine ⟨s, hs, hk, hrest, fun e' found' he' hfound hv => ?_⟩
        cases he'
        cases he.symm.trans hfound
        exact hat hv

structure Forked (E F : Stream.Ending) (p q : Session) : Prop where
  isStarted_eq : p.isStarted = q.isStarted
  isFinished_eq : p.isFinished = q.isFinished
  stream : Stream.Forked E F p.stream q.stream

theorem Forked.beginsAt (hp : Forked E F p q) (h : p.BeginsAt s) :
    (∃ t, q.BeginsAt t ∧ Stream.Forked E F s t) ∨ Stream.Past E s := by
  obtain ⟨hstarted, rfl⟩ | ⟨hstarted, ha⟩ := h <;> rw [hp.isStarted_eq] at hstarted
  · exact .inl ⟨q.stream, .inl ⟨hstarted, rfl⟩, hp.stream⟩
  · obtain ⟨u, w, hu, hw, hforked⟩ | ⟨u, hu, hpast⟩ | ⟨f, hf⟩ := hp.stream.advance
    · cases ha.symm.trans hu
      exact .inl ⟨w, .inr ⟨hstarted, hw⟩, hforked⟩
    · cases ha.symm.trans hu
      exact .inr hpast
    · cases ha.symm.trans hf

theorem Forked.startedAt {t : Stream} (hp : Forked E F p q) (h : Stream.Forked E F s t) :
    Forked E F (p.startedAt s) (q.startedAt t) := ⟨rfl, hp.isFinished_eq, h⟩

/-- A call for a statement gives the same over streams that go apart, unless it reads past the
tokens in common or meets the lexical error behind them. -/
theorem Forked.nextStatement {result : Except SyntaxError (Option Statement)}
    (hp : Forked E F p q) (h : p.nextStatement = (result, r)) :
    (∃ r', q.nextStatement = (result, r') ∧ Forked E F r r') ∨ Stream.Past E r.stream ∨
      ∃ f, result = .error (.lexical f) := by
  have hturn := p.turn
  rw [h] at hturn
  cases hturn with
  | lexical => exact .inr (.inr ⟨_, rfl⟩)
  | @finish s hs hk =>
      obtain ⟨t, ht, hforked⟩ | hpast := hp.beginsAt hs
      · rw [hforked.current_eq] at hk
        exact .inl ⟨_, ht.nextStatement_eof hk, hp.startedAt hforked⟩
      · exact .inr (.inl hpast)
  | @statement s rest v le hs hk ho =>
      obtain ⟨t, ht, hforked⟩ | hpast := hp.beginsAt hs
      · have hstatement := hforked.statement
        rw [ho] at hstatement
        rw [hforked.current_eq] at hk
        generalize ho' : t.statement = o at hstatement
        cases hstatement with
        | ok hrest => exact .inl ⟨_, ht.nextStatement_ok hk ho', hp.startedAt hrest⟩
        | past hrest => exact .inr (.inl hrest)
      · exact .inr (.inl (hpast.reaches (Stream.reaches_of_statement ho)))
  | @error s rest e hs hk ho =>
      obtain ⟨t, ht, hforked⟩ | hpast := hp.beginsAt hs
      · have hstatement := hforked.statement
        rw [ho] at hstatement
        rw [hforked.current_eq] at hk
        generalize ho' : t.statement = o at hstatement
        cases hstatement with
        | error hrest => exact .inl ⟨_, ht.nextStatement_error hk ho', hp.startedAt hrest⟩
        | past hrest => exact .inr (.inl hrest)
        | lexical => exact .inr (.inr ⟨_, rfl⟩)
      · obtain ⟨f, rfl⟩ | ⟨hrest, -⟩ := Stream.blames_of_statement ho
        · exact .inr (.inr ⟨f, rfl⟩)
        · exact .inr (.inl (hpast.reaches hrest))

namespace Fails

theorem isFinished_eq (h : p.Fails vs e q) : p.isFinished = false ∧ q.isFinished = true := by
  induction h with
  | error h =>
      obtain ⟨hp, r, -, rfl⟩ := next_eq_error.1 h
      exact ⟨hp, rfl⟩
  | statement h _ ih => exact ⟨(next_eq_ok.1 h).1, ih.2⟩

theorem reaches (h : p.Fails vs e q) (he : e.found? = some found) :
    ∃ s, p.BeginsAt s ∧ s.current.kind ≠ .eof ∧ s.Reaches q.stream ∧
      (s.IsValued → found = q.stream.current) := by
  induction h with
  | @error p q e h =>
      obtain ⟨-, r, hr, rfl⟩ := next_eq_error.1 h
      have hne (f) : Except.error e ≠ (.error (.lexical f) : Except _ (Option Statement)) := by
        rintro ⟨⟩
        cases he
      obtain ⟨s, hs, hk, hreaches, hblame⟩ := reaches_of_nextStatement hr (by simp) hne
      exact ⟨s, hs, hk, hreaches, hblame _ _ rfl he⟩
  | statement h _ ih =>
      obtain ⟨s, hs, hk, hreaches, -⟩ :=
        reaches_of_nextStatement (next_eq_ok.1 h).2 (by simp) (by simp)
      obtain ⟨t, ht, -, hrest, hblame⟩ := ih he
      have hfirst := hreaches.trans ht.reaches
      exact ⟨s, hs, hk, hfirst.trans hrest, fun hv => hblame (hv.reaches hfirst)⟩

/-- A session that fails in front of its ending fails in the same way in front of all others. -/
theorem forked {p' : Session} (h : p.Fails vs e q) (hp : Forked E F p p')
    (he : e.found? = some found) (hq : ¬Stream.Past E q.stream) : ∃ q', p'.Fails vs e q' := by
  induction h generalizing p' with
  | error h =>
      obtain ⟨hf, r, hr, rfl⟩ := next_eq_error.1 h
      obtain ⟨r', hr', -⟩ | hpast | ⟨f, hlexical⟩ := hp.nextStatement hr
      · rw [hp.isFinished_eq] at hf
        exact ⟨_, .error (next_eq_error.2 ⟨hf, r', hr', rfl⟩)⟩
      · exact absurd hpast hq
      · cases hlexical
        cases he
  | statement h hrest ih =>
      obtain ⟨hf, hr⟩ := next_eq_ok.1 h
      obtain ⟨r', hr', hforked⟩ | hpast | ⟨f, hlexical⟩ := hp.nextStatement hr
      · rw [hp.isFinished_eq] at hf
        obtain ⟨q', hq'⟩ := ih hforked he hq
        exact ⟨q', .statement (next_eq_ok.2 ⟨hf, hr'⟩) hq'⟩
      · obtain ⟨s, hs, -, hreaches, -⟩ := hrest.reaches he
        exact absurd (hpast.reaches (hs.reaches.trans hreaches)) hq
      · cases hlexical

end Fails

theorem exists_fails (h : p.statements = .error e) (hf : p.isFinished = false) :
    ∃ vs q, p.Fails vs e q := by
  induction hsize : p.stream.size using Nat.strongRecOn generalizing p with
  | ind size ih =>
      cases hn : p.nextStatement with
      | mk result r =>
          cases result with
          | error f =>
              cases (statements_eq_error hn).symm.trans h
              exact ⟨[], _, .error (next_eq_error.2 ⟨hf, r, hn, rfl⟩)⟩
          | ok value =>
              cases value with
              | none => cases (statements_eq_none hn).symm.trans h
              | some v =>
                  rw [statements_eq_some hn] at h
                  have hr : r.isFinished = false := by
                    have hturn := p.turn
                    rw [hn] at hturn
                    cases hturn with
                    | statement => exact hf
                  cases hs : r.statements with
                  | ok values =>
                      rw [hs] at h
                      cases h
                  | error f =>
                      rw [hs] at h
                      cases h
                      obtain ⟨vs, q, hq⟩ := ih _ (hsize ▸ size_nextStatement_lt hn) hs hr rfl
                      exact ⟨v :: vs, q, .statement (next_eq_ok.2 ⟨hf, hn⟩) hq⟩

end Session

theorem Session.forked_ofTokens (common behind behind' : List Token)
    (fault fault' : Option LexicalError) :
    Forked ⟨behind.filter fun t => !t.kind.isComment, fault⟩
      ⟨behind'.filter fun t => !t.kind.isComment, fault'⟩
      (ofStream (.ofTokens (common ++ behind) fault))
      (ofStream (.ofTokens (common ++ behind') fault')) := by
  refine ⟨rfl, rfl, ?_⟩
  simp only [ofStream, Stream.ofTokens, List.filter_append]
  exact .intro _ _

theorem Stream.isValued_ofTokens {tokens : List Token} (fault : Option LexicalError)
    (h : ∀ t ∈ tokens, t.IsValued) : (ofTokens tokens fault).IsValued := by
  rintro t (_ | ⟨_, ht⟩)
  · exact Token.isValued_eof _
  · exact h t (List.mem_filter.1 ht).1

/-- The first error of the grammar blames the last token that was read and is no comment, or the end
of the input at its place where no more tokens and no lexical error stand behind it. Nothing is
given behind the error. If it does not blame the end of the input, then whatever stands behind that
token, comments and lexical errors included, there are the same statements and behind them the same
error. -/
theorem first_error_final {tokens : List Token} {fault : Option LexicalError}
    {vs : List Statement} {e : SyntaxError} {q : Session} {found : Token}
    (hvalued : ∀ t ∈ tokens, t.IsValued)
    (h : (Session.ofStream (.ofTokens tokens fault)).Fails vs e q) (he : e.found? = some found) :
    ∃ before last behind, tokens = before ++ last :: behind ∧ last.kind.isComment = false ∧
      q.stream.upcoming = behind.filter (fun t => !t.kind.isComment) ∧
      (found = last ∨ (∀ t ∈ behind, t.kind.isComment = true) ∧ fault = none ∧
        found = .eof last.place) ∧
      q.next = (none, q) ∧
      (found.kind ≠ .eof → ∀ (behind' : List Token) (fault' : Option LexicalError), ∃ q',
        (Session.ofStream (.ofTokens (before ++ last :: behind') fault')).Fails vs e q') := by
  obtain ⟨s, hs, hk, hreaches, hblame⟩ := h.reaches he
  obtain ⟨hstarted, -⟩ | ⟨-, ha⟩ := hs
  · cases hstarted
  have hcurrent := hblame ((Stream.isValued_ofTokens fault hvalued).advance ha)
  obtain ⟨read, last, hread, hfault, hlast⟩ := hreaches.exists_read
  obtain ⟨x, xs, hup, rfl⟩ | ⟨-, -, rfl⟩ := Stream.advance_cases ha
  · -- What has been read without its comments is split off the tokens with them.
    obtain ⟨front, tail, rfl, rfl, htail⟩ := List.filter_eq_append_iff.1 (hup.trans hread)
    obtain ⟨comments, behind, rfl, -, hcomment, hbehind⟩ := List.filter_eq_cons_iff.1 htail
    refine ⟨front ++ comments, last, behind, ?_, by simpa using hcomment, hbehind.symm, ?_,
      Session.next_of_isFinished h.isFinished_eq.2, fun hfound behind' fault' => ?_⟩
    · rw [List.append_assoc]
    · obtain hlast | ⟨hnil, hnone, hlast⟩ := hlast
      · exact .inl (hcurrent.trans hlast)
      · rw [hnil, List.filter_eq_nil_iff] at hbehind
        exact .inr ⟨by simpa using hbehind, hfault.symm.trans hnone, hcurrent.trans hlast⟩
    · have hforked :=
        Session.forked_ofTokens (front ++ comments ++ [last]) behind behind' fault fault'
      simp only [List.append_assoc, List.singleton_append] at hforked ⊢
      refine h.forked hforked he ?_
      have hrest : q.stream = ⟨found, behind.filter fun t => !t.kind.isComment, fault⟩ := by
        rewrite [hcurrent, hbehind, ← show q.stream.fault = fault from hfault]
        rfl
      rw [hrest]
      exact Stream.not_past hfound
  · -- At the end of the input there is no statement to fail.
    exact absurd rfl hk

theorem Cursor.isValued_of_mem_tokens {c : Cursor} {t : Token} (h : t ∈ c.tokens.1) :
    t.IsValued := by
  intro type hk
  obtain hcomment | hlexical := isLexical_of_mem_tokens h
  · rw [hk] at hcomment
    cases hcomment
  · generalize hw : t.word = w at hlexical
    have hkind : t.kind = w.1 := congrArg Prod.fst hw
    have hvalue : t.value = w.2 := congrArg Prod.snd hw
    cases hlexical with
    | @name p hp =>
        obtain hn | ⟨k, hn⟩ := Kind.ofWord_cases (String.ofList p)
        · cases hk.symm.trans (hkind.trans hn)
        · cases hk.symm.trans (hkind.trans hn)
    | @constant c hc =>
        rw [hvalue]
        cases c <;> cases hk.symm.trans hkind <;> rfl
    | mark m => cases hk.symm.trans hkind

theorem Except.eq_error_of_toOption {ε α : Type} {r : Except ε α} {e : ε}
    (h : ((r.map fun _ => none).tryCatch fun e => .ok (some e)).toOption = some (some e)) :
    r = .error e := by
  cases r with
  | ok v => cases h
  | error f =>
      cases h
      rfl

/-- A name that is missing behind a comment is blamed on the keyword in its place, and not on the
string behind it that is not closed. -/
theorem first_error_final_update : ∃ tokens fault vs q found,
    (Lexer.ofSource "select 1 -- one\n; update /* t */ set x = 1; '").tokens =
      (tokens, some fault) ∧ (∀ t ∈ tokens, t.IsValued) ∧
    found = ⟨.keyword .SET, ⟨2, 18, 34⟩, .text "set"⟩ ∧
    (Session.ofStream (.ofTokens tokens (some fault))).Fails vs
      (.expected (.kind .identifier) found) q ∧ q.next = (none, q) ∧
    ∃ before behind, tokens = before ++ found :: behind ∧
      ∀ (behind' : List Token) (fault' : Option LexicalError), ∃ q',
        (Session.ofStream (.ofTokens (before ++ found :: behind') fault')).Fails vs
          (.expected (.kind .identifier) found) q' := by
  rw [Lexer.tokens_ofSource]
  obtain ⟨found, hfound⟩ : ∃ found : Token, found = ⟨.keyword .SET, ⟨2, 18, 34⟩, .text "set"⟩ :=
    ⟨_, rfl⟩
  have hkind : found.kind ≠ .eof := by simp [hfound]
  have herror : (Stream.ofSource "select 1 -- one\n; update /* t */ set x = 1; '").statements =
      .error (.expected (.kind .identifier) found) := by
    subst hfound
    exact Except.eq_error_of_toOption (by decide +kernel)
  have hfault : (Cursor.ofSource "select 1 -- one\n; update /* t */ set x = 1; '").tokens.2.isSome =
      true := by decide +kernel
  have hvalued (t) (h : t ∈ (Cursor.ofSource
      "select 1 -- one\n; update /* t */ set x = 1; '").tokens.1) : t.IsValued :=
    Cursor.isValued_of_mem_tokens h
  rw [Stream.ofSource, Lexer.tokens_ofSource] at herror
  generalize (Cursor.ofSource "select 1 -- one\n; update /* t */ set x = 1; '").tokens = r at *
  obtain ⟨tokens, fault⟩ := r
  obtain ⟨fault, rfl⟩ := Option.isSome_iff_exists.1 hfault
  obtain ⟨vs, q, hfails⟩ := Session.exists_fails herror rfl
  obtain ⟨before, last, behind, htokens, -, -, hlast, hnext, hothers⟩ :=
    first_error_final hvalued hfails rfl
  obtain rfl : found = last := by
    obtain hlast | ⟨-, hnone, -⟩ := hlast
    · exact hlast
    · cases hnone
  exact ⟨tokens, fault, vs, q, found, rfl, hvalued, hfound, hfails, hnext, before, behind, htokens,
    hothers hkind⟩

end Transact
