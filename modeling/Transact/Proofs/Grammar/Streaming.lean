import Transact.Input
import Transact.Proofs.Grammar.Lockstep
import Transact.Proofs.Sound.Parse
import Transact.Proofs.Token.Tile

namespace Transact

namespace Lexer

theorem yields_finished {l : Lexer} (h : l.isFinished = true) : l.Yields [] none :=
  .finish (m := l) (by simp [next, h])

theorem isFinished_of_next_none {l m : Lexer} (h : l.next = (none, m)) : m.isFinished = true := by
  simp only [next] at h
  split at h
  · cases h
    assumption
  · split at h
    · split at h
      · cases h
        rfl
      · cases h
    · cases h

theorem isFinished_of_next_error {l m : Lexer} {e : LexicalError}
    (h : l.next = (some (.error e), m)) : m.isFinished = true := by
  simp only [next] at h
  split at h
  · cases h
  · split at h
    · split at h <;> cases h
    · cases h
      rfl

theorem length_next_lt {l d : Lexer} {t : Token} (h : l.next = (some (.ok t), d)) :
    d.unread.length < l.unread.length := by
  rw [next] at h
  split at h
  · cases h
  · split at h
    · rename_i u m hn
      split at h
      · cases h
      · rename_i hu
        cases h
        exact length_nextToken_lt hn hu
    · cases h

def feed (l : Lexer) : Option (Except LexicalError Token) × Lexer :=
  match _ : l.next with
  | (some (.ok t), d) => if t.kind.isComment then d.feed else (some (.ok t), d)
  | (some (.error e), d) => (some (.error e), d)
  | (none, d) => (none, d)
termination_by l.unread.length
decreasing_by exact length_next_lt ‹_›

theorem feed_eq (l : Lexer) : l.feed =
    match l.next with
    | (some (.ok t), d) => if t.kind.isComment then d.feed else (some (.ok t), d)
    | (some (.error e), d) => (some (.error e), d)
    | (none, d) => (none, d) := by
  rw [feed]
  split <;> simp only [*]

def fed (l : Lexer) : Nat → Lexer
  | 0 => l
  | n + 1 => (l.fed n).feed.2

end Lexer

namespace Stream

/-- Advances, also past a lexical error, which is not met again. -/
def onward (s : Stream) : Stream :=
  match s.advance with
  | .ok u => u
  | .error _ => s.withoutFault

def after (s : Stream) : Nat → Stream
  | 0 => s
  | n + 1 => (s.after n).onward

/-- The tokens that are to come are those that the lexer yields, comments left out. -/
def FedBy (s : Stream) (l : Lexer) : Prop :=
  ∃ ts, l.Yields ts s.fault ∧ s.upcoming = ts.filter fun t => !t.kind.isComment

theorem fedBy_ofSource (source : String) : (ofSource source).FedBy (.ofSource source) := by
  have hyields := (Lexer.waits_ofSource source).yields
  rw [← Lexer.tokens_ofSource] at hyields
  exact ⟨_, hyields, rfl⟩

/-- To advance is to ask the lexer once. An error is met when the lexer comes to it, and what is
left of the stream goes on to be fed. -/
theorem FedBy.advance {s : Stream} {l : Lexer} (h : s.FedBy l) :
    s.advance.map current = l.feed.1.getD (.ok (.eof s.current.place)) ∧
      s.onward.FedBy l.feed.2 := by
  obtain ⟨ts, hts, hup⟩ := h
  obtain ⟨x, xs, fault⟩ := s
  dsimp only at hts hup
  subst hup
  induction hts with
  | finish h =>
      rw [Lexer.feed_eq, h]
      exact ⟨rfl, [], Lexer.yields_finished (Lexer.isFinished_of_next_none h), rfl⟩
  | fail h =>
      rw [Lexer.feed_eq, h]
      exact ⟨rfl, [], Lexer.yields_finished (Lexer.isFinished_of_next_error h), rfl⟩
  | @token l m t ts fault h hyields ih =>
      rw [Lexer.feed_eq, h]
      dsimp only
      cases ht : t.kind.isComment with
      | false =>
          rw [List.filter_cons_of_pos (by rw [ht]; rfl)]
          exact ⟨rfl, ts, hyields, rfl⟩
      | true =>
          rw [List.filter_cons_of_neg (by simp [ht])]
          exact ih

theorem fedBy_after (source : String) (n : Nat) :
    ((ofSource source).after n).FedBy ((Lexer.ofSource source).fed n) := by
  induction n with
  | zero => exact fedBy_ofSource source
  | succ n ih => exact ih.advance.2

theorem streams_ofTokens (ts : List Token) (fault : Option LexicalError) :
    (Likeness.identical fault).Streams (ofTokens ts fault) (ofTokens ts none) :=
  ⟨rfl, List.forall₂_same.2 fun _ _ => rfl, rfl, rfl⟩

end Stream

theorem Likeness.eq_of_errors {fault : Option LexicalError} {e e' : SyntaxError}
    (h : (Likeness.identical fault).Errors e e') : e = e' ∧ ∀ f, e ≠ .lexical f := by
  cases h with
  | @unexpected x y h =>
      obtain rfl : x = y := h
      exact ⟨rfl, by simp⟩
  | @expected x y what h =>
      obtain rfl : x = y := h
      exact ⟨rfl, by simp⟩

/-- With a lexical error behind the tokens, the grammar ends in that error, or as it does without
it. -/
theorem statements_ofTokens (ts : List Token) (fault : LexicalError) :
    (Stream.ofTokens ts (some fault)).statements = .error (.lexical fault) ∨
      (∃ g, (∀ f, g ≠ .lexical f) ∧ (Stream.ofTokens ts (some fault)).statements = .error g ∧
        parseTokens ts = .error g) ∨
      ∃ vs, (Stream.ofTokens ts (some fault)).statements = .ok vs := by
  have h := Likeness.results_statements (Stream.streams_ofTokens ts (some fault))
  rw [parseTokens]
  generalize (Stream.ofTokens ts (some fault)).statements = r,
    (Stream.ofTokens ts none).statements = r' at h ⊢
  cases h with
  | lost h =>
      cases h
      exact .inl rfl
  | error h =>
      obtain ⟨rfl, hne⟩ := Likeness.eq_of_errors h
      exact .inr (.inl ⟨_, hne, rfl, rfl⟩)
  | ok => exact .inr (.inr ⟨_, rfl⟩)

theorem parse_of_fault {source : String} {ts : List Token} {fault : LexicalError}
    (h : (Cursor.ofSource source).tokens = (ts, some fault)) :
    parse source = .error (.lexical fault) ∨
      ∃ g, (∀ f, g ≠ .lexical f) ∧ parse source = .error g ∧ parseTokens ts = .error g := by
  have hparse : parse source = (Stream.ofTokens ts (some fault)).statements := by
    rw [parse, Stream.ofSource, Lexer.tokens_ofSource, h]
  rw [hparse]
  obtain hlost | herror | ⟨vs, hvs⟩ := statements_ofTokens ts fault
  · exact .inl hlost
  · exact .inr herror
  · -- a success has drained the stream, its lexical error included
    obtain ⟨us, hus, -⟩ := parse_sound (hparse.trans hvs)
    rw [lex, Lexer.tokens_ofSource, h] at hus
    cases hus

/-- A source that scans is parsed as its tokens are, with the same places. Where scanning fails
behind some tokens, parsing the source fails: with that failure, or with the error of the grammar
that parsing these tokens gives. So a source parses if and only if it scans and its tokens parse.
However far parsing has come, the token it asks for next is the one that a lexer gives that was
asked as often and for no more. -/
theorem parse_streamed (source : String) :
    (∀ ts, lexInput (some source) = .ok ts →
      parseInput (some source) = parseTokenInput (some ts)) ∧
    (∀ e, lexInput (some source) = .error e → ∃ fault ts, e = .lexical fault ∧
      (Lexer.ofSource source).Yields ts (some fault) ∧
      (∀ vs, parseInput (some source) ≠ .ok vs) ∧
      (parseInput (some source) = .error (.grammatical (.lexical fault)) ∨
        ∃ g, (∀ f, g ≠ .lexical f) ∧ parseInput (some source) = .error (.grammatical g) ∧
          parseTokenInput (some ts) = .error (.grammatical g))) ∧
    ((∃ vs, parseInput (some source) = .ok vs) ↔
      ∃ ts vs, lexInput (some source) = .ok ts ∧ parseTokenInput (some ts) = .ok vs) ∧
    ∀ n, ((Stream.ofSource source).after n).advance.map Stream.current =
      ((Lexer.ofSource source).fed n).feed.1.getD
        (.ok (.eof ((Stream.ofSource source).after n).current.place)) := by
  have hasked (n : Nat) := (Stream.fedBy_after source n).advance.1
  have hyields := (Lexer.waits_ofSource source).yields
  obtain ⟨ts, fault, htokens⟩ : ∃ ts fault, (Cursor.ofSource source).tokens = (ts, fault) :=
    ⟨_, _, rfl⟩
  rw [htokens] at hyields
  cases fault with
  | none =>
      have hlex : lexInput (some source) = .ok ts := by
        rw [lexInput, lex, Lexer.tokens_ofSource, htokens]
        rfl
      have hparse : parseInput (some source) = parseTokenInput (some ts) := by
        rw [parseInput, parse_eq_parseTokens (by rw [lex, Lexer.tokens_ofSource, htokens]),
          parseTokenInput]
      exact ⟨by simp [hlex, hparse], by simp [hlex], by simp [hlex, hparse], hasked⟩
  | some fault =>
      have hlex : lexInput (some source) = .error (.lexical fault) := by
        rw [lexInput, lex, Lexer.tokens_ofSource, htokens]
        rfl
      have hends : parseInput (some source) = .error (.grammatical (.lexical fault)) ∨
          ∃ g, (∀ f, g ≠ .lexical f) ∧ parseInput (some source) = .error (.grammatical g) ∧
            parseTokenInput (some ts) = .error (.grammatical g) := by
        obtain h | ⟨g, hg, h, hts⟩ := parse_of_fault htokens
        · exact .inl (by rw [parseInput, h]; rfl)
        · exact .inr ⟨g, hg, by rw [parseInput, h]; rfl, by rw [parseTokenInput, hts]; rfl⟩
      have hnever (vs) : parseInput (some source) ≠ .ok vs := by
        obtain h | ⟨g, -, h, -⟩ := hends <;> simp [h]
      refine ⟨by simp [hlex], fun e he => ?_, by simp [hlex, hnever], hasked⟩
      cases hlex.symm.trans he
      exact ⟨fault, ts, rfl, hyields, hnever, hends⟩

end Transact
