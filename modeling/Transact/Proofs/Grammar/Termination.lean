import Transact.Proofs.Grammar.Built
import Transact.Proofs.Grammar.Session
import Transact.Proofs.Grammar.Unfolding
import Transact.Proofs.Rule.Collects
import Transact.Proofs.Rule.Onward

namespace Transact

namespace Stream

variable {s t : Stream}

theorem size_eq_length_left (s : Stream) : s.size = s.left.length := by
  rw [size, left]
  split <;> rfl

theorem Onward.left_suffix (h : s.Onward t) : t.left <:+ s.left := by
  induction h with
  | refl => exact List.suffix_rfl
  | advance _ ha ih => exact ((left_suffix_upcoming ha).trans (upcoming_suffix_left _)).trans ih
  | fault _ _ ih => exact ih

theorem onward_statement (s : Stream) : s.Onward s.statement.rest :=
  (Grammar.built_rules (n := s.size + 1)).statement.onward s _

theorem onward_expression (s : Stream) : s.Onward s.expression.rest :=
  (Grammar.built_rules (n := s.size + 1)).expression.onward s _

theorem onward_predicate (s : Stream) : s.Onward s.predicate.rest :=
  (Grammar.built_rules (n := s.size + 1)).predicate.onward s _

end Stream

namespace Session

variable {p q : Session} {v : Statement}

theorem onward_start (p : Session) : p.stream.Onward p.start.2.stream := by
  rw [start]
  split
  · exact .refl
  · cases ha : p.stream.advance with
    | ok s => exact .advance .refl ha
    | error e => exact .fault .refl ha

theorem onward_nextStatement (p : Session) : p.stream.Onward p.nextStatement.2.stream := by
  have hstart := p.onward_start
  rw [nextStatement]
  cases hs : p.start with
  | mk result q =>
      rw [hs] at hstart
      cases result with
      | error e => exact hstart
      | ok s =>
          obtain ⟨-, rfl⟩ := size_start_le hs
          dsimp only
          split
          · exact hstart
          · have hstatement := hstart.trans q.stream.onward_statement
            cases ho : q.stream.statement <;> rwa [ho] at hstatement

theorem onward_expression (p : Session) : p.stream.Onward p.expression.2.stream := by
  have h := p.stream.onward_expression
  rw [expression]
  cases ho : p.stream.expression <;> rwa [ho] at h

theorem onward_predicate (p : Session) : p.stream.Onward p.predicate.2.stream := by
  have h := p.stream.onward_predicate
  rw [predicate]
  cases ho : p.stream.predicate <;> rwa [ho] at h

theorem exists_taken_of_nextStatement (h : p.nextStatement = (.ok (some v), q)) :
    ∃ taken, taken ≠ [] ∧ p.stream.left = taken ++ q.stream.left := by
  have honward := p.onward_nextStatement
  rw [h] at honward
  obtain ⟨taken, htaken⟩ := honward.left_suffix
  refine ⟨taken, ?_, htaken.symm⟩
  rintro rfl
  have hsize := size_nextStatement_lt h
  rw [Stream.size_eq_length_left, Stream.size_eq_length_left, ← htaken] at hsize
  exact Nat.lt_irrefl _ hsize

inductive Call where
  | statement
  | expression
  | predicate

def after (p : Session) : Call → Session
  | .statement => p.nextStatement.2
  | .expression => p.expression.2
  | .predicate => p.predicate.2

def afterAll (p : Session) (calls : List Call) : Session := calls.foldl after p

def gives (p : Session) : Call → Bool
  | .statement => p.nextStatement.1.toOption.join.isSome
  | _ => false

def given (p : Session) : List Call → Nat
  | [] => 0
  | call :: calls => (if p.gives call then 1 else 0) + (p.after call).given calls

theorem onward_after (p : Session) (call : Call) : p.stream.Onward (p.after call).stream := by
  cases call with
  | statement => exact p.onward_nextStatement
  | expression => exact p.onward_expression
  | predicate => exact p.onward_predicate

theorem onward_afterAll (p : Session) (calls : List Call) :
    p.stream.Onward (p.afterAll calls).stream := by
  induction calls generalizing p with
  | nil => exact .refl
  | cons call calls ih => exact (p.onward_after call).trans (ih _)

/-- Each call leaves as many tokens as there were, and fewer when it gives a statement. -/
theorem gives_add_length_le (p : Session) (call : Call) :
    (if p.gives call then 1 else 0) + (p.after call).stream.left.length ≤ p.stream.left.length := by
  split
  · rename_i hgives
    cases call with
    | statement =>
        cases hn : p.nextStatement with
        | mk result q =>
            cases result with
            | error e => simp [gives, hn, Except.toOption] at hgives
            | ok value =>
                cases value with
                | none => simp [gives, hn, Except.toOption] at hgives
                | some v =>
                    obtain ⟨taken, hne, htaken⟩ := exists_taken_of_nextStatement hn
                    have hpos := List.length_pos_iff.2 hne
                    simp only [after, hn, htaken, List.length_append]
                    omega
    | expression => cases hgives
    | predicate => cases hgives
  · rw [Nat.zero_add]
    exact (p.onward_after call).left_suffix.length_le

theorem given_add_length_le (p : Session) (calls : List Call) :
    p.given calls + (p.afterAll calls).stream.left.length ≤ p.stream.left.length := by
  induction calls generalizing p with
  | nil => exact Nat.le_of_eq (Nat.zero_add _)
  | cons call calls ih =>
      have hfirst := p.gives_add_length_le call
      have hrest := ih (p.after call)
      simp only [given, afterAll, List.foldl_cons] at hrest ⊢
      omega

/-- A session that is iterated gives these results, one after another, and then nothing more. -/
inductive Yields : Session → List (Except SyntaxError Statement) → Prop where
  | finish {p q : Session} (h : p.next = (none, q)) : Yields p []
  | result {p q : Session} {r : Except SyntaxError Statement}
      {rs : List (Except SyntaxError Statement)} (h : p.next = (some r, q)) (hq : Yields q rs) :
      Yields p (r :: rs)

theorem next_of_isFinished (h : p.isFinished = true) : p.next = (none, p) := by
  rw [next, if_pos h]

/-- Iterating comes to an end, with at most one statement for each token. -/
theorem exists_yields (p : Session) :
    ∃ rs, p.Yields rs ∧ rs.countP Except.isOk ≤ p.stream.left.length := by
  induction hl : p.stream.left.length using Nat.strongRecOn generalizing p with
  | ind l ih =>
      by_cases hf : p.isFinished = true
      · exact ⟨[], .finish (next_of_isFinished hf), Nat.zero_le _⟩
      cases hn : p.nextStatement with
      | mk result q =>
          cases result with
          | error e =>
              have hnext : p.next = (some (.error e), { q with isFinished := true }) := by
                simp [next, hf, hn]
              refine ⟨[.error e], .result hnext (.finish (next_of_isFinished rfl)), ?_⟩
              exact Nat.zero_le _
          | ok value =>
              cases value with
              | none =>
                  have hnext : p.next = (none, { q with isFinished := true }) := by
                    simp [next, hf, hn]
                  exact ⟨[], .finish hnext, Nat.zero_le _⟩
              | some v =>
                  have hnext : p.next = (some (.ok v), q) := by simp [next, hf, hn]
                  obtain ⟨taken, hne, htaken⟩ := exists_taken_of_nextStatement hn
                  have hpos := List.length_pos_iff.2 hne
                  have hlength : taken.length + q.stream.left.length = l := by
                    rw [← hl, htaken, List.length_append]
                  obtain ⟨rs, hrs, hcount⟩ := ih q.stream.left.length (by omega) q rfl
                  refine ⟨.ok v :: rs, .result hnext hrs, ?_⟩
                  rw [List.countP_cons_of_pos rfl]
                  omega

end Session

/-- Parsing ends, for any tokens: comments and ends of input anywhere among them, kinds and values
that do not go together, a lexical error behind them or none. On a stream `s`, the rules for a
statement, an expression and a predicate call each other to a depth of `4 * (s.size + 1)` at most,
and their loops have no more than `s.size + 1` turns: what stands beyond is never reached. After any
calls, failed ones among them, a call for a statement that gives one takes tokens that are no
comments. All calls together give at most one statement for each of these tokens, and so does
iterating, which comes to its end. -/
theorem parsing_ends :
    (∀ (s : Stream) (k : Nat),
      (∀ R : Grammar.Rules (s.size + 1), R.unfolds (4 * (s.size + 1) + k) = s.rules) ∧
      Grammar.LoopsEnd (s.size + 1) (s.size + 1 + k)) ∧
    ∀ (tokens : List Token) (fault : Option LexicalError) (calls : List Session.Call),
      let spoken := tokens.filter fun t => !t.kind.isComment
      let p := (Session.ofStream (.ofTokens tokens fault)).afterAll calls
      (∀ v q, p.nextStatement = (.ok (some v), q) → ∃ before taken, taken ≠ [] ∧
        spoken = before ++ p.stream.left ∧ p.stream.left = taken ++ q.stream.left) ∧
      (Session.ofStream (.ofTokens tokens fault)).given calls ≤ spoken.length ∧
      ∃ rs, p.Yields rs ∧ rs.countP Except.isOk ≤ spoken.length := by
  refine ⟨fun s k => ⟨fun R => Grammar.unfolds_eq_rules R (Nat.le_add_right _ _),
    Grammar.loopsEnd (Nat.le_add_right _ _)⟩, fun tokens fault calls => ?_⟩
  intro spoken p
  have hsuffix : p.stream.left <:+ spoken :=
    ((Session.ofStream (.ofTokens tokens fault)).onward_afterAll calls).left_suffix
  refine ⟨fun v q h => ?_, ?_, ?_⟩
  · obtain ⟨before, hbefore⟩ := hsuffix
    obtain ⟨taken, hne, htaken⟩ := Session.exists_taken_of_nextStatement h
    exact ⟨before, taken, hne, hbefore.symm, htaken⟩
  · exact Nat.le_trans (Nat.le_add_right _ _)
      ((Session.ofStream (.ofTokens tokens fault)).given_add_length_le calls)
  · obtain ⟨rs, hrs, hcount⟩ := p.exists_yields
    exact ⟨rs, hrs, Nat.le_trans hcount hsuffix.length_le⟩

end Transact
