import Transact.Grammar.Statement

namespace Transact

namespace Grammar

/-- The rules for streams of fewer than `n` tokens. On a stream of `k` tokens each of them is built
from the rules for streams of fewer than `k`. -/
def rules (n : Nat) : Rules n :=
  { primary := fun s _ => primary (rules s.size) s (Nat.lt_succ_self _)
    expression := fun s _ => expression (primary (rules s.size)) s (Nat.lt_succ_self _)
    parenthesized := fun s _ => parenthesized (rules s.size) s (Nat.lt_succ_self _)
    select := fun s _ => select (rules s.size) s (Nat.lt_succ_self _)
    predicatePrimary := fun s _ => predicatePrimary (rules s.size) s (Nat.lt_succ_self _)
    predicate := fun s _ =>
      predicate (predicatePrimary (rules s.size)) s (Nat.lt_succ_self _)
    statement := fun s _ => statement (rules s.size) s (Nat.lt_succ_self _)
    shrinks := fun s _ => shrinks_statement (rules s.size) s (Nat.lt_succ_self _) }
termination_by n

end Grammar

namespace Stream

/-- The rules for this stream and all that are shorter. -/
def rules (s : Stream) : Grammar.Rules (s.size + 1) := Grammar.rules (s.size + 1)

def expression (s : Stream) : Outcome Expression s.size :=
  s.rules.expression s (Nat.lt_succ_self _)

def predicate (s : Stream) : Outcome Predicate s.size := s.rules.predicate s (Nat.lt_succ_self _)

def statement (s : Stream) : Outcome Statement s.size := s.rules.statement s (Nat.lt_succ_self _)

theorem size_statement_lt {s rest : Stream} {value : Statement} {le : rest.size ≤ s.size}
    (h : s.statement = .ok value rest le) : rest.size < s.size :=
  s.rules.shrinks s (Nat.lt_succ_self _) value rest le h

end Stream

/-- Parsing in progress. Nothing is read before the first statement is asked for. -/
structure Session where
  stream : Stream
  isStarted : Bool
  isFinished : Bool

namespace Session

def ofStream (s : Stream) : Session := ⟨s, false, false⟩

def start (p : Session) : Except SyntaxError Stream × Session :=
  if p.isStarted then (.ok p.stream, p)
  else
    match p.stream.advance with
    | .ok s => (.ok s, { p with stream := s, isStarted := true })
    | .error e =>
      (.error (.lexical e), { p with stream := p.stream.withoutFault, isStarted := true })

def nextStatement (p : Session) : Except SyntaxError (Option Statement) × Session :=
  match p.start with
  | (.error e, p) => (.error e, p)
  | (.ok s, p) =>
    if s.current.kind = .eof then (.ok none, p)
    else
      match s.statement with
      | .ok value rest _ => (.ok (some value), { p with stream := rest })
      | .error e rest => (.error e, { p with stream := rest })

/-- The next statement of a sequence that ends for good at the first error. -/
def next (p : Session) : Option (Except SyntaxError Statement) × Session :=
  if p.isFinished then (none, p)
  else
    match p.nextStatement with
    | (.ok (some value), p) => (some (.ok value), p)
    | (.ok none, p) => (none, { p with isFinished := true })
    | (.error e, p) => (some (.error e), { p with isFinished := true })

def expression (p : Session) : Except SyntaxError Expression × Session :=
  match p.stream.expression with
  | .ok value rest _ => (.ok value, { p with stream := rest })
  | .error e rest => (.error e, { p with stream := rest })

def predicate (p : Session) : Except SyntaxError Predicate × Session :=
  match p.stream.predicate with
  | .ok value rest _ => (.ok value, { p with stream := rest })
  | .error e rest => (.error e, { p with stream := rest })

theorem size_start_le {p q : Session} {s : Stream} (h : p.start = (.ok s, q)) :
    s.size ≤ p.stream.size ∧ q.stream = s := by
  simp only [start] at h
  split at h
  · cases h
    exact ⟨Nat.le_refl _, rfl⟩
  · split at h
    · rename_i t ht
      cases h
      exact ⟨Stream.size_advance_le ht, rfl⟩
    · cases h

/-- A statement takes at least one token. -/
theorem size_nextStatement_lt {p q : Session} {value : Statement}
    (h : p.nextStatement = (.ok (some value), q)) : q.stream.size < p.stream.size := by
  simp only [nextStatement] at h
  split at h
  · cases h
  · rename_i s r hs
    have hle := size_start_le hs
    split at h
    · cases h
    · split at h
      · rename_i v rest le hv
        cases h
        exact Nat.lt_of_lt_of_le (Stream.size_statement_lt hv) hle.1
      · cases h

def statements (p : Session) : Except SyntaxError (List Statement) :=
  match h : p.nextStatement with
  | (.error e, _) => .error e
  | (.ok none, _) => .ok []
  | (.ok (some value), q) =>
    have := size_nextStatement_lt h
    match q.statements with
    | .ok values => .ok (value :: values)
    | .error e => .error e
termination_by p.stream.size

end Session

def Stream.statements (s : Stream) : Except SyntaxError (List Statement) :=
  (Session.ofStream s).statements

/-- The statements of a source. Its lexical errors are found as the grammar reaches them. -/
def parse (source : String) : Except SyntaxError (List Statement) :=
  (Stream.ofSource source).statements

def parseTokens (tokens : List Token) : Except SyntaxError (List Statement) :=
  (Stream.ofTokens tokens none).statements

end Transact
