import Transact.Grammar.Parse
import Transact.Proofs.Token.Lexer

namespace Transact

namespace Session

variable {p q : Session} {v : Statement} {e : SyntaxError}

theorem statements_eq_none (h : p.nextStatement = (.ok none, q)) : p.statements = .ok [] := by
  rw [statements]
  split
  · rename_i e' r hr
    cases h.symm.trans hr
  · rfl
  · rename_i v r hr
    cases h.symm.trans hr

theorem statements_eq_error (h : p.nextStatement = (.error e, q)) : p.statements = .error e := by
  rw [statements]
  split
  · rename_i e' r hr
    cases h.symm.trans hr
    rfl
  · rename_i r hr
    cases h.symm.trans hr
  · rename_i v r hr
    cases h.symm.trans hr

theorem statements_eq_some (h : p.nextStatement = (.ok (some v), q)) :
    p.statements = match q.statements with
      | .ok values => .ok (v :: values)
      | .error e => .error e := by
  rw [statements]
  split
  · rename_i e' r hr
    cases h.symm.trans hr
  · rename_i r hr
    cases h.symm.trans hr
  · rename_i v' r hr
    cases h.symm.trans hr
    rfl

theorem statements_eq_of_next (h : p.nextStatement = q.nextStatement) :
    p.statements = q.statements := by
  cases hq : q.nextStatement with
  | mk result r =>
      cases result with
      | error e => rw [statements_eq_error hq, statements_eq_error (h.trans hq)]
      | ok value =>
          cases value with
          | none => rw [statements_eq_none hq, statements_eq_none (h.trans hq)]
          | some v => rw [statements_eq_some hq, statements_eq_some (h.trans hq)]

def started (s : Stream) : Session := ⟨s, true, false⟩

theorem statements_started_eof {s : Stream} (h : s.current.kind = .eof) :
    (started s).statements = .ok [] := by
  refine statements_eq_none (q := started s) ?_
  simp [nextStatement, start, started, h]

theorem statements_started_error {s rest : Stream} (h : s.current.kind ≠ .eof)
    (hs : s.statement = .error e rest) : (started s).statements = .error e := by
  refine statements_eq_error (q := started rest) ?_
  simp [nextStatement, start, started, h, hs]

theorem statements_started_ok {s rest : Stream} {le : rest.size ≤ s.size}
    (h : s.current.kind ≠ .eof) (hs : s.statement = .ok v rest le) :
    (started s).statements = match (started rest).statements with
      | .ok values => .ok (v :: values)
      | .error e => .error e := by
  refine statements_eq_some (q := started rest) ?_
  simp [nextStatement, start, started, h, hs]

end Session

namespace Stream

variable {s t : Stream}

theorem statements_eq_started (h : s.advance = .ok t) :
    s.statements = (Session.started t).statements := by
  refine Session.statements_eq_of_next ?_
  simp [Session.nextStatement, Session.start, Session.started, Session.ofStream, h]

theorem statements_eq_error {e : LexicalError} (h : s.advance = .error e) :
    s.statements = .error (.lexical e) := by
  refine Session.statements_eq_error (q := ⟨s.withoutFault, true, false⟩) ?_
  simp [Session.nextStatement, Session.start, Session.ofStream, h]

end Stream

/-- A source without lexical errors is parsed as its tokens are. -/
theorem parse_eq_parseTokens {source : String} {ts : List Token} (h : lex source = .ok ts) :
    parse source = parseTokens ts := by
  rw [parse, Stream.ofSource, Lexer.tokens_ofSource, Cursor.tokens_of_lex h, parseTokens]

end Transact
