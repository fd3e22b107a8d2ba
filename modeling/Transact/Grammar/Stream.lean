import Transact.Token.Lexer

namespace Transact

inductive Expectation where
  | kind (kind : Kind)
  | openParen
  | apply
  deriving DecidableEq

inductive SyntaxError where
  | unexpected (found : Token)
  | expected (what : Expectation) (found : Token)
  | lexical (error : LexicalError)
  deriving DecidableEq

namespace Expectation

def text : Expectation → String
  | kind k => k.name
  | openParen => "("
  | apply => "APPLY"

end Expectation

namespace SyntaxError

def message : SyntaxError → String
  | unexpected found =>
    s!"`{found.kind.name}` unexpected at line {found.place.line} char {found.place.column}."
  | expected what found =>
    s!"'{what.text}' expected at line {found.place.line} char {found.place.column}. " ++
      s!"Found `{found.kind.name}`"
  | lexical error => error.message

end SyntaxError

structure Stream where
  current : Token
  upcoming : List Token
  fault : Option LexicalError

namespace Stream

def ofTokens (tokens : List Token) (fault : Option LexicalError) : Stream :=
  ⟨.eof .start, tokens.filter fun t => !t.kind.isComment, fault⟩

def ofSource (source : String) : Stream :=
  let (tokens, fault) := (Lexer.ofSource source).tokens
  ofTokens tokens fault

/-- The number of tokens that are left, the end of the input not counted. -/
def size (s : Stream) : Nat := s.upcoming.length + if s.current.kind = .eof then 0 else 1

/-- Moves to the next token. The end of the input stands where the last token did. -/
def advance (s : Stream) : Except LexicalError Stream :=
  match s.upcoming, s.fault with
  | t :: ts, fault => .ok ⟨t, ts, fault⟩
  | [], some error => .error error
  | [], none => .ok ⟨.eof s.current.place, [], none⟩

def withoutFault (s : Stream) : Stream := { s with fault := none }

theorem size_advance_le {s t : Stream} (h : s.advance = .ok t) : t.size ≤ s.size := by
  simp only [advance] at h
  split at h
  · rename_i u us fault hu
    cases h
    simp only [size, hu, List.length_cons]
    split <;> omega
  · cases h
  · cases h
    simp [size, Token.eof]

theorem size_advance_lt {s t : Stream} (h : s.advance = .ok t) (hk : s.current.kind ≠ .eof) :
    t.size < s.size := by
  simp only [advance] at h
  split at h
  · rename_i u us fault hu
    cases h
    simp only [size, hu, List.length_cons, hk, if_false]
    split <;> omega
  · cases h
  · cases h
    simp [size, Token.eof, hk]

end Stream

end Transact
