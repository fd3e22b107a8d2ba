import Transact.Token.Lexer

namespace Transact

/-- The characters that are still to be read, and the place of the last one read. -/
structure Cursor where
  place : Place
  rest : List Char

namespace Cursor

def ofSource (source : String) : Cursor := ⟨.start, source.toList⟩

def ahead (c : Cursor) : Place := c.place.next (c.rest.headD ' ')

def advance (c : Cursor) (taken rest : List Char) : Cursor := ⟨c.place.advance taken, rest⟩

def skipBlanks (c : Cursor) : Cursor :=
  c.advance (c.rest.takeWhile Unicode.isBlank) (c.rest.dropWhile Unicode.isBlank)

def take (c : Cursor) (lexeme : Lexeme) : Except LexicalError Token × Cursor :=
  let after := c.advance lexeme.taken lexeme.rest
  match lexeme.content with
  | .ok (kind, value) => (.ok ⟨kind, c.ahead, value⟩, after)
  | .error (.expected what) => (.error ⟨.expected what, after.ahead⟩, after)
  | .error fault => (.error ⟨fault, c.ahead⟩, after)

/-- The next token, or the end of the input, again and again. After an error the cursor stands
where reading stopped. -/
def next (c : Cursor) : Except LexicalError Token × Cursor :=
  let c := c.skipBlanks
  match c.rest with
  | [] => (.ok (.eof c.ahead), c)
  | first :: rest => c.take (Lexeme.read first rest)

theorem length_skipBlanks_le (c : Cursor) : c.skipBlanks.rest.length ≤ c.rest.length := by
  have h : c.rest.takeWhile Unicode.isBlank ++ c.rest.dropWhile Unicode.isBlank = c.rest :=
    List.takeWhile_append_dropWhile
  have hl := congrArg List.length h
  simp only [List.length_append] at hl
  simp only [skipBlanks, advance]
  omega

theorem length_next_lt {c d : Cursor} {t : Token} (h : c.next = (.ok t, d)) (ht : t.kind ≠ .eof) :
    d.rest.length < c.rest.length := by
  have hb := length_skipBlanks_le c
  simp only [next] at h
  split at h
  · cases h
    exact absurd rfl ht
  · rename_i first rest hr
    rw [hr, List.length_cons] at hb
    simp only [take] at h
    split at h
    · rename_i kind value hc
      cases h
      exact Nat.lt_of_lt_of_le (Nat.lt_succ_of_le (Lexeme.length_rest_le hc)) hb
    · cases h
    · cases h

def tokens (c : Cursor) : List Token × Option LexicalError :=
  match h : c.next with
  | (.error e, _) => ([], some e)
  | (.ok t, after) =>
    if ht : t.kind = .eof then ([], none)
    else
      have := length_next_lt h ht
      let (ts, e) := after.tokens
      (t :: ts, e)
termination_by c.rest.length

end Cursor

end Transact
