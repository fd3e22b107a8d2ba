import Transact.Proofs.Token.Constant
import Transact.Proofs.Token.Lexer
import Transact.Proofs.Token.Tile
import Transact.Proofs.Token.Word

namespace Transact

namespace Constant

theorem spells {c : Constant} (h : c.IsLiteral) : Lexeme.Spells c.literal.toList c.word := by
  obtain ⟨text, rfl⟩ | ⟨text, rfl⟩ | ⟨n, type, value, hw, hwf, hc, hv⟩ := literal_cases h
  · exact .quoted text
  · exact .nationalQuoted text
  · rw [← hc, hw]
    exact .number hwf hv

end Constant

/-- A name that is not reserved spells an identifier, and a reserved one its keyword. -/
theorem Lexeme.IsName.spells {p : List Char} (h : IsName p) {k : Kind}
    (hk : Kind.ofWord (String.ofList p) = k) : Spells p (k, .text (String.ofList p)) := by
  rw [← hk]
  exact .name h

inductive SourceToken where
  | plain (first : Char) (rest : List Char) (isWordStart : Lexeme.isWordStart first = true)
      (isWordPart : ∀ c ∈ rest, Lexeme.isWordPart c = true)
      (notReserved : Keyword.ofWord? (String.ofList (first :: rest)) = none)
  | bracketed (body : List Char) (h : ']' ∉ body)
  | quoted (body : List Char) (h : '"' ∉ body)
  /-- A keyword in letters of any case. -/
  | keyword (word : Keyword) (text : String) (h : Text.sameWord text word.spelling = true)
  | constant (value : Constant) (h : value.IsLiteral)
  | blockComment (body : List Char) (h : ¬['*', '/'] <:+: body)
  | lineComment (body : List Char) (h : ∀ c ∈ body, c ≠ '\r' ∧ c ≠ '\n')
  | mark (mark : Mark)

namespace SourceToken

def chars : SourceToken → List Char
  | plain first rest .. => first :: rest
  | bracketed body _ => '[' :: (body ++ [']'])
  | quoted body _ => '"' :: (body ++ ['"'])
  | keyword _ text _ => text.toList
  | constant value _ => value.literal.toList
  | blockComment body _ => '/' :: '*' :: (body ++ ['*', '/'])
  | lineComment body _ => '-' :: '-' :: body
  | mark m => m.spelling

def word : SourceToken → Word
  | plain first rest .. => (.identifier, .text (String.ofList (first :: rest)))
  | bracketed body _ => (.identifier, .text (String.ofList ('[' :: (body ++ [']']))))
  | quoted body _ => (.identifier, .text (String.ofList ('"' :: (body ++ ['"']))))
  | keyword word text _ => (.keyword word, .text text)
  | constant value _ => value.word
  | blockComment body _ => (.comment .block, .text (String.ofList body))
  | lineComment body _ => (.comment .line, .text (String.ofList body))
  | mark m => (.mark m, .none)

def lines : List SourceToken → List Char
  | [] => []
  | [t] => t.chars
  | t :: ts => t.chars ++ '\n' :: lines ts

theorem spells (t : SourceToken) : Lexeme.Spells t.chars t.word := by
  cases t with
  | plain first rest hs hp hk =>
      exact (Lexeme.isName_of_isWordStart hs hp).spells (Kind.ofWord_eq_identifier hk)
  | bracketed body h =>
      exact (Lexeme.IsName.bracketed h).spells
        (Kind.ofWord_eq_identifier (Keyword.ofWord?_eq_none (by decide)))
  | quoted body h =>
      exact (Lexeme.IsName.quoted h).spells
        (Kind.ofWord_eq_identifier (Keyword.ofWord?_eq_none (by decide)))
  | keyword word text h =>
      have hs := (Keyword.isName_of_sameWord h).spells (k := .keyword word)
      rw [String.ofList_toList] at hs
      exact hs (Kind.ofWord_eq_keyword (Keyword.ofWord?_eq_some h))
  | constant value h => exact Constant.spells h
  | blockComment body h => exact .blockComment h
  | lineComment body h => exact .lineComment fun c hc => by simp [Lexeme.isLineEnd, h c hc]
  | mark m => exact .mark m

end SourceToken

namespace Cursor

variable {text : List Char} {w : Word}

theorem tokens_spelling (h : Lexeme.Spells text w) (cs : List Char)
    (hc : ∀ c, cs.head? = some c → c = '\n') (p : Place) :
    ∃ t : Token, t.word = w ∧ tokens ⟨p, text ++ cs⟩ =
      (t :: (tokens ⟨p.advance text, cs⟩).1, (tokens ⟨p.advance text, cs⟩).2) :=
  exists_tokens_readsAs (h.readsAs cs hc) h.ne_eof p

/-- Tokens on lines of their own are read back, with or without an end of line behind them. -/
theorem tokens_lines (written : List SourceToken) {ending : List Char}
    (he : ending = [] ∨ ending = ['\n']) (p : Place) :
    ∃ ts, tokens ⟨p, SourceToken.lines written ++ ending⟩ = (ts, none) ∧
      ts.map Token.word = written.map SourceToken.word := by
  have hnil (p : Place) : tokens ⟨p, ending⟩ = ([], none) := by
    obtain rfl | rfl := he
    · exact tokens_nil p
    · rw [tokens_blank (by decide), tokens_nil]
  induction written using SourceToken.lines.induct generalizing p with
  | case1 => exact ⟨[], hnil p, rfl⟩
  | case2 t =>
      have hend : ∀ c, ending.head? = some c → c = '\n' := by
        obtain rfl | rfl := he
        · nofun
        · rintro c ⟨⟩
          rfl
      obtain ⟨u, hu, ht⟩ := tokens_spelling t.spells ending hend p
      exact ⟨[u], by rw [SourceToken.lines, ht, hnil], by simp [hu]⟩
  | case3 t rest hne ih =>
      obtain ⟨ts, hts, hwords⟩ := ih ((p.advance t.chars).next '\n')
      obtain ⟨u, hu, ht⟩ := tokens_spelling t.spells
        ('\n' :: (SourceToken.lines rest ++ ending)) (by rintro c ⟨⟩; rfl) p
      refine ⟨u :: ts, ?_, by rw [List.map_cons, hu, hwords, List.map_cons]⟩
      rw [SourceToken.lines, List.append_assoc, List.cons_append, ht, tokens_blank (by decide), hts]
      exact hne

end Cursor

/-- Writing undone by reading: any list of tokens, comments among them, is read back in kind and
value from a source that has one of them on each line, with or without an end of line at its end. -/
theorem lex_lines (written : List SourceToken) :
    (∃ ts, lex (String.ofList (SourceToken.lines written)) = .ok ts ∧
      ts.map Token.word = written.map SourceToken.word) ∧
    ∃ ts, lex (String.ofList (SourceToken.lines written ++ ['\n'])) = .ok ts ∧
      ts.map Token.word = written.map SourceToken.word := by
  have hlex (ending : List Char) (he : ending = [] ∨ ending = ['\n']) :
      ∃ ts, lex (String.ofList (SourceToken.lines written ++ ending)) = .ok ts ∧
        ts.map Token.word = written.map SourceToken.word := by
    obtain ⟨ts, ht, hwords⟩ := Cursor.tokens_lines written he .start
    exact ⟨ts, by rw [lex, Lexer.tokens_ofSource, Cursor.ofSource, String.toList_ofList, ht],
      hwords⟩
  refine ⟨?_, hlex _ (.inr rfl)⟩
  have h := hlex [] (.inl rfl)
  rwa [List.append_nil] at h

end Transact
