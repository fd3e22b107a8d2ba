import Transact.Proofs.Token.Lexer
import Transact.Proofs.Token.Tile

namespace Transact

namespace Place

def behind (p q : Place) : Place :=
  ⟨p.line + (q.line - 1), if q.line = 1 then p.column + q.column else q.column,
    p.index + q.index⟩

theorem one_le_line_next {q : Place} (c : Char) (h : 1 ≤ q.line) : 1 ≤ (q.next c).line := by
  rw [next]
  split
  · exact Nat.le_succ_of_le h
  · split <;> exact h

theorem behind_next {p q : Place} (c : Char) (h : 1 ≤ q.line) :
    p.behind (q.next c) = (p.behind q).next c := by
  by_cases hn : c = '\n'
  · have hline : p.line + (q.line + 1 - 1) = p.line + (q.line - 1) + 1 := by omega
    have hfirst : q.line + 1 ≠ 1 := by omega
    simp only [behind, next, if_pos hn, hline, if_neg hfirst, Nat.add_assoc]
  · by_cases hr : c = '\r'
    · simp only [behind, next, if_neg hn, if_pos hr, Nat.add_assoc]
    · by_cases hq : q.line = 1 <;>
        simp only [behind, next, if_neg hn, if_neg hr, if_pos, if_neg, hq, Nat.add_assoc,
          not_false_eq_true]

theorem behind_advance (p : Place) (text : List Char) :
    p.behind (start.advance text) = p.advance text := by
  have hadvance (q : Place) (h : 1 ≤ q.line) :
      p.behind (q.advance text) = (p.behind q).advance text := by
    induction text generalizing q with
    | nil => rfl
    | cons c text ih =>
        change p.behind ((q.next c).advance text) = ((p.behind q).next c).advance text
        rw [ih _ (one_le_line_next c h), behind_next c h]
  exact hadvance start (Nat.le_refl 1)

/-- What a call for a token gives, with the place that it has behind `p`. -/
def relocate (p : Place) : Except LexicalError Token → Except LexicalError Token
  | .ok t => .ok { t with place := p.behind t.place }
  | .error e => .error { e with place := p.behind e.place }

end Place

namespace Cursor

variable {source : List Char} {c d : Cursor} {result : Except LexicalError Token}

theorem behind_ahead (p : Place) (text rest : List Char) :
    p.behind (ahead ⟨Place.start.advance text, rest⟩) = ahead ⟨p.advance text, rest⟩ := by
  have hahead (q : Place) :
      ahead ⟨q.advance text, rest⟩ = q.advance (text ++ [rest.headD ' ']) := by
    rw [Place.advance_append]
    rfl
  rw [hahead, hahead, p.behind_advance]

/-- What a step gives hangs on the unread characters alone, but for where it stands. -/
theorem next_eq (c : Cursor) :
    c.next = (c.place.relocate (next ⟨.start, c.rest⟩).1,
      ⟨c.place.behind (next ⟨.start, c.rest⟩).2.place, (next ⟨.start, c.rest⟩).2.rest⟩) := by
  obtain ⟨p, cs⟩ := c
  have hahead := behind_ahead p (cs.takeWhile Unicode.isBlank) (cs.dropWhile Unicode.isBlank)
  simp only [next, skipBlanks, advance]
  split
  · simp only [Place.relocate, Token.eof, Place.behind_advance, hahead]
  · rename_i first rest hr
    have hafter (text : List Char) : p.behind ((Place.start.advance
        (cs.takeWhile Unicode.isBlank)).advance text) =
        (p.advance (cs.takeWhile Unicode.isBlank)).advance text := by
      rw [← Place.advance_append, ← Place.advance_append, Place.behind_advance]
    simp only [take, advance]
    split
    · simp only [Place.relocate, hahead, hafter]
    · simp only [Place.relocate, hafter]
      rw [← Place.advance_append, ← Place.advance_append, behind_ahead]
    · simp only [Place.relocate, hahead, hafter]

theorem exists_taken (h : c.next = (result, d)) :
    ∃ taken, c.rest = taken ++ d.rest ∧ d.place = c.place.advance taken := by
  have hsplit := c.append_rest_skipBlanks
  simp only [next] at h
  split at h
  · cases h
    exact ⟨_, hsplit.symm, rfl⟩
  · rename_i first rest hr
    have hread : (Lexeme.read first rest).taken ++ (Lexeme.read first rest).rest = first :: rest :=
      Lexeme.read_splits first rest
    have hd : d = c.skipBlanks.advance (Lexeme.read first rest).taken
        (Lexeme.read first rest).rest := by
      simp only [take] at h
      split at h <;> exact (congrArg Prod.snd h).symm
    refine ⟨c.rest.takeWhile Unicode.isBlank ++ (Lexeme.read first rest).taken, ?_, ?_⟩
    · rw [hd, advance, List.append_assoc, hread, ← hr, hsplit]
    · rw [hd, Place.advance_append]
      rfl

/-- A cursor stands in a source: what it has still to read is the rest of the source, and its place
is that of the last character before it. -/
def StandsIn (source : List Char) (c : Cursor) : Prop :=
  ∃ read, source = read ++ c.rest ∧ c.place = Place.start.advance read

theorem standsIn_ofSource (source : String) : (ofSource source).StandsIn source.toList :=
  ⟨[], rfl, rfl⟩

theorem StandsIn.next (hc : c.StandsIn source) : c.next.2.StandsIn source := by
  obtain ⟨read, hsource, hplace⟩ := hc
  obtain ⟨taken, hrest, hnext⟩ := exists_taken (c := c) (d := c.next.2) rfl
  refine ⟨read ++ taken, ?_, ?_⟩
  · rw [hsource, hrest, List.append_assoc]
  · rw [hnext, hplace, Place.advance_append]

def after (c : Cursor) : Nat → Cursor
  | 0 => c
  | n + 1 => (c.after n).next.2

theorem standsIn_after (source : String) (n : Nat) :
    ((ofSource source).after n).StandsIn source.toList := by
  induction n with
  | zero => exact standsIn_ofSource source
  | succ n ih => exact ih.next

end Cursor

namespace Lexer

def after (l : Lexer) : Nat → Lexer
  | 0 => l
  | n + 1 => (l.after n).nextToken.2

theorem waits_after (source : String) (n : Nat) :
    ((ofSource source).after n).Waits ((Cursor.ofSource source).after n) := by
  induction n with
  | zero => exact waits_ofSource source
  | succ n ih => exact ih.nextToken.2

theorem unread_after (source : String) (n : Nat) :
    ((ofSource source).after n).unread = ((Cursor.ofSource source).after n).rest := by
  obtain ⟨b, q, hstands, -⟩ := waits_after source n
  exact hstands.unread

theorem result_after (source : String) (n : Nat) :
    ((ofSource source).after n).nextToken.1 = ((Cursor.ofSource source).after n).next.1 :=
  (waits_after source n).nextToken.1

/-- Each call for a next token gives what the first call gives to a lexer over the characters that
are unread, with places counted on from those that are read. The call takes the first of the unread
characters, and blanks apart these spell the word of its token. -/
theorem nextToken_fresh (source : String) (n : Nat) :
    ∃ read taken : List Char,
      source.toList = read ++ ((ofSource source).after n).unread ∧
      ((ofSource source).after n).unread = taken ++ ((ofSource source).after (n + 1)).unread ∧
      ((ofSource source).after n).nextToken.1 = (Place.start.advance read).relocate
        (ofSource (String.ofList ((ofSource source).after n).unread)).nextToken.1 ∧
      ∀ t, ((ofSource source).after n).nextToken.1 = .ok t → t.kind ≠ .eof →
        ∃ blanks lexeme : List Char, taken = blanks ++ lexeme ∧
          (∀ c ∈ blanks, Unicode.isBlank c = true) ∧ Lexeme.Spells lexeme t.word := by
  obtain ⟨read, hsource, hplace⟩ := Cursor.standsIn_after source n
  have hfresh := result_after (String.ofList ((ofSource source).after n).unread) 0
  change (ofSource _).nextToken.1 = (Cursor.ofSource _).next.1 at hfresh
  rw [hfresh, result_after, unread_after, unread_after]
  change ∃ _ _, _ ∧ _ = _ ++ ((Cursor.ofSource source).after n).next.2.rest ∧ _
  generalize (Cursor.ofSource source).after n = c at *
  obtain ⟨taken, hrest, -⟩ := Cursor.exists_taken (c := c) (d := c.next.2) rfl
  refine ⟨read, taken, hsource, hrest, ?_, fun t ht hk => ?_⟩
  · have hnext := congrArg Prod.fst c.next_eq
    rw [hplace] at hnext
    rw [Cursor.ofSource, String.toList_ofList]
    exact hnext
  · obtain ⟨tile, rfl, htile, -⟩ := Cursor.exists_tile (d := c.next.2) (Prod.ext ht rfl) hk
    refine ⟨tile.blanks, tile.lexeme, ?_, tile.isBlank, tile.spells⟩
    exact List.append_cancel_right (hrest.symm.trans htile)

/-- An identifier that is not closed leaves its text behind, and the call behind it takes none. -/
example : ((ofSource "[a").after 1).buffer = ['[', 'a'] ∧
    ((ofSource "[a").after 1).nextToken.1 = .ok (.eof ⟨1, 3, 3⟩) := by
  decide +kernel

end Lexer

end Transact
