import Mathlib.Data.List.Induction
import Transact.Proofs.Token.Resume

namespace Transact

namespace Place

def lastLine (text : List Char) : List Char := (text.reverse.takeWhile (· != '\n')).reverse

/-- The place of a character behind a text. The line counts the ends of line in the text, the column
the characters of the last line and this one, carriage returns left out. -/
def following (text : List Char) (c : Char) : Place where
  line := 1 + text.count '\n'
  column := ((lastLine text ++ [c]).filter (· != '\r')).length
  index := text.length + 1

theorem lastLine_append_newline (text : List Char) : lastLine (text ++ ['\n']) = [] := by
  simp [lastLine]

theorem lastLine_append {c : Char} (text : List Char) (h : c ≠ '\n') :
    lastLine (text ++ [c]) = lastLine text ++ [c] := by
  simp [lastLine, h]

theorem advance_start (text : List Char) : start.advance text =
    ⟨1 + text.count '\n', ((lastLine text).filter (· != '\r')).length, text.length⟩ := by
  induction text using List.reverseRecOn with
  | nil => rfl
  | append_singleton text c ih =>
      rw [advance_append, ih]
      change next _ c = _
      by_cases hn : c = '\n'
      · subst hn
        simp [next, lastLine_append_newline, Nat.add_assoc]
      · rw [next, if_neg hn, lastLine_append text hn]
        by_cases hr : c = '\r'
        · simp [hr]
        · simp [hn, hr]

theorem next_advance_start {c : Char} (text : List Char) (h : c ≠ '\n') :
    (start.advance text).next c = following text c := by
  rw [advance_start, next, if_neg h, following]
  by_cases hr : c = '\r'
  · simp [hr]
  · simp [hr]

end Place

namespace Lexeme

/-- What a lexeme that is no token has taken, of a source that begins with `first`. A missing text
is missed at the end of the source, or behind the one character that begins longer marks only. -/
def Refused (first : Char) (lexeme : Lexeme) : Fault → Prop
  | .expected what =>
    what ∈ ["]", "\"", "'", "*/"] ∧ lexeme.rest = [] ∨
      lexeme.taken = [first] ∧ (first, what) ∈ [(':', ":"), ('!', "=")]
  | .badNumber text => ∃ n : Numeral, n.value? = none ∧ text = String.ofList n.completed ∧
      lexeme.taken = n.chars ∧ lexeme.taken ≠ []
  | .stray c => c = first ∧ lexeme.taken = []

variable {first : Char} {rest source : List Char} {fault : Fault}

theorem refused_number
    (hc : (first.isDigit || (first == '.' && rest.head?.any Char.isDigit)) = true)
    (h : (number (first :: rest)).content = .error fault) :
    (number (first :: rest)).Refused first fault := by
  have hne := number_taken_ne_nil hc
  simp only [number] at h hne ⊢
  split at h
  · cases h
  · rename_i hv
    cases h
    exact ⟨_, hv, rfl, rfl, hne⟩

theorem refused_literal {type : ConstantType} {opening : List Char}
    (h : (literal type opening source).content = .error fault) :
    (literal type opening source).Refused first fault := by
  simp only [literal] at h ⊢
  split at h
  · cases h
  · cases h
    exact .inl ⟨by simp, rfl⟩

theorem refused_delimited {opening closing : Char} (hc : closing = ']' ∨ closing = '"')
    (h : (delimited opening closing source).content = .error fault) :
    (delimited opening closing source).Refused first fault := by
  simp only [delimited] at h ⊢
  split at h
  · cases h
  · cases h
    refine .inl ⟨?_, rfl⟩
    obtain rfl | rfl := hc <;> decide

theorem refused_blockComment (h : (blockComment source).content = .error fault) :
    (blockComment source).Refused first fault := by
  simp only [blockComment] at h ⊢
  split at h
  · cases h
  · cases h
    exact .inl ⟨by simp, rfl⟩

theorem refused_mark (h : (mark first rest).content = .error fault) :
    (mark first rest).Refused first fault := by
  simp only [mark] at h ⊢
  split at h
  · cases h
  split at h
  · rename_i hf
    cases h
    simp [Refused, hf]
  split at h
  · rename_i hf
    cases h
    simp [Refused, hf]
  · rename_i h1 h2
    cases h
    simp [Refused, h1, h2]

theorem refused_read (h : (read first rest).content = .error fault) :
    (read first rest).Refused first fault := by
  revert h
  simp only [read]
  split
  · exact refused_number ‹_›
  split
  · exact refused_literal
  split
  · exact refused_literal
  split
  · exact refused_delimited (.inl rfl)
  split
  · exact refused_delimited (.inr rfl)
  split
  · intro h
    cases h
  split
  · intro h
    cases h
  split
  · exact refused_blockComment
  · exact refused_mark

end Lexeme

/-- What a call for a token gives behind the text `before`, when it takes `lexeme` and leaves
`rest`: a token or the end of the input, or a text that is missing at the end of the source, the
second half of a mark that is missing, a number that is none, or a character that begins no token.
All of them are placed by the text in front, and what begins with a character stands where this
character does. A blank stands for any character that might follow the end of the source. -/
inductive Found (before : List Char) :
    List Char → List Char → Except LexicalError Token → Prop where
  | token {first : Char} {tail rest : List Char} {t : Token}
      (hs : Lexeme.Spells (first :: tail) t.word) (hp : t.place = .following before first) :
      Found before (first :: tail) rest (.ok t)
  | finish : Found before [] [] (.ok (.eof (.following before ' ')))
  | unterminated {lexeme : List Char} {what : String} (hw : what ∈ ["]", "\"", "'", "*/"]) :
      Found before lexeme [] (.error ⟨.expected what, .following (before ++ lexeme) ' '⟩)
  | incomplete {first : Char} {rest : List Char} {what : String}
      (hw : (first, what) ∈ [(':', ":"), ('!', "=")]) :
      Found before [first] rest
        (.error ⟨.expected what, (Place.following before first).next (rest.headD ' ')⟩)
  | badNumber {first : Char} {tail rest : List Char} {n : Numeral}
      (hn : n.chars = first :: tail) (hv : n.value? = none) :
      Found before (first :: tail) rest
        (.error ⟨.badNumber (String.ofList n.completed), .following before first⟩)
  | stray {c : Char} {rest : List Char} :
      Found before [] (c :: rest) (.error ⟨.stray c, .following before c⟩)

namespace Cursor

theorem ne_newline_of_not_isBlank {c : Char} (h : Unicode.isBlank c = false) : c ≠ '\n' := by
  rintro rfl
  revert h
  decide

theorem found_take (before : List Char) {first : Char} (rest : List Char)
    (hb : Unicode.isBlank first = false) :
    Found before (Lexeme.read first rest).taken (Lexeme.read first rest).rest
      (take ⟨Place.start.advance before, first :: rest⟩ (Lexeme.read first rest)).1 := by
  have hsplit : (Lexeme.read first rest).taken ++ (Lexeme.read first rest).rest = first :: rest :=
    Lexeme.read_splits first rest
  have hfirst : (Place.start.advance before).next first = .following before first :=
    Place.next_advance_start before (ne_newline_of_not_isBlank hb)
  have hahead : ahead ⟨Place.start.advance before, first :: rest⟩ = .following before first :=
    hfirst
  have hspells := @Lexeme.spells_read first rest
  have hrefused := @Lexeme.refused_read first rest
  have hne := @Lexeme.taken_ne_nil first rest
  simp only [take, hahead]
  generalize Lexeme.read first rest = lexeme at *
  obtain ⟨taken, left, content⟩ := lexeme
  dsimp only at *
  have hhead {x : Char} {tail : List Char} (h : taken = x :: tail) : x = first := by
    rw [h] at hsplit
    exact (List.cons.inj hsplit).1
  split
  · obtain ⟨x, tail, rfl⟩ := List.exists_cons_of_ne_nil (hne rfl)
    obtain rfl := hhead rfl
    exact .token (hspells hb rfl) rfl
  · -- What is not closed takes the rest of the source, and an incomplete mark one character.
    obtain ⟨hw, rfl⟩ | ⟨rfl, hw⟩ := hrefused rfl
    · have hend : (Place.start.advance before).advance taken =
          Place.start.advance (before ++ taken) := (Place.advance_append _ _ _).symm
      have hblank : (' ' : Char) ≠ '\n' := by decide
      rw [advance, ahead, hend, List.headD_nil, Place.next_advance_start _ hblank]
      exact .unterminated hw
    · have hend : (Place.start.advance before).advance [first] = .following before first := hfirst
      rw [advance, ahead, hend]
      exact .incomplete hw
  · rename_i fault hfault
    have h := hrefused rfl
    cases fault with
    | expected what => exact absurd rfl (hfault what)
    | stray c =>
        obtain ⟨rfl, rfl⟩ := h
        rw [List.nil_append] at hsplit
        subst hsplit
        exact .stray
    | badNumber text =>
        obtain ⟨n, hv, rfl, htaken, hnil⟩ := h
        obtain ⟨x, tail, rfl⟩ := List.exists_cons_of_ne_nil hnil
        obtain rfl := hhead rfl
        exact .badNumber htaken.symm hv

/-- What a step gives is found behind what was read before it and blanks. -/
theorem found_next {read : List Char} {c : Cursor} (h : c.place = Place.start.advance read) :
    ∃ blanks lexeme : List Char, c.rest = blanks ++ lexeme ++ c.next.2.rest ∧
      (∀ x ∈ blanks, Unicode.isBlank x = true) ∧
      Found (read ++ blanks) lexeme c.next.2.rest c.next.1 := by
  have hsplit := c.append_rest_skipBlanks
  have hplace : c.skipBlanks.place =
      Place.start.advance (read ++ c.rest.takeWhile Unicode.isBlank) := by
    rw [Place.advance_append, ← h]
    rfl
  cases hr : c.skipBlanks.rest with
  | nil =>
      have hnext : c.next = (.ok (.eof c.skipBlanks.ahead), c.skipBlanks) := by
        simp only [next, hr]
      refine ⟨c.rest.takeWhile Unicode.isBlank, [], ?_, isBlank_of_mem_takeWhile, ?_⟩
      · rw [hnext, List.append_nil, hsplit]
      · have hblank : (' ' : Char) ≠ '\n' := by decide
        rw [hnext, hr, ahead, hplace, hr, List.headD_nil, Place.next_advance_start _ hblank]
        exact .finish
  | cons first rest =>
      have hread : (Lexeme.read first rest).taken ++ (Lexeme.read first rest).rest =
          first :: rest := Lexeme.read_splits first rest
      have hnext : c.next = c.skipBlanks.take (Lexeme.read first rest) := by simp only [next, hr]
      have hrest : (c.skipBlanks.take (Lexeme.read first rest)).2.rest =
          (Lexeme.read first rest).rest := by
        simp only [take]
        split <;> rfl
      have hfound := found_take (read ++ c.rest.takeWhile Unicode.isBlank) rest
        (isBlank_first_skipBlanks hr)
      rw [← hplace, ← hr] at hfound
      refine ⟨c.rest.takeWhile Unicode.isBlank, (Lexeme.read first rest).taken, ?_,
        isBlank_of_mem_takeWhile, ?_⟩
      · rw [hnext, hrest, List.append_assoc, hread, ← hr, hsplit]
      · rw [hnext, hrest]
        exact hfound

theorem next_at_end {source : List Char} {c : Cursor} (hc : c.StandsIn source) (h : c.rest = []) :
    c.next = (.ok (.eof (.following source ' ')), c) := by
  obtain ⟨p, rest⟩ := c
  obtain ⟨read, hsource, hplace⟩ := hc
  dsimp only at h hsource hplace
  subst h hplace
  rw [List.append_nil] at hsource
  subst hsource
  rw [← Place.next_advance_start _ (by decide)]
  rfl

end Cursor

theorem Cursor.rest_after_le (source : String) {n m : Nat} (h : n ≤ m)
    (hn : ((ofSource source).after n).rest = []) : ((ofSource source).after m).rest = [] := by
  induction h with
  | refl => exact hn
  | step _ ih =>
      have hnext := next_at_end (standsIn_after source _) ih
      exact (congrArg (fun r => r.2.rest) hnext).trans ih

/-- Each call for a next token finds what it gives at a place that is counted off the source, behind
what the calls before it have read and blanks. Once the source is read up to its end, all further
calls give the end of the input, at the place of one more character. -/
theorem Lexer.nextToken_found (source : String) (n : Nat) :
    (∃ read blanks lexeme : List Char,
      source.toList = read ++ ((ofSource source).after n).unread ∧
      ((ofSource source).after n).unread =
        blanks ++ lexeme ++ ((ofSource source).after (n + 1)).unread ∧
      (∀ c ∈ blanks, Unicode.isBlank c = true) ∧
      Found (read ++ blanks) lexeme ((ofSource source).after (n + 1)).unread
        ((ofSource source).after n).nextToken.1) ∧
    (((ofSource source).after (n + 1)).unread = [] → ∀ m, n < m →
      ((ofSource source).after m).nextToken.1 = .ok (.eof (.following source.toList ' '))) := by
  rw [unread_after, unread_after, result_after]
  constructor
  · obtain ⟨read, hsource, hplace⟩ := Cursor.standsIn_after source n
    obtain ⟨blanks, lexeme, hrest, hblank, hfound⟩ := Cursor.found_next hplace
    exact ⟨read, blanks, lexeme, hsource, hrest, hblank, hfound⟩
  · intro hend m hm
    rw [result_after, Cursor.next_at_end (Cursor.standsIn_after source m)
      (Cursor.rest_after_le source hm hend)]

end Transact
