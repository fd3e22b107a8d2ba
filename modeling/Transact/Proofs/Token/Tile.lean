import Transact.Proofs.Token.Lexer

namespace Transact

/-- A token with what it takes of a source: blanks, and a spelling of its word. -/
structure Tile where
  blanks : List Char
  lexeme : List Char
  token : Token
  isBlank : ∀ c ∈ blanks, Unicode.isBlank c = true
  lexeme_ne_nil : lexeme ≠ []
  spells : Lexeme.Spells lexeme token.word

namespace Tile

def chars (t : Tile) : List Char := t.blanks ++ t.lexeme

def Placed (n : Nat) (tiles : List Tile) : Prop :=
  ∀ front t back, tiles = front ++ t :: back →
    t.token.place.index = n + (front.flatMap chars ++ t.blanks).length + 1

theorem placed_nil (n : Nat) : Placed n [] := by
  intro front t back h
  cases front <;> cases h

theorem placed_cons {n : Nat} {t : Tile} {ts : List Tile}
    (ht : t.token.place.index = n + t.blanks.length + 1) (h : Placed (n + t.chars.length) ts) :
    Placed n (t :: ts) := by
  intro front u back hs
  cases front with
  | nil =>
      cases hs
      simpa using ht
  | cons v front =>
      obtain ⟨rfl, rfl⟩ := List.cons.inj hs
      have hu := h front u back rfl
      rw [List.flatMap_cons, List.append_assoc, List.length_append]
      omega

end Tile

theorem Lexeme.Spells.ne_eof {text : List Char} {w : Word} (h : Spells text w) : w.1 ≠ .eof := by
  cases h with
  | name hn => exact Word.name_ne_eof _
  | _ => nofun

namespace Cursor

theorem isBlank_of_mem_takeWhile {cs : List Char} : ∀ x ∈ cs.takeWhile Unicode.isBlank,
    Unicode.isBlank x = true := fun x hx => List.all_eq_true.1 List.all_takeWhile x hx

theorem append_rest_skipBlanks (c : Cursor) :
    c.rest.takeWhile Unicode.isBlank ++ c.skipBlanks.rest = c.rest :=
  List.takeWhile_append_dropWhile

theorem isBlank_first_skipBlanks {c : Cursor} {first : Char} {rest : List Char}
    (h : c.skipBlanks.rest = first :: rest) : Unicode.isBlank first = false := by
  have hd := List.head?_dropWhile_not Unicode.isBlank c.rest
  rw [show c.rest.dropWhile Unicode.isBlank = first :: rest from h] at hd
  simpa using hd

theorem index_next (p : Place) (c : Char) : (p.next c).index = p.index + 1 :=
  p.index_advance [c]

/-- A step that gives a token skips blanks and reads a lexeme. -/
theorem exists_readsAs {c d : Cursor} {t : Token} (h : c.next = (.ok t, d)) (ht : t.kind ≠ .eof) :
    ∃ (blanks : List Char) (x : Char) (tail : List Char),
      c.rest = blanks ++ (x :: tail ++ d.rest) ∧ (∀ y ∈ blanks, Unicode.isBlank y = true) ∧
      Lexeme.ReadsAs (x :: tail) d.rest t.word ∧ t.place = (c.place.advance blanks).next x ∧
      d.place = (c.place.advance blanks).advance (x :: tail) := by
  have hsplit := c.append_rest_skipBlanks
  simp only [next] at h
  split at h
  · cases h
    exact absurd rfl ht
  · rename_i first rest hr
    have hread : (Lexeme.read first rest).taken ++ (Lexeme.read first rest).rest = first :: rest :=
      Lexeme.read_splits first rest
    simp only [take] at h
    split at h
    · rename_i kind value hc
      obtain ⟨x, tail, htaken⟩ := List.exists_cons_of_ne_nil (Lexeme.taken_ne_nil hc)
      rw [htaken, List.cons_append] at hread
      obtain ⟨rfl, hrest⟩ := List.cons.inj hread
      cases h
      refine ⟨c.rest.takeWhile Unicode.isBlank, x, tail, ?_, isBlank_of_mem_takeWhile,
        ⟨x, tail, rfl, isBlank_first_skipBlanks hr, ?_⟩, ?_, ?_⟩
      · rw [advance, List.cons_append, hrest, ← hr, hsplit]
      · rw [advance, hrest, ← htaken]
        exact congrArg (Lexeme.mk _ _) hc
      · rw [ahead, hr]
        rfl
      · rw [advance, htaken]
        rfl
    · cases h
    · cases h

/-- A step of scanning skips blanks and takes a spelling of the word of its token. -/
theorem exists_tile {c d : Cursor} {t : Token} (h : c.next = (.ok t, d)) (ht : t.kind ≠ .eof) :
    ∃ tile : Tile, tile.token = t ∧ c.rest = tile.chars ++ d.rest ∧
      t.place.index = c.place.index + tile.blanks.length + 1 ∧
      d.place.index = c.place.index + tile.chars.length := by
  obtain ⟨blanks, x, tail, hrest, hblanks, hreads, htplace, hdplace⟩ := exists_readsAs h ht
  refine ⟨⟨blanks, x :: tail, t, hblanks, by simp, hreads.spells⟩, rfl, ?_, ?_, ?_⟩
  · rw [hrest, Tile.chars, List.append_assoc]
  · rw [htplace, index_next, Place.index_advance]
  · rw [hdplace, Place.index_advance, Place.index_advance, Tile.chars, List.length_append,
      Nat.add_assoc]

/-- At the end of the input nothing but blanks is left. -/
theorem isBlank_of_next_eof {c d : Cursor} {t : Token} (h : c.next = (.ok t, d))
    (ht : t.kind = .eof) : ∀ x ∈ c.rest, Unicode.isBlank x = true := by
  have hsplit := c.append_rest_skipBlanks
  simp only [next] at h
  split at h
  · rename_i hr
    rw [hr, List.append_nil] at hsplit
    rw [← hsplit]
    exact isBlank_of_mem_takeWhile
  · rename_i first rest hr
    have hb := isBlank_first_skipBlanks hr
    simp only [take] at h
    split at h
    · rename_i kind value hc
      cases h
      exact absurd ht (Lexeme.spells_read hb hc).ne_eof
    · cases h
    · cases h

/-- The tokens of a text tile it. -/
theorem exists_tiles (c : Cursor) :
    ∃ (tiles : List Tile) (rest : List Char), c.tokens.1 = tiles.map Tile.token ∧
      c.rest = tiles.flatMap Tile.chars ++ rest ∧ Tile.Placed c.place.index tiles ∧
      (c.tokens.2 = none → ∀ x ∈ rest, Unicode.isBlank x = true) := by
  induction c using byTokens with
  | error c d e hn hc =>
      rw [hc]
      exact ⟨[], c.rest, rfl, rfl, Tile.placed_nil _, nofun⟩
  | eof c d t hn ht hc =>
      rw [hc]
      exact ⟨[], c.rest, rfl, rfl, Tile.placed_nil _, fun _ => isBlank_of_next_eof hn ht⟩
  | token c d t hn ht hc ih =>
      rw [hc]
      obtain ⟨tile, rfl, hrest, hindex, hafter⟩ := exists_tile hn ht
      obtain ⟨tiles, rest, hts, hd, hplaced, hblank⟩ := ih
      refine ⟨tile :: tiles, rest, ?_, ?_, Tile.placed_cons hindex ?_, hblank⟩
      · rw [List.map_cons, hts]
      · rw [hrest, hd, List.flatMap_cons, List.append_assoc]
      · rwa [← hafter]

end Cursor

namespace Lexer

/-- A lexer yields these tokens, one after another, and then this error or nothing more. -/
inductive Yields : Lexer → List Token → Option LexicalError → Prop where
  | finish {l m : Lexer} (h : l.next = (none, m)) : Yields l [] none
  | fail {l m : Lexer} {e : LexicalError} (h : l.next = (some (.error e), m)) : Yields l [] (some e)
  | token {l m : Lexer} {t : Token} {ts : List Token} {fault : Option LexicalError}
      (h : l.next = (some (.ok t), m)) (hm : Yields m ts fault) : Yields l (t :: ts) fault

theorem Waits.next_eq {l : Lexer} {c : Cursor} (h : l.Waits c) : l.next =
    match l.nextToken with
    | (.ok t, m) =>
        if t.kind = .eof then (none, { m with isFinished := true }) else (some (.ok t), m)
    | (.error e, m) => (some (.error e), { m with isFinished := true }) := by
  obtain ⟨b, q, hstands, -⟩ := h
  rw [next, hstands.unfinished]
  rfl

/-- What a lexer yields is what a run of its cursor gives. -/
theorem Waits.yields {l : Lexer} {c : Cursor} (h : l.Waits c) :
    l.Yields c.tokens.1 c.tokens.2 := by
  induction c using Cursor.byTokens generalizing l with
  | error c d e hn hc =>
      obtain ⟨hresult, -⟩ := h.nextToken
      rw [hn] at hresult
      rw [hc]
      refine .fail (m := { l.nextToken.2 with isFinished := true }) ?_
      rw [h.next_eq, ← Prod.eta l.nextToken, hresult]
  | eof c d t hn ht hc =>
      obtain ⟨hresult, -⟩ := h.nextToken
      rw [hn] at hresult
      rw [hc]
      refine .finish (m := { l.nextToken.2 with isFinished := true }) ?_
      rw [h.next_eq, ← Prod.eta l.nextToken, hresult]
      exact if_pos ht
  | token c d t hn ht hc ih =>
      obtain ⟨hresult, hwaits⟩ := h.nextToken
      rw [hn] at hresult hwaits
      rw [hc]
      refine .token (m := l.nextToken.2) ?_ (ih hwaits)
      rw [h.next_eq, ← Prod.eta l.nextToken, hresult]
      exact if_neg ht

end Lexer

/-- The tokens that scanning yields before it ends or fails tile the source: each takes blanks and a
lexeme that is not empty, it stands at the first character of its lexeme, and the lexeme spells the
word of the token and no other. When scanning does not fail, the rest of the source is blank. -/
theorem yields_tiles (source : String) :
    (∃ (tiles : List Tile) (rest : List Char) (fault : Option LexicalError),
      (Lexer.ofSource source).Yields (tiles.map Tile.token) fault ∧
      source.toList = tiles.flatMap Tile.chars ++ rest ∧
      (∀ front t back, tiles = front ++ t :: back →
        t.token.place.index = 1 + (front.flatMap Tile.chars ++ t.blanks).length) ∧
      (fault = none → ∀ c ∈ rest, Unicode.isBlank c = true)) ∧
    ∀ lexeme w v, Lexeme.Spells lexeme w → Lexeme.Spells lexeme v → w = v := by
  refine ⟨?_, fun _ _ _ => Lexeme.Spells.unique⟩
  obtain ⟨tiles, rest, hts, hsource, hplaced, hblank⟩ := (Cursor.ofSource source).exists_tiles
  have hyields := (Lexer.waits_ofSource source).yields
  refine ⟨tiles, rest, _, hts ▸ hyields, hsource, fun front t back h => ?_, hblank⟩
  rw [hplaced front t back h, Nat.add_comm 1]
  exact congrArg (· + 1) (Nat.zero_add _)

end Transact
