import Transact.Proofs.Token.Concatenation

namespace Transact

/-- Blanks, comments in blocks, and comments on lines that are ended. -/
inductive IsPadding : List Char → Prop where
  | nil : IsPadding []
  | blank {c : Char} {cs : List Char} (hc : Unicode.isBlank c = true) (h : IsPadding cs) :
      IsPadding (c :: cs)
  | blockComment {body cs : List Char} (hb : ¬['*', '/'] <:+: body) (h : IsPadding cs) :
      IsPadding ('/' :: '*' :: (body ++ ['*', '/']) ++ cs)
  | lineComment {body cs : List Char} (hb : ∀ c ∈ body, c ≠ '\r' ∧ c ≠ '\n') (h : IsPadding cs) :
      IsPadding ('-' :: '-' :: body ++ '\n' :: cs)

structure IsSeparator (gap : List Char) : Prop where
  isPadding : IsPadding gap
  isBlank : ∃ c cs, gap = c :: cs ∧ Unicode.isBlank c = true

namespace Lexeme

theorem isBlank_of_isLineEnd {c : Char} (h : isLineEnd c = true) : Unicode.isBlank c = true := by
  obtain rfl | rfl : c = '\r' ∨ c = '\n' := by simpa [isLineEnd] using h
  all_goals decide

theorem ReadsAs.isBlank_first {c : Char} {tail cs : List Char} {w : Word}
    (h : ReadsAs (c :: tail) cs w) : Unicode.isBlank c = false := by
  obtain ⟨d, rest, ht, hb, -⟩ := h
  cases ht
  exact hb

theorem ReadsAs.isLineEnd {text cs : List Char} {w : Word} (h : ReadsAs text cs w)
    (hw : w.1 = .comment .line) : ∀ c, cs.head? = some c → isLineEnd c = true := by
  obtain ⟨body, rfl⟩ : ∃ body, text = '-' :: '-' :: body := by
    cases h.spells with
    | name hn =>
        have hc := Word.name_isComment (String.ofList text)
        rw [hw] at hc
        cases hc
    | lineComment hb => exact ⟨_, rfl⟩
    | _ => cases hw
  obtain ⟨c, tail, ht, -, hr⟩ := h
  obtain ⟨rfl, rfl⟩ := List.cons.inj ht
  have hcomment : lineComment (body ++ cs) = ⟨'-' :: '-' :: body, cs, .ok w⟩ := by
    simpa [read, show Char.isDigit '-' = false from rfl,
      show isWordStart '-' = false by decide] using hr
  obtain ⟨htaken, -, -⟩ := Lexeme.mk.inj hcomment
  obtain ⟨-, hbody⟩ := List.cons.inj (List.cons.inj htaken).2
  intro c hc
  simpa using (of_takeWhile_append hbody).2 c hc

end Lexeme

namespace Cursor

variable {c d : Cursor} {t : Token} {cs gap : List Char} {ts : List Token}

theorem tokens_comment {text : List Char} {w : Word} (h : Lexeme.ReadsAs text cs w)
    (hw : w.1.isComment = true) (p : Place) :
    ∃ t : Token, t.kind.isComment = true ∧ tokens ⟨p, text ++ cs⟩ =
      (t :: (tokens ⟨p.advance text, cs⟩).1, (tokens ⟨p.advance text, cs⟩).2) := by
  have hne : w.1 ≠ .eof := by
    intro he
    rw [he] at hw
    cases hw
  obtain ⟨t, rfl, ht⟩ := exists_tokens_readsAs h hne p
  exact ⟨t, hw, ht⟩

theorem tokens_padding (h : IsPadding gap) (p : Place) (cs : List Char) :
    ∃ comments, (∀ t ∈ comments, t.kind.isComment = true) ∧ tokens ⟨p, gap ++ cs⟩ =
      (comments ++ (tokens ⟨p.advance gap, cs⟩).1, (tokens ⟨p.advance gap, cs⟩).2) := by
  induction h generalizing p with
  | nil => exact ⟨[], by simp, rfl⟩
  | @blank c rest hc _ ih =>
      obtain ⟨comments, hcomments, htokens⟩ := ih (p.next c)
      exact ⟨comments, hcomments, by rw [List.cons_append, tokens_blank hc, htokens]; rfl⟩
  | @blockComment body rest hb _ ih =>
      have hread := Lexeme.readsAs_blockComment hb (rest ++ cs)
      obtain ⟨t, ht, hfirst⟩ := tokens_comment hread rfl p
      obtain ⟨comments, hcomments, htokens⟩ := ih (p.advance ('/' :: '*' :: (body ++ ['*', '/'])))
      refine ⟨t :: comments, List.forall_mem_cons.2 ⟨ht, hcomments⟩, ?_⟩
      rw [List.append_assoc, hfirst, htokens, Place.advance_append]
      rfl
  | @lineComment body rest hb _ ih =>
      have hbody : ∀ c ∈ body, Lexeme.isLineEnd c = false := fun c hc => by
        simp [Lexeme.isLineEnd, hb c hc]
      have hread : Lexeme.ReadsAs ('-' :: '-' :: body) ('\n' :: (rest ++ cs))
          (.comment .line, .text (String.ofList body)) :=
        Lexeme.readsAs_lineComment hbody (by rintro c ⟨⟩; rfl)
      obtain ⟨t, ht, hfirst⟩ := tokens_comment hread rfl p
      obtain ⟨comments, hcomments, htokens⟩ := ih ((p.advance ('-' :: '-' :: body)).next '\n')
      have hsplit : '-' :: '-' :: body ++ '\n' :: rest ++ cs =
          '-' :: '-' :: body ++ '\n' :: (rest ++ cs) := List.append_assoc ..
      refine ⟨t :: comments, List.forall_mem_cons.2 ⟨ht, hcomments⟩, ?_⟩
      rw [hsplit, hfirst, tokens_blank (by decide), htokens, Place.advance_append]
      rfl

theorem filter_comments {comments : List Token} (h : ∀ t ∈ comments, t.kind.isComment = true) :
    comments.filter (fun t => !t.kind.isComment) = [] := by
  simpa using h

theorem filter_of_words {us : List Token} (h : us.map Token.word = ts.map Token.word) :
    (us.filter fun t => !t.kind.isComment).map Token.word =
      (ts.filter fun t => !t.kind.isComment).map Token.word := by
  have hfilter := congrArg (List.filter fun w => !w.1.isComment) h
  rwa [List.filter_map, List.filter_map] at hfilter

theorem next_of_tokens_cons {fault : Option LexicalError} (h : c.tokens = (t :: ts, fault)) :
    ∃ d, c.next = (.ok t, d) ∧ t.kind ≠ .eof := by
  have happend : c.tokens = ([t] ++ ts, fault) := h
  obtain ⟨d, hd, -⟩ := exists_takes happend
  cases hd with
  | cons hn ht hd => exact ⟨_, hn, ht⟩

/-- A text that scans has the same words wherever it stands. -/
theorem tokens_word {p : Place} (h : tokens ⟨p, cs⟩ = (ts, none)) (q : Place) :
    ∃ us, tokens ⟨q, cs⟩ = (us, none) ∧ us.map Token.word = ts.map Token.word := by
  obtain ⟨hwords, hfault⟩ := tokens_related (R := fun _ _ => True) (fun _ h => h)
    (p := q) (q := p) trivial cs
  rw [h] at hwords hfault
  refine ⟨(tokens ⟨q, cs⟩).1, Prod.ext rfl ?_, ?_⟩
  · generalize (tokens ⟨q, cs⟩).2 = fault at hfault ⊢
    cases hfault
    rfl
  · have hmap := List.forall₂_map_left_iff.2
      (List.forall₂_map_right_iff.2 (hwords.imp fun t u h => h.1))
    rwa [List.forall₂_eq_eq_eq] at hmap

theorem Takes.isLineEnd (h : c.Takes ts d) (ht : ts.getLast? = some t)
    (hk : t.kind = .comment .line) : ∀ x, d.rest.head? = some x → Lexeme.isLineEnd x = true := by
  induction h with
  | nil c => cases ht
  | @cons c d f u us hn hu hd ih =>
      cases hd with
      | nil =>
          obtain rfl := Option.some.inj ht
          obtain ⟨blanks, x, tail, -, -, hreads, -, -⟩ := exists_readsAs hn hu
          exact hreads.isLineEnd hk
      | cons hn' hu' hd' => exact ih (by rwa [List.getLast?_cons_cons] at ht)

/-- In front of a lexeme, blanks and a separator may stand in place of the blanks. -/
theorem Takes.replaces (h : c.Takes ts d) {blanks : List Char} {x : Char}
    (hd : d.rest = blanks ++ x :: cs) (hx : Unicode.isBlank x = false) (hg : IsSeparator gap) :
    Replaces ts d.rest (blanks ++ (gap ++ x :: cs)) := by
  cases blanks with
  | cons b blanks =>
      rw [hd]
      exact .inl rfl
  | nil =>
      obtain ⟨b, bs, rfl, hb⟩ := hg.isBlank
      refine .inr ⟨b, bs ++ x :: cs, rfl, hb, fun t ht hk => ?_⟩
      have hend := h.isLineEnd ht hk x (by rw [hd]; rfl)
      rw [Lexeme.isBlank_of_isLineEnd hend] at hx
      cases hx

/-- The tokens of a text keep their words when a separator is put in front of one of them, but for
the comments. -/
theorem tokens_separated {front back : List Token} (h : c.tokens = (front ++ t :: back, none))
    (hg : IsSeparator gap) :
    ∃ (read rest : List Char) (us : List Token), c.rest = read ++ rest ∧
      t.place.index = c.place.index + read.length + 1 ∧
      tokens ⟨c.place, read ++ (gap ++ rest)⟩ = (us, none) ∧
      (us.filter fun t => !t.kind.isComment).map Token.word =
        ((front ++ t :: back).filter fun t => !t.kind.isComment).map Token.word := by
  obtain ⟨d, hd, hback⟩ := exists_takes h
  obtain ⟨f, hn, ht⟩ := next_of_tokens_cons hback
  obtain ⟨blanks, x, tail, hrest, hblanks, hreads, htplace, -⟩ := exists_readsAs hn ht
  have hreplaces : Replaces front d.rest (blanks ++ (gap ++ (x :: tail ++ f.rest))) :=
    hd.replaces hrest hreads.isBlank_first hg
  obtain ⟨read, hread, hplace, -, hnew⟩ := hd.tokens_replace hreplaces
  -- What stands behind the blanks is read in the same way behind the separator.
  have hlater : tokens ⟨d.place.advance blanks, x :: tail ++ f.rest⟩ = (t :: back, none) := by
    rw [← tokens_blanks hblanks, ← hrest]
    exact hback
  obtain ⟨comments, hcomments, hpadding⟩ :=
    tokens_padding hg.isPadding (d.place.advance blanks) (x :: tail ++ f.rest)
  obtain ⟨us, hus, hwords⟩ := tokens_word hlater ((d.place.advance blanks).advance gap)
  refine ⟨read ++ blanks, x :: tail ++ f.rest, front ++ (comments ++ us), ?_, ?_, ?_, ?_⟩
  · rw [hread, hrest, List.append_assoc]
  · rw [htplace, index_next, Place.index_advance, hplace, Place.index_advance, List.length_append,
      Nat.add_assoc c.place.index]
  · rw [tokens_blanks hblanks, hpadding, hus] at hnew
    rw [List.append_assoc]
    exact hnew
  · simp only [List.filter_append, List.map_append, filter_comments hcomments,
      filter_of_words hwords, List.nil_append]

end Cursor

/-- Separators are read over: a source that scans does so, too, with a separator in front of one of
its tokens, and then its tokens have the same kinds and values, comments left out. -/
theorem lex_separated {source : String} {ts : List Token} {t : Token} {gap : List Char}
    (h : lex source = .ok ts) (ht : t ∈ ts) (hg : IsSeparator gap) :
    ∃ us, lex (String.ofList (source.toList.take (t.place.index - 1) ++ gap ++
        source.toList.drop (t.place.index - 1))) = .ok us ∧
      (us.filter fun t => !t.kind.isComment).map Token.word =
        (ts.filter fun t => !t.kind.isComment).map Token.word := by
  obtain ⟨front, back, rfl⟩ := List.append_of_mem ht
  obtain ⟨read, rest, us, hsource, hindex, hus, hwords⟩ :=
    Cursor.tokens_separated (Cursor.tokens_of_lex h) hg
  refine ⟨us, ?_, hwords⟩
  have hlength : t.place.index - 1 = read.length := by
    rw [hindex]
    exact Nat.zero_add _
  have hsplit : source.toList = read ++ rest := hsource
  have htokens : Cursor.tokens ⟨.start, read ++ (gap ++ rest)⟩ = (us, none) := hus
  rw [hlength, hsplit, List.take_left, List.drop_left, lex, Lexer.tokens_ofSource,
    Cursor.ofSource, String.toList_ofList,
    List.append_assoc, htokens]

/-- A blank, a comment in a block and one on a line, between two literals that touch. -/
theorem lex_separated_literals :
    lex "'a'N'b'" = .ok [⟨.constant .varchar, ⟨1, 1, 1⟩, .text "a"⟩,
        ⟨.constant .nvarchar, ⟨1, 4, 4⟩, .text "b"⟩] ∧
      IsSeparator "\t/*c*/--d\n".toList ∧
      ∃ us, lex "'a'\t/*c*/--d\nN'b'" = .ok us ∧
        (us.filter fun t => !t.kind.isComment).map Token.word =
          [(.constant .varchar, .text "a"), (.constant .nvarchar, .text "b")] := by
  have hlex : lex "'a'N'b'" = .ok [⟨.constant .varchar, ⟨1, 1, 1⟩, .text "a"⟩,
      ⟨.constant .nvarchar, ⟨1, 4, 4⟩, .text "b"⟩] := by
    decide +kernel
  have hline : IsPadding ('-' :: '-' :: ['d'] ++ '\n' :: []) :=
    .lineComment (by simp) .nil
  have hblock :
      IsPadding ('/' :: '*' :: (['c'] ++ ['*', '/']) ++ ('-' :: '-' :: ['d'] ++ ['\n'])) :=
    .blockComment (by decide) hline
  have hgap : IsSeparator "\t/*c*/--d\n".toList :=
    ⟨.blank (by decide) hblock, _, _, rfl, by decide⟩
  have hsource : String.ofList ("'a'N'b'".toList.take (4 - 1) ++ "\t/*c*/--d\n".toList ++
      "'a'N'b'".toList.drop (4 - 1)) = "'a'\t/*c*/--d\nN'b'" := by
    decide +kernel
  obtain ⟨us, hus, hwords⟩ := lex_separated hlex (List.mem_cons_of_mem _ List.mem_cons_self) hgap
  rw [hsource] at hus
  exact ⟨hlex, hgap, us, hus, hwords⟩

end Transact
