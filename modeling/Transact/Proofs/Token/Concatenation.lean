import Mathlib.Data.List.Forall2
import Transact.Proofs.Token.Follow
import Transact.Proofs.Token.Position

namespace Transact

/-- The place that a character of a text has, when this text comes below another one. -/
def Place.below (text : String) (p : Place) : Place :=
  ⟨p.line + (1 + text.toList.count '\n'), p.column, p.index + (1 + text.toList.length)⟩

def Token.below (text : String) (t : Token) : Token := { t with place := t.place.below text }

def LexicalError.below (text : String) (e : LexicalError) : LexicalError :=
  { e with place := e.place.below text }

namespace Place

theorem behind_below (text : String) (p q : Place) :
    (p.below text).behind q = (p.behind q).below text := by
  have hline : p.line + (1 + text.toList.count '\n') + (q.line - 1) =
      p.line + (q.line - 1) + (1 + text.toList.count '\n') := by omega
  have hindex : p.index + (1 + text.toList.length) + q.index =
      p.index + q.index + (1 + text.toList.length) := by omega
  simp only [behind, below, hline, hindex]

theorem below_start (text : String) :
    start.below text = (start.advance text.toList).next '\n' := by
  have hline : 1 + (1 + text.toList.count '\n') = 1 + text.toList.count '\n' + 1 := by omega
  have hindex : 0 + (1 + text.toList.length) = text.toList.length + 1 := by omega
  rw [advance_start, next, if_pos rfl, start, below, hline, hindex]

end Place

theorem Token.below_eq {text : String} {t u : Token} (hw : t.word = u.word)
    (hp : t.place.below text = u.place) : t.below text = u := by
  obtain ⟨kind, place, value⟩ := u
  obtain ⟨rfl, rfl⟩ := Prod.mk.inj hw
  exact congrArg (Token.mk t.kind · t.value) hp

theorem LexicalError.below_eq {text : String} {e f : LexicalError} (hf : e.fault = f.fault)
    (hp : e.place.below text = f.place) : e.below text = f := by
  obtain ⟨fault, place⟩ := f
  obtain rfl : e.fault = fault := hf
  exact congrArg (LexicalError.mk e.fault) hp

namespace Cursor

variable {c d : Cursor} {t : Token} {p q : Place} {text cs ds : List Char}
variable {ts front back : List Token} {fault : Option LexicalError}

/-- What is scanned hangs on the unread characters alone, but for where it stands: from two places
the same words are read, and what relates the places relates those of the tokens. -/
theorem tokens_related {R : Place → Place → Prop}
    (hR : ∀ {p q : Place} (r : Place), R p q → R (p.behind r) (q.behind r)) (h : R p q)
    (cs : List Char) :
    List.Forall₂ (fun t u => t.word = u.word ∧ R t.place u.place)
        (tokens ⟨p, cs⟩).1 (tokens ⟨q, cs⟩).1 ∧
      Option.Rel (fun e f => e.fault = f.fault ∧ R e.place f.place)
        (tokens ⟨p, cs⟩).2 (tokens ⟨q, cs⟩).2 := by
  induction hl : cs.length using Nat.strongRecOn generalizing p q cs with
  | ind l ih =>
      have hp := next_eq ⟨p, cs⟩
      have hq := next_eq ⟨q, cs⟩
      cases hn : next ⟨.start, cs⟩ with
      | mk result d =>
          simp only [hn] at hp hq
          cases result with
          | error e =>
              rw [tokens_eq_error hp, tokens_eq_error hq]
              exact ⟨.nil, .some ⟨rfl, hR _ h⟩⟩
          | ok t =>
              rw [tokens_eq_ok hp, tokens_eq_ok hq]
              by_cases ht : t.kind = .eof
              · rw [if_pos ht, if_pos ht]
                exact ⟨.nil, .none⟩
              · rw [if_neg ht, if_neg ht]
                obtain ⟨hts, hfault⟩ := ih d.rest.length (hl ▸ length_next_lt hn ht)
                  (hR d.place h) d.rest rfl
                exact ⟨.cons ⟨rfl, hR _ h⟩ hts, hfault⟩

/-- Below a text, the tokens of a source are the same ones further down. -/
theorem tokens_below (source : String) (p : Place) (cs : List Char) :
    tokens ⟨p.below source, cs⟩ =
      ((tokens ⟨p, cs⟩).1.map (Token.below source),
        (tokens ⟨p, cs⟩).2.map (LexicalError.below source)) := by
  obtain ⟨hts, hfault⟩ := tokens_related (R := fun p q => p.below source = q)
    (fun r h => by rw [← h, Place.behind_below]) rfl cs
  refine Prod.ext ?_ ?_
  · have hbelow := hts.imp fun t u h => Token.below_eq h.1 h.2
    rw [← List.forall₂_map_left_iff, List.forall₂_eq_eq_eq] at hbelow
    exact hbelow.symm
  · generalize (tokens ⟨p, cs⟩).2 = upper at hfault ⊢
    generalize (tokens ⟨p.below source, cs⟩).2 = lower at hfault ⊢
    cases hfault with
    | none => rfl
    | some h => exact congrArg some (LexicalError.below_eq h.1 h.2).symm

theorem tokens_blanks (h : ∀ x ∈ text, Unicode.isBlank x = true) (p : Place) (cs : List Char) :
    tokens ⟨p, text ++ cs⟩ = tokens ⟨p.advance text, cs⟩ := by
  induction text generalizing p with
  | nil => rfl
  | cons x text ih =>
      rw [List.cons_append, tokens_blank (h x (by simp)),
        ih fun y hy => h y (List.mem_cons_of_mem x hy)]
      rfl

/-- A lexeme that is read behind blanks is a token, and scanning goes on behind it. -/
theorem tokens_readsAs {blanks tail : List Char} {x : Char} {w : Word}
    (hb : ∀ y ∈ blanks, Unicode.isBlank y = true) (h : Lexeme.ReadsAs (x :: tail) cs w)
    (he : w.1 ≠ .eof) (p : Place) :
    tokens ⟨p, blanks ++ (x :: tail ++ cs)⟩ =
      (⟨w.1, (p.advance blanks).next x, w.2⟩ ::
          (tokens ⟨(p.advance blanks).advance (x :: tail), cs⟩).1,
        (tokens ⟨(p.advance blanks).advance (x :: tail), cs⟩).2) := by
  obtain ⟨y, rest, hy, hblank, hr⟩ := h
  obtain ⟨rfl, rfl⟩ := List.cons.inj hy
  rw [tokens_blanks hb, List.cons_append, tokens_lexeme _ hblank hr he]

inductive Takes : Cursor → List Token → Cursor → Prop where
  | nil (c : Cursor) : Takes c [] c
  | cons {c d f : Cursor} {t : Token} {ts : List Token} (h : c.next = (.ok t, d))
      (ht : t.kind ≠ .eof) (hd : Takes d ts f) : Takes c (t :: ts) f

/-- Scanning may pause behind any of its tokens. -/
theorem exists_takes (h : c.tokens = (front ++ back, fault)) :
    ∃ d, c.Takes front d ∧ d.tokens = (back, fault) := by
  induction front generalizing c with
  | nil => exact ⟨c, .nil c, h⟩
  | cons t front ih =>
      cases c using byTokens with
      | error c d e hn hc => cases hc.symm.trans h
      | eof c d u hn hu hc => cases hc.symm.trans h
      | token c d u hn hu hc _ =>
          obtain ⟨hts, hfault⟩ := Prod.mk.inj (hc.symm.trans h)
          obtain ⟨rfl, hback⟩ := List.cons.inj hts
          obtain ⟨f, hd, hf⟩ := ih (Prod.ext hback hfault)
          exact ⟨f, .cons hn hu hd, hf⟩

/-- Behind these tokens, the text `ds` may stand in place of the text `cs`: it begins with the same
character, or with a blank, which ends the line if the last token is a line comment. -/
def Replaces (ts : List Token) (cs ds : List Char) : Prop :=
  ds.head? = cs.head? ∨ ∃ x rest, ds = x :: rest ∧ Unicode.isBlank x = true ∧
    ∀ t, ts.getLast? = some t → t.kind = .comment .line → Lexeme.isLineEnd x = true

theorem Replaces.tail (h : Replaces (t :: ts) cs ds) : Replaces ts cs ds := by
  refine h.imp_right ?_
  rintro ⟨x, rest, rfl, hblank, hline⟩
  refine ⟨x, rest, rfl, hblank, fun u hu => hline u ?_⟩
  rw [List.getLast?_cons, hu]
  rfl

theorem Replaces.readsAs (h : Replaces [t] cs ds) (hr : Lexeme.ReadsAs text cs t.word) :
    Lexeme.ReadsAs text ds t.word := by
  obtain hh | ⟨x, rest, rfl, hblank, hline⟩ := h
  · exact hr.congr hh
  · refine hr.spells.readsAs_blank ?_ fun hk => ?_
    all_goals rintro y ⟨⟩
    · exact hblank
    · exact hline t rfl hk

/-- Tokens are read in the same way when another text stands behind them. -/
theorem Takes.tokens_replace (h : c.Takes ts d) (hr : Replaces ts d.rest ds) :
    ∃ read, c.rest = read ++ d.rest ∧ d.place = c.place.advance read ∧ (ts ≠ [] → read ≠ []) ∧
      tokens ⟨c.place, read ++ ds⟩ =
        (ts ++ (tokens ⟨d.place, ds⟩).1, (tokens ⟨d.place, ds⟩).2) := by
  induction h with
  | nil c => exact ⟨[], rfl, rfl, by simp, rfl⟩
  | @cons c d f t ts hn ht hd ih =>
      obtain ⟨blanks, x, tail, hrest, hblanks, hreads, htplace, hdplace⟩ := exists_readsAs hn ht
      obtain ⟨read, hread, hplace, hne, htokens⟩ := ih hr.tail
      have hnew : Lexeme.ReadsAs (x :: tail) (read ++ ds) t.word := by
        cases hd with
        | nil =>
            obtain rfl := List.append_left_eq_self.1 hread.symm
            exact hr.readsAs hreads
        | cons =>
            obtain ⟨y, read, rfl⟩ := List.exists_cons_of_ne_nil (hne (by simp))
            refine hreads.congr ?_
            rw [hread]
            rfl
      refine ⟨blanks ++ (x :: tail ++ read), ?_, ?_, by simp, ?_⟩
      · rw [hrest, hread, List.append_assoc, List.append_assoc]
      · rw [hplace, hdplace, Place.advance_append, Place.advance_append]
      · rw [List.append_assoc, List.append_assoc, tokens_readsAs hblanks hnew ht, ← hdplace,
        htokens,
          ← htplace]
        rfl

theorem isBlank_of_tokens_nil (h : c.tokens = ([], none)) :
    ∀ x ∈ c.rest, Unicode.isBlank x = true := by
  cases c using byTokens with
  | error c d e hn hc => cases hc.symm.trans h
  | eof c d t hn ht hc => exact isBlank_of_next_eof hn ht
  | token c d t hn ht hc _ => cases hc.symm.trans h

/-- Behind a text that scans, the next line is scanned as it would be alone, further down. -/
theorem tokens_append_line {source : String} (h : (ofSource source).tokens = (ts, none))
    (cs : List Char) :
    tokens ⟨.start, source.toList ++ '\n' :: cs⟩ =
      (ts ++ (tokens ⟨.start, cs⟩).1.map (Token.below source),
        (tokens ⟨.start, cs⟩).2.map (LexicalError.below source)) := by
  have happend : (ofSource source).tokens = (ts ++ [], none) := by rw [h, List.append_nil]
  obtain ⟨d, hd, hend⟩ := exists_takes happend
  have hblank := isBlank_of_tokens_nil hend
  have hreplaces : Replaces ts d.rest (d.rest ++ '\n' :: cs) := by
    cases hr : d.rest with
    | nil => exact .inr ⟨'\n', cs, rfl, by decide, fun _ _ _ => rfl⟩
    | cons x rest => exact .inl rfl
  obtain ⟨read, hread, hplace, -, htokens⟩ := hd.tokens_replace hreplaces
  have hsource : source.toList = read ++ d.rest := hread
  have hbelow : (d.place.advance d.rest).next '\n' = Place.start.below source := by
    rw [Place.below_start, hsource, Place.advance_append, hplace]
    rfl
  rw [tokens_blanks hblank, tokens_blank (by decide), hbelow, tokens_below] at htokens
  rw [hsource, List.append_assoc]
  exact htokens

end Cursor

/-- When a source scans, another source below it is scanned as it would be alone: its tokens follow
those of the first one, or its error comes up, lines and indices counted on and columns as they
are. -/
theorem lex_append_line {upper : String} {ts : List Token} (h : lex upper = .ok ts)
    (lower : String) :
    lex (upper ++ "\n" ++ lower) =
      match lex lower with
      | .ok us => .ok (ts ++ us.map (Token.below upper))
      | .error e => .error (e.below upper) := by
  have htokens := Cursor.tokens_append_line (Cursor.tokens_of_lex h) lower.toList
  have hsource : Cursor.ofSource (upper ++ "\n" ++ lower) =
      ⟨.start, upper.toList ++ '\n' :: lower.toList⟩ := by
    simp [Cursor.ofSource, String.toList_append]
  have hlower : Cursor.ofSource lower = ⟨.start, lower.toList⟩ := rfl
  rw [lex, lex, Lexer.tokens_ofSource, Lexer.tokens_ofSource, hsource, hlower, htokens]
  generalize Cursor.tokens ⟨.start, lower.toList⟩ = found
  obtain ⟨us, fault⟩ := found
  cases fault <;> rfl

/-- A comment and, below it, a name that is not closed. -/
theorem lex_append_line_unclosed :
    lex "a--b" = .ok [⟨.identifier, ⟨1, 1, 1⟩, .text "a"⟩, ⟨.comment .line, ⟨1, 2, 2⟩, .text "b"⟩] ∧
      lex ("a--b" ++ "\n" ++ "x [y") = .error ⟨.expected "]", ⟨2, 5, 10⟩⟩ := by
  have hupper : lex "a--b" =
      .ok [⟨.identifier, ⟨1, 1, 1⟩, .text "a"⟩, ⟨.comment .line, ⟨1, 2, 2⟩, .text "b"⟩] := by
    decide +kernel
  have hlower : lex "x [y" = .error ⟨.expected "]", ⟨1, 5, 5⟩⟩ := by decide +kernel
  refine ⟨hupper, ?_⟩
  rw [lex_append_line hupper, hlower]
  rfl

end Transact
