import Transact.Proofs.Layout.Piece
import Transact.Proofs.Syntax.Begin

namespace Transact

open Doc (Opens Prints Starts Begins)

/-- The characters that a name does not go on with, nor the point in front of them. -/
def EndsName (cs : List Char) : Prop :=
  ∀ c, cs.head? = some c → Lexeme.isWordPart c = false ∧ c ≠ '\'' ∧ c.isDigit = false

theorem Apart.endsName {cs : List Char} (h : Apart cs) : EndsName cs := by
  intro c hc
  have hm := h c hc
  simp only [List.mem_cons, List.not_mem_nil, or_false] at hm
  obtain rfl | rfl | rfl | rfl | rfl | rfl := hm <;> decide

theorem endsName_dot (cs : List Char) : EndsName ('.' :: cs) := by
  rintro _ ⟨⟩
  decide

theorem Lexeme.IsName.head {p : List Char} (h : IsName p) :
    ∃ c cs, p = c :: cs ∧ c.isDigit = false := by
  cases h with
  | plain hb hd hs hp => exact ⟨_, _, rfl, hd⟩
  | bracketed h => exact ⟨_, _, rfl, by decide⟩
  | quoted h => exact ⟨_, _, rfl, by decide⟩

namespace Reference

variable {part : String} {parts : List String} {cs : List Char} {ws : List Word}

theorem reads_part (hp : IsPart part) (hc : EndsName cs) (h : Reads cs ws) :
    Reads (part.toList ++ cs) (partWords part ++ ws) := by
  by_cases hempty : part = ""
  · rw [partWords, if_pos hempty, hempty]
    exact h
  · obtain hp | ⟨hn, -⟩ := hp
    · exact absurd hp hempty
    · rw [partWords, if_neg hempty]
      have hr := Reads.name hn (fun c hcs => ⟨(hc c hcs).1, (hc c hcs).2.1⟩) h
      rwa [String.ofList_toList] at hr

theorem IsPart.head_not_digit (hp : IsPart part) (hc : EndsName cs) :
    ∀ c, (part.toList ++ cs).head? = some c → c.isDigit = false := by
  obtain rfl | ⟨hn, -⟩ := hp
  · exact fun c hcs => (hc c hcs).2.2
  · obtain ⟨d, rest, hd, hdigit⟩ := hn.head
    rw [hd]
    rintro _ ⟨⟩
    exact hdigit

theorem endsBefore_dot {c : Char} (h : c.isDigit = false) : Mark.dot.endsBefore c = true := by
  simp [Mark.endsBefore, Mark.all, Mark.spelling, h]

/-- A dotted name reads back, wherever a part is left out. -/
theorem reads_dotted (hp : ∀ p ∈ parts, IsPart p) (hc : EndsName cs) (h : Reads cs ws) :
    Reads (Text.joinDots (parts.map String.toList) ++ cs) (dotted parts ++ ws) ∧
      ∀ c, (Text.joinDots (parts.map String.toList) ++ cs).head? = some c → c.isDigit = false := by
  induction parts with
  | nil => exact ⟨h, fun c hcs => (hc c hcs).2.2⟩
  | cons part parts ih =>
      have hpart := hp part (by simp)
      cases parts with
      | nil => exact ⟨reads_part hpart hc h, hpart.head_not_digit hc⟩
      | cons next parts =>
          obtain ⟨hrest, hdigit⟩ := ih fun p hm => hp p (List.mem_cons_of_mem _ hm)
          have hdot := Reads.mark (m := .dot) (fun c hcs => endsBefore_dot (hdigit c hcs)) hrest
          rw [List.map_cons, Text.joinDots_cons (by simp), List.append_assoc,
            dotted_cons (List.cons_ne_nil _ _), List.append_assoc]
          exact ⟨reads_part hpart (endsName_dot _) hdot, hpart.head_not_digit (endsName_dot _)⟩

theorem Formed.reads {r : Reference} (hr : r.Formed) (hc : EndsName cs) (h : Reads cs ws) :
    Reads (r.identifier.toList ++ cs) (r.words ++ ws) := by
  rw [identifier, String.toList_ofList]
  exact (reads_dotted hr.1 hc h).1

theorem Formed.prints {r : Reference} (hr : r.Formed) : Prints r.layout r.words :=
  Doc.prints_text fun _ _ hc h => hr.reads hc.endsName h

theorem NamesFunction.prints {r : Reference} (hr : r.NamesFunction) :
    Prints r.layout r.words := by
  obtain hr | ⟨p, hp, hn, -⟩ := hr
  · exact hr.prints
  · refine Doc.prints_text fun cs vs hc h => ?_
    have hname := Reads.name hn hc.not_isWordPart h
    rw [words_single hp hn, identifier, hp, List.map_singleton, Text.joinDots,
      String.ofList_toList]
    rwa [String.ofList_toList] at hname

end Reference

theorem Reference.Formed.words_identifier {r : Reference} (h : r.Formed) :
    Text.words r.identifier = r.words := by
  refine Text.words_eq ?_
  have hr : Reads (r.identifier.toList ++ []) (r.words ++ []) := h.reads nofun .nil
  rwa [List.append_nil, List.append_nil] at hr

theorem IsAlias.reads {text : String} {allowString : Bool} {cs : List Char} {ws : List Word}
    (ha : IsAlias allowString text) (hc : ∀ c, cs.head? = some c →
      Lexeme.isWordPart c = false ∧ c ≠ '\'') (h : Reads cs ws) :
    Reads (text.toList ++ cs) (Text.words text ++ ws) := by
  obtain ⟨hn, -⟩ | ⟨-, t, rfl⟩ := ha
  · rw [Text.words_name hn]
    have hr := Reads.name hn hc h
    rwa [String.ofList_toList] at hr
  · rw [Text.words_quote]
    exact .quoted t (fun hq => (hc _ hq).2 rfl) h

namespace Layout

theorem starts_aliasName (name : Option String) : Starts (aliasName name) := by
  cases name with
  | none => exact Doc.starts_nil
  | some text =>
      exact (Begins.append (Doc.begins_text (c := ' ') rfl (by simp))).starts

theorem prints_aliasName {name : Option String} {allowString : Bool}
    (h : ∀ text, name = some text → IsAlias allowString text) :
    Prints (aliasName name) (Word.aliased name) := by
  cases name with
  | none => exact Doc.opens_nil.prints
  | some text =>
      have hname : Prints (.text text) (Text.words text) :=
        Doc.prints_text fun cs vs hc hr => (h text rfl).reads hc.not_isWordPart hr
      exact (Piece.opens [.blank, .word .AS, .blank] rfl rfl).append_prints hname

theorem toList_hints (found : List TableHint) (rest : List Char) :
    (" WITH (" ++ ", ".intercalate (found.map TableHint.spelling) ++ ")").toList ++ rest =
      [Piece.blank, .word .WITH, .blank, .mark .leftParen].flatMap Piece.chars ++
        ((", ".intercalate (found.map TableHint.spelling)).toList ++ ')' :: rest) := by
  simp [Piece.chars, Keyword.spelling, Mark.spelling]

theorem starts_hints (found : List TableHint) : Starts (hints found) := by
  rw [hints]
  split
  · exact Doc.starts_nil
  · exact (Doc.begins_text (c := ' ') (by simp) (by simp)).starts

theorem reads_hints {found : List TableHint} {cs : List Char} {ws : List Word} (hne : found ≠ [])
    (hc : ∀ c, cs.head? = some c → Lexeme.isWordPart c = false ∧ c ≠ '\'') (h : Reads cs ws) :
    Reads ((", ".intercalate (found.map TableHint.spelling)).toList ++ cs)
      (Word.listed (found.map fun h => [Word.name h.spelling]) ++ ws) := by
  have hplain : ∀ h ∈ TableHint.all, Lexeme.isPlain h.spelling.toList = true := by decide +kernel
  have hname (hint : TableHint) {cs ws}
      (hc : ∀ c, cs.head? = some c → Lexeme.isWordPart c = false ∧ c ≠ '\'') (h : Reads cs ws) :
      Reads (hint.spelling.toList ++ cs) (Word.name hint.spelling :: ws) := by
    have hr := Reads.name (Lexeme.isName_of_isPlain (hplain hint hint.mem_all)) hc h
    rwa [String.ofList_toList] at hr
  induction found with
  | nil => exact absurd rfl hne
  | cons hint rest ih =>
      cases rest with
      | nil =>
          rw [List.map_singleton, String.intercalate_singleton]
          exact hname hint hc h
      | cons next rest =>
          have hblank := Reads.blank (c := ' ') (by decide) (ih nofun)
          have hcomma := hblank.mark (m := .comma) (by rintro _ ⟨⟩; decide)
          rw [List.map_cons, String.intercalate_cons_of_ne_nil (by simp), String.toList_append,
            String.toList_append, List.append_assoc, List.append_assoc]
          exact hname hint (by rintro _ ⟨⟩; decide) hcomma

theorem prints_hints (found : List TableHint) : Prints (hints found) (Word.hinted found) := by
  rw [hints, Word.hinted]
  by_cases hne : found = []
  · subst hne
    exact Doc.opens_nil.prints
  · rw [if_neg (by simpa using hne), if_neg hne]
    refine Doc.prints_text fun cs vs _ h => ?_
    have hclose := Reads.mark (m := .rightParen)
      (fun c _ => Piece.endsBefore_of_isFree (p := .mark .rightParen) rfl c) h
    have hlist := reads_hints hne (by rintro _ ⟨⟩; decide) hclose
    have hopen := @Piece.reads_all _ _ Piece.isFree
      [.blank, .word .WITH, .blank, .mark .leftParen] rfl
      (fun p hp c _ => Piece.endsBefore_of_isFree hp c) hlist
    rw [toList_hints]
    simpa [Word.enclosed, Piece.words, Mark.spelling] using hopen

end Layout

namespace Lexeme

theorem head_of_longestMark? {c : Char} {cs : List Char} {m : Mark}
    (h : longestMark? (c :: cs) = some m) : m.spelling.head? = some c := by
  obtain ⟨n, hn⟩ := spelling_of_longestMark? h
  cases n with
  | zero => exact absurd hn m.spelling_ne_nil
  | succ n => rw [hn, List.take_succ_cons, List.head?_cons]

/-- A lexeme that begins like a minus or a sign of equality, and is no comment, is a mark. -/
theorem exists_mark_of_read {c : Char} {cs : List Char} {w : Word} (hc : c = '=' ∨ c = '-')
    (h : (read c cs).content = .ok w) (hw : w.1.isComment = false) :
    ∃ m, w = Word.mark m ∧ m.spelling.head? = some c := by
  have hmark (h : (mark c cs).content = .ok w) :
      ∃ m, w = Word.mark m ∧ m.spelling.head? = some c := by
    simp only [mark] at h
    split at h
    · rename_i m hm
      cases h
      exact ⟨m, rfl, head_of_longestMark? hm⟩
    · obtain rfl | rfl := hc <;> cases h
  obtain rfl | rfl := hc
  · exact hmark h
  · by_cases hminus : cs.head? = some '-'
    · simp only [read, hminus] at h
      cases h
      cases hw
    · have hread : read '-' cs = mark '-' cs := by
        simp [read, hminus, show Char.isDigit '-' = false from rfl,
          show isWordStart '-' = false by decide]
      rw [hread] at h
      exact hmark h

end Lexeme

/-- A text that begins like a minus or a sign of equality is read as such a mark first. -/
theorem Reads.mark_of_head {c : Char} {cs : List Char} {w : Word} {ws : List Word}
    (hc : c = '=' ∨ c = '-') (h : Reads (c :: cs) (w :: ws)) :
    w.1 = .mark .eq ∨ w.1 = .mark .minus ∨ w.1 = .mark .minusEq := by
  have hmark (m : Mark) : m.spelling.head? = some c → m = .eq ∨ m = .minus ∨ m = .minusEq := by
    obtain rfl | rfl := hc <;> cases m <;> decide
  cases h with
  | blank hb _ => obtain rfl | rfl := hc <;> exact absurd hb (by decide)
  | lexeme _ hr hw _ _ =>
      obtain ⟨m, rfl, hm⟩ := Lexeme.exists_mark_of_read hc (by rw [hr]) hw
      simpa [Word.mark] using hmark m hm

theorem UnaryOperator.endsBefore_of_ne {operator : UnaryOperator} {c : Char}
    (hc : operator = .bitwiseNot ∨ (c ≠ '=' ∧ c ≠ '-')) :
    operator.mark.endsBefore c = true := by
  obtain rfl | ⟨heq, hminus⟩ := hc
  · exact Piece.endsBefore_of_isFree (p := .mark .tilde) rfl c
  · cases operator <;>
      simp [UnaryOperator.mark, Mark.endsBefore, Mark.all, Mark.spelling, hminus, Ne.symm heq]

/-- A sign is followed by a blank if another one follows it. -/
theorem UnaryOperator.prints {operator : UnaryOperator} {operand : Expression} {d : Doc}
    (h : operand.Formed) (ht : operand.tier = 3) (hd : Prints d operand.words) :
    Prints (.text (operator.text operand) ++ d) (Word.mark operator.mark :: operand.words) := by
  by_cases hu : (operand.isUnary && operator != .bitwiseNot) = true
  · rw [text, if_pos hu]
    have hsign : Opens (.text (operator.symbol ++ " ")) [Word.mark operator.mark] := by
      cases operator
      · exact Piece.opens [.mark .plus, .blank] rfl rfl
      · exact Piece.opens [.mark .minus, .blank] rfl rfl
      · exact Piece.opens [.mark .tilde, .blank] rfl rfl
    exact hsign.append_prints hd
  · rw [text, if_neg hu]
    intro n mid cs vs hc hr
    have hoperand := hd n true cs vs hc hr
    rw [Doc.chars_append]
    refine Doc.reads_indented ?_
    have hsymbol : operator.symbol.toList = operator.mark.spelling := by cases operator <;> rfl
    rw [hsymbol]
    refine .mark (fun c hcs => endsBefore_of_ne ?_) hoperand
    -- A tilde begins no longer mark. Another sign may, with a minus or a sign of equality behind
    -- it, and the operand begins with neither.
    by_cases hnot : operator = .bitwiseNot
    · exact .inl hnot
    · have hunary : operand.isUnary = false := by simpa [hnot] using hu
      obtain ⟨w, ws, hw, hbegins, hsign⟩ := h.head
      obtain ⟨rest, hrest⟩ : ∃ rest, d.chars n true ++ cs = c :: rest :=
        List.head?_eq_some_iff.1 hcs
      rw [hrest, hw, List.cons_append] at hoperand
      have hne : ¬(c = '=' ∨ c = '-') := by
        intro hc
        obtain hk | hk | hk := Reads.mark_of_head hc hoperand
        · rw [hk] at hbegins
          cases hbegins
        · rw [hk] at hsign
          cases hsign ht hunary
        · rw [hk] at hbegins
          cases hbegins
      exact .inr (not_or.1 hne)

end Transact
