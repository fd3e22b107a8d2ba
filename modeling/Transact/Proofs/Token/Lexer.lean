import Transact.Proofs.Token.Numeral
import Transact.Token.Lexer

namespace Transact

namespace Lexeme

theorem read_point (cs : List Char) : read '.' cs =
    if cs.head?.any Char.isDigit then number ('.' :: cs) else mark '.' cs := by
  have hdigit : Char.isDigit '.' = false := rfl
  have hword : isWordStart '.' = false := by decide
  split <;> rename_i hd <;> simp [read, hd, hdigit, hword]

theorem read_N (cs : List Char) : read 'N' cs =
    if cs.head? = some '\'' then literal .nvarchar ['N', '\''] (cs.drop 1)
    else plainWord ('N' :: cs) := by
  have hdigit : Char.isDigit 'N' = false := rfl
  have hword : isWordStart 'N' = true := by decide
  split <;> rename_i hq <;> simp [read, hq, hdigit, hword]

theorem read_minus (cs : List Char) : read '-' cs =
    if cs.head? = some '-' then lineComment (cs.drop 1) else mark '-' cs := by
  have hdigit : Char.isDigit '-' = false := rfl
  have hword : isWordStart '-' = false := by decide
  split <;> rename_i hm <;> simp [read, hm, hdigit, hword]

theorem read_slash (cs : List Char) : read '/' cs =
    if cs.head? = some '*' then blockComment (cs.drop 1) else mark '/' cs := by
  have hdigit : Char.isDigit '/' = false := rfl
  have hword : isWordStart '/' = false := by decide
  split <;> rename_i hm <;> simp [read, hm, hdigit, hword]

end Lexeme

namespace Lexer

/-- A lexer stands where a cursor stands. What the cursor has still to read is spread over the
current character, the slot and the source. -/
structure Stands (l : Lexer) (c : Cursor) (buffer : List Char)
    (begun : Place) : Prop where
  look : l.look = c.rest.head?
  later : l.later = c.rest.tail
  slot : l.peeked = some none → l.chars = []
  place : l.place = c.ahead
  atEnd : l.atEnd = c.rest.isEmpty
  buffer : l.buffer = buffer
  tokenPlace : l.tokenPlace = begun
  unfinished : l.isFinished = false

variable {l : Lexer} {c : Cursor} {p q : Place} {x : Char} {cs b : List Char}

theorem stands_ofSource (source : String) :
    (ofSource source).Stands (.ofSource source) [] .start := by
  have hplace (cs : List Char) : (ofSource (String.ofList cs)).place =
      Cursor.ahead ⟨.start, cs⟩ := by
    cases cs with
    | nil => simp [ofSource, advance, pull, placeOf, Cursor.ahead]; rfl
    | cons c cs => simp [ofSource, advance, pull, placeOf, Cursor.ahead]
  have h := hplace source.toList
  rw [String.ofList_toList] at h
  have hslot : (ofSource source).peeked ≠ some none := (Option.some_ne_none none).symm
  refine ⟨rfl, rfl, (absurd · hslot), h, ?_, rfl, rfl, rfl⟩
  cases hs : source.toList <;> simp [ofSource, advance, pull, Cursor.ofSource, hs]

theorem Stands.unread (h : l.Stands c b q) : l.unread = c.rest := by
  rw [Lexer.unread, h.look, h.later]
  cases c.rest <;> rfl

theorem Stands.pull (h : l.Stands ⟨p, x :: cs⟩ b q) : l.pull = (cs.head?, cs.tail) := by
  have hlater : l.later = cs := h.later
  rw [Lexer.later] at hlater
  rw [Lexer.pull]
  cases hp : l.peeked with
  | none =>
      rw [hp] at hlater
      rw [← hlater]
      rfl
  | some next =>
      rw [hp] at hlater
      cases next with
      | none =>
          rw [← hlater, h.slot hp]
          rfl
      | some y =>
          rw [← hlater]
          rfl

theorem Stands.advance (h : l.Stands ⟨p, x :: cs⟩ b q) : l.advance.Stands ⟨p.next x, cs⟩ b q := by
  have hpull := h.pull
  have hat : l.atEnd = false := h.atEnd
  have hplace : l.place = p.next x := h.place
  have hslot : l.advance.peeked ≠ some none := (Option.some_ne_none none).symm
  refine ⟨congrArg Prod.fst hpull, ?_, (absurd · hslot), ?_, ?_, h.buffer, h.tokenPlace,
    h.unfinished⟩
  · rw [Lexer.later, Lexer.advance, hpull]
    rfl
  · rw [Lexer.advance, hpull]
    dsimp only
    cases cs with
    | nil => simp [placeOf, hat, hplace, Cursor.ahead, Place.next]
    | cons y cs => rw [List.head?_cons, placeOf, hplace]; rfl
  · rw [Lexer.advance, hpull, hat]
    cases cs <;> rfl

theorem Stands.stash (h : l.Stands ⟨p, x :: cs⟩ b q) :
    l.stash.Stands ⟨p.next x, cs⟩ (b ++ [x]) q := by
  have hbuffer : l.buffer ++ l.look.toList = b ++ [x] := by
    rw [h.buffer, h.look]
    rfl
  exact advance (l := { l with buffer := l.buffer ++ l.look.toList })
    ⟨h.look, h.later, h.slot, h.place, h.atEnd, hbuffer, h.tokenPlace,
      h.unfinished⟩

theorem Stands.peek (h : l.Stands ⟨p, x :: cs⟩ b q) :
    l.peek.1 = cs.head? ∧ l.peek.2.Stands ⟨p, x :: cs⟩ b q := by
  have hpull := h.pull
  refine ⟨congrArg Prod.fst hpull, h.look, ?_, fun hslot => ?_, h.place, h.atEnd, h.buffer,
    h.tokenPlace, h.unfinished⟩
  · rw [Lexer.later, Lexer.peek, hpull]
    cases cs <;> rfl
  · rw [Lexer.peek, hpull] at hslot ⊢
    cases cs with
    | nil => rfl
    | cons => cases hslot

theorem skipWhile_eq (keep : Char → Bool) (l : Lexer) : l.skipWhile keep =
    match l.look with
    | some c => if keep c then l.advance.skipWhile keep else l
    | none => l := by
  rw [Lexer.skipWhile]
  split <;> simp only [*]

theorem stashWhile_eq (keep : Char → Bool) (l : Lexer) : l.stashWhile keep =
    match l.look with
    | some c => if keep c then l.stash.stashWhile keep else l
    | none => l := by
  rw [Lexer.stashWhile]
  split <;> simp only [*]

theorem stashNumber_eq (point exponent : Bool) (l : Lexer) : l.stashNumber point exponent =
    match l.look with
    | some c =>
      if c.isDigit then l.stash.stashNumber point exponent
      else if c = '.' ∧ !point ∧ !exponent then l.stash.stashNumber true exponent
      else if (c = 'e' ∨ c = 'E') ∧ !exponent then l.stash.stashSign.stashNumber point true
      else (point, exponent, l)
    | none => (point, exponent, l) := by
  rw [Lexer.stashNumber]
  split <;> simp only [*]

theorem stashThrough_eq (closing : Char) (l : Lexer) : l.stashThrough closing =
    match l.look with
    | some c => if c = closing then (true, l.stash) else l.stash.stashThrough closing
    | none => (false, l) := by
  rw [Lexer.stashThrough]
  split <;> simp only [*]

theorem stashString_eq (l : Lexer) : l.stashString =
    match l.look with
    | some c =>
      if c = '\'' then
        if l.peek.1 = some '\'' then l.peek.2.advance.stash.stashString
        else (true, l.peek.2.advance)
      else l.stash.stashString
    | none => (false, l) := by
  rw [Lexer.stashString]
  split <;> simp only [*]

theorem stashBlock_eq (l : Lexer) : l.stashBlock =
    match l.look with
    | some c =>
      if c = '*' then
        if l.peek.1 = some '/' then (true, l.peek.2.advance.advance) else l.peek.2.stash.stashBlock
      else l.stash.stashBlock
    | none => (false, l) := by
  rw [Lexer.stashBlock]
  split <;> simp only [*]

theorem Stands.skipWhile (h : l.Stands ⟨p, cs⟩ b q) (keep : Char → Bool) :
    (l.skipWhile keep).Stands ⟨p.advance (cs.takeWhile keep), cs.dropWhile keep⟩ b q := by
  induction cs generalizing l p with
  | nil =>
      rw [skipWhile_eq, h.look]
      exact h
  | cons x cs ih =>
      rw [skipWhile_eq, h.look, List.head?_cons]
      dsimp only
      by_cases hx : keep x = true
      · rw [if_pos hx, List.takeWhile_cons_of_pos hx, List.dropWhile_cons_of_pos hx]
        exact ih h.advance
      · rw [if_neg hx, List.takeWhile_cons_of_neg hx, List.dropWhile_cons_of_neg hx]
        exact h

theorem Stands.stashWhile (h : l.Stands ⟨p, cs⟩ b q) (keep : Char → Bool) :
    (l.stashWhile keep).Stands ⟨p.advance (cs.takeWhile keep), cs.dropWhile keep⟩
      (b ++ cs.takeWhile keep) q := by
  induction cs generalizing l p b with
  | nil =>
      rw [stashWhile_eq, h.look, List.takeWhile_nil, List.append_nil]
      exact h
  | cons x cs ih =>
      rw [stashWhile_eq, h.look, List.head?_cons]
      dsimp only
      by_cases hx : keep x = true
      · rw [if_pos hx, List.takeWhile_cons_of_pos hx, List.dropWhile_cons_of_pos hx,
          List.append_cons]
        exact ih h.stash
      · rw [if_neg hx, List.takeWhile_cons_of_neg hx, List.dropWhile_cons_of_neg hx,
          List.append_nil]
        exact h

theorem Stands.stashThrough (h : l.Stands ⟨p, cs⟩ b q) (x : Char) :
    match cs.dropWhile (· != x) with
    | last :: rest => (l.stashThrough x).1 = true ∧ (l.stashThrough x).2.Stands
        ⟨p.advance (cs.takeWhile (· != x) ++ [last]), rest⟩
        (b ++ (cs.takeWhile (· != x) ++ [last])) q
    | [] => (l.stashThrough x).1 = false ∧ (l.stashThrough x).2.Stands
        ⟨p.advance (cs.takeWhile (· != x)), []⟩ (b ++ cs.takeWhile (· != x)) q := by
  induction cs generalizing l p b with
  | nil =>
      rw [stashThrough_eq, h.look, List.takeWhile_nil, List.append_nil]
      exact ⟨rfl, h⟩
  | cons y cs ih =>
      rw [stashThrough_eq, h.look, List.head?_cons]
      dsimp only
      by_cases hy : y = x
      · have hstop : (y != x) = false := by simp [hy]
        simp only [if_pos hy, List.takeWhile_cons, List.dropWhile_cons, hstop, Bool.false_eq_true,
          if_false]
        exact ⟨trivial, h.stash⟩
      · have hgo : (y != x) = true := by simp [hy]
        simp only [if_neg hy, List.takeWhile_cons, List.dropWhile_cons, hgo, if_true,
          List.cons_append]
        have hrest := ih h.stash
        simp only [List.append_assoc, List.singleton_append] at hrest
        exact hrest

theorem Stands.stashString (h : l.Stands ⟨p, cs⟩ b q) :
    match Text.Quoted.unescape cs with
    | some (text, taken, rest) => l.stashString.1 = true ∧
        l.stashString.2.Stands ⟨p.advance taken, rest⟩ (b ++ text) q
    | none => l.stashString.1 = false ∧
        ∃ text, l.stashString.2.Stands ⟨p.advance cs, []⟩ text q := by
  fun_induction Text.Quoted.unescape cs generalizing l p b with
  | case1 =>
      rw [stashString_eq, h.look]
      exact ⟨rfl, b, h⟩
  | case2 cs ih =>
      obtain ⟨hnext, hpeek⟩ := h.peek
      rw [stashString_eq, h.look, List.head?_cons]
      dsimp only
      rw [if_pos rfl, if_pos (show l.peek.1 = some '\'' from hnext)]
      have hrest := ih hpeek.advance.stash
      cases hu : Text.Quoted.unescape cs with
      | none =>
          rw [hu] at hrest
          exact hrest
      | some r =>
          rw [hu] at hrest
          simpa [Place.advance_cons] using hrest
  | case3 cs hc =>
      obtain ⟨hnext, hpeek⟩ := h.peek
      have hne : l.peek.1 ≠ some '\'' := by
        rw [hnext]
        cases cs with
        | nil => exact (Option.some_ne_none _).symm
        | cons x cs =>
            rintro ⟨⟩
            exact hc cs rfl
      rw [stashString_eq, h.look, List.head?_cons]
      dsimp only
      rw [if_pos rfl, if_neg hne, List.append_nil]
      exact ⟨rfl, hpeek.advance⟩
  | case4 x cs hc hne ih =>
      rw [stashString_eq, h.look, List.head?_cons]
      dsimp only
      rw [if_neg hne]
      have hrest := ih h.stash
      cases hu : Text.Quoted.unescape cs with
      | none =>
          rw [hu] at hrest
          exact hrest
      | some r =>
          rw [hu] at hrest
          simpa [Place.advance_cons] using hrest

theorem Stands.stashBlock (h : l.Stands ⟨p, cs⟩ b q) :
    match Lexeme.splitBlock cs with
    | some (body, rest) => l.stashBlock.1 = true ∧
        l.stashBlock.2.Stands ⟨p.advance (body ++ ['*', '/']), rest⟩ (b ++ body) q
    | none => l.stashBlock.1 = false ∧
        ∃ text, l.stashBlock.2.Stands ⟨p.advance cs, []⟩ text q := by
  fun_induction Lexeme.splitBlock cs generalizing l p b with
  | case1 =>
      rw [stashBlock_eq, h.look]
      exact ⟨rfl, b, h⟩
  | case2 cs =>
      obtain ⟨hnext, hpeek⟩ := h.peek
      rw [stashBlock_eq, h.look, List.head?_cons]
      dsimp only
      rw [if_pos rfl, if_pos (show l.peek.1 = some '/' from hnext), List.append_nil]
      exact ⟨rfl, hpeek.advance.advance⟩
  | case3 x cs hc ih =>
      have hrest : match Lexeme.splitBlock cs with
          | some (body, rest) => l.stashBlock.1 = true ∧
              l.stashBlock.2.Stands ⟨(p.next x).advance (body ++ ['*', '/']), rest⟩
                (b ++ [x] ++ body) q
          | none => l.stashBlock.1 = false ∧
              ∃ text, l.stashBlock.2.Stands ⟨(p.next x).advance cs, []⟩ text q := by
        rw [stashBlock_eq, h.look, List.head?_cons]
        dsimp only
        by_cases hx : x = '*'
        · obtain ⟨hnext, hpeek⟩ := h.peek
          have hne : l.peek.1 ≠ some '/' := by
            rw [hnext]
            cases cs with
            | nil => exact (Option.some_ne_none _).symm
            | cons y cs =>
                rintro ⟨⟩
                exact hc cs hx rfl
          rw [if_pos hx, if_neg hne]
          exact ih hpeek.stash
        · rw [if_neg hx]
          exact ih h.stash
      cases hs : Lexeme.splitBlock cs with
      | none =>
          rw [hs] at hrest
          exact hrest
      | some r =>
          rw [hs] at hrest
          simpa [Place.advance_cons] using hrest

theorem stashNumber_stashWhile (point exponent : Bool) (l : Lexer) :
    (l.stashWhile Char.isDigit).stashNumber point exponent = l.stashNumber point exponent := by
  fun_induction stashWhile Char.isDigit l with
  | case1 l c h hc ih =>
      rw [ih, stashNumber_eq point exponent l, h]
      dsimp only
      rw [if_pos hc]
  | case2 => rfl
  | case3 => rfl

theorem Stands.stashSign (h : l.Stands ⟨p, cs⟩ b q) :
    let sign := (cs.take 1).filter fun c => c = '+' ∨ c = '-'
    l.stashSign.Stands ⟨p.advance sign, cs.drop sign.length⟩ (b ++ sign) q := by
  rw [Lexer.stashSign, h.look]
  cases cs with
  | nil => simpa [Place.advance_nil] using h
  | cons x cs =>
      by_cases hx : x = '+' ∨ x = '-'
      · simpa [hx, Place.advance_cons, Place.advance_nil] using h.stash
      · simpa [hx, Place.advance_nil] using h

/-- Behind the digits of a number comes an exponent or its end. -/
theorem Stands.stashNumber_exponent (h : l.Stands ⟨p, cs⟩ b q) (point : Bool)
    (hd : ∀ x, cs.head? = some x → x.isDigit = false) (hp : point = false → cs.head? ≠ some '.') :
    ∃ l', l.stashNumber point false = (point, (Exponent.read cs).1.isSome, l') ∧
      l'.Stands ⟨p.advance (Numeral.exponentChars (Exponent.read cs).1), (Exponent.read cs).2⟩
        (b ++ Numeral.exponentChars (Exponent.read cs).1) q := by
  rw [stashNumber_eq, h.look]
  cases cs with
  | nil => exact ⟨l, rfl, by
      simpa [Exponent.read, Numeral.exponentChars, Place.advance_nil] using h⟩
  | cons x cs =>
      have hpoint : ¬(x = '.' ∧ (!point) = true ∧ (!false) = true) := by
        rintro ⟨rfl, hn, -⟩
        exact hp (by simpa using hn) rfl
      rw [List.head?_cons]
      dsimp only
      rw [if_neg (by simp [hd x rfl]), if_neg hpoint]
      by_cases hx : x = 'e' ∨ x = 'E'
      · have hsign := h.stash.stashSign
        have hdigits := hsign.stashWhile Char.isDigit
        have hstop : ∀ m : Lexer, (∀ y, m.look = some y → y.isDigit = false) →
            m.stashNumber point true = (point, true, m) := by
          intro m hm
          rw [stashNumber_eq]
          cases hl : m.look with
          | none => rfl
          | some y => simp [hm y hl]
        rw [if_pos ⟨hx, rfl⟩, ← stashNumber_stashWhile, hstop]
        · refine ⟨l.stash.stashSign.stashWhile Char.isDigit, by simp [Exponent.read, hx], ?_⟩
          simpa [Exponent.read, hx, Numeral.exponentChars, Exponent.chars, Place.advance_cons,
            Place.advance_append] using hdigits
        · intro y hy
          rw [hdigits.look] at hy
          have hhead := List.head?_dropWhile_not Char.isDigit
            (cs.drop ((cs.take 1).filter fun c => c = '+' ∨ c = '-').length)
          rw [hy] at hhead
          simpa using hhead
      · rw [if_neg (by simp [hx])]
        exact ⟨l, by simp [Exponent.read, hx], by
          simpa [Exponent.read, hx, Numeral.exponentChars, Place.advance_nil] using h⟩

theorem Stands.stashNumber (h : l.Stands ⟨p, cs⟩ b q) :
    ∃ l', l.stashNumber false false = ((Numeral.read cs).1.fraction.isSome,
        (Numeral.read cs).1.exponent.isSome, l') ∧
      l'.Stands ⟨p.advance (Numeral.read cs).1.chars, (Numeral.read cs).2⟩
        (b ++ (Numeral.read cs).1.chars) q := by
  have hwhole := h.stashWhile Char.isDigit
  rw [← stashNumber_stashWhile]
  have hstop (xs : List Char) : ∀ x, (xs.dropWhile Char.isDigit).head? = some x →
      x.isDigit = false := by
    intro x hx
    have hhead := List.head?_dropWhile_not Char.isDigit xs
    rw [hx] at hhead
    simpa using hhead
  by_cases hp : (cs.dropWhile Char.isDigit).head? = some '.'
  · obtain ⟨rest, hrest⟩ : ∃ rest, cs.dropWhile Char.isDigit = '.' :: rest := by
      cases hd : cs.dropWhile Char.isDigit with
      | nil => rw [hd] at hp; cases hp
      | cons x xs => rw [hd] at hp; cases hp; exact ⟨xs, rfl⟩
    rw [hrest] at hwhole
    obtain ⟨l', hl', hstands⟩ := (hwhole.stash.stashWhile Char.isDigit).stashNumber_exponent
      true (hstop rest) (by simp)
    refine ⟨l', ?_, ?_⟩
    · rw [stashNumber_eq, hwhole.look, List.head?_cons]
      dsimp only
      rw [if_neg (by decide), if_pos ⟨rfl, rfl, rfl⟩, ← stashNumber_stashWhile, hl']
      simp [Numeral.read, hrest, Numeral.readFraction]
    · simpa [Numeral.read, hrest, Numeral.readFraction, Numeral.chars, Numeral.fractionChars,
        Place.advance_append, Place.advance_cons] using hstands
  · obtain ⟨l', hl', hstands⟩ := hwhole.stashNumber_exponent false (hstop cs)
      fun _ => hp
    have hfraction : Numeral.readFraction (cs.dropWhile Char.isDigit) =
        (none, cs.dropWhile Char.isDigit) := by
      unfold Numeral.readFraction
      split
      · rename_i hd
        exact absurd (hd ▸ rfl) hp
      · rfl
    refine ⟨l', ?_, ?_⟩
    · rw [hl']
      simp [Numeral.read, hfraction]
    · simpa [Numeral.read, hfraction, Numeral.chars, Numeral.fractionChars,
        Place.advance_append] using hstands

/-- A lexer between two calls. At the end of the source text may be left in its buffer, but no token
takes it there. -/
def Waits (l : Lexer) (c : Cursor) : Prop :=
  ∃ b q, l.Stands c b q ∧ (c.rest ≠ [] → b = [])

def Agrees (o : Except LexicalError Token × Lexer) (n : Except LexicalError Token × Cursor) :
    Prop :=
  o.1 = n.1 ∧ o.2.Waits n.2

theorem Stands.agrees {taken rest : List Char} {kind : Kind} {value : Value}
    (h : l.Stands (c.advance taken rest) [] c.ahead) :
    Agrees (.ok (l.token kind value), l) (c.take ⟨taken, rest, .ok (kind, value)⟩) := by
  refine ⟨?_, [], _, h, fun _ => rfl⟩
  rw [Lexer.token, h.tokenPlace]
  rfl

theorem Stands.agrees_expected {taken rest : List Char} {what : String}
    (h : l.Stands (c.advance taken rest) b q) (hb : rest ≠ [] → b = []) :
    Agrees (.error (l.expected what), l) (c.take ⟨taken, rest, .error (.expected what)⟩) := by
  refine ⟨?_, b, q, h, hb⟩
  rw [Lexer.expected, h.place]
  rfl

theorem Stands.readBuffer {taken rest : List Char} (h : l.Stands (c.advance taken rest) b c.ahead)
    (kind : String → Kind) :
    Agrees (l.readBuffer kind) (c.take
      ⟨taken, rest, .ok (kind (String.ofList b), .text (String.ofList b))⟩) := by
  rw [Lexer.readBuffer, takeBuffer, h.buffer]
  exact agrees ⟨h.look, h.later, h.slot, h.place, h.atEnd, rfl, h.tokenPlace, h.unfinished⟩

theorem Stands.readNumber (h : l.Stands ⟨p, x :: cs⟩ [] (p.next x))
    (hx : x.isDigit = true ∨ x = '.') :
    Agrees l.readNumber (Cursor.take ⟨p, x :: cs⟩ (Lexeme.number (x :: cs))) := by
  obtain ⟨l', hl', hstands⟩ := h.stashNumber
  have hwritten := Numeral.written_read (x :: cs)
  have hpoint : (Numeral.read (x :: cs)).1.whole = [] →
      (Numeral.read (x :: cs)).1.fraction.isSome = true := by
    intro hw
    obtain hx | rfl := hx
    · simp [Numeral.read, hx] at hw
    · rfl
  have hcompleted := Numeral.completed_eq hwritten hpoint
  dsimp only at hcompleted
  simp only [Lexer.readNumber, hl', takeBuffer, hstands.buffer, List.nil_append, ← hcompleted,
    Numeral.value?_read_completed hwritten, Lexeme.number]
  have hclean : { l' with buffer := [] }.Stands
      (Cursor.advance ⟨p, x :: cs⟩ (Numeral.read (x :: cs)).1.chars (Numeral.read (x :: cs)).2)
      [] (p.next x) :=
    ⟨hstands.look, hstands.later, hstands.slot, hstands.place, hstands.atEnd, rfl,
      hstands.tokenPlace, hstands.unfinished⟩
  cases hv : (Numeral.read (x :: cs)).1.value? with
  | some v => exact hclean.agrees
  | none =>
      refine ⟨?_, [], _, hclean, fun _ => rfl⟩
      simp only [hstands.tokenPlace]
      rfl

theorem Stands.readDelimited (h : l.Stands ⟨p, x :: cs⟩ [] (p.next x)) (closing : Char) :
    Agrees (l.readDelimited closing)
      (Cursor.take ⟨p, x :: cs⟩ (Lexeme.delimited x closing cs)) := by
  have hthrough := h.stash.stashThrough closing
  simp only [Lexer.readDelimited, Lexeme.delimited]
  cases hd : cs.dropWhile (· != closing) with
  | nil =>
      rw [hd] at hthrough
      obtain ⟨hfound, hstands⟩ := hthrough
      rw [← Prod.eta (l.stash.stashThrough closing), hfound]
      exact hstands.agrees_expected (absurd rfl)
  | cons last rest =>
      rw [hd] at hthrough
      obtain ⟨hfound, hstands⟩ := hthrough
      rw [← Prod.eta (l.stash.stashThrough closing), hfound]
      exact hstands.readBuffer Kind.ofWord

theorem Stands.readPlain (h : l.Stands ⟨p, x :: cs⟩ [] (p.next x)) :
    Agrees ((l.stashWhile Lexeme.isWordPart).readBuffer Kind.ofWord)
      (Cursor.take ⟨p, x :: cs⟩ (Lexeme.plainWord (x :: cs))) :=
  (h.stashWhile Lexeme.isWordPart).readBuffer Kind.ofWord

theorem Stands.readQuoted {opening : List Char} (h : l.Stands (c.advance opening cs) [] c.ahead)
    (type : ConstantType) :
    Agrees (match l.stashString with
      | (true, l) => l.readBuffer fun _ => .constant type
      | (false, l) => (.error (l.expected "'"), l)) (c.take (Lexeme.literal type opening cs)) := by
  have hstring := h.stashString
  rw [Lexeme.literal, ← Prod.eta l.stashString]
  cases hu : Text.Quoted.unescape cs with
  | none =>
      rw [hu] at hstring
      obtain ⟨hfound, text, hstands⟩ := hstring
      rw [hfound]
      rw [← Place.advance_append] at hstands
      exact hstands.agrees_expected (absurd rfl)
  | some r =>
      rw [hu] at hstring
      obtain ⟨hfound, hstands⟩ := hstring
      rw [hfound]
      rw [← Place.advance_append] at hstands
      exact hstands.readBuffer fun _ => .constant type

theorem Stands.readString (h : l.Stands ⟨p, '\'' :: cs⟩ [] (p.next '\'')) :
    Agrees l.readString (Cursor.take ⟨p, '\'' :: cs⟩ (Lexeme.literal .varchar ['\''] cs)) := by
  have hlook : (l.look == some 'N') = false := by rw [h.look]; rfl
  rw [Lexer.readString, hlook]
  exact Stands.readQuoted (c := ⟨p, '\'' :: cs⟩) h.advance .varchar

theorem Stands.readNational (h : l.Stands ⟨p, 'N' :: '\'' :: cs⟩ [] (p.next 'N')) :
    Agrees l.readString
      (Cursor.take ⟨p, 'N' :: '\'' :: cs⟩ (Lexeme.literal .nvarchar ['N', '\''] cs)) := by
  have hlook : (l.look == some 'N') = true := by rw [h.look]; rfl
  rw [Lexer.readString, hlook]
  exact Stands.readQuoted (c := ⟨p, 'N' :: '\'' :: cs⟩) h.advance.advance .nvarchar

theorem Stands.readLineComment (h : l.Stands ⟨p, '-' :: '-' :: cs⟩ [] (p.next '-')) :
    Agrees l.readLineComment (Cursor.take ⟨p, '-' :: '-' :: cs⟩ (Lexeme.lineComment cs)) :=
  (h.advance.advance.stashWhile fun c => !Lexeme.isLineEnd c).readBuffer fun _ => .comment .line

theorem Stands.readBlockComment (h : l.Stands ⟨p, '/' :: '*' :: cs⟩ [] (p.next '/')) :
    Agrees l.readBlockComment (Cursor.take ⟨p, '/' :: '*' :: cs⟩ (Lexeme.blockComment cs)) := by
  have hblock := h.advance.advance.stashBlock
  rw [Lexer.readBlockComment, Lexeme.blockComment, ← Prod.eta l.advance.advance.stashBlock]
  cases hs : Lexeme.splitBlock cs with
  | none =>
      rw [hs] at hblock
      obtain ⟨hfound, text, hstands⟩ := hblock
      rw [hfound]
      exact hstands.agrees_expected (absurd rfl)
  | some r =>
      rw [hs] at hblock
      obtain ⟨hfound, hstands⟩ := hblock
      rw [hfound]
      exact hstands.readBuffer fun _ => .comment .block

theorem Stands.readOne {m : Mark} (h : l.Stands ⟨p, x :: cs⟩ [] (p.next x))
    (hm : m.spelling = [x])
    (hno : ∀ y, l.advance.look = some y → ∀ n : Mark, n.spelling ≠ [x, y]) :
    Agrees (l.readMark m) (Cursor.take ⟨p, x :: cs⟩ (Lexeme.mark x cs)) := by
  have hlook : l.advance.look = cs.head? := h.advance.look
  rw [hlook] at hno
  simp only [Lexeme.mark, Lexeme.longestMark?_one hm hno, hm]
  have hone : l.advance.Stands (Cursor.advance ⟨p, x :: cs⟩ [x] cs) []
      (Cursor.ahead ⟨p, x :: cs⟩) := h.advance
  exact hone.agrees

theorem Stands.readTwo {m : Mark} {y : Char} (h : l.Stands ⟨p, x :: cs⟩ [] (p.next x))
    (hy : l.advance.look = some y) (hm : m.spelling = [x, y]) :
    Agrees (l.advance.readMark m) (Cursor.take ⟨p, x :: cs⟩ (Lexeme.mark x cs)) := by
  obtain ⟨rest, rfl⟩ : ∃ rest, cs = y :: rest :=
    List.head?_eq_some_iff.1 (h.advance.look.symm.trans hy)
  simp only [Lexeme.mark, Lexeme.longestMark?_two hm, hm]
  have htwo : l.advance.advance.Stands (Cursor.advance ⟨p, x :: y :: rest⟩ [x, y] rest) []
      (Cursor.ahead ⟨p, x :: y :: rest⟩) := h.advance.advance
  exact htwo.agrees

theorem Stands.lacks {what : String} (h : l.Stands ⟨p, x :: cs⟩ [] (p.next x))
    (hx : x = ':' ∧ what = ":" ∨ x = '!' ∧ what = "=")
    (hno : ∀ y, l.advance.look = some y → ∀ n : Mark, n.spelling ≠ [x, y]) :
    Agrees (.error (l.advance.expected what), l.advance)
      (Cursor.take ⟨p, x :: cs⟩ (Lexeme.mark x cs)) := by
  have hlook : l.advance.look = cs.head? := h.advance.look
  rw [hlook] at hno
  have hone (n : Mark) : n.spelling ≠ [x] := by
    obtain ⟨rfl, -⟩ | ⟨rfl, -⟩ := hx <;> cases n <;> simp [Mark.spelling]
  have hmark : Lexeme.mark x cs = ⟨[x], cs, .error (.expected what)⟩ := by
    rw [Lexeme.mark, Lexeme.longestMark?_eq_none hone hno]
    obtain ⟨rfl, rfl⟩ | ⟨rfl, rfl⟩ := hx <;> rfl
  rw [hmark]
  exact h.advance.agrees_expected fun _ => rfl

theorem Stands.readAssign {plain assign : Mark} (h : l.Stands ⟨p, x :: cs⟩ [] (p.next x))
    (hplain : plain.spelling = [x]) (hassign : assign.spelling = [x, '='])
    (hno : ∀ y, ∀ n : Mark, n.spelling = [x, y] → y = '=') :
    Agrees (l.readAssign plain assign) (Cursor.take ⟨p, x :: cs⟩ (Lexeme.mark x cs)) := by
  rw [Lexer.readAssign]
  split <;> rename_i hc
  · exact h.readTwo hc hassign
  · exact h.readOne hplain fun y hy n hn => hc (hno y n hn ▸ hy)

theorem Stands.readColon (h : l.Stands ⟨p, ':' :: cs⟩ [] (p.next ':')) :
    Agrees (if l.advance.look = some ':' then l.advance.readMark .doubleColon
      else (.error (l.advance.expected ":"), l.advance))
      (Cursor.take ⟨p, ':' :: cs⟩ (Lexeme.mark ':' cs)) := by
  split <;> rename_i hc
  · exact h.readTwo hc rfl
  · refine h.lacks (.inl ⟨rfl, rfl⟩) fun y hy n hn => ?_
    obtain rfl : ':' = y := by
      cases n <;> simp [Mark.spelling] at hn
      exact hn
    exact hc hy

theorem Stands.readLess (h : l.Stands ⟨p, '<' :: cs⟩ [] (p.next '<')) :
    Agrees (if l.advance.look = some '>' then l.advance.readMark .ltGt
      else if l.advance.look = some '=' then l.advance.readMark .ltEq
      else (.ok (l.token (.mark .lt) .none), l.advance))
      (Cursor.take ⟨p, '<' :: cs⟩ (Lexeme.mark '<' cs)) := by
  split <;> rename_i hgreater
  · exact h.readTwo hgreater rfl
  split <;> rename_i hequal
  · exact h.readTwo hequal rfl
  · refine h.readOne rfl fun y hy n hn => ?_
    obtain rfl | rfl : '=' = y ∨ '>' = y := by
      cases n <;> simp [Mark.spelling] at hn <;> subst hn <;> decide
    · exact hequal hy
    · exact hgreater hy

theorem Stands.readBang (h : l.Stands ⟨p, '!' :: cs⟩ [] (p.next '!')) :
    Agrees (if l.advance.look = some '<' then l.advance.readMark .notLt
      else if l.advance.look = some '>' then l.advance.readMark .notGt
      else if l.advance.look = some '=' then l.advance.readMark .notEq
      else (.error (l.advance.expected "="), l.advance))
      (Cursor.take ⟨p, '!' :: cs⟩ (Lexeme.mark '!' cs)) := by
  split <;> rename_i hless
  · exact h.readTwo hless rfl
  split <;> rename_i hgreater
  · exact h.readTwo hgreater rfl
  split <;> rename_i hequal
  · exact h.readTwo hequal rfl
  · refine h.lacks (.inr ⟨rfl, rfl⟩) fun y hy n hn => ?_
    obtain rfl | rfl | rfl : '=' = y ∨ '>' = y ∨ '<' = y := by
      cases n <;> simp [Mark.spelling] at hn <;> subst hn <;> decide
    · exact hequal hy
    · exact hgreater hy
    · exact hless hy

theorem Stands.readOperator (h : l.Stands ⟨p, x :: cs⟩ [] (p.next x)) :
    Agrees l.readOperator (Cursor.take ⟨p, x :: cs⟩ (Lexeme.mark x cs)) := by
  rw [Lexer.readOperator, h.look, List.head?_cons]
  split <;> rename_i hx
  case h_1 => cases hx
  case h_3 =>
    cases hx
    exact h.readColon
  case h_13 =>
    cases hx
    exact h.readLess
  case h_15 =>
    cases hx
    exact h.readBang
  case h_21 =>
    cases hx
    rw [Lexeme.mark, Lexeme.longestMark?_eq_none, if_neg, if_neg]
    · exact ⟨by rw [h.tokenPlace]; rfl, [], _, h, fun _ => rfl⟩
    · rintro rfl
      contradiction
    · rintro rfl
      contradiction
    · intro n hn
      cases n <;> cases hn <;> contradiction
    · intro y _ n hn
      cases n <;> cases hn <;> contradiction
  all_goals
    cases hx
    first
      | exact h.readOne rfl fun y _ n => by cases n <;> simp [Mark.spelling]
      | exact h.readAssign rfl rfl fun y n => by cases n <;> simp [Mark.spelling, eq_comm]

theorem Stands.readIdentifier (h : l.Stands ⟨p, x :: cs⟩ [] (p.next x)) :
    Agrees l.readIdentifier (Cursor.take ⟨p, x :: cs⟩
      (if x = '[' then Lexeme.delimited '[' ']' cs
        else if x = '"' then Lexeme.delimited '"' '"' cs
        else Lexeme.plainWord (x :: cs))) := by
  rw [Lexer.readIdentifier, h.look, List.head?_cons]
  split <;> rename_i hx
  · cases hx
    exact h.readDelimited ']'
  · cases hx
    exact h.readDelimited '"'
  · rename_i hquote
    rw [if_neg fun he => hx (congrArg some he), if_neg fun he => hquote (congrArg some he)]
    exact h.readPlain

theorem Stands.readOther (h : l.Stands ⟨p, x :: cs⟩ [] (p.next x))
    (hx : x ≠ '.' ∧ x ≠ 'N' ∧ x ≠ '\'' ∧ x ≠ '-' ∧ x ≠ '/') :
    Agrees (if x.isDigit then l.readNumber
      else if Lexeme.isWordStart x || x == '[' || x == '"' then l.readIdentifier
      else l.readOperator) (Cursor.take ⟨p, x :: cs⟩ (Lexeme.read x cs)) := by
  have hread : Lexeme.read x cs =
      if x.isDigit then Lexeme.number (x :: cs)
      else if x = '[' then Lexeme.delimited '[' ']' cs
      else if x = '"' then Lexeme.delimited '"' '"' cs
      else if Lexeme.isWordStart x then Lexeme.plainWord (x :: cs)
      else Lexeme.mark x cs := by
    simp [Lexeme.read, hx]
  rw [hread]
  split <;> rename_i hd
  · exact h.readNumber (.inl hd)
  split <;> rename_i hw
  · have hidentifier := h.readIdentifier
    by_cases hbracket : x = '['
    · rw [if_pos hbracket] at hidentifier ⊢
      exact hidentifier
    by_cases hdouble : x = '"'
    · rw [if_neg hbracket, if_pos hdouble] at hidentifier ⊢
      exact hidentifier
    · rw [if_neg hbracket, if_neg hdouble] at hidentifier ⊢
      rw [if_pos (by simpa [hbracket, hdouble] using hw)]
      exact hidentifier
  · obtain ⟨⟨hword, hbracket⟩, hdouble⟩ :
        (Lexeme.isWordStart x = false ∧ x ≠ '[') ∧ x ≠ '"' := by simpa using hw
    rw [if_neg hbracket, if_neg hdouble, if_neg (by simp [hword])]
    exact h.readOperator

theorem Stands.readToken (h : l.Stands ⟨p, x :: cs⟩ [] (p.next x)) :
    Agrees l.readToken (Cursor.take ⟨p, x :: cs⟩ (Lexeme.read x cs)) := by
  obtain ⟨hnext, hpeek⟩ := h.peek
  have hcons {y : Char} (hy : cs.head? = some y) : ∃ rest, cs = y :: rest :=
    List.head?_eq_some_iff.1 hy
  rw [Lexer.readToken, h.look, List.head?_cons, hnext]
  split <;> rename_i hx
  · cases hx
  · cases hx
    rw [Lexeme.read_point]
    split
    · exact hpeek.readNumber (.inr rfl)
    · exact hpeek.readOperator
  · cases hx
    rw [Lexeme.read_N]
    split <;> rename_i hq
    · obtain ⟨rest, rfl⟩ := hcons hq
      exact hpeek.readNational
    · exact hpeek.readIdentifier
  · cases hx
    exact h.readString
  · cases hx
    rw [Lexeme.read_minus]
    split <;> rename_i hm
    · obtain ⟨rest, rfl⟩ := hcons hm
      exact hpeek.readLineComment
    · exact hpeek.readOperator
  · cases hx
    rw [Lexeme.read_slash]
    split <;> rename_i hm
    · obtain ⟨rest, rfl⟩ := hcons hm
      exact hpeek.readBlockComment
    · exact hpeek.readOperator
  · rename_i hdot hN hquote hminus hslash
    cases hx
    rw [imp_false] at hdot hN hquote hminus hslash
    exact h.readOther ⟨hdot, hN, hquote, hminus, hslash⟩

theorem readToken_eof (h : l.look = none) : l.readToken = (.ok (l.token .eof .none), l) := by
  rw [readToken, h]

/-- Each call for a token gives what a step of the cursor gives. -/
theorem Waits.nextToken (h : l.Waits c) : Agrees l.nextToken c.next := by
  obtain ⟨b, q, hstands, hb⟩ := h
  obtain ⟨p, cs⟩ := c
  have hskip := hstands.skipWhile Unicode.isBlank
  have hbegin : { l.skipWhile Unicode.isBlank with
      tokenPlace := (l.skipWhile Unicode.isBlank).place }.Stands
        ⟨p.advance (cs.takeWhile Unicode.isBlank), cs.dropWhile Unicode.isBlank⟩ b
        (Cursor.ahead ⟨p.advance (cs.takeWhile Unicode.isBlank), cs.dropWhile Unicode.isBlank⟩) :=
    ⟨hskip.look, hskip.later, hskip.slot, hskip.place, hskip.atEnd, hskip.buffer, hskip.place,
      hskip.unfinished⟩
  simp only [Lexer.nextToken, Cursor.next, Cursor.skipBlanks, Cursor.advance]
  generalize { l.skipWhile Unicode.isBlank with
    tokenPlace := (l.skipWhile Unicode.isBlank).place } = m at hbegin ⊢
  cases hd : cs.dropWhile Unicode.isBlank with
  | nil =>
      rw [hd] at hbegin
      rw [readToken_eof hbegin.look]
      refine ⟨?_, b, _, hbegin, fun hne => absurd rfl hne⟩
      rw [token, hbegin.tokenPlace]
      rfl
  | cons x rest =>
      rw [hd] at hbegin
      obtain rfl : b = [] := by
        refine hb fun hnil => ?_
        dsimp only at hnil
        rw [hnil] at hd
        cases hd
      exact hbegin.readToken

theorem waits_ofSource (source : String) : (ofSource source).Waits (.ofSource source) :=
  ⟨[], _, stands_ofSource source, fun _ => rfl⟩

theorem tokens_eq (l : Lexer) : l.tokens =
    match l.nextToken with
    | (.error e, _) => ([], some e)
    | (.ok t, after) =>
      if t.kind = .eof then ([], none) else (t :: after.tokens.1, after.tokens.2) := by
  rw [Lexer.tokens]
  split
  · rename_i hn
    rw [hn]
  · rename_i hn
    simp only [hn]
    split <;> rfl

/-- The run of a lexer is the run of its cursor. -/
theorem Waits.tokens (h : l.Waits c) : l.tokens = c.tokens := by
  have hnext := h.nextToken
  rw [tokens_eq]
  induction c using Cursor.byTokens generalizing l with
  | error c d e hn hc =>
      rw [hn] at hnext
      obtain ⟨hresult, -⟩ := hnext
      rw [← Prod.eta l.nextToken, hresult, hc]
  | eof c d t hn ht hc =>
      rw [hn] at hnext
      obtain ⟨hresult, -⟩ := hnext
      rw [← Prod.eta l.nextToken, hresult, hc]
      dsimp only
      rw [if_pos ht]
  | token c d t hn ht hc ih =>
      rw [hn] at hnext
      obtain ⟨hresult, hwaits⟩ := hnext
      rw [← Prod.eta l.nextToken, hresult, hc]
      dsimp only
      have hrest : l.nextToken.2.tokens = d.tokens := by
        rw [tokens_eq]
        exact ih hwaits hwaits.nextToken
      rw [if_neg ht, hrest]

theorem tokens_ofSource (source : String) :
    (ofSource source).tokens = (Cursor.ofSource source).tokens :=
  (waits_ofSource source).tokens

end Lexer

theorem Cursor.tokens_of_lex {source : String} {ts : List Token} (h : lex source = .ok ts) :
    (Cursor.ofSource source).tokens = (ts, none) := by
  rw [lex, Lexer.tokens_ofSource] at h
  generalize (Cursor.ofSource source).tokens = r at h ⊢
  obtain ⟨us, fault⟩ := r
  cases fault with
  | none =>
      cases h
      rfl
  | some e => cases h

end Transact
