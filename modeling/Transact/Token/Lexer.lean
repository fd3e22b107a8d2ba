import Transact.Token.Lexeme

namespace Transact

/-- A lexeme that is no token, and where. A stray character and a bad number are placed at their
first character, a missing text at the character that stands in its stead. -/
structure LexicalError where
  fault : Fault
  place : Place
  deriving DecidableEq

namespace Fault

def message (fault : Fault) (place : Place) : String :=
  match fault with
  | .expected what => s!"`{what}` expected at line {place.line} char {place.column}."
  | .stray c => s!"`{c}` unexpected at line {place.line} char {place.column}."
  | .badNumber text => s!"invalid number `{text}` at line {place.line} char {place.column}."

end Fault

namespace LexicalError

def message (e : LexicalError) : String := e.fault.message e.place

end LexicalError

/-- A lexer at work. It keeps the current character, a slot for the one behind it, which may turn
out to be the end of the source, and a buffer for the text of the token at hand. -/
structure Lexer where
  chars : List Char
  look : Option Char
  peeked : Option (Option Char)
  place : Place
  atEnd : Bool
  buffer : List Char
  tokenPlace : Place
  isFinished : Bool

namespace Lexer

def later (l : Lexer) : List Char := l.peeked.join.toList ++ l.chars

def unread (l : Lexer) : List Char := l.look.toList ++ l.later

def pull (l : Lexer) : Option Char × List Char :=
  match l.peeked with
  | some next => (next, l.chars)
  | none => (l.chars.head?, l.chars.tail)

/-- The place of the next character. The end of the source is counted once. -/
def placeOf (l : Lexer) : Option Char → Place
  | some c => l.place.next c
  | none => if l.atEnd then l.place else ⟨l.place.line, l.place.column + 1, l.place.index + 1⟩

def advance (l : Lexer) : Lexer :=
  { l with
    chars := l.pull.2
    look := l.pull.1
    peeked := none
    place := l.placeOf l.pull.1
    atEnd := l.atEnd || l.pull.1.isNone }

def ofSource (source : String) : Lexer :=
  advance ⟨source.toList, none, none, .start, false, [], .start, false⟩

def peek (l : Lexer) : Option Char × Lexer :=
  (l.pull.1, { l with chars := l.pull.2, peeked := some l.pull.1 })

def stash (l : Lexer) : Lexer := { l with buffer := l.buffer ++ l.look.toList }.advance

def takeBuffer (l : Lexer) : List Char × Lexer := (l.buffer, { l with buffer := [] })

def token (l : Lexer) (kind : Kind) (value : Value) : Token := ⟨kind, l.tokenPlace, value⟩

def expected (l : Lexer) (what : String) : LexicalError := ⟨.expected what, l.place⟩

theorem unread_advance (l : Lexer) : l.advance.unread = l.later := by
  rw [unread, later, later, advance, pull]
  cases hp : l.peeked with
  | none => cases l.chars <;> rfl
  | some next => cases next <;> rfl

theorem unread_stash (l : Lexer) : l.stash.unread = l.later := unread_advance _

theorem unread_peek (l : Lexer) : l.peek.2.unread = l.unread := by
  rw [unread, unread, later, later, peek, pull]
  cases hp : l.peeked with
  | none => cases l.chars <;> rfl
  | some next => rfl

theorem length_later_le (l : Lexer) : l.later.length ≤ l.unread.length := by
  rw [unread, List.length_append]
  exact Nat.le_add_left _ _

theorem length_later_lt {l : Lexer} {c : Char} (h : l.look = some c) :
    l.later.length < l.unread.length := by
  rw [unread, h, List.length_append]
  exact Nat.lt_add_of_pos_left Nat.zero_lt_one

theorem length_advance_lt {l : Lexer} {c : Char} (h : l.look = some c) :
    l.advance.unread.length < l.unread.length := l.unread_advance ▸ length_later_lt h

theorem length_stash_lt {l : Lexer} {c : Char} (h : l.look = some c) :
    l.stash.unread.length < l.unread.length := l.unread_stash ▸ length_later_lt h

theorem length_advance_le (l : Lexer) : l.advance.unread.length ≤ l.unread.length :=
  l.unread_advance ▸ l.length_later_le

theorem length_stash_le (l : Lexer) : l.stash.unread.length ≤ l.unread.length :=
  l.unread_stash ▸ l.length_later_le

theorem length_advance_peek_lt {l : Lexer} {c : Char} (h : l.look = some c) :
    l.peek.2.advance.unread.length < l.unread.length := by
  rw [← l.unread_peek]
  exact length_advance_lt (c := c) h

theorem length_stash_peek_lt {l : Lexer} {c : Char} (h : l.look = some c) :
    l.peek.2.stash.unread.length < l.unread.length := by
  rw [← l.unread_peek]
  exact length_stash_lt (c := c) h

def skipWhile (p : Char → Bool) (l : Lexer) : Lexer :=
  match _ : l.look with
  | some c =>
    if p c then l.advance.skipWhile p else l
  | none => l
termination_by l.unread.length
decreasing_by exact length_advance_lt ‹_›

def stashWhile (p : Char → Bool) (l : Lexer) : Lexer :=
  match _ : l.look with
  | some c =>
    if p c then l.stash.stashWhile p else l
  | none => l
termination_by l.unread.length
decreasing_by exact length_stash_lt ‹_›

def stashSign (l : Lexer) : Lexer :=
  if l.look = some '+' ∨ l.look = some '-' then l.stash else l

theorem length_stashSign_le (l : Lexer) : l.stashSign.unread.length ≤ l.unread.length := by
  rw [stashSign]
  split
  · exact l.length_stash_le
  · exact Nat.le_refl _

/-- Takes digits, a point and an exponent with its sign, and tells whether there was a point and
whether there was an exponent. -/
def stashNumber (point exponent : Bool) (l : Lexer) : Bool × Bool × Lexer :=
  match _ : l.look with
  | some c =>
    if c.isDigit then l.stash.stashNumber point exponent
    else if c = '.' ∧ !point ∧ !exponent then l.stash.stashNumber true exponent
    else if (c = 'e' ∨ c = 'E') ∧ !exponent then l.stash.stashSign.stashNumber point true
    else (point, exponent, l)
  | none => (point, exponent, l)
termination_by l.unread.length
decreasing_by
  · exact length_stash_lt ‹_›
  · exact length_stash_lt ‹_›
  · exact Nat.lt_of_le_of_lt l.stash.length_stashSign_le (length_stash_lt ‹_›)

/-- A number is quoted and read with a digit in front of its point, and without an exponent with a
digit behind it as well. -/
def readNumber (l : Lexer) : Except LexicalError Token × Lexer :=
  let (point, exponent, l) := l.stashNumber false false
  let (text, l) := l.takeBuffer
  let text := if text.head? = some '.' then '0' :: text else text
  let text := if !exponent && point && text.getLast? == some '.' then text ++ ['0'] else text
  match (Numeral.read text).1.value? with
  | some (type, value) => (.ok (l.token (.constant type) value), l)
  | none => (.error ⟨.badNumber (String.ofList text), l.tokenPlace⟩, l)

def readBuffer (kind : String → Kind) (l : Lexer) : Except LexicalError Token × Lexer :=
  let (text, l) := l.takeBuffer
  (.ok (l.token (kind (String.ofList text)) (.text (String.ofList text))), l)

def stashThrough (closing : Char) (l : Lexer) : Bool × Lexer :=
  match _ : l.look with
  | some c =>
    if c = closing then (true, l.stash) else l.stash.stashThrough closing
  | none => (false, l)
termination_by l.unread.length
decreasing_by exact length_stash_lt ‹_›

def readDelimited (closing : Char) (l : Lexer) : Except LexicalError Token × Lexer :=
  match l.stash.stashThrough closing with
  | (true, l) => l.readBuffer Kind.ofWord
  | (false, l) => (.error (l.expected (String.singleton closing)), l)

def readIdentifier (l : Lexer) : Except LexicalError Token × Lexer :=
  match l.look with
  | some '[' => l.readDelimited ']'
  | some '"' => l.readDelimited '"'
  | _ => (l.stashWhile Lexeme.isWordPart).readBuffer Kind.ofWord

/-- Stashes the text of a string up to the closing apostrophe, which is dropped, and one of two
apostrophes that stand together. -/
def stashString (l : Lexer) : Bool × Lexer :=
  match _ : l.look with
  | some c =>
    if c = '\'' then
      if l.peek.1 = some '\'' then l.peek.2.advance.stash.stashString
      else (true, l.peek.2.advance)
    else l.stash.stashString
  | none => (false, l)
termination_by l.unread.length
decreasing_by
  · exact Nat.lt_of_le_of_lt l.peek.2.advance.length_stash_le (length_advance_peek_lt ‹_›)
  · exact length_stash_lt ‹_›

def readString (l : Lexer) : Except LexicalError Token × Lexer :=
  let national := l.look == some 'N'
  let l := if national then l.advance else l
  match l.advance.stashString with
  | (true, l) => l.readBuffer fun _ => .constant (if national then .nvarchar else .varchar)
  | (false, l) => (.error (l.expected "'"), l)

def readLineComment (l : Lexer) : Except LexicalError Token × Lexer :=
  (l.advance.advance.stashWhile fun c => !Lexeme.isLineEnd c).readBuffer fun _ => .comment .line

def stashBlock (l : Lexer) : Bool × Lexer :=
  match _ : l.look with
  | some c =>
    if c = '*' then
      if l.peek.1 = some '/' then (true, l.peek.2.advance.advance) else l.peek.2.stash.stashBlock
    else l.stash.stashBlock
  | none => (false, l)
termination_by l.unread.length
decreasing_by
  · exact length_stash_peek_lt ‹_›
  · exact length_stash_lt ‹_›

def readBlockComment (l : Lexer) : Except LexicalError Token × Lexer :=
  match l.advance.advance.stashBlock with
  | (true, l) => l.readBuffer fun _ => .comment .block
  | (false, l) => (.error (l.expected "*/"), l)

def readMark (m : Mark) (l : Lexer) : Except LexicalError Token × Lexer :=
  (.ok (l.token (.mark m) .none), l.advance)

def readAssign (plain assign : Mark) (l : Lexer) : Except LexicalError Token × Lexer :=
  if l.advance.look = some '=' then l.advance.readMark assign
  else (.ok (l.token (.mark plain) .none), l.advance)

/-- Of the characters that begin longer marks only, one is taken before the missing one is
reported. A character that begins nothing is not taken. -/
def readOperator (l : Lexer) : Except LexicalError Token × Lexer :=
  match l.look with
  | none => (.ok (l.token .eof .none), l)
  | some '.' => l.readMark .dot
  | some ':' =>
    if l.advance.look = some ':' then l.advance.readMark .doubleColon
    else (.error (l.advance.expected ":"), l.advance)
  | some '+' => l.readAssign .plus .plusEq
  | some '-' => l.readAssign .minus .minusEq
  | some '*' => l.readAssign .star .starEq
  | some '/' => l.readAssign .slash .slashEq
  | some '%' => l.readAssign .percent .percentEq
  | some '&' => l.readAssign .ampersand .ampersandEq
  | some '^' => l.readAssign .caret .caretEq
  | some '|' => l.readAssign .pipe .pipeEq
  | some '~' => l.readMark .tilde
  | some '<' =>
    if l.advance.look = some '>' then l.advance.readMark .ltGt
    else if l.advance.look = some '=' then l.advance.readMark .ltEq
    else (.ok (l.token (.mark .lt) .none), l.advance)
  | some '>' => l.readAssign .gt .gtEq
  | some '!' =>
    if l.advance.look = some '<' then l.advance.readMark .notLt
    else if l.advance.look = some '>' then l.advance.readMark .notGt
    else if l.advance.look = some '=' then l.advance.readMark .notEq
    else (.error (l.advance.expected "="), l.advance)
  | some '=' => l.readMark .eq
  | some ',' => l.readMark .comma
  | some '(' => l.readMark .leftParen
  | some ')' => l.readMark .rightParen
  | some ';' => l.readMark .semicolon
  | some other => (.error ⟨.stray other, l.tokenPlace⟩, l)

/-- Reads the token that begins with the current character. The slot is filled where the next
character may decide. -/
def readToken (l : Lexer) : Except LexicalError Token × Lexer :=
  match l.look with
  | none => (.ok (l.token .eof .none), l)
  | some '.' =>
    if l.peek.1.any Char.isDigit then l.peek.2.readNumber else l.peek.2.readOperator
  | some 'N' => if l.peek.1 = some '\'' then l.peek.2.readString else l.peek.2.readIdentifier
  | some '\'' => l.readString
  | some '-' => if l.peek.1 = some '-' then l.peek.2.readLineComment else l.peek.2.readOperator
  | some '/' => if l.peek.1 = some '*' then l.peek.2.readBlockComment else l.peek.2.readOperator
  | some c =>
    if c.isDigit then l.readNumber
    else if Lexeme.isWordStart c || c == '[' || c == '"' then l.readIdentifier
    else l.readOperator

def nextToken (l : Lexer) : Except LexicalError Token × Lexer :=
  let l := l.skipWhile Unicode.isBlank
  readToken { l with tokenPlace := l.place }

theorem length_skipWhile_le (p : Char → Bool) (l : Lexer) :
    (l.skipWhile p).unread.length ≤ l.unread.length := by
  fun_induction skipWhile p l with
  | case1 l c h hp ih => exact Nat.le_trans ih l.length_advance_le
  | case2 => exact Nat.le_refl _
  | case3 => exact Nat.le_refl _

theorem length_stashWhile_le (p : Char → Bool) (l : Lexer) :
    (l.stashWhile p).unread.length ≤ l.unread.length := by
  fun_induction stashWhile p l with
  | case1 l c h hp ih => exact Nat.le_trans ih l.length_stash_le
  | case2 => exact Nat.le_refl _
  | case3 => exact Nat.le_refl _

theorem length_stashNumber_le (point exponent : Bool) (l : Lexer) :
    (l.stashNumber point exponent).2.2.unread.length ≤ l.unread.length := by
  fun_induction stashNumber point exponent l with
  | case1 point exponent l c h hd ih => exact Nat.le_trans ih l.length_stash_le
  | case2 point exponent l c h hd hp ih => exact Nat.le_trans ih l.length_stash_le
  | case3 point exponent l c h hd hp he ih =>
      exact Nat.le_trans (Nat.le_trans ih l.stash.length_stashSign_le) l.length_stash_le
  | case4 => exact Nat.le_refl _
  | case5 => exact Nat.le_refl _

theorem length_stashThrough_le (closing : Char) (l : Lexer) :
    (l.stashThrough closing).2.unread.length ≤ l.unread.length := by
  fun_induction stashThrough closing l with
  | case1 l h => exact l.length_stash_le
  | case2 l c h hc ih => exact Nat.le_trans ih l.length_stash_le
  | case3 => exact Nat.le_refl _

theorem length_stashString_le (l : Lexer) : l.stashString.2.unread.length ≤ l.unread.length := by
  fun_induction stashString l with
  | case1 l hp h ih =>
      exact Nat.le_trans ih (Nat.le_trans l.peek.2.advance.length_stash_le
        (Nat.le_of_lt (length_advance_peek_lt h)))
  | case2 l hp h => exact Nat.le_of_lt (length_advance_peek_lt h)
  | case3 l c h hc ih => exact Nat.le_trans ih l.length_stash_le
  | case4 => exact Nat.le_refl _

theorem length_stashBlock_le (l : Lexer) : l.stashBlock.2.unread.length ≤ l.unread.length := by
  fun_induction stashBlock l with
  | case1 l hp h =>
      exact Nat.le_trans l.peek.2.advance.length_advance_le
        (Nat.le_of_lt (length_advance_peek_lt h))
  | case2 l hp h ih => exact Nat.le_trans ih (Nat.le_of_lt (length_stash_peek_lt h))
  | case3 l c h hc ih => exact Nat.le_trans ih l.length_stash_le
  | case4 => exact Nat.le_refl _

theorem unread_readNumber (l : Lexer) :
    l.readNumber.2.unread = (l.stashNumber false false).2.2.unread := by
  simp only [readNumber]
  split <;> rfl

theorem length_readNumber_lt {l : Lexer} {c : Char} (h : l.look = some c)
    (hc : c.isDigit = true ∨ c = '.') : l.readNumber.2.unread.length < l.unread.length := by
  rw [unread_readNumber, stashNumber]
  split
  · rename_i d hd
    cases h.symm.trans hd
    refine Nat.lt_of_le_of_lt ?_ (length_stash_lt h)
    by_cases hdigit : c.isDigit = true
    · rw [if_pos hdigit]
      exact length_stashNumber_le ..
    · rw [if_neg hdigit, if_pos ⟨hc.resolve_left hdigit, rfl, rfl⟩]
      exact length_stashNumber_le ..
  · rename_i hnone
    cases h.symm.trans hnone

theorem length_readDelimited_lt {l : Lexer} {c : Char} (h : l.look = some c) (closing : Char) :
    (l.readDelimited closing).2.unread.length < l.unread.length := by
  refine Nat.lt_of_le_of_lt ?_ (length_stash_lt h)
  have hle := l.stash.length_stashThrough_le closing
  rw [readDelimited]
  split <;> rename_i he <;> rw [he] at hle <;> exact hle

theorem length_readIdentifier_lt {l : Lexer} {c : Char} (h : l.look = some c)
    (hc : Lexeme.isWordStart c = true ∨ c = '[' ∨ c = '"') :
    l.readIdentifier.2.unread.length < l.unread.length := by
  rw [readIdentifier]
  split
  · exact length_readDelimited_lt h _
  · exact length_readDelimited_lt h _
  · rename_i hbracket hquote
    have hpart : Lexeme.isWordPart c = true := by
      obtain hc | rfl | rfl := hc
      · exact Lexeme.isWordPart_of_isWordStart hc
      · exact absurd h hbracket
      · exact absurd h hquote
    change (l.stashWhile Lexeme.isWordPart).unread.length < _
    rw [stashWhile]
    split
    · rename_i d hd
      cases h.symm.trans hd
      rw [if_pos hpart]
      exact Nat.lt_of_le_of_lt (length_stashWhile_le ..) (length_stash_lt h)
    · rename_i hnone
      cases h.symm.trans hnone

theorem length_readString_lt {l : Lexer} {c : Char} (h : l.look = some c) :
    l.readString.2.unread.length < l.unread.length := by
  have hle (m : Lexer) (hm : m.advance.unread.length < l.unread.length) :
      m.advance.stashString.2.unread.length < l.unread.length :=
    Nat.lt_of_le_of_lt m.advance.length_stashString_le hm
  have hboth := hle (if l.look == some 'N' then l.advance else l) <| by
    split
    · exact Nat.lt_of_le_of_lt l.advance.length_advance_le (length_advance_lt h)
    · exact length_advance_lt h
  simp only [readString]
  split <;> rename_i he <;> rw [he] at hboth <;> exact hboth

theorem length_readLineComment_lt {l : Lexer} {c : Char} (h : l.look = some c) :
    l.readLineComment.2.unread.length < l.unread.length :=
  Nat.lt_of_le_of_lt (length_stashWhile_le ..)
    (Nat.lt_of_le_of_lt l.advance.length_advance_le (length_advance_lt h))

theorem length_readBlockComment_lt {l : Lexer} {c : Char} (h : l.look = some c) :
    l.readBlockComment.2.unread.length < l.unread.length := by
  have hlt := Nat.lt_of_le_of_lt l.advance.advance.length_stashBlock_le
    (Nat.lt_of_le_of_lt l.advance.length_advance_le (length_advance_lt h))
  rw [readBlockComment]
  split <;> rename_i he <;> rw [he] at hlt <;> exact hlt

theorem length_readAssign_lt {l : Lexer} {c : Char} (h : l.look = some c) (plain assign : Mark) :
    (l.readAssign plain assign).2.unread.length < l.unread.length := by
  rw [readAssign]
  split
  · exact Nat.lt_of_le_of_lt l.advance.length_advance_le (length_advance_lt h)
  · exact length_advance_lt h

theorem length_readOperator_lt {l l' : Lexer} {c : Char} {t : Token} (hl : l.look = some c)
    (h : l.readOperator = (.ok t, l')) : l'.unread.length < l.unread.length := by
  have hone := length_advance_lt hl
  have htwo := Nat.lt_of_le_of_lt l.advance.length_advance_le hone
  have hassign := length_readAssign_lt hl
  obtain rfl : l.readOperator.2 = l' := congrArg Prod.snd h
  revert h
  rw [readOperator]
  split
  case h_1 =>
    rename_i hnone
    cases hl.symm.trans hnone
  case h_3 =>
    split
    · exact fun _ => htwo
    · exact fun _ => hone
  case h_13 =>
    split
    · exact fun _ => htwo
    split
    · exact fun _ => htwo
    · exact fun _ => hone
  case h_15 =>
    split
    · exact fun _ => htwo
    split
    · exact fun _ => htwo
    split
    · exact fun _ => htwo
    · exact fun _ => hone
  case h_21 =>
    intro h
    cases h
  all_goals first | exact fun _ => hone | exact fun _ => hassign _ _

theorem length_readToken_lt {l l' : Lexer} {t : Token} (h : l.readToken = (.ok t, l'))
    (ht : t.kind ≠ .eof) : l'.unread.length < l.unread.length := by
  have hpeek (m : Lexer) (hm : m.unread.length < l.peek.2.unread.length) :
      m.unread.length < l.unread.length := l.unread_peek ▸ hm
  obtain rfl : l.readToken.2 = l' := congrArg Prod.snd h
  revert h
  rw [readToken]
  split
  · intro h
    cases h
    exact absurd rfl ht
  · rename_i hl
    split
    · exact fun _ => hpeek _ (length_readNumber_lt (c := '.') hl (.inr rfl))
    · exact fun h => hpeek _ (length_readOperator_lt (c := '.') hl h)
  · rename_i hl
    split
    · exact fun _ => hpeek _ (length_readString_lt (c := 'N') hl)
    · exact fun _ => hpeek _ (length_readIdentifier_lt (c := 'N') hl (.inl (by decide)))
  · exact fun _ => length_readString_lt ‹_›
  · rename_i hl
    split
    · exact fun _ => hpeek _ (length_readLineComment_lt (c := '-') hl)
    · exact fun h => hpeek _ (length_readOperator_lt (c := '-') hl h)
  · rename_i hl
    split
    · exact fun _ => hpeek _ (length_readBlockComment_lt (c := '/') hl)
    · exact fun h => hpeek _ (length_readOperator_lt (c := '/') hl h)
  · rename_i c _ _ _ _ _ hl
    split
    · rename_i hd
      exact fun _ => length_readNumber_lt hl (.inl hd)
    split
    · rename_i hw
      exact fun _ => length_readIdentifier_lt hl (by simpa [or_assoc] using hw)
    · exact fun h => length_readOperator_lt hl h

theorem length_nextToken_lt {l l' : Lexer} {t : Token} (h : l.nextToken = (.ok t, l'))
    (ht : t.kind ≠ .eof) : l'.unread.length < l.unread.length :=
  Nat.lt_of_lt_of_le (length_readToken_lt h ht) (l.length_skipWhile_le Unicode.isBlank)

/-- The next token of a sequence that ends for good at the first error. -/
def next (l : Lexer) : Option (Except LexicalError Token) × Lexer :=
  if l.isFinished then (none, l)
  else
    match l.nextToken with
    | (.ok t, l) =>
      if t.kind = .eof then (none, { l with isFinished := true }) else (some (.ok t), l)
    | (.error e, l) => (some (.error e), { l with isFinished := true })

def tokens (l : Lexer) : List Token × Option LexicalError :=
  match h : l.nextToken with
  | (.error e, _) => ([], some e)
  | (.ok t, after) =>
    if ht : t.kind = .eof then ([], none)
    else
      have := length_nextToken_lt h ht
      let (ts, e) := after.tokens
      (t :: ts, e)
termination_by l.unread.length

end Lexer

def lex (source : String) : Except LexicalError (List Token) :=
  match (Lexer.ofSource source).tokens with
  | (ts, none) => .ok ts
  | (_, some e) => .error e

end Transact
