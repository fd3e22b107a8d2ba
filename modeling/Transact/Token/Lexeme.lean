import Transact.Token.Numeral
import Transact.Unicode.Blank
import Transact.Unicode.Number

namespace Transact

inductive Fault where
  /-- The text that should have stood where reading stopped. -/
  | expected (what : String)
  /-- A character that begins no token. It is not taken. -/
  | stray (c : Char)
  /-- A number that is out of range or incomplete. -/
  | badNumber (text : String)
  deriving DecidableEq

structure Lexeme where
  taken : List Char
  rest : List Char
  content : Except Fault (Kind × Value)

namespace Lexeme

def isWordStart (c : Char) : Bool :=
  Unicode.isAlphabetic c || c == '@' || c == '#' || c == '_'

def isWordPart (c : Char) : Bool :=
  Unicode.isAlphanumeric c || c == '_' || c == '@' || c == '#' || c == '$'

def ofWord (word rest : List Char) : Lexeme :=
  let text := String.ofList word
  ⟨word, rest, .ok (Kind.ofWord text, .text text)⟩

def plainWord (source : List Char) : Lexeme :=
  ofWord (source.takeWhile isWordPart) (source.dropWhile isWordPart)

/-- An identifier between delimiters. Anything but the closing delimiter may stand inside. -/
def delimited (opening closing : Char) (source : List Char) : Lexeme :=
  let body := opening :: source.takeWhile (· != closing)
  match source.dropWhile (· != closing) with
  | last :: rest => ofWord (body ++ [last]) rest
  | [] => ⟨body, [], .error (.expected (String.singleton closing))⟩

def literal (type : ConstantType) (opening source : List Char) : Lexeme :=
  match Text.Quoted.unescape source with
  | some (text, taken, rest) =>
    ⟨opening ++ taken, rest, .ok (.constant type, .text (String.ofList text))⟩
  | none => ⟨opening ++ source, [], .error (.expected "'")⟩

def isLineEnd (c : Char) : Bool := c == '\r' || c == '\n'

def lineComment (source : List Char) : Lexeme :=
  let body := source.takeWhile fun c => !isLineEnd c
  ⟨'-' :: '-' :: body, source.dropWhile fun c => !isLineEnd c,
    .ok (.comment .line, .text (String.ofList body))⟩

def splitBlock : List Char → Option (List Char × List Char)
  | [] => none
  | '*' :: '/' :: rest => some ([], rest)
  | c :: rest => (splitBlock rest).map fun (body, rest) => (c :: body, rest)

def blockComment (source : List Char) : Lexeme :=
  match splitBlock source with
  | some (body, rest) =>
    ⟨'/' :: '*' :: (body ++ ['*', '/']), rest, .ok (.comment .block, .text (String.ofList body))⟩
  | none => ⟨'/' :: '*' :: source, [], .error (.expected "*/")⟩

def number (source : List Char) : Lexeme :=
  let (numeral, rest) := Numeral.read source
  ⟨numeral.chars, rest,
    match numeral.value? with
    | some (type, value) => .ok (.constant type, value)
    | none => .error (.badNumber (String.ofList numeral.completed))⟩

def longestMark? (source : List Char) : Option Mark :=
  match Mark.all.find? fun m => m.spelling == source.take 2 with
  | some m => some m
  | none => Mark.all.find? fun m => m.spelling == source.take 1

/-- A mark. Of the characters that begin longer marks only, the missing one is reported. -/
def mark (first : Char) (rest : List Char) : Lexeme :=
  match longestMark? (first :: rest) with
  | some m => ⟨m.spelling, (first :: rest).drop m.spelling.length, .ok (.mark m, .none)⟩
  | none =>
    if first = ':' then ⟨[first], rest, .error (.expected ":")⟩
    else if first = '!' then ⟨[first], rest, .error (.expected "=")⟩
    else ⟨[], first :: rest, .error (.stray first)⟩

def read (first : Char) (rest : List Char) : Lexeme :=
  let second := rest.head?
  if first.isDigit || (first == '.' && second.any Char.isDigit) then number (first :: rest)
  else if first = 'N' ∧ second = some '\'' then literal .nvarchar ['N', '\''] (rest.drop 1)
  else if first = '\'' then literal .varchar ['\''] rest
  else if first = '[' then delimited '[' ']' rest
  else if first = '"' then delimited '"' '"' rest
  else if isWordStart first then plainWord (first :: rest)
  else if first = '-' ∧ second = some '-' then lineComment (rest.drop 1)
  else if first = '/' ∧ second = some '*' then blockComment (rest.drop 1)
  else mark first rest

def Splits (lexeme : Lexeme) (source : List Char) : Prop := lexeme.taken ++ lexeme.rest = source

theorem plainWord_splits (source : List Char) : (plainWord source).Splits source :=
  List.takeWhile_append_dropWhile

theorem delimited_splits (opening closing : Char) (source : List Char) :
    (delimited opening closing source).Splits (opening :: source) := by
  have h : source.takeWhile (· != closing) ++ source.dropWhile (· != closing) = source :=
    List.takeWhile_append_dropWhile
  simp only [delimited]
  split <;> rename_i hd <;> rw [hd] at h <;> simpa [Splits, ofWord] using h

theorem literal_splits (type : ConstantType) (opening source : List Char) :
    (literal type opening source).Splits (opening ++ source) := by
  simp only [literal]
  split
  · rename_i h
    simp [Splits, Text.Quoted.taken_append_of_unescape h]
  · simp [Splits]

theorem lineComment_splits (source : List Char) :
    (lineComment source).Splits ('-' :: '-' :: source) := by
  simp [Splits, lineComment, List.takeWhile_append_dropWhile]

theorem append_of_splitBlock {source body rest : List Char}
    (h : splitBlock source = some (body, rest)) : body ++ ['*', '/'] ++ rest = source := by
  fun_induction splitBlock source generalizing body rest with
  | case1 => cases h
  | case2 => cases h; rfl
  | case3 c source _ ih =>
      obtain ⟨⟨b, r⟩, hr, he⟩ := Option.map_eq_some_iff.1 h
      cases he
      simpa using ih hr

theorem blockComment_splits (source : List Char) :
    (blockComment source).Splits ('/' :: '*' :: source) := by
  simp only [blockComment]
  split
  · rename_i h
    simpa [Splits] using append_of_splitBlock h
  · simp [Splits]

theorem number_splits (source : List Char) : (number source).Splits source :=
  Numeral.chars_read source

theorem spelling_of_longestMark? {source : List Char} {m : Mark}
    (h : longestMark? source = some m) : ∃ n, m.spelling = source.take n := by
  simp only [longestMark?] at h
  split at h
  · rename_i n hn
    cases h
    exact ⟨2, by simpa using List.find?_some hn⟩
  · exact ⟨1, by simpa using List.find?_some h⟩

theorem mark_splits (first : Char) (rest : List Char) :
    (mark first rest).Splits (first :: rest) := by
  simp only [mark]
  split
  · rename_i m h
    obtain ⟨n, hn⟩ := spelling_of_longestMark? h
    have hm : m.spelling = (first :: rest).take m.spelling.length := by
      rw [hn, List.length_take]
      simp
    simp only [Splits]
    conv => lhs; lhs; rw [hm]
    exact List.take_append_drop _ _
  · split
    · rfl
    · split <;> rfl

theorem tail_of_head? {rest : List Char} {c : Char} (h : rest.head? = some c) :
    c :: rest.drop 1 = rest := by
  cases rest with
  | nil => cases h
  | cons d rest => cases h; rfl

theorem read_splits (first : Char) (rest : List Char) :
    (read first rest).Splits (first :: rest) := by
  simp only [read]
  split
  · exact number_splits _
  split
  · rename_i h
    have hs := literal_splits .nvarchar ['N', '\''] (rest.drop 1)
    rw [List.cons_append, List.singleton_append, tail_of_head? h.2] at hs
    rwa [h.1]
  split
  · rename_i h
    simpa [h] using literal_splits .varchar ['\''] rest
  split
  · rename_i h
    simpa [h] using delimited_splits '[' ']' rest
  split
  · rename_i h
    simpa [h] using delimited_splits '"' '"' rest
  split
  · exact plainWord_splits _
  split
  · rename_i h
    have hs := lineComment_splits (rest.drop 1)
    rwa [tail_of_head? h.2, ← h.1] at hs
  split
  · rename_i h
    have hs := blockComment_splits (rest.drop 1)
    rwa [tail_of_head? h.2, ← h.1] at hs
  exact mark_splits first rest

theorem isWordPart_of_isWordStart {c : Char} (h : isWordStart c = true) : isWordPart c = true := by
  simp only [isWordStart, isWordPart, Unicode.isAlphanumeric, Bool.or_eq_true] at *
  rcases h with ((h | h) | h) | h <;> simp [h]

theorem number_taken_ne_nil {first : Char} {rest : List Char}
    (h : (first.isDigit || (first == '.' && rest.head?.any Char.isDigit)) = true) :
    (number (first :: rest)).taken ≠ [] := by
  simp only [number, Numeral.read, Numeral.chars]
  by_cases hd : first.isDigit = true
  · simp [hd]
  · have hp : first = '.' := by simp_all
    subst hp
    simp [Numeral.readFraction, Numeral.fractionChars, show Char.isDigit '.' = false from rfl]

/-- A token takes at least one character. -/
theorem taken_ne_nil {first : Char} {rest : List Char} {content : Kind × Value}
    (h : (read first rest).content = .ok content) : (read first rest).taken ≠ [] := by
  revert h
  simp only [read]
  split
  · exact fun _ => number_taken_ne_nil ‹_›
  split
  · simp only [literal]
    split <;> simp
  split
  · simp only [literal]
    split <;> simp
  split
  · simp only [delimited]
    split <;> simp [ofWord]
  split
  · simp only [delimited]
    split <;> simp [ofWord]
  split
  · rename_i hs
    simp [plainWord, ofWord, isWordPart_of_isWordStart hs]
  split
  · simp [lineComment]
  split
  · simp only [blockComment]
    split <;> simp
  simp only [mark]
  split
  · exact fun _ => Mark.spelling_ne_nil _
  · split
    · simp
    · split <;> simp

theorem length_rest_le {first : Char} {rest : List Char} {content : Kind × Value}
    (h : (read first rest).content = .ok content) :
    (read first rest).rest.length ≤ rest.length := by
  have hs : (read first rest).taken ++ (read first rest).rest = first :: rest :=
    read_splits first rest
  have hl := congrArg List.length hs
  have ht := List.length_pos_iff.2 (taken_ne_nil h)
  simp only [List.length_append, List.length_cons] at hl
  omega

end Lexeme

end Transact
