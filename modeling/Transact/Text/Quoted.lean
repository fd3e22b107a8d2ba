namespace Transact.Text.Quoted

def escape : List Char → List Char
  | [] => []
  | '\'' :: rest => '\'' :: '\'' :: escape rest
  | c :: rest => c :: escape rest

def quote (text : String) : String := String.ofList ('\'' :: (escape text.toList ++ ['\'']))

/-- What stands before the closing apostrophe, unescaped, the characters that this took with the
closing apostrophe, and the rest; `none` when the literal is never closed. -/
def unescape : List Char → Option (List Char × List Char × List Char)
  | [] => none
  | '\'' :: '\'' :: rest =>
    (unescape rest).map fun (text, taken, rest) => ('\'' :: text, '\'' :: '\'' :: taken, rest)
  | '\'' :: rest => some ([], ['\''], rest)
  | c :: rest => (unescape rest).map fun (text, taken, rest) => (c :: text, c :: taken, rest)

theorem taken_append_of_unescape {source text taken rest : List Char}
    (h : unescape source = some (text, taken, rest)) : taken ++ rest = source := by
  fun_induction unescape source generalizing text taken rest with
  | case1 => cases h
  | case2 source ih =>
      obtain ⟨⟨t, k, r⟩, hr, he⟩ := Option.map_eq_some_iff.1 h
      cases he
      simp [ih hr]
  | case3 => cases h; rfl
  | case4 c source _ _ ih =>
      obtain ⟨⟨t, k, r⟩, hr, he⟩ := Option.map_eq_some_iff.1 h
      cases he
      simp [ih hr]

theorem taken_eq_escape {source text taken rest : List Char}
    (h : unescape source = some (text, taken, rest)) : taken = escape text ++ ['\''] := by
  fun_induction unescape source generalizing text taken rest with
  | case1 => cases h
  | case2 source ih =>
      obtain ⟨⟨t, k, r⟩, hr, he⟩ := Option.map_eq_some_iff.1 h
      cases he
      simp [escape, ih hr]
  | case3 => cases h; rfl
  | case4 c source _ hc ih =>
      obtain ⟨⟨t, k, r⟩, hr, he⟩ := Option.map_eq_some_iff.1 h
      cases he
      simp [escape, ih hr]

end Transact.Text.Quoted
