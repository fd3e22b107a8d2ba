namespace Transact

inductive Scalar where
  | number (n : Nat)
  | text (s : String)
  deriving DecidableEq

abbrev Record := List (String × Scalar)

namespace Record

def hexDigit (n : Nat) : Char := (Nat.toDigits 16 n).headD '0'

/-- Control characters are escaped, and all others but the quote and the backslash stand for
themselves. -/
def escape (c : Char) : List Char :=
  match c with
  | '"' => ['\\', '"']
  | '\\' => ['\\', '\\']
  | '\n' => ['\\', 'n']
  | '\r' => ['\\', 'r']
  | '\t' => ['\\', 't']
  | '\x08' => ['\\', 'b']
  | '\x0c' => ['\\', 'f']
  | c =>
    if c.toNat < 32 then ['\\', 'u', '0', '0', hexDigit (c.toNat / 16), hexDigit (c.toNat % 16)]
    else [c]

def quote (s : String) : String := String.ofList ('"' :: (s.toList.flatMap escape ++ ['"']))

def scalar : Scalar → String
  | .number n => toString n
  | .text s => quote s

def compact (r : Record) : String :=
  let fields := r.map fun (name, value) => quote name ++ ":" ++ scalar value
  "\x7b" ++ ",".intercalate fields ++ "\x7d"

def entry (r : Record) : String :=
  let fields := r.map fun (name, value) => "    " ++ quote name ++ ": " ++ scalar value
  "  \x7b\n" ++ ",\n".intercalate fields ++ "\n  \x7d"

def entries : List Record → String
  | [] => "[]"
  | records => "[\n" ++ ",\n".intercalate (records.map entry) ++ "\n]"

end Record

end Transact
