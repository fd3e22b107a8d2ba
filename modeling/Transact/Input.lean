import Transact.Grammar.Parse
import Transact.Text.Utf8

namespace Transact

inductive ReadError where
  /-- Bytes at hand that are no text. -/
  | malformed (fault : Text.Utf8.Fault)
  /-- A file or a stream that is no text. -/
  | notText
  /-- What the operating system says, and the number that it gives to this. -/
  | system (description : String) (number : Nat)
  deriving DecidableEq

namespace ReadError

def notFound : ReadError := system "No such file or directory" 2

def notDirectory : ReadError := system "Not a directory" 20

def isDirectory : ReadError := system "Is a directory" 21

def message : ReadError → String
  | malformed fault => fault.message
  | notText => "stream did not contain valid UTF-8"
  | system description number => s!"{description} (os error {number})"

end ReadError

inductive InputForm where
  | characters | tokens
  deriving DecidableEq

namespace InputForm

def name : InputForm → String
  | characters => "characters"
  | tokens => "tokens"

end InputForm

inductive InputError where
  | missing (form : InputForm)
  | lexical (error : LexicalError)
  | grammatical (error : SyntaxError)
  | unreadable (cause : ReadError)
  deriving DecidableEq

namespace InputError

def message : InputError → String
  | missing form => s!"no {form.name} source provided"
  | lexical error => error.message
  | grammatical error => error.message
  | unreadable cause => "failed to read source: " ++ cause.message

end InputError

def decodeContents (contents : Except ReadError (List UInt8)) : Except ReadError String := do
  (Text.Utf8.decode (← contents)).mapError fun _ => .notText

def lexInput : Option String → Except InputError (List Token)
  | some source => (lex source).mapError .lexical
  | none => .error (.missing .characters)

def parseInput : Option String → Except InputError (List Statement)
  | some source => (parse source).mapError .grammatical
  | none => .error (.missing .characters)

def parseTokenInput : Option (List Token) → Except InputError (List Statement)
  | some tokens => (parseTokens tokens).mapError .grammatical
  | none => .error (.missing .tokens)

/-- Lexical errors are found before any error of the grammar. -/
def lexAndParse (source : String) : Except InputError (List Statement) := do
  parseTokenInput (some (← lexInput (some source)))

def parseBytes (bytes : List UInt8) : Except InputError (List Statement) :=
  match Text.Utf8.decode bytes with
  | .ok source => parseInput (some source)
  | .error fault => .error (.unreadable (.malformed fault))

def parseContents (contents : Except ReadError (List UInt8)) :
    Except InputError (List Statement) :=
  match decodeContents contents with
  | .ok source => parseInput (some source)
  | .error cause => .error (.unreadable cause)

end Transact
