namespace Transact

inductive Doc where
  | nil
  | text (content : String)
  | line
  | seq (first second : Doc)
  | raise (columns : Nat)
  | lower (columns : Nat)

/-- The text set so far, the indentation of the lines to come, and whether the last line has text
already. -/
structure Page where
  content : String
  indent : Nat
  isMidline : Bool

def spaces (n : Nat) : String := String.ofList (List.replicate n ' ')

namespace Page

def blank : Page := ⟨"", 0, false⟩

def write (p : Page) (text : String) : Page :=
  let indented := if p.isMidline then text else spaces p.indent ++ text
  ⟨p.content ++ indented, p.indent, true⟩

def breakLine (p : Page) : Page := ⟨p.content ++ "\n", p.indent, false⟩

def raise (p : Page) (n : Nat) : Page := { p with indent := p.indent + n }

def lower (p : Page) (n : Nat) : Page := { p with indent := p.indent - n }

end Page

namespace Doc

instance : Append Doc := ⟨seq⟩

def set : Doc → Page → Page
  | nil, p => p
  | text content, p => p.write content
  | line, p => p.breakLine
  | seq first second, p => second.set (first.set p)
  | raise n, p => p.raise n
  | lower n, p => p.lower n

/-- The lines that begin in the inner document are indented further. -/
def nest (n : Nat) (inner : Doc) : Doc := raise n ++ inner ++ lower n

def join (separator : Doc) : List Doc → Doc
  | [] => nil
  | [d] => d
  | d :: ds => d ++ separator ++ join separator ds

def commaLines : List Doc → Doc := join (line ++ text ",")

def commas : List Doc → Doc := join (text ", ")

def ofOption {α : Type} (f : α → Doc) : Option α → Doc
  | some a => f a
  | none => nil

end Doc

end Transact
