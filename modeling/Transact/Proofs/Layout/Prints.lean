import Transact.Layout.Doc
import Transact.Proofs.Token.Constant
import Transact.Proofs.Token.Word

namespace Transact

theorem Apart.cons {c : Char} {cs : List Char} (h : c ∈ [' ', '\n', '(', ')', ',', ';']) :
    Apart (c :: cs) := by
  rintro _ ⟨⟩
  exact h

theorem Apart.not_isWordPart {cs : List Char} (h : Apart cs) :
    ∀ c, cs.head? = some c → Lexeme.isWordPart c = false ∧ c ≠ '\'' := by
  intro c hc
  have hm := h c hc
  simp only [List.mem_cons, List.not_mem_nil, or_false] at hm
  obtain rfl | rfl | rfl | rfl | rfl | rfl := hm <;> decide

def Lexeme.isPlain : List Char → Bool
  | c :: cs => !Unicode.isBlank c && !c.isDigit && isWordStart c && cs.all isWordPart
  | [] => false

theorem Lexeme.isName_of_isPlain {p : List Char} (h : isPlain p = true) : IsName p := by
  cases p with
  | nil => cases h
  | cons c cs =>
      simp only [isPlain, Bool.and_eq_true, Bool.not_eq_true', List.all_eq_true] at h
      obtain ⟨⟨⟨hb, hd⟩, hs⟩, hp⟩ := h
      exact .plain hb hd hs hp

theorem Reads.keyword {k : Keyword} {cs : List Char} {ws : List Word}
    (hf : ∀ c, cs.head? = some c → Lexeme.isWordPart c = false ∧ c ≠ '\'') (h : Reads cs ws) :
    Reads (k.spelling.toList ++ cs) (Word.keyword k :: ws) := by
  have hsame := Text.sameWord_refl k.spelling
  have hr := Reads.name (Keyword.isName_of_sameWord hsame) hf h
  rwa [String.ofList_toList, Word.name,
    Kind.ofWord_eq_keyword (Keyword.ofWord?_eq_some hsame)] at hr

namespace Doc

def endsMidline : Doc → Bool → Bool
  | nil, isMidline => isMidline
  | text _, _ => true
  | line, _ => false
  | seq first second, isMidline => second.endsMidline (first.endsMidline isMidline)
  | raise _, isMidline => isMidline
  | lower _, isMidline => isMidline

def indentAfter : Doc → Nat → Nat
  | seq first second, indent => second.indentAfter (first.indentAfter indent)
  | raise n, indent => indent + n
  | lower n, indent => indent - n
  | _, indent => indent

/-- The characters of a document on lines that are indented, when it begins in a line or not. -/
def chars : Doc → Nat → Bool → List Char
  | nil, _, _ => []
  | text content, indent, isMidline =>
    if isMidline then content.toList else List.replicate indent ' ' ++ content.toList
  | line, _, _ => ['\n']
  | seq first second, indent, isMidline =>
    first.chars indent isMidline ++
      second.chars (first.indentAfter indent) (first.endsMidline isMidline)
  | raise _, _, _ => []
  | lower _, _, _ => []

theorem set_eq (d : Doc) (p : Page) :
    d.set p = ⟨p.content ++ String.ofList (d.chars p.indent p.isMidline),
      d.indentAfter p.indent, d.endsMidline p.isMidline⟩ := by
  induction d generalizing p with
  | nil => simp [set, chars, indentAfter, endsMidline]
  | text content =>
      simp only [set, Page.write, chars, indentAfter, endsMidline]
      split
      · rw [String.ofList_toList]
      · rw [String.ofList_append, String.ofList_toList]
        rfl
  | line => rfl
  | seq first second ihf ihs =>
      rw [set, ihf, ihs]
      simp only [chars, indentAfter, endsMidline, String.ofList_append, String.append_assoc]
  | raise n => simp [set, Page.raise, chars, indentAfter, endsMidline]
  | lower n => simp [set, Page.lower, chars, indentAfter, endsMidline]

def Opens (d : Doc) (ws : List Word) : Prop :=
  ∀ n mid cs vs, Reads cs vs → Reads (d.chars n mid ++ cs) (ws ++ vs)

/-- The document is read as the words in front of a text that stands apart. -/
def Prints (d : Doc) (ws : List Word) : Prop :=
  ∀ n mid cs vs, Apart cs → Reads cs vs → Reads (d.chars n mid ++ cs) (ws ++ vs)

/-- The document stands apart from the text before it if the text behind it does. -/
def Starts (d : Doc) : Prop := ∀ n mid cs, Apart cs → Apart (d.chars n mid ++ cs)

def Begins (d : Doc) : Prop := ∀ n mid cs, Apart (d.chars n mid ++ cs)

variable {a b d : Doc} {ws vs : List Word} {t : String}

theorem Begins.starts (h : Begins d) : Starts d := fun n mid cs _ => h n mid cs

theorem Opens.prints (h : Opens d ws) : Prints d ws := fun n mid cs vs _ hr => h n mid cs vs hr

theorem Prints.cast (h : Prints d ws) (he : ws = vs) : Prints d vs := he ▸ h

theorem Opens.cast (h : Opens d ws) (he : ws = vs) : Opens d vs := he ▸ h

theorem chars_append (n : Nat) (mid : Bool) (cs : List Char) :
    (a ++ b).chars n mid ++ cs =
      a.chars n mid ++ (b.chars (a.indentAfter n) (a.endsMidline mid) ++ cs) :=
  List.append_assoc ..

theorem chars_nest (columns n : Nat) (mid : Bool) :
    (nest columns d).chars n mid = d.chars (n + columns) mid := by
  change [] ++ d.chars (n + columns) mid ++ [] = _
  rw [List.nil_append, List.append_nil]

theorem Opens.append (ha : Opens a ws) (hb : Opens b vs) : Opens (a ++ b) (ws ++ vs) := by
  intro n mid cs us hr
  rw [chars_append, List.append_assoc]
  exact ha _ _ _ _ (hb _ _ _ _ hr)

theorem Opens.append_prints (ha : Opens a ws) (hb : Prints b vs) : Prints (a ++ b) (ws ++ vs) := by
  intro n mid cs us hc hr
  rw [chars_append, List.append_assoc]
  exact ha _ _ _ _ (hb _ _ _ _ hc hr)

theorem Prints.append (ha : Prints a ws) (hb : Prints b vs) (hs : Starts b) :
    Prints (a ++ b) (ws ++ vs) := by
  intro n mid cs us hc hr
  rw [chars_append, List.append_assoc]
  exact ha _ _ _ _ (hs _ _ _ hc) (hb _ _ _ _ hc hr)

theorem Prints.append_opens (ha : Prints a ws) (hb : Opens b vs) (hs : Begins b) :
    Opens (a ++ b) (ws ++ vs) := by
  intro n mid cs us hr
  rw [chars_append, List.append_assoc]
  exact ha _ _ _ _ (hs _ _ _) (hb _ _ _ _ hr)

theorem Begins.append (ha : Begins a) : Begins (a ++ b) := by
  intro n mid cs
  rw [chars_append]
  exact ha _ _ _

theorem opens_nil : Opens nil [] := fun _ _ _ _ hr => hr

theorem starts_nil : Starts nil := fun _ _ _ hc => hc

theorem opens_line : Opens line [] := fun _ _ _ _ hr => .blank (by decide) hr

theorem begins_line : Begins line := fun _ _ _ => .cons (by simp)

theorem Opens.nest (n : Nat) (h : Opens d ws) : Opens (nest n d) ws := fun _ _ _ _ hr =>
  chars_nest .. ▸ h _ _ _ _ hr

theorem Prints.nest (n : Nat) (h : Prints d ws) : Prints (nest n d) ws := fun _ _ _ _ hc hr =>
  chars_nest .. ▸ h _ _ _ _ hc hr

theorem Begins.nest (n : Nat) (h : Begins d) : Begins (nest n d) := fun _ _ _ =>
  chars_nest .. ▸ h _ _ _

theorem reads_indented {n : Nat} {mid : Bool} {cs : List Char}
    (h : Reads (t.toList ++ cs) ws) : Reads ((text t).chars n mid ++ cs) ws := by
  simp only [chars]
  split
  · exact h
  · rw [List.append_assoc]
    refine .blanks (fun x hx => ?_) h
    obtain rfl := List.eq_of_mem_replicate hx
    decide

theorem opens_text (h : ∀ cs vs, Reads cs vs → Reads (t.toList ++ cs) (ws ++ vs)) :
    Opens (text t) ws := fun _ _ cs vs hr => reads_indented (h cs vs hr)

theorem prints_text (h : ∀ cs vs, Apart cs → Reads cs vs → Reads (t.toList ++ cs) (ws ++ vs)) :
    Prints (text t) ws := fun _ _ cs vs hc hr => reads_indented (h cs vs hc hr)

theorem begins_text {c : Char} (h : t.toList.head? = some c)
    (hc : c ∈ [' ', '\n', '(', ')', ',', ';']) : Begins (text t) := by
  obtain ⟨rest, h⟩ := List.head?_eq_some_iff.1 h
  intro n mid cs
  simp only [chars, h]
  split
  · exact .cons hc
  · cases n with
    | zero => exact .cons hc
    | succ n => exact .cons (by simp)

end Doc

end Transact
