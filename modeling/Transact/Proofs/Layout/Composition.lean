import Transact.Proofs.Layout.Balance

namespace Transact

namespace Page

def behind (p : Page) (text : String) : Page := { p with content := text ++ p.content }

theorem write_behind (p : Page) (text added : String) :
    (p.behind text).write added = (p.write added).behind text := by
  simp only [write, behind, String.append_assoc]
  rfl

theorem breakLine_behind (p : Page) (text : String) :
    (p.behind text).breakLine = p.breakLine.behind text := by
  simp only [breakLine, behind, String.append_assoc]

end Page

/-- What a document adds to a page does not depend on the text that the page holds. -/
theorem Doc.set_behind (d : Doc) (p : Page) (text : String) :
    d.set (p.behind text) = (d.set p).behind text := by
  induction d generalizing p with
  | nil => rfl
  | text content => exact p.write_behind text content
  | line => exact p.breakLine_behind text
  | seq first second ihf ihs => rw [set, ihf, ihs]; rfl
  | raise n => rfl
  | lower n => rfl

namespace Page

theorem append_behind (p : Page) (text : String) (s : Statement) :
    (p.behind text).append s = (p.append s).behind text := by
  simp only [append, Doc.set_behind, breakLine_behind]

theorem appendAll_behind (p : Page) (text : String) (ss : List Statement) :
    (p.behind text).appendAll ss = (p.appendAll ss).behind text := by
  induction ss generalizing p with
  | nil => rfl
  | cons s ss ih =>
      change ((p.behind text).append s).appendAll ss = _
      rw [append_behind, ih]
      rfl

variable {p : Page}

structure IsFresh (p : Page) : Prop where
  indent : p.indent = 0
  isMidline : p.isMidline = false

theorem IsFresh.append (h : p.IsFresh) (s : Statement) : (p.append s).IsFresh := by
  have hs := s.visit.balanced.indent_set p
  rw [Visit.layout_visit_statement] at hs
  exact ⟨hs.trans h.indent, rfl⟩

theorem IsFresh.appendAll (h : p.IsFresh) (ss : List Statement) : (p.appendAll ss).IsFresh := by
  induction ss generalizing p with
  | nil => exact h
  | cons s ss ih => exact ih (h.append s)

theorem IsFresh.eq_behind (h : p.IsFresh) : p = blank.behind p.content := by
  obtain ⟨content, indent, isMidline⟩ := p
  obtain ⟨rfl, rfl⟩ := h
  simp only [behind, blank, String.append_empty]

theorem IsFresh.content_appendAll (h : p.IsFresh) (ss : List Statement) :
    (p.appendAll ss).content = p.content ++ format ss := by
  rw [h.eq_behind, appendAll_behind]
  simp only [behind, blank, String.append_empty]
  rfl

inductive Call where
  | statement (s : Statement)
  | statements (ss : List Statement)

def after (p : Page) : Call → Page
  | .statement s => p.append s
  | .statements ss => p.appendAll ss

def afterAll (p : Page) (calls : List Call) : Page := calls.foldl after p

theorem IsFresh.after (h : p.IsFresh) (call : Call) : (p.after call).IsFresh := by
  cases call with
  | statement s => exact h.append s
  | statements ss => exact h.appendAll ss

theorem IsFresh.afterAll (h : p.IsFresh) (calls : List Call) : (p.afterAll calls).IsFresh := by
  induction calls generalizing p with
  | nil => exact h
  | cons call calls ih => exact ih (h.after call)

end Page

/-- Writing is compositional. A page on which statements were appended, one by one or many at once,
takes more statements by adding the text that they have alone, so that the text of statements is put
together from the texts of their parts. And a node of any kind is set on any page by moves that can
all be made, which end with the indentation with which they began and keep at least that one
wherever they are broken off. -/
theorem writing_composes :
    (∀ (calls : List Page.Call) (ss : List Statement),
      ((Page.blank.afterAll calls).appendAll ss).content =
        (Page.blank.afterAll calls).content ++ format ss) ∧
    (∀ xs ys : List Statement, format (xs ++ ys) = format xs ++ format ys) ∧
    ∀ (node : Visit) (p : Page),
      p.moveAll node.layout.moves = some (node.layout.set p) ∧
      (node.layout.set p).indent = p.indent ∧
      ∀ made, made <+: node.layout.moves → ∃ q, p.moveAll made = some q ∧ p.indent ≤ q.indent := by
  have hblank : Page.blank.IsFresh := ⟨rfl, rfl⟩
  refine ⟨fun calls ss => (hblank.afterAll calls).content_appendAll ss, fun xs ys => ?_,
    fun node p => ⟨node.balanced.moveAll_moves p, node.balanced.indent_set p,
      fun made h => node.balanced.exists_moveAll_le_indent p h⟩⟩
  have happend : Page.blank.appendAll (xs ++ ys) = (Page.blank.appendAll xs).appendAll ys :=
    List.foldl_append
  rw [format, happend, (hblank.appendAll xs).content_appendAll]
  rfl

end Transact
