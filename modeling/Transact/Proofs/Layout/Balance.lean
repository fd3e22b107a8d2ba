import Transact.Layout.Statement
import Transact.Proofs.Traversal.Children

namespace Transact

namespace Page

inductive Move where
  | write (text : String)
  | breakLine
  | raise (n : Nat)
  | lower (n : Nat)

/-- The page after a move. An indentation is not lowered by more than it is. -/
def move (p : Page) : Move → Option Page
  | .write text => some (p.write text)
  | .breakLine => some p.breakLine
  | .raise n => some (p.raise n)
  | .lower n => if n ≤ p.indent then some (p.lower n) else none

def moveAll (p : Page) (moves : List Move) : Option Page := moves.foldlM move p

theorem moveAll_append (p : Page) (made more : List Move) :
    p.moveAll (made ++ more) = (p.moveAll made).bind (moveAll · more) := List.foldlM_append

theorem exists_moveAll_single (p q : Page) {m : Move} {made : List Move}
    (hq : p.move m = some q) (hle : p.indent ≤ q.indent) (h : made <+: [m]) :
    ∃ q, p.moveAll made = some q ∧ p.indent ≤ q.indent := by
  obtain rfl | ⟨more, rfl, hmore⟩ := List.prefix_cons_iff.1 h
  · exact ⟨p, rfl, Nat.le_refl _⟩
  · obtain rfl := List.prefix_nil.1 hmore
    exact ⟨q, by simp [moveAll, hq], hle⟩

end Page

namespace Doc

open Page (Move)

def moves : Doc → List Move
  | nil => []
  | text content => [.write content]
  | line => [.breakLine]
  | seq first second => first.moves ++ second.moves
  | raise n => [.raise n]
  | lower n => [.lower n]

/-- Documents in which each indentation that is raised is lowered again. -/
inductive Balanced : Doc → Prop
  | nil : Balanced nil
  | text (content : String) : Balanced (text content)
  | line : Balanced line
  | append {a b : Doc} (ha : Balanced a) (hb : Balanced b) : Balanced (a ++ b)
  | nest (n : Nat) {d : Doc} (h : Balanced d) : Balanced (nest n d)

namespace Balanced

variable {d : Doc}

theorem indent_set (h : Balanced d) (p : Page) : (d.set p).indent = p.indent := by
  induction h generalizing p with
  | nil | text | line => rfl
  | append _ _ iha ihb => exact (ihb _).trans (iha p)
  | @nest n d _ ih =>
      change (d.set (p.raise n)).indent - n = p.indent
      rw [ih]
      exact Nat.add_sub_cancel ..

theorem moveAll_moves (h : Balanced d) (p : Page) : p.moveAll d.moves = some (d.set p) := by
  induction h generalizing p with
  | nil | text | line => rfl
  | @append a b _ _ iha ihb =>
      change p.moveAll (a.moves ++ b.moves) = some (b.set (a.set p))
      rw [Page.moveAll_append, iha, Option.bind_some, ihb]
  | @nest n d h ih =>
      have hn : n ≤ (d.set (p.raise n)).indent := by
        rw [h.indent_set]
        exact Nat.le_add_left ..
      change (p.raise n).moveAll (d.moves ++ [.lower n]) = some ((d.set (p.raise n)).lower n)
      rw [Page.moveAll_append, ih, Option.bind_some]
      simp [Page.moveAll, Page.move, hn]

/-- Wherever the moves of a document are broken off, the indentation is not below that at which they
began. -/
theorem exists_moveAll_le_indent (h : Balanced d) (p : Page) {made : List Move}
    (hmade : made <+: d.moves) : ∃ q, p.moveAll made = some q ∧ p.indent ≤ q.indent := by
  induction h generalizing p made with
  | nil =>
      obtain rfl := List.prefix_nil.1 hmade
      exact ⟨p, rfl, Nat.le_refl _⟩
  | text content => exact p.exists_moveAll_single (p.write content) rfl (Nat.le_refl _) hmade
  | line => exact p.exists_moveAll_single p.breakLine rfl (Nat.le_refl _) hmade
  | @append a b ha _ iha ihb =>
      have hfirst : a.moves <+: (a ++ b).moves := List.prefix_append ..
      -- The moves break off in the first document, or in the second one behind all of the first.
      obtain hin | ⟨more, rfl⟩ := List.prefix_or_prefix_of_prefix hmade hfirst
      · exact iha p hin
      · obtain ⟨q, hq, hle⟩ := ihb (a.set p) ((List.prefix_append_right_inj _).1 hmade)
        rw [ha.indent_set] at hle
        refine ⟨q, ?_, hle⟩
        rw [Page.moveAll_append, ha.moveAll_moves, Option.bind_some, hq]
  | @nest n d h ih =>
      have hnest : (Doc.nest n d).moves = .raise n :: (d.moves ++ [.lower n]) := rfl
      rw [hnest] at hmade
      obtain rfl | ⟨more, rfl, hmore⟩ := List.prefix_cons_iff.1 hmade
      · exact ⟨p, rfl, Nat.le_refl _⟩
      -- Either all moves are made or, behind the first one, only moves of the inner document.
      · obtain rfl | hinner := List.prefix_concat_iff.1 hmore
        · refine ⟨(Doc.nest n d).set p, (h.nest n).moveAll_moves p, ?_⟩
          exact Nat.le_of_eq ((h.nest n).indent_set p).symm
        · obtain ⟨q, hq, hle⟩ := ih (p.raise n) hinner
          exact ⟨q, hq, Nat.le_trans (Nat.le_add_right ..) hle⟩

theorem join {separator : Doc} {ds : List Doc} (hs : Balanced separator)
    (h : ∀ d ∈ ds, Balanced d) : Balanced (join separator ds) := by
  fun_induction Doc.join separator ds with
  | case1 => exact .nil
  | case2 d => exact h d (List.mem_singleton_self d)
  | case3 d ds hne ih =>
      rw [List.forall_mem_cons] at h
      exact (h.1.append hs).append (ih h.2)

theorem commaLines {ds : List Doc} (h : ∀ d ∈ ds, Balanced d) : Balanced (commaLines ds) :=
  .join (line.append (.text ",")) h

theorem commas {ds : List Doc} (h : ∀ d ∈ ds, Balanced d) : Balanced (commas ds) :=
  .join (.text ", ") h

end Balanced

end Doc

namespace Layout

open Doc (Balanced)

variable {d : Doc} {ds : List Doc}

theorem balanced_clause (word : String) : Balanced (clause word) := .text _

theorem balanced_body (h : d.Balanced) : (body d).Balanced := h.nest _

theorem balanced_terminator (terminated : Bool) : (terminator terminated).Balanced := by
  cases terminated
  · exact .nil
  · exact .text _

theorem balanced_aliasName (name : Option String) : (aliasName name).Balanced := by
  cases name with
  | none => exact .nil
  | some n => exact .append (.text _) (.text n)

theorem balanced_hints (found : List TableHint) : (hints found).Balanced := by
  rw [hints]
  split
  · exact .nil
  · exact .text _

theorem balanced_top {e : Option Expression} (h : ∀ x ∈ e.toList, x.layout.Balanced) :
    (top (OptionalExpression.layout e)).Balanced := by
  cases e with
  | none => exact .nil
  | some e => exact .append (.append (.text _) (h e (by simp))) .line

theorem balanced_sources (h : ∀ d ∈ ds, d.Balanced) : (sources ds).Balanced := by
  rw [sources]
  split
  · exact .nil
  · exact .append (.append .line (balanced_clause _)) (balanced_body (.join .line h))

theorem balanced_filter {p : Option Predicate} (h : ∀ x ∈ p.toList, x.layout.Balanced) :
    (filter (OptionalPredicate.layout p)).Balanced := by
  cases p with
  | none => exact .nil
  | some p => exact .append (.append .line (balanced_clause _)) (balanced_body (h p (by simp)))

theorem balanced_condition {p : Option Predicate} (h : ∀ x ∈ p.toList, x.layout.Balanced) :
    (condition (OptionalPredicate.layout p)).Balanced := by
  cases p with
  | none => exact .nil
  | some p => exact .nest 2 (.append (.append .line (.text _)) (.nest 2 (h p (by simp))))

theorem balanced_subquery (h : d.Balanced) : (subquery d).Balanced :=
  .append (.append (.append (.append (.text _) .line) (h.nest 2)) .line) (.text _)

theorem balanced_list (opening : String) (h : ∀ d ∈ ds, d.Balanced) :
    (list opening ds).Balanced :=
  .append (.append (.append (.append (.text _) .line) (.nest 2 (.commaLines h))) .line) (.text _)

theorem balanced_infixed {left right : Doc} (symbol : String) (hl : left.Balanced)
    (hr : right.Balanced) : (infixed left symbol right).Balanced :=
  .append (.append hl (.text _)) hr

theorem balanced_insertColumns (columns : List Reference) : (insertColumns columns).Balanced := by
  rw [insertColumns]
  split
  · exact .nil
  · refine balanced_body (balanced_list _ fun d hd => ?_)
    obtain ⟨r, -, rfl⟩ := List.mem_map.1 hd
    exact .text _

theorem balanced_insertHead {e : Option Expression} (target : Reference) (found : List TableHint)
    (h : ∀ x ∈ e.toList, x.layout.Balanced) : (insertHead e target found).Balanced :=
  .append (.append (.append (balanced_clause _) (balanced_top h)) (balanced_body (.text _)))
    (balanced_hints found)

theorem balanced_branch (isBlock : Bool) (h : d.Balanced) : (branch isBlock d).Balanced := by
  cases isBlock
  · exact h.nest 2
  · exact h

end Layout

open Doc (Balanced)

/-- The layout of every node lowers what it raises. -/
theorem Visit.balanced (v : Visit) : v.layout.Balanced := by
  induction v using byChildren with
  | step v ih =>
    cases v with
    | expression e =>
      cases e <;> simp only [children, Expression.children, List.forall_mem_cons,
        List.forall_mem_map, layout, Expression.layout, Expressions.layouts_eq] at ih ⊢
      all_goals grind [Balanced.append, Balanced.text, Balanced.commas, Reference.layout,
        Layout.balanced_subquery, Layout.balanced_infixed]
    | predicate p =>
      cases p <;> simp only [children, Predicate.children, List.forall_mem_cons,
        List.forall_mem_map, layout, Predicate.layout, Expressions.layouts_eq] at ih ⊢
      all_goals grind [Balanced.append, Balanced.text, Balanced.line, Balanced.nest,
        Layout.balanced_subquery, Layout.balanced_list, Layout.balanced_infixed]
    | column c =>
      cases c with
      | star t table =>
        cases table with
        | none => exact .text _
        | some table => exact .append (.append (.text _) (.text _)) (.text _)
      | _ =>
        simp only [children, Column.children, List.forall_mem_cons, layout, Column.layout] at ih ⊢
        grind [Balanced.append, Balanced.text, Reference.layout, Layout.balanced_aliasName]
    | row r =>
      simp only [children, List.forall_mem_map, layout, Row.layout, Expressions.layouts_eq] at ih ⊢
      grind [Balanced.append, Balanced.text, Balanced.commas]
    | reference name => exact .text _
    | empty s => exact .text _
    | conditional s =>
      obtain ⟨t, test, thenBranch, elseBranch⟩ := s
      simp only [children, List.forall_mem_append, List.forall_mem_cons, List.forall_mem_map,
        layout_visit_statement] at ih
      simp only [layout, If.layout] at ih ⊢
      cases elseBranch <;> simp only [Else.layout] <;>
        grind [Balanced.nil, Balanced.append, Balanced.text, Balanced.line, Layout.balanced_branch]
    | _ s =>
      cases s
      simp only [children, List.forall_mem_append, List.forall_mem_cons, List.forall_mem_map,
        layout_visit_source, layout_visit_statement] at ih
      simp only [layout, Select.layout, InsertValues.layout, InsertSelect.layout, Update.layout,
        Delete.layout, While.layout, Block.layout, TableSource.layout, SubquerySource.layout,
        Columns.layouts_eq, Sources.layouts_eq, Statements.layouts_eq] at ih ⊢
      grind [Balanced.append, Balanced.text, Balanced.line, Balanced.nest, Balanced.join,
        Balanced.commaLines, Reference.layout, Layout.balanced_clause, Layout.balanced_body,
        Layout.balanced_top, Layout.balanced_sources, Layout.balanced_filter,
        Layout.balanced_terminator, Layout.balanced_aliasName, Layout.balanced_hints,
        Layout.balanced_condition, Layout.balanced_insertHead, Layout.balanced_insertColumns]

end Transact
