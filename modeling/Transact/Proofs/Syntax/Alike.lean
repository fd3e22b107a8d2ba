import Transact.Layout.Statement
import Transact.Proofs.Syntax.Bare
import Transact.Proofs.Syntax.Node
import Transact.Proofs.Token.Constant
import Transact.Syntax.Same

namespace Transact

theorem Expression.isUnary_rename (m : Renaming) (e : Expression) :
    (e.rename m).isUnary = e.isUnary := by
  cases e <;> rw [Expression.rename] <;> rfl

theorem Statement.isBlock_rename (m : Renaming) (s : Statement) :
    (s.rename m).isBlock = s.isBlock := by
  cases s <;> rw [Statement.rename] <;> rfl

theorem Reference.layout_bare (r : Reference) : r.bare.layout = r.layout := rfl

namespace Visit

/-- The layout says nothing of the origins of nodes. -/
theorem layout_bare (v : Visit) : (v.rename .bare).layout = v.layout := by
  induction v using byChildren with
  | step v ih =>
    cases v with
    | expression e =>
      cases e with
      | call t function arguments =>
        simp only [children, Expression.children, List.forall_mem_map, rename, layout,
          ← List.map_inj_left] at ih
        simp [rename, layout, Expression.rename, Expression.layout, Expressions.rename_eq,
          Expressions.layouts_eq, Reference.layout_bare, Function.comp_def, ih]
      | _ =>
        simp_all [children, Expression.children, rename, layout, Expression.rename,
          Expression.layout, UnaryOperator.text, Expression.isUnary_rename, Reference.layout_bare]
    | predicate p =>
      cases p with
      | inList t left negated list =>
        simp only [children, Predicate.children, List.forall_mem_cons, List.forall_mem_map, rename,
          layout, ← List.map_inj_left] at ih
        simp [rename, layout, Predicate.rename, Predicate.layout, Expressions.rename_eq,
          Expressions.layouts_eq, Function.comp_def, ih]
      | _ =>
        simp_all [children, Predicate.children, rename, layout, Predicate.rename, Predicate.layout]
    | column c =>
      cases c with
      | star t table => cases table <;> simp [rename, layout, Column.rename, Column.layout]
      | _ =>
        simp_all [children, Column.children, rename, layout, Column.rename, Column.layout,
          Reference.layout_bare]
    | row r =>
      simp only [children, List.forall_mem_map, rename, layout, ← List.map_inj_left] at ih
      simp [rename, layout, Row.rename, Row.layout, Expressions.rename_eq, Expressions.layouts_eq,
        Function.comp_def, ih]
    | reference name => rfl
    | empty s => rfl
    | conditional s =>
      obtain ⟨t, test, thenBranch, elseBranch⟩ := s
      simp only [children, List.forall_mem_append, List.forall_mem_cons, List.forall_mem_map,
        Statement.visit_rename, layout_visit_statement] at ih
      cases elseBranch <;> simp_all [rename, layout, If.rename, If.layout, Else.layout,
        OptionalStatement.rename, Statement.isBlock_rename]
    | _ s =>
      cases s
      simp only [children, List.forall_mem_append, List.forall_mem_cons, List.forall_mem_map,
        Source.visit_rename, Statement.visit_rename, layout_visit_source, layout_visit_statement]
        at ih
      simp only [rename, layout, Option.mem_toList, ← Option.map_eq_map_iff_forall,
        ← List.map_inj_left] at ih
      simp [rename, layout, Select.rename, Select.layout, InsertValues.rename, InsertValues.layout,
        InsertSelect.rename, InsertSelect.layout, Update.rename, Update.layout, Delete.rename,
        Delete.layout, While.rename, While.layout, Block.rename, Block.layout, TableSource.rename,
        TableSource.layout, SubquerySource.rename, SubquerySource.layout, Layout.insertHead,
        Layout.insertColumns, OptionalExpression.rename_eq, OptionalExpression.layout_eq,
        Columns.rename_eq, Columns.layouts_eq, Sources.rename_eq, Sources.layouts_eq,
        OptionalPredicate.rename_eq, OptionalPredicate.layout_eq, Statements.rename_eq,
        Statements.layouts_eq, Reference.layout_bare, Function.comp_def, ih]

end Visit

theorem Statement.layout_bare (s : Statement) : (s.rename .bare).layout = s.layout := by
  rw [← Visit.layout_visit_statement, ← s.visit_rename, Visit.layout_bare,
    Visit.layout_visit_statement]

theorem format_bare (ss : List Statement) : format (Statements.rename .bare ss) = format ss := by
  have hpage (p : Page) : p.appendAll (Statements.rename .bare ss) = p.appendAll ss := by
    rw [Statements.rename_eq, Page.appendAll, List.foldl_map, Page.appendAll]
    congr 1
    funext q s
    rw [Page.append, s.layout_bare, Page.append]
  rw [format, hpage, format]

theorem Constant.same_self {c : Constant} (h : c.IsLiteral) : c.same c = true := by
  cases c with
  | numeric number => exact number.sameValue_refl
  | real number =>
      obtain ⟨m, rfl⟩ := h
      simp [same, Binary64.sameValue]
  | _ => simp [same]

theorem Reference.same_of_bare {a b : Reference} (h : a.bare = b.bare) : a.same b = true := by
  simpa [bare, same] using h

/-- Lists that are compared entry by entry are the same if they have the same image under a function
that tells no entries apart but those that are the same. -/
theorem List.same_of_map_eq {α β : Type} {sameList : List α → List α → Bool} {same : α → α → Bool}
    (hnil : sameList [] [] = true)
    (hcons : ∀ a as b bs, sameList (a :: as) (b :: bs) = (same a b && sameList as bs))
    {f : α → β} {as bs : List α} (hs : ∀ b ∈ bs, ∀ a, f a = f b → same a b = true)
    (h : as.map f = bs.map f) : sameList as bs = true := by
  induction bs generalizing as with
  | nil => rw [List.map_eq_nil_iff.1 h, hnil]
  | cons b bs ih =>
      cases as with
      | nil => cases h
      | cons a as =>
          rw [List.map_cons, List.map_cons, List.cons.injEq] at h
          rw [List.forall_mem_cons] at hs
          rw [hcons, hs.1 a h.1, ih hs.2 h.2, Bool.and_self]

theorem References.same_of_bare {as bs : List Reference}
    (h : as.map Reference.bare = bs.map Reference.bare) : References.same as bs = true :=
  List.same_of_map_eq rfl (fun _ _ _ _ => rfl) (fun _ _ _ => Reference.same_of_bare) h

namespace Visit

def same : Visit → Visit → Bool
  | select a, select b => a.same b
  | insertValues a, insertValues b => a.same b
  | insertSelect a, insertSelect b => a.same b
  | update a, update b => a.same b
  | delete a, delete b => a.same b
  | conditional a, conditional b => a.same b
  | loop a, loop b => a.same b
  | block a, block b => a.same b
  | empty a, empty b => (Statement.empty a).same (.empty b)
  | expression a, expression b => a.same b
  | predicate a, predicate b => a.same b
  | column a, column b => a.same b
  | tableSource a, tableSource b => a.same b
  | subquerySource a, subquerySource b => a.same b
  | row a, row b => a.same b
  | reference a, reference b => a.same b
  | _, _ => false

theorem same_visit_source (a b : Source) : a.visit.same b.visit = a.same b := by
  cases a <;> cases b <;> simp [Source.visit, same, Source.same]

theorem same_visit_statement (a b : Statement) : a.visit.same b.visit = a.same b := by
  cases a <;> cases b <;> simp [Statement.visit, same, Statement.same]

/-- A node that is the same as all nodes that differ from it in nothing but origins. -/
def Determined (v : Visit) : Prop := ∀ u : Visit, u.rename .bare = v.rename .bare → u.same v = true

namespace Determined

theorem expression {e a : Expression} (h : (Visit.expression e).Determined)
    (ha : a.rename .bare = e.rename .bare) : a.same e = true :=
  h (.expression a) (congrArg Visit.expression ha)

theorem predicate {p a : Predicate} (h : (Visit.predicate p).Determined)
    (ha : a.rename .bare = p.rename .bare) : a.same p = true :=
  h (.predicate a) (congrArg Visit.predicate ha)

theorem select {s a : Select} (h : (Visit.select s).Determined)
    (ha : a.rename .bare = s.rename .bare) : a.same s = true :=
  h (.select a) (congrArg Visit.select ha)

theorem column {c a : Column} (h : (Visit.column c).Determined)
    (ha : a.rename .bare = c.rename .bare) : a.same c = true :=
  h (.column a) (congrArg Visit.column ha)

theorem row {r a : Row} (h : (Visit.row r).Determined)
    (ha : a.rename .bare = r.rename .bare) : a.same r = true :=
  h (.row a) (congrArg Visit.row ha)

theorem source {s a : Source} (h : s.visit.Determined)
    (ha : a.rename .bare = s.rename .bare) : a.same s = true := by
  rw [← same_visit_source]
  exact h a.visit (by rw [a.visit_rename, s.visit_rename, ha])

theorem statement {s a : Statement} (h : s.visit.Determined)
    (ha : a.rename .bare = s.rename .bare) : a.same s = true := by
  rw [← same_visit_statement]
  exact h a.visit (by rw [a.visit_rename, s.visit_rename, ha])

end Determined

end Visit

theorem Expressions.same_of_bare {as bs : List Expression}
    (hs : ∀ b ∈ bs, (Visit.expression b).Determined)
    (h : as.map (Expression.rename .bare) = bs.map (Expression.rename .bare)) :
    Expressions.same as bs = true :=
  List.same_of_map_eq (by rw [same]) (fun _ _ _ _ => by rw [same])
    (fun b hb _ ha => (hs b hb).expression ha) h

theorem OptionalExpression.same_of_bare {a b : Option Expression}
    (hs : ∀ x, b = some x → (Visit.expression x).Determined)
    (h : a.map (Expression.rename .bare) = b.map (Expression.rename .bare)) :
    OptionalExpression.same a b = true := by
  cases a <;> cases b <;> simp_all [same, Visit.Determined.expression]

theorem OptionalPredicate.same_of_bare {a b : Option Predicate}
    (hs : ∀ x, b = some x → (Visit.predicate x).Determined)
    (h : a.map (Predicate.rename .bare) = b.map (Predicate.rename .bare)) :
    OptionalPredicate.same a b = true := by
  cases a <;> cases b <;> simp_all [same, Visit.Determined.predicate]

theorem OptionalStatement.same_of_bare {a b : Option Statement}
    (hs : ∀ x, b = some x → x.visit.Determined)
    (h : a.map (Statement.rename .bare) = b.map (Statement.rename .bare)) :
    OptionalStatement.same a b = true := by
  cases a <;> cases b <;> simp_all [same, Visit.Determined.statement]

theorem Columns.same_of_bare {as bs : List Column} (hs : ∀ b ∈ bs, (Visit.column b).Determined)
    (h : as.map (Column.rename .bare) = bs.map (Column.rename .bare)) :
    Columns.same as bs = true :=
  List.same_of_map_eq (by rw [same]) (fun _ _ _ _ => by rw [same])
    (fun b hb _ ha => (hs b hb).column ha) h

theorem Sources.same_of_bare {as bs : List Source} (hs : ∀ b ∈ bs, b.visit.Determined)
    (h : as.map (Source.rename .bare) = bs.map (Source.rename .bare)) :
    Sources.same as bs = true :=
  List.same_of_map_eq (by rw [same]) (fun _ _ _ _ => by rw [same])
    (fun b hb _ ha => (hs b hb).source ha) h

theorem Rows.same_of_bare {as bs : List Row} (hs : ∀ b ∈ bs, (Visit.row b).Determined)
    (h : as.map (Row.rename .bare) = bs.map (Row.rename .bare)) : Rows.same as bs = true :=
  List.same_of_map_eq rfl (fun _ _ _ _ => rfl) (fun b hb _ ha => (hs b hb).row ha) h

theorem Statements.same_of_determined {as bs : List Statement} (hs : ∀ b ∈ bs, b.visit.Determined)
    (h : as.map (Statement.rename .bare) = bs.map (Statement.rename .bare)) :
    Statements.same as bs = true :=
  List.same_of_map_eq (by rw [same]) (fun _ _ _ _ => by rw [same])
    (fun b hb _ ha => (hs b hb).statement ha) h

/-- A well-formed node is the same as any that differs from it in nothing but origins. -/
theorem Visit.determined (v : Visit) (hv : v.Formed) : v.Determined := by
  induction v using byChildren with
  | step v ih =>
    replace ih : ∀ c ∈ v.children, c.Determined := fun c hc => ih c hc (hv.children c hc)
    intro u h
    cases v <;> cases u <;>
      simp only [rename, reduceCtorEq, select.injEq, insertValues.injEq, insertSelect.injEq,
        update.injEq, delete.injEq, conditional.injEq, loop.injEq, block.injEq, empty.injEq,
        expression.injEq, predicate.injEq, column.injEq, tableSource.injEq, subquerySource.injEq,
        row.injEq, reference.injEq] at h
    case expression.expression e a =>
      cases e <;> cases a <;> simp_all [Visit.children, Expression.children, Expression.rename,
        same, Expression.same, Formed, Expression.Formed, Expressions.rename_eq,
        Reference.same_of_bare, Constant.same_self, Determined.expression, Determined.select,
        Expressions.same_of_bare]
    case predicate.predicate p a =>
      cases p <;> cases a <;> simp_all [Visit.children, Predicate.children, Predicate.rename,
        same, Predicate.same, Expressions.rename_eq, Determined.expression, Determined.predicate,
        Determined.select, Expressions.same_of_bare]
    case column.column c a =>
      cases c <;> cases a <;> simp_all [Visit.children, Column.children, Column.rename, same,
        Column.same, Reference.same_of_bare, Determined.expression]
    case row.row r a =>
      simp_all [Visit.children, Row.rename, same, Row.same, Expressions.rename_eq,
        Expressions.same_of_bare]
    case reference.reference => exact Reference.same_of_bare h
    case empty.empty => simp_all [same, Statement.same]
    all_goals
      rename_i s a
      cases s
      cases a
      simp only [Visit.children, List.forall_mem_append, List.forall_mem_cons,
        List.forall_mem_map] at ih
      simp_all [same, Select.rename, Select.same, InsertValues.rename,
        InsertValues.same, InsertSelect.rename, InsertSelect.same, Update.rename, Update.same,
        Delete.rename, Delete.same, If.rename, If.same, While.rename, While.same, Block.rename,
        Block.same, TableSource.rename, TableSource.same, SubquerySource.rename,
        SubquerySource.same, Columns.rename_eq, Sources.rename_eq, OptionalExpression.rename_eq,
        OptionalPredicate.rename_eq, OptionalStatement.rename_eq, Statements.rename_eq,
        Reference.same_of_bare, References.same_of_bare, OptionalExpression.same_of_bare,
        OptionalPredicate.same_of_bare, OptionalStatement.same_of_bare, Columns.same_of_bare,
        Sources.same_of_bare, Rows.same_of_bare, Statements.same_of_determined,
        Determined.select, Determined.predicate, Determined.statement]

theorem Statements.same_of_bare (as bs : List Statement) (hb : Statements.Formed bs)
    (h : Statements.rename .bare as = Statements.rename .bare bs) :
    Statements.same as bs = true := by
  rw [Statements.rename_eq, Statements.rename_eq] at h
  exact Statements.same_of_determined (fun s hs => s.visit.determined
    (Visit.formed_visit_statement.2 (Statements.forall_formed hb s hs))) h

end Transact
