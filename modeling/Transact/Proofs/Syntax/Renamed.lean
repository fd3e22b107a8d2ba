import Transact.Proofs.Syntax.Clean
import Transact.Proofs.Syntax.Node
import Transact.Proofs.Traversal.Aligned

namespace Transact

/-- A renaming of tables and targets that gives well-formed names for well-formed ones. The name of
a target begins as before, so that it is kept off the `TOP` in front of it. -/
structure Renaming.KeepsForm (m : Renaming) : Prop where
  column : m.column = id
  function : m.function = id
  table {r : Reference} (h : r.Formed) : (m.table r).Formed
  inserted {r : Reference} (h : r.Formed) : (m.inserted r).Formed
  changed (sources : List Source) {r : Reference} (h : r.Formed) : (m.changed sources r).Formed
  head (sources : List Source) {r : Reference} (h : r.Formed) :
    Word.headKind (m.changed sources r).words = Word.headKind r.words

section

variable (m : Renaming)

theorem Expression.tier_rename (e : Expression) : (e.rename m).tier = e.tier := by
  cases e <;> rw [Expression.rename] <;> rfl

theorem Expression.isParenthesized_rename (e : Expression) :
    (e.rename m).isParenthesized = e.isParenthesized := by
  cases e <;> rw [Expression.rename] <;> rfl

theorem Predicate.tier_rename (p : Predicate) : (p.rename m).tier = p.tier := by
  cases p <;> rw [Predicate.rename] <;> rfl

theorem Column.isAssignment_rename (c : Column) : (c.rename m).isAssignment = c.isAssignment := by
  cases c <;> rw [Column.rename] <;> rfl

theorem Select.terminated_rename (s : Select) : (s.rename m).terminated = s.terminated := by
  cases s
  rw [Select.rename]

theorem Source.join_rename (s : Source) : (s.rename m).join = s.join := by
  cases s with
  | table s =>
      cases s
      rw [Source.rename, TableSource.rename]
      rfl
  | subquery s =>
      cases s
      rw [Source.rename, SubquerySource.rename]
      rfl

theorem Sources.joined_rename {ss : List Source} (h : Sources.Joined ss) :
    Sources.Joined (Sources.rename m ss) := by
  cases ss with
  | nil =>
      rw [Sources.rename]
      exact trivial
  | cons s ss =>
      rw [Sources.rename, Sources.rename_eq]
      refine ⟨(s.join_rename m).trans h.1, fun t ht => ?_⟩
      obtain ⟨u, hu, rfl⟩ := List.mem_map.1 ht
      rw [u.join_rename]
      exact h.2 u hu

theorem OptionalPredicate.isSome_rename (p : Option Predicate) :
    (OptionalPredicate.rename m p).isSome = p.isSome := by
  rw [OptionalPredicate.rename_eq, Option.isSome_map]

theorem OptionalExpression.isParenthesized_rename {top : Option Expression}
    (h : ∀ e, top = some e → e.isParenthesized = true) (e : Expression)
    (he : OptionalExpression.rename m top = some e) : e.isParenthesized = true := by
  rw [OptionalExpression.rename_eq] at he
  obtain ⟨e', he', rfl⟩ := Option.map_eq_some_iff.1 he
  rw [e'.isParenthesized_rename]
  exact h e' he'

theorem Columns.isAssignment_rename {cs : List Column} {b : Bool}
    (h : ∀ c ∈ cs, c.isAssignment = b) : ∀ c ∈ Columns.rename m cs, c.isAssignment = b := by
  intro c hc
  rw [Columns.rename_eq] at hc
  obtain ⟨c', hc', rfl⟩ := List.mem_map.1 hc
  rw [c'.isAssignment_rename]
  exact h c' hc'

theorem Columns.rename_ne_nil {cs : List Column} (h : cs ≠ []) : Columns.rename m cs ≠ [] := by
  rw [Columns.rename_eq]
  exact mt List.map_eq_nil_iff.1 h

theorem Expressions.rename_ne_nil {es : List Expression} (h : es ≠ []) :
    Expressions.rename m es ≠ [] := by
  rw [Expressions.rename_eq]
  exact mt List.map_eq_nil_iff.1 h

end

variable {m : Renaming}

theorem Expression.lastName?_rename (hm : m.KeepsForm) (e : Expression) :
    (e.rename m).lastName? = e.lastName? := by
  induction e using Expression.lastName?.induct with
  | case1 _ _ operand ih =>
      rw [Expression.rename, lastName?, lastName?, ih]
  | case2 _ _ _ right ih =>
      rw [Expression.rename, lastName?, lastName?, ih]
  | case3 name =>
      rw [Expression.rename, hm.column]
      rfl
  | case4 e hunary hbinary hreference =>
      cases e with
      | unary t operator operand => exact absurd rfl (hunary t operator operand)
      | binary t left operator right => exact absurd rfl (hbinary t left operator right)
      | reference name => exact absurd rfl (hreference name)
      | _ =>
          rw [Expression.rename]
          rfl

theorem Expression.admits_rename (hm : m.KeepsForm) {e : Expression} {k : Kind}
    (h : e.Admits k) : (e.rename m).Admits k := by
  rw [Admits, EndsBefore, e.lastName?_rename hm]
  exact h

theorem Expressions.formed_rename_iff {es : List Expression} :
    Expressions.Formed (Expressions.rename m es) ↔ ∀ e ∈ es, (e.rename m).Formed := by
  rw [Expressions.formed_iff, Expressions.rename_eq, List.forall_mem_map]

theorem OptionalExpression.formed_rename_iff {e : Option Expression} :
    OptionalExpression.Formed (OptionalExpression.rename m e) ↔
      ∀ x ∈ e.toList, (x.rename m).Formed := by
  rw [OptionalExpression.formed_iff, OptionalExpression.rename_eq, Option.toList_map,
    List.forall_mem_map]

theorem OptionalPredicate.formed_rename_iff {p : Option Predicate} :
    OptionalPredicate.Formed (OptionalPredicate.rename m p) ↔
      ∀ x ∈ p.toList, (x.rename m).Formed := by
  rw [OptionalPredicate.formed_iff, OptionalPredicate.rename_eq, Option.toList_map,
    List.forall_mem_map]

theorem Columns.formed_rename_iff {cs : List Column} :
    Columns.Formed (Columns.rename m cs) ↔ ∀ c ∈ cs, (c.rename m).Formed := by
  rw [Columns.formed_iff, Columns.rename_eq, List.forall_mem_map]

theorem Sources.formed_rename_iff {ss : List Source} :
    Sources.Formed (Sources.rename m ss) ↔ ∀ s ∈ ss, (s.rename m).Formed := by
  rw [Sources.formed_iff, Sources.rename_eq, List.forall_mem_map]

theorem Else.formed_rename_iff {s : Option Statement} :
    Else.Formed (OptionalStatement.rename m s) ↔ ∀ x ∈ s.toList, (x.rename m).Formed := by
  rw [Else.formed_iff, OptionalStatement.rename_eq, Option.toList_map, List.forall_mem_map]

mutual

theorem Statement.admits_rename {k : Kind} : (s : Statement) → s.Admits k → (s.rename m).Admits k
  | .select s, h => by
      rw [Statement.rename, Statement.Admits, s.terminated_rename]
      exact h
  | .insertValues _, h => by
      rw [Statement.rename]
      exact h
  | .insertSelect _, h => by
      rw [Statement.rename]
      exact h
  | .update _, h => by
      rw [Statement.rename]
      exact h
  | .delete _, h => by
      rw [Statement.rename]
      exact h
  | .conditional s, h => by
      rw [Statement.rename, Statement.Admits]
      exact s.admits_rename h
  | .loop s, h => by
      rw [Statement.rename, Statement.Admits]
      exact s.admits_rename h
  | .block _, h => by
      rw [Statement.rename]
      exact h
  | .empty _, h => by
      rw [Statement.rename]
      exact h

theorem If.admits_rename {k : Kind} : (s : If) → s.Admits k → (s.rename m).Admits k
  | ⟨_, _, _, some branch⟩, h => by
      rw [If.rename, OptionalStatement.rename, If.Admits]
      exact branch.admits_rename h
  | ⟨_, _, thenBranch, none⟩, h => by
      rw [If.rename, OptionalStatement.rename, If.Admits]
      exact ⟨h.1, thenBranch.admits_rename h.2⟩

theorem While.admits_rename {k : Kind} : (s : While) → s.Admits k → (s.rename m).Admits k
  | ⟨_, _, body⟩, h => by
      rw [While.rename, While.Admits]
      exact body.admits_rename h

end

theorem Statement.headKind_rename (s : Statement) :
    Word.headKind (s.rename m).words = Word.headKind s.words := by
  cases s with
  | select s =>
      cases s
      rw [Statement.rename, Select.rename]
      rfl
  | conditional s =>
      cases s
      rw [Statement.rename, If.rename]
      rfl
  | loop s =>
      cases s
      rw [Statement.rename, While.rename]
      rfl
  | block s =>
      cases s
      rw [Statement.rename, Block.rename]
      rfl
  | _ =>
      rw [Statement.rename]
      rfl

theorem Statements.headKind_rename (ss : List Statement) :
    Word.headKind (Statements.words (Statements.rename m ss)) =
      Word.headKind (Statements.words ss) := by
  cases ss with
  | nil => rw [Statements.rename]
  | cons s ss =>
      rw [Statements.rename, Statements.words, Statements.words,
        Word.headKind_append (s.rename m).words_ne_nil, Word.headKind_append s.words_ne_nil,
        s.headKind_rename]

theorem Statements.formed_rename_of_forall {ss : List Statement} (h : Statements.Formed ss)
    (hs : ∀ s ∈ ss, (s.rename m).Formed) : Statements.Formed (Statements.rename m ss) := by
  induction ss with
  | nil =>
      rw [Statements.rename]
      exact h
  | cons s ss ih =>
      rw [List.forall_mem_cons] at hs
      rw [Statements.rename, Statements.Formed, Statements.headKind_rename]
      exact ⟨hs.1, s.admits_rename h.2.1, ih h.2.2 hs.2⟩

theorem OptionalExpression.isTop_rename {top : Option Expression}
    (h : OptionalExpression.IsTop top) (htop : ∀ e ∈ top.toList, (e.rename m).Formed) :
    OptionalExpression.IsTop (OptionalExpression.rename m top) :=
  ⟨OptionalExpression.formed_rename_iff.2 htop, OptionalExpression.isParenthesized_rename m h.2⟩

namespace Visit

theorem formed_rename_select {s : Select} (h : s.Formed)
    (hs : ∀ u ∈ (select s).children, (u.rename m).Formed) : (s.rename m).Formed := by
  obtain ⟨_, _, _, _, _, _⟩ := s
  obtain ⟨htop, ⟨hne, -, hvalues⟩, ⟨-, hjoined⟩, -⟩ := h
  simp only [children, List.forall_mem_append, List.forall_mem_map, Source.visit_rename,
    formed_visit_source] at hs
  obtain ⟨⟨⟨hchildren, hcolumns⟩, hsources⟩, hfilter⟩ := hs
  rw [Select.rename]
  exact ⟨OptionalExpression.isTop_rename htop hchildren,
    ⟨Columns.rename_ne_nil m hne, Columns.formed_rename_iff.2 hcolumns,
      Columns.isAssignment_rename m hvalues⟩,
    ⟨Sources.formed_rename_iff.2 hsources, Sources.joined_rename m hjoined⟩,
    OptionalPredicate.formed_rename_iff.2 hfilter⟩

theorem formed_rename_insertValues (hm : m.KeepsForm) {s : InsertValues} (h : s.Formed)
    (hs : ∀ u ∈ (insertValues s).children, (u.rename m).Formed) : (s.rename m).Formed := by
  simp only [children, List.forall_mem_append, List.forall_mem_cons, List.forall_mem_map] at hs
  obtain ⟨htop, -, hcolumns, hrows⟩ := hs
  exact ⟨OptionalExpression.isTop_rename h.top htop, hm.inserted h.target,
    List.forall_mem_map.2 hcolumns, mt List.map_eq_nil_iff.1 h.rows_ne_nil,
    List.forall_mem_map.2 hrows⟩

theorem formed_rename_insertSelect (hm : m.KeepsForm) {s : InsertSelect} (h : s.Formed)
    (hs : ∀ u ∈ (insertSelect s).children, (u.rename m).Formed) : (s.rename m).Formed := by
  simp only [children, List.forall_mem_append, List.forall_mem_cons, List.forall_mem_map] at hs
  obtain ⟨htop, -, hcolumns, hselect, -⟩ := hs
  exact ⟨OptionalExpression.isTop_rename h.top htop, hm.inserted h.target,
    List.forall_mem_map.2 hcolumns, hselect,
    (s.select.terminated_rename m).trans h.unterminated⟩

theorem formed_rename_update (hm : m.KeepsForm) {s : Update} (h : s.Formed)
    (hs : ∀ u ∈ (update s).children, (u.rename m).Formed) : (s.rename m).Formed := by
  simp only [children, List.forall_mem_append, List.forall_mem_cons, List.forall_mem_map,
    Source.visit_rename, formed_visit_source] at hs
  obtain ⟨htop, -, ⟨hassignments, hsources⟩, hfilter⟩ := hs
  have hadmits (e : Expression) (he : OptionalExpression.rename m s.top = some e) :
      e.Admits (Word.headKind (m.changed s.sources s.target).words) := by
    rw [OptionalExpression.rename_eq] at he
    obtain ⟨e', he', rfl⟩ := Option.map_eq_some_iff.1 he
    rw [hm.head s.sources h.target]
    exact Expression.admits_rename hm (h.admits e' he')
  exact ⟨OptionalExpression.formed_rename_iff.2 htop, hadmits, hm.changed s.sources h.target,
    Columns.rename_ne_nil m h.assignments_ne_nil, Columns.formed_rename_iff.2 hassignments,
    Columns.isAssignment_rename m h.areAssignments, Sources.formed_rename_iff.2 hsources,
    Sources.joined_rename m h.joined, OptionalPredicate.formed_rename_iff.2 hfilter⟩

theorem formed_rename_delete (hm : m.KeepsForm) {s : Delete} (h : s.Formed)
    (hs : ∀ u ∈ (delete s).children, (u.rename m).Formed) : (s.rename m).Formed := by
  simp only [children, List.forall_mem_append, List.forall_mem_cons, List.forall_mem_map,
    Source.visit_rename, formed_visit_source] at hs
  obtain ⟨htop, -, hsources, hfilter⟩ := hs
  exact ⟨OptionalExpression.isTop_rename h.top htop, hm.changed s.sources h.target,
    Sources.formed_rename_iff.2 hsources, Sources.joined_rename m h.joined,
    OptionalPredicate.formed_rename_iff.2 hfilter⟩

theorem formed_rename_conditional {s : If} (h : s.Formed)
    (hs : ∀ u ∈ (conditional s).children, (u.rename m).Formed) : (s.rename m).Formed := by
  obtain ⟨_, _, thenBranch, _⟩ := s
  simp only [children, List.forall_mem_append, List.forall_mem_cons, List.forall_mem_map,
    Statement.visit_rename, formed_visit_statement] at hs
  obtain ⟨⟨htest, hthen, -⟩, helse⟩ := hs
  rw [If.rename]
  refine ⟨htest, hthen, Else.formed_rename_iff.2 helse, fun hsome => ?_⟩
  rw [OptionalStatement.rename_eq, Option.isSome_map] at hsome
  exact thenBranch.admits_rename (h.2.2.2 hsome)

theorem formed_rename_tableSource (hm : m.KeepsForm) {s : TableSource} (h : s.Formed)
    (hs : ∀ u ∈ (tableSource s).children, (u.rename m).Formed) : (s.rename m).Formed := by
  obtain ⟨_, _, _, _, _, _⟩ := s
  obtain ⟨hname, halias, -, hcondition⟩ := h
  simp only [children, List.forall_mem_cons, List.forall_mem_map] at hs
  rw [TableSource.rename]
  exact ⟨hm.table hname, halias, OptionalPredicate.formed_rename_iff.2 hs.2,
    (OptionalPredicate.isSome_rename m _).trans hcondition⟩

theorem formed_rename_subquerySource {s : SubquerySource} (h : s.Formed)
    (hs : ∀ u ∈ (subquerySource s).children, (u.rename m).Formed) : (s.rename m).Formed := by
  obtain ⟨_, subquery, _, _, _⟩ := s
  obtain ⟨⟨-, hterminated⟩, halias, -, hcondition⟩ := h
  simp only [children, List.forall_mem_cons, List.forall_mem_map] at hs
  rw [SubquerySource.rename]
  exact ⟨⟨hs.1, (subquery.terminated_rename m).trans hterminated⟩, halias,
    OptionalPredicate.formed_rename_iff.2 hs.2,
    (OptionalPredicate.isSome_rename m _).trans hcondition⟩

/-- A renamed node is well formed: what its own form asks for is kept, and what is below it is
well formed too. -/
theorem formed_rename (hm : m.KeepsForm) (v : Visit) (h : v.Formed) : (v.rename m).Formed := by
  induction v using byChildren with
  | step v ih =>
    replace ih : ∀ u ∈ v.children, (u.rename m).Formed := fun u hu => ih u hu (h.children u hu)
    cases v with
    | expression e =>
      cases e <;> simp_all [children, Expression.children, rename, Formed, Expression.rename,
        Expression.Formed, Expressions.formed_rename_iff, Expression.tier_rename,
        Select.terminated_rename, hm.column, hm.function]
    | predicate p =>
      cases p <;> simp_all [children, Predicate.children, rename, Formed, Predicate.rename,
        Predicate.Formed, Expressions.formed_rename_iff, Expressions.rename_ne_nil,
        Predicate.tier_rename, Select.terminated_rename]
    | column c =>
      cases c with
      | star t table => cases table <;> simp_all [rename, Formed, Column.rename, Column.Formed]
      | _ =>
        simp_all [children, Column.children, rename, Formed, Column.rename, Column.Formed,
          hm.column]
    | row r =>
      rw [children, List.forall_mem_map] at ih
      exact ⟨Expressions.rename_ne_nil m h.1, Expressions.formed_rename_iff.2 ih⟩
    | reference name =>
      rw [rename, hm.column]
      exact h
    | empty s => exact h
    | loop s =>
      cases s
      simp only [children, List.forall_mem_cons, Statement.visit_rename, formed_visit_statement]
        at ih
      rw [rename, While.rename]
      exact ⟨ih.1, ih.2.1⟩
    | block s =>
      cases s
      simp only [children, List.forall_mem_map, Statement.visit_rename, formed_visit_statement]
        at ih
      rw [rename, Block.rename]
      exact Statements.formed_rename_of_forall h ih
    | select s => exact formed_rename_select h ih
    | insertValues s => exact formed_rename_insertValues hm h ih
    | insertSelect s => exact formed_rename_insertSelect hm h ih
    | update s => exact formed_rename_update hm h ih
    | delete s => exact formed_rename_delete hm h ih
    | conditional s => exact formed_rename_conditional h ih
    | tableSource s => exact formed_rename_tableSource hm h ih
    | subquerySource s => exact formed_rename_subquerySource h ih

end Visit

theorem Statements.formed_rename (hm : m.KeepsForm) (ss : List Statement)
    (h : Statements.Formed ss) : Statements.Formed (Statements.rename m ss) :=
  Statements.formed_rename_of_forall h fun s hs =>
    Visit.formed_visit_statement.1 (s.visit_rename m ▸
      s.visit.formed_rename hm (Visit.formed_visit_statement.2 (Statements.forall_formed h s hs)))

/-- Whether a value is captured hangs on its columns, which keep their names. -/
theorem Expression.isCaptured_rename (hm : m.KeepsForm) (e : Expression) :
    (e.rename m).isCaptured = e.isCaptured := by
  have hstar (e : Expression) :
      (Grammar.starTable? (e.rename m)).isSome = (Grammar.starTable? e).isSome := by
    cases e with
    | reference name =>
        rw [Expression.rename, hm.column]
        rfl
    | _ =>
        rw [Expression.rename]
        rfl
  induction e using Expression.isCaptured.induct with
  | case1 _ left op _ ih => rw [Expression.rename, isCaptured, isCaptured, ih, hstar]
  | case2 e hbinary =>
      cases e with
      | binary t left op right => exact absurd rfl (hbinary t left op right)
      | _ =>
          rw [Expression.rename]
          rfl

/-- Columns with renamed tables inside are captured no sooner than before. -/
theorem Renaming.Aligned.clean {vs us : List Visit} (hm : m.KeepsForm) (h : m.Aligned vs us)
    (hc : Clean vs) : Clean us := by
  have hrename (v : Visit) (hv : v.isCaptured = false) : (v.rename m).isCaptured = false := by
    cases v with
    | column c =>
        cases c with
        | value t expression aliasName =>
            rw [Visit.rename, Column.rename]
            exact (expression.isCaptured_rename hm).trans hv
        | _ =>
            rw [Visit.rename, Column.rename]
            rfl
    | _ => rfl
  induction h with
  | nil => exact hc
  | node _ _ ih =>
      rw [clean_cons] at hc ⊢
      exact ⟨hrename _ hc.1, ih hc.2⟩
  | owner _ _ _ iht ih =>
      rw [clean_cons, clean_append, clean_cons] at hc ⊢
      exact ⟨hrename _ hc.1, iht hc.2.1, rfl, ih hc.2.2.2⟩

end Transact
