import Mathlib.Tactic.Simps.Basic
import Transact.Proofs.Traversal.Children

namespace Transact

/-- New names for the references of a tree, each by the part that it plays. -/
@[ext]
structure Renaming where
  /-- Names of columns, variables and other values, those of `SET` and `INSERT` lists as well. -/
  column : Reference → Reference
  /-- Tables of `FROM` lists. -/
  table : Reference → Reference
  /-- Targets of `INSERT`. -/
  inserted : Reference → Reference
  /-- Targets of `UPDATE` and `DELETE`, by the `FROM` list as it was. -/
  changed : List Source → Reference → Reference
  function : Reference → Reference := id
  /-- The tokens that nodes other than names began with. -/
  origin : Token → Token := id

def Renaming.identity : Renaming where
  column := id
  table := id
  inserted := id
  changed := fun _ => id

mutual

def Expression.rename (m : Renaming) : Expression → Expression
  | .unary t operator operand => .unary (m.origin t) operator (operand.rename m)
  | .grouped t inner => .grouped (m.origin t) (inner.rename m)
  | .null t => .null (m.origin t)
  | .constant t value => .constant (m.origin t) value
  | .subquery t select => .subquery (m.origin t) (select.rename m)
  | .reference name => .reference (m.column name)
  | .call t function arguments =>
    .call (m.origin t) (m.function function) (Expressions.rename m arguments)
  | .binary t left operator right => .binary (m.origin t) (left.rename m) operator (right.rename m)

def Expressions.rename (m : Renaming) : List Expression → List Expression
  | [] => []
  | e :: es => e.rename m :: Expressions.rename m es

def OptionalExpression.rename (m : Renaming) : Option Expression → Option Expression
  | some e => some (e.rename m)
  | none => none

def Predicate.rename (m : Renaming) : Predicate → Predicate
  | .not t inner => .not (m.origin t) (inner.rename m)
  | .existence t subquery => .existence (m.origin t) (subquery.rename m)
  | .inSubquery t left negated subquery =>
    .inSubquery (m.origin t) (left.rename m) negated (subquery.rename m)
  | .inList t left negated list =>
    .inList (m.origin t) (left.rename m) negated (Expressions.rename m list)
  | .between t left negated low high =>
    .between (m.origin t) (left.rename m) negated (low.rename m) (high.rename m)
  | .grouped t inner => .grouped (m.origin t) (inner.rename m)
  | .quantified t left operator quantifier subquery =>
    .quantified (m.origin t) (left.rename m) operator quantifier (subquery.rename m)
  | .nullCheck t left isNull => .nullCheck (m.origin t) (left.rename m) isNull
  | .comparison t left operator right =>
    .comparison (m.origin t) (left.rename m) operator (right.rename m)
  | .binary t left operator right => .binary (m.origin t) (left.rename m) operator (right.rename m)

def OptionalPredicate.rename (m : Renaming) : Option Predicate → Option Predicate
  | some p => some (p.rename m)
  | none => none

def Select.rename (m : Renaming) : Select → Select
  | ⟨t, top, columns, sources, filter, terminated⟩ =>
    ⟨m.origin t, OptionalExpression.rename m top, Columns.rename m columns,
      Sources.rename m sources, OptionalPredicate.rename m filter, terminated⟩

def Column.rename (m : Renaming) : Column → Column
  | .star t table => .star (m.origin t) table
  | .value t expression aliasName => .value (m.origin t) (expression.rename m) aliasName
  | .assignment t target expression =>
    .assignment (m.origin t) (m.column target) (expression.rename m)

def Columns.rename (m : Renaming) : List Column → List Column
  | [] => []
  | c :: cs => c.rename m :: Columns.rename m cs

def Source.rename (m : Renaming) : Source → Source
  | .table source => .table (source.rename m)
  | .subquery source => .subquery (source.rename m)

def Sources.rename (m : Renaming) : List Source → List Source
  | [] => []
  | s :: ss => s.rename m :: Sources.rename m ss

def TableSource.rename (m : Renaming) : TableSource → TableSource
  | ⟨t, name, aliasName, join, hints, condition⟩ =>
    ⟨m.origin t, m.table name, aliasName, join, hints, OptionalPredicate.rename m condition⟩

def SubquerySource.rename (m : Renaming) : SubquerySource → SubquerySource
  | ⟨t, subquery, aliasName, join, condition⟩ =>
    ⟨m.origin t, subquery.rename m, aliasName, join, OptionalPredicate.rename m condition⟩

end

def Row.rename (m : Renaming) (r : Row) : Row :=
  { origin := m.origin r.origin, values := Expressions.rename m r.values }

def InsertValues.rename (m : Renaming) (s : InsertValues) : InsertValues :=
  { s with
    origin := m.origin s.origin
    top := OptionalExpression.rename m s.top
    target := m.inserted s.target
    columns := s.columns.map m.column
    rows := s.rows.map (Row.rename m) }

def InsertSelect.rename (m : Renaming) (s : InsertSelect) : InsertSelect :=
  { s with
    origin := m.origin s.origin
    top := OptionalExpression.rename m s.top
    target := m.inserted s.target
    columns := s.columns.map m.column
    select := s.select.rename m }

def Update.rename (m : Renaming) (s : Update) : Update :=
  { s with
    origin := m.origin s.origin
    top := OptionalExpression.rename m s.top
    target := m.changed s.sources s.target
    assignments := Columns.rename m s.assignments
    sources := Sources.rename m s.sources
    filter := OptionalPredicate.rename m s.filter }

def Delete.rename (m : Renaming) (s : Delete) : Delete :=
  { s with
    origin := m.origin s.origin
    top := OptionalExpression.rename m s.top
    target := m.changed s.sources s.target
    sources := Sources.rename m s.sources
    filter := OptionalPredicate.rename m s.filter }

mutual

def Statement.rename (m : Renaming) : Statement → Statement
  | .select statement => .select (statement.rename m)
  | .insertValues statement => .insertValues (statement.rename m)
  | .insertSelect statement => .insertSelect (statement.rename m)
  | .update statement => .update (statement.rename m)
  | .delete statement => .delete (statement.rename m)
  | .conditional statement => .conditional (statement.rename m)
  | .loop statement => .loop (statement.rename m)
  | .block statement => .block (statement.rename m)
  | .empty statement => .empty { statement with origin := m.origin statement.origin }

def OptionalStatement.rename (m : Renaming) : Option Statement → Option Statement
  | some s => some (s.rename m)
  | none => none

def If.rename (m : Renaming) : If → If
  | ⟨t, test, thenBranch, elseBranch⟩ =>
    ⟨m.origin t, test.rename m, thenBranch.rename m, OptionalStatement.rename m elseBranch⟩

def While.rename (m : Renaming) : While → While
  | ⟨t, test, body⟩ => ⟨m.origin t, test.rename m, body.rename m⟩

def Block.rename (m : Renaming) : Block → Block
  | ⟨t, body⟩ => ⟨m.origin t, Statements.rename m body⟩

def Statements.rename (m : Renaming) : List Statement → List Statement
  | [] => []
  | s :: ss => s.rename m :: Statements.rename m ss

end

section

variable (m : Renaming)

theorem Expressions.rename_eq (es : List Expression) :
    Expressions.rename m es = es.map (Expression.rename m) := by
  induction es with
  | nil => rw [Expressions.rename, List.map_nil]
  | cons e es ih => rw [Expressions.rename, ih, List.map_cons]

theorem OptionalExpression.rename_eq (e : Option Expression) :
    OptionalExpression.rename m e = e.map (Expression.rename m) := by
  cases e <;> simp [OptionalExpression.rename]

theorem OptionalPredicate.rename_eq (p : Option Predicate) :
    OptionalPredicate.rename m p = p.map (Predicate.rename m) := by
  cases p <;> simp [OptionalPredicate.rename]

theorem OptionalStatement.rename_eq (s : Option Statement) :
    OptionalStatement.rename m s = s.map (Statement.rename m) := by
  cases s <;> simp [OptionalStatement.rename]

theorem Columns.rename_eq (cs : List Column) :
    Columns.rename m cs = cs.map (Column.rename m) := by
  induction cs with
  | nil => rw [Columns.rename, List.map_nil]
  | cons c cs ih => rw [Columns.rename, ih, List.map_cons]

theorem Sources.rename_eq (ss : List Source) :
    Sources.rename m ss = ss.map (Source.rename m) := by
  induction ss with
  | nil => rw [Sources.rename, List.map_nil]
  | cons s ss ih => rw [Sources.rename, ih, List.map_cons]

theorem Statements.rename_eq (ss : List Statement) :
    Statements.rename m ss = ss.map (Statement.rename m) := by
  induction ss with
  | nil => rw [Statements.rename, List.map_nil]
  | cons s ss ih => rw [Statements.rename, ih, List.map_cons]

end

def Visit.rename (m : Renaming) : Visit → Visit
  | select s => select (s.rename m)
  | insertValues s => insertValues (s.rename m)
  | insertSelect s => insertSelect (s.rename m)
  | update s => update (s.rename m)
  | delete s => delete (s.rename m)
  | conditional s => conditional (s.rename m)
  | loop s => loop (s.rename m)
  | block s => block (s.rename m)
  | empty s => empty { s with origin := m.origin s.origin }
  | expression e => expression (e.rename m)
  | predicate p => predicate (p.rename m)
  | column c => column (c.rename m)
  | tableSource s => tableSource (s.rename m)
  | subquerySource s => subquerySource (s.rename m)
  | row r => row (r.rename m)
  | reference name => reference (m.column name)

theorem Source.visit_rename (m : Renaming) (s : Source) :
    s.visit.rename m = (s.rename m).visit := by
  cases s <;> simp [visit, Visit.rename, rename]

theorem Statement.visit_rename (m : Renaming) (s : Statement) :
    s.visit.rename m = (s.rename m).visit := by
  cases s <;> simp [visit, Visit.rename, rename]

theorem Source.visit_inj {s s' : Source} : s.visit = s'.visit ↔ s = s' := by
  cases s <;> cases s' <;> simp [visit]

theorem Statement.visit_inj {s s' : Statement} : s.visit = s'.visit ↔ s = s' := by
  cases s <;> cases s' <;> simp [visit]

@[simps] def Renaming.andThen (m m' : Renaming) : Renaming where
  column r := m'.column (m.column r)
  table r := m'.table (m.table r)
  inserted r := m'.inserted (m.inserted r)
  changed sources target := m'.changed (Sources.rename m sources) (m.changed sources target)
  function r := m'.function (m.function r)
  origin t := m'.origin (m.origin t)

theorem Option.map_eq_map_iff_forall {α β : Type} {f g : α → β} {o : Option α} :
    o.map f = o.map g ↔ ∀ a, o = some a → f a = g a := by
  cases o <;> simp

variable {m m' : Renaming}

theorem Visit.rename_rename (v : Visit) : (v.rename m).rename m' = v.rename (m.andThen m') := by
  induction v using byChildren with
  | step v ih =>
    cases v with
    | expression e =>
      cases e <;> simp_all [children, Expression.children, rename, Expression.rename,
        Expressions.rename_eq]
    | predicate p =>
      cases p <;> simp_all [children, Predicate.children, rename, Predicate.rename,
        Expressions.rename_eq]
    | column c => cases c <;> simp_all [children, Column.children, rename, Column.rename]
    | row r => simp_all [children, rename, Row.rename, Expressions.rename_eq]
    | reference name => simp [rename]
    | empty s => simp [rename]
    | _ s =>
      cases s
      simp only [children, List.forall_mem_append, List.forall_mem_cons, List.forall_mem_map,
        Source.visit_rename, Statement.visit_rename, Source.visit_inj, Statement.visit_inj] at ih
      simp_all [rename, Select.rename, InsertValues.rename,
        InsertSelect.rename, Update.rename, Delete.rename, If.rename, While.rename, Block.rename,
        TableSource.rename, SubquerySource.rename, OptionalExpression.rename_eq, Columns.rename_eq,
        Sources.rename_eq, OptionalPredicate.rename_eq, OptionalStatement.rename_eq,
        Statements.rename_eq, Option.map_eq_map_iff_forall]

theorem List.map_eq_self {α : Type} {f : α → α} {l : List α} (h : ∀ a ∈ l, f a = a) :
    l.map f = l :=
  (List.map_congr_left h).trans (List.map_id l)

theorem Option.map_eq_self {α : Type} {f : α → α} {o : Option α} (h : ∀ a, o = some a → f a = a) :
    o.map f = o := by
  cases o <;> simp_all

theorem Visit.rename_identity (v : Visit) : v.rename .identity = v := by
  induction v using byChildren with
  | step v ih =>
    cases v with
    | expression e =>
      cases e <;> simp_all [children, Expression.children, rename, Expression.rename,
        Expressions.rename_eq, Renaming.identity, List.map_eq_self]
    | predicate p =>
      cases p <;> simp_all [children, Predicate.children, rename, Predicate.rename,
        Expressions.rename_eq, Renaming.identity, List.map_eq_self]
    | column c =>
      cases c <;> simp_all [children, Column.children, rename, Column.rename, Renaming.identity]
    | row r =>
      simp_all [children, rename, Row.rename, Expressions.rename_eq, Renaming.identity,
        List.map_eq_self]
    | reference name => simp [rename, Renaming.identity]
    | empty s => simp [rename, Renaming.identity]
    | _ s =>
      cases s
      simp only [children, List.forall_mem_append, List.forall_mem_cons, List.forall_mem_map,
        Source.visit_rename, Statement.visit_rename, Source.visit_inj, Statement.visit_inj] at ih
      simp_all [rename, Select.rename, InsertValues.rename,
        InsertSelect.rename, Update.rename, Delete.rename, If.rename, While.rename, Block.rename,
        TableSource.rename, SubquerySource.rename, OptionalExpression.rename_eq, Columns.rename_eq,
        Sources.rename_eq, OptionalPredicate.rename_eq, OptionalStatement.rename_eq,
        Statements.rename_eq, Renaming.identity, List.map_eq_self, Option.map_eq_self]

theorem Statement.rename_identity (s : Statement) : s.rename .identity = s :=
  visit_inj.1 (s.visit_rename _ ▸ s.visit.rename_identity)

theorem Statements.rename_identity (ss : List Statement) : Statements.rename .identity ss = ss := by
  rw [Statements.rename_eq, List.map_eq_self fun s _ => s.rename_identity]

theorem Statement.rename_rename (s : Statement) :
    (s.rename m).rename m' = s.rename (m.andThen m') := by
  rw [← visit_inj, ← visit_rename, ← visit_rename, ← visit_rename, Visit.rename_rename]

theorem Statements.rename_rename (ss : List Statement) :
    Statements.rename m' (Statements.rename m ss) = Statements.rename (m.andThen m') ss := by
  rw [Statements.rename_eq, Statements.rename_eq, List.map_map, Statements.rename_eq]
  exact List.map_congr_left fun s _ => s.rename_rename

end Transact
