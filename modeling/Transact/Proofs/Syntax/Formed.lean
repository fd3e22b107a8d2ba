import Transact.Proofs.Syntax.Words

namespace Transact

namespace Reference

def IsPart (part : String) : Prop :=
  part = "" ∨ (Lexeme.IsName part.toList ∧ Kind.ofWord part = .identifier)

def Formed (r : Reference) : Prop := (∀ p ∈ r.parts, IsPart p) ∧ ∃ p ∈ r.parts, p ≠ ""

def EndsBefore (r : Reference) (k : Kind) : Prop :=
  k ≠ .mark .dot ∧ (r.objectName = "" → k ≠ .identifier)

theorem endsBefore_of_ne (r : Reference) {k : Kind} (hdot : k ≠ .mark .dot)
    (hid : k ≠ .identifier) : r.EndsBefore k :=
  ⟨hdot, fun _ => hid⟩

end Reference

def Kind.isFunction : Kind → Bool
  | .keyword .COALESCE | .keyword .NULLIF | .keyword .LEFT | .keyword .RIGHT => true
  | _ => false

def Reference.NamesFunction (r : Reference) : Prop :=
  r.Formed ∨ ∃ p, r.parts = [p] ∧ Lexeme.IsName p.toList ∧ (Kind.ofWord p).isFunction = true

def IsAlias (allowString : Bool) (text : String) : Prop :=
  (Lexeme.IsName text.toList ∧ Kind.ofWord text = .identifier) ∨
    (allowString = true ∧ ∃ t, text = Text.Quoted.quote t)

namespace Expression

def tier : Expression → Nat
  | binary _ _ operator _ => operator.tier
  | _ => 3

def isParenthesized : Expression → Bool
  | grouped .. | subquery .. => true
  | _ => false

/-- The name that the words of the expression end with, if they do. -/
def lastName? : Expression → Option Reference
  | unary _ _ operand => operand.lastName?
  | binary _ _ _ right => right.lastName?
  | reference name => some name
  | _ => none

def EndsBefore (e : Expression) (k : Kind) : Prop :=
  ∀ r, e.lastName? = some r → r.EndsBefore k ∧ k ≠ .mark .leftParen

/-- Whether a token of the kind may follow without being read as a part of the expression. -/
def Admits (e : Expression) (k : Kind) : Prop :=
  BinaryOperator.ofKind? k = none ∧ e.EndsBefore k

end Expression

def Predicate.tier : Predicate → Nat
  | binary _ _ operator _ => operator.tier
  | _ => 3

def Column.isAssignment : Column → Bool
  | assignment .. => true
  | _ => false

def Sources.Joined : List Source → Prop
  | [] => True
  | s :: ss => s.join = .first ∧ ∀ t ∈ ss, t.join ≠ .first

mutual

def Expression.Formed : Expression → Prop
  | .unary _ _ operand => operand.Formed ∧ operand.tier = 3
  | .grouped _ inner => inner.Formed
  | .null _ => True
  | .constant _ value => value.IsLiteral
  | .subquery _ select => select.Formed ∧ select.terminated = false
  | .reference name => name.Formed
  | .call _ function arguments => function.NamesFunction ∧ Expressions.Formed arguments
  | .binary _ left operator right => (left.Formed ∧ operator.tier ≤ left.tier) ∧
    right.Formed ∧ operator.tier < right.tier

def Expressions.Formed : List Expression → Prop
  | [] => True
  | e :: es => e.Formed ∧ Expressions.Formed es

def OptionalExpression.Formed : Option Expression → Prop
  | some e => e.Formed
  | none => True

def Predicate.Formed : Predicate → Prop
  | .not _ inner => inner.Formed ∧ inner.tier = 3
  | .existence _ subquery => subquery.Formed ∧ subquery.terminated = false
  | .inSubquery _ left _ subquery => left.Formed ∧ subquery.Formed ∧ subquery.terminated = false
  | .inList _ left _ list => left.Formed ∧ list ≠ [] ∧ Expressions.Formed list
  | .between _ left _ low high => left.Formed ∧ low.Formed ∧ high.Formed
  | .grouped _ inner => inner.Formed
  | .quantified _ left _ _ subquery =>
    left.Formed ∧ subquery.Formed ∧ subquery.terminated = false
  | .nullCheck _ left _ => left.Formed
  | .comparison _ left _ right => left.Formed ∧ right.Formed
  | .binary _ left operator right => (left.Formed ∧ operator.tier ≤ left.tier) ∧
    right.Formed ∧ operator.tier < right.tier

def OptionalPredicate.Formed : Option Predicate → Prop
  | some p => p.Formed
  | none => True

def Select.Formed : Select → Prop
  | ⟨_, top, columns, sources, filter, _⟩ =>
    (OptionalExpression.Formed top ∧ ∀ e, top = some e → e.isParenthesized = true) ∧
      (columns ≠ [] ∧ Columns.Formed columns ∧ ∀ c ∈ columns, c.isAssignment = false) ∧
      (Sources.Formed sources ∧ Sources.Joined sources) ∧ OptionalPredicate.Formed filter

def Column.Formed : Column → Prop
  | .star _ none => True
  | .star _ (some table) =>
    ∃ parts, table = Reference.identifier ⟨.nowhere, parts⟩ ∧ Reference.Formed ⟨.nowhere, parts⟩
  | .value _ expression aliasName =>
    expression.Formed ∧ ∀ text, aliasName = some text → IsAlias true text
  | .assignment _ target expression => target.Formed ∧ expression.Formed

def Columns.Formed : List Column → Prop
  | [] => True
  | c :: cs => c.Formed ∧ Columns.Formed cs

def Source.Formed : Source → Prop
  | .table source => source.Formed
  | .subquery source => source.Formed

def Sources.Formed : List Source → Prop
  | [] => True
  | s :: ss => s.Formed ∧ Sources.Formed ss

def TableSource.Formed : TableSource → Prop
  | ⟨_, name, aliasName, join, _, condition⟩ =>
    name.Formed ∧ (∀ text, aliasName = some text → IsAlias false text) ∧
      OptionalPredicate.Formed condition ∧ condition.isSome = join.needsCondition

def SubquerySource.Formed : SubquerySource → Prop
  | ⟨_, subquery, aliasName, join, condition⟩ =>
    (subquery.Formed ∧ subquery.terminated = false) ∧
      (∀ text, aliasName = some text → IsAlias false text) ∧
      OptionalPredicate.Formed condition ∧ condition.isSome = join.needsCondition

end

def OptionalExpression.IsTop (top : Option Expression) : Prop :=
  OptionalExpression.Formed top ∧ ∀ e, top = some e → e.isParenthesized = true

def Row.Formed (r : Row) : Prop := r.values ≠ [] ∧ Expressions.Formed r.values

structure InsertValues.Formed (s : InsertValues) : Prop where
  top : OptionalExpression.IsTop s.top
  target : s.target.Formed
  columns : ∀ c ∈ s.columns, c.Formed
  rows_ne_nil : s.rows ≠ []
  rows : ∀ r ∈ s.rows, r.Formed

structure InsertSelect.Formed (s : InsertSelect) : Prop where
  top : OptionalExpression.IsTop s.top
  target : s.target.Formed
  columns : ∀ c ∈ s.columns, c.Formed
  select : s.select.Formed
  unterminated : s.select.terminated = false

def Word.headKind : List Word → Kind
  | [] => .eof
  | w :: _ => w.1

/-- The value behind `TOP` needs no parentheses here, but the target has to be kept off it. -/
structure Update.Formed (s : Update) : Prop where
  top : OptionalExpression.Formed s.top
  admits : ∀ e, s.top = some e → e.Admits (Word.headKind s.target.words)
  target : s.target.Formed
  assignments_ne_nil : s.assignments ≠ []
  assignments : Columns.Formed s.assignments
  areAssignments : ∀ c ∈ s.assignments, c.isAssignment = true
  sources : Sources.Formed s.sources
  joined : Sources.Joined s.sources
  filter : OptionalPredicate.Formed s.filter

structure Delete.Formed (s : Delete) : Prop where
  top : OptionalExpression.IsTop s.top
  target : s.target.Formed
  sources : Sources.Formed s.sources
  joined : Sources.Joined s.sources
  filter : OptionalPredicate.Formed s.filter

mutual

/-- Whether the statement does not take a token of the kind that follows it: a semicolon ends a
statement that has none, and an `ELSE` belongs to the nearest `IF`. -/
def Statement.Admits (k : Kind) : Statement → Prop
  | .select s => s.terminated = true ∨ k ≠ .mark .semicolon
  | .insertValues s => s.terminated = true ∨ k ≠ .mark .semicolon
  | .insertSelect s => s.terminated = true ∨ k ≠ .mark .semicolon
  | .update s => s.terminated = true ∨ k ≠ .mark .semicolon
  | .delete s => s.terminated = true ∨ k ≠ .mark .semicolon
  | .conditional s => s.Admits k
  | .loop s => s.Admits k
  | .block _ => True
  | .empty _ => True

def If.Admits (k : Kind) : If → Prop
  | ⟨_, _, _, some branch⟩ => branch.Admits k
  | ⟨_, _, thenBranch, none⟩ => k ≠ .keyword .ELSE ∧ thenBranch.Admits k

def While.Admits (k : Kind) : While → Prop
  | ⟨_, _, body⟩ => body.Admits k

end

mutual

def Statement.Formed : Statement → Prop
  | .select s => s.Formed
  | .insertValues s => s.Formed
  | .insertSelect s => s.Formed
  | .update s => s.Formed
  | .delete s => s.Formed
  | .conditional s => s.Formed
  | .loop s => s.Formed
  | .block s => s.Formed
  | .empty s => s.terminated = true

def If.Formed : If → Prop
  | ⟨_, test, thenBranch, elseBranch⟩ =>
    test.Formed ∧ thenBranch.Formed ∧ Else.Formed elseBranch ∧
      (elseBranch.isSome = true → thenBranch.Admits (.keyword .ELSE))

def Else.Formed : Option Statement → Prop
  | some branch => branch.Formed
  | none => True

def While.Formed : While → Prop
  | ⟨_, test, body⟩ => test.Formed ∧ body.Formed

def Block.Formed : Block → Prop
  | ⟨_, body⟩ => Statements.Formed body

/-- Each statement is well formed and admits the first word of the next one. -/
def Statements.Formed : List Statement → Prop
  | [] => True
  | s :: ss => s.Formed ∧ s.Admits (Word.headKind (Statements.words ss)) ∧ Statements.Formed ss

end

theorem Expressions.formed_iff (es : List Expression) :
    Expressions.Formed es ↔ ∀ e ∈ es, e.Formed := by
  induction es with
  | nil => simp [Expressions.Formed]
  | cons e es ih => simp [Expressions.Formed, ih]

theorem Columns.formed_iff (cs : List Column) : Columns.Formed cs ↔ ∀ c ∈ cs, c.Formed := by
  induction cs with
  | nil => simp [Columns.Formed]
  | cons c cs ih => simp [Columns.Formed, ih]

theorem Sources.formed_iff (ss : List Source) : Sources.Formed ss ↔ ∀ s ∈ ss, s.Formed := by
  induction ss with
  | nil => simp [Sources.Formed]
  | cons s ss ih => simp [Sources.Formed, ih]

mutual

theorem Statement.admits_of_ne {k : Kind} (hs : k ≠ .mark .semicolon) (he : k ≠ .keyword .ELSE) :
    (s : Statement) → s.Admits k
  | .select _ => .inr hs
  | .insertValues _ => .inr hs
  | .insertSelect _ => .inr hs
  | .update _ => .inr hs
  | .delete _ => .inr hs
  | .conditional s => s.admits_of_ne hs he
  | .loop s => s.admits_of_ne hs he
  | .block _ => trivial
  | .empty _ => trivial

theorem If.admits_of_ne {k : Kind} (hs : k ≠ .mark .semicolon) (he : k ≠ .keyword .ELSE) :
    (s : If) → s.Admits k
  | ⟨_, _, _, some branch⟩ => branch.admits_of_ne hs he
  | ⟨_, _, thenBranch, none⟩ => ⟨he, thenBranch.admits_of_ne hs he⟩

theorem While.admits_of_ne {k : Kind} (hs : k ≠ .mark .semicolon) (he : k ≠ .keyword .ELSE) :
    (s : While) → s.Admits k
  | ⟨_, _, body⟩ => body.admits_of_ne hs he

end

theorem Statement.words_ne_nil (s : Statement) : s.words ≠ [] := by
  cases s with
  | select s => cases s; exact List.cons_ne_nil _ _
  | conditional s => cases s; exact List.cons_ne_nil _ _
  | loop s => cases s; exact List.cons_ne_nil _ _
  | block s => cases s; exact List.cons_ne_nil _ _
  | _ => exact List.cons_ne_nil _ _

theorem Statement.admits_eof (s : Statement) : s.Admits .eof :=
  s.admits_of_ne (k := .eof) nofun nofun

theorem Word.headKind_append {ws : List Word} (h : ws ≠ []) (vs : List Word) :
    headKind (ws ++ vs) = headKind ws := by
  obtain ⟨w, ws, rfl⟩ := List.exists_cons_of_ne_nil h
  rfl

theorem Statements.formed_concat {ss : List Statement} {v : Statement}
    (h : Statements.Formed ss) (hv : v.Formed)
    (hl : ∀ last, ss.getLast? = some last → last.Admits (Word.headKind v.words)) :
    Statements.Formed (ss ++ [v]) := by
  induction ss with
  | nil => exact ⟨hv, v.admits_eof, trivial⟩
  | cons s ss ih =>
      have hrest := ih h.2.2
      cases ss with
      | nil =>
          refine ⟨h.1, ?_, hrest nofun⟩
          change s.Admits (Word.headKind (v.words ++ []))
          rw [List.append_nil]
          exact hl s rfl
      | cons next ss =>
          refine ⟨h.1, ?_, hrest fun last hlast => hl last (by simpa using hlast)⟩
          have ha := h.2.1
          rw [Statements.words, Word.headKind_append next.words_ne_nil] at ha
          change s.Admits (Word.headKind (next.words ++ Statements.words (ss ++ [v])))
          rwa [Word.headKind_append next.words_ne_nil]

end Transact
