import Transact.Proofs.Sound.Parse
import Transact.Proofs.Syntax.Node

namespace Transact

/-- A statement ends with itself, and with what its last branch or body ends with. -/
inductive Statement.EndsWith : Statement → Statement → Prop where
  | self (s : Statement) : EndsWith s s
  | elseBranch {origin : Token} {test : Predicate} {thenBranch branch last : Statement}
      (h : EndsWith branch last) :
      EndsWith (.conditional ⟨origin, test, thenBranch, some branch⟩) last
  | thenBranch {origin : Token} {test : Predicate} {branch last : Statement}
      (h : EndsWith branch last) : EndsWith (.conditional ⟨origin, test, branch, none⟩) last
  | body {origin : Token} {test : Predicate} {body last : Statement} (h : EndsWith body last) :
      EndsWith (.loop ⟨origin, test, body⟩) last

/-- No part that the statement ends with could take a semicolon and has none. -/
def Statement.IsClosed (s : Statement) : Prop :=
  ∀ last, s.EndsWith last → last.terminated? ≠ some false

/-- A lone semicolon stands first or follows a statement that takes no semicolon. -/
def Statements.Separated (ss : List Statement) : Prop :=
  ss.IsChain fun s next => ∀ e, next = .empty e → s.IsClosed

def Reference.IsNamed (r : Reference) : Prop := ∃ p ∈ r.parts, p ≠ ""

def OptionalExpression.IsEnclosed (top : Option Expression) : Prop :=
  ∀ e, top = some e → e.isParenthesized = true

/-- The left operand is no operation of a looser tier, and the right one none of the same or of a
looser tier. -/
def Expression.Nested (left : Expression) (operator : BinaryOperator) (right : Expression) : Prop :=
  (∀ t l op r, left = .binary t l op r → operator.tier ≤ op.tier) ∧
    ∀ t l op r, right = .binary t l op r → operator.tier < op.tier

def Predicate.Nested (left : Predicate) (operator : LogicalOperator) (right : Predicate) : Prop :=
  (∀ t l op r, left = .binary t l op r → operator.tier ≤ op.tier) ∧
    ∀ t l op r, right = .binary t l op r → operator.tier < op.tier

def Expression.Shaped : Expression → Prop
  | .unary _ _ operand => ∀ t l op r, operand ≠ .binary t l op r
  | .subquery _ select => select.terminated = false
  | .call _ function _ => function.IsNamed
  | .binary _ left operator right => left.Nested operator right
  | _ => True

def Predicate.Shaped : Predicate → Prop
  | .not _ inner => ∀ t l op r, inner ≠ .binary t l op r
  | .existence _ subquery | .inSubquery _ _ _ subquery | .quantified _ _ _ _ subquery =>
    subquery.terminated = false
  | .inList _ _ _ list => list ≠ []
  | .binary _ left operator right => left.Nested operator right
  | _ => True

def Visit.Shaped : Visit → Prop
  | .select s => OptionalExpression.IsEnclosed s.top ∧ s.columns ≠ [] ∧
    (∀ c ∈ s.columns, c.isAssignment = false) ∧ Sources.Joined s.sources
  | .insertValues s => OptionalExpression.IsEnclosed s.top ∧ s.rows ≠ []
  | .insertSelect s => OptionalExpression.IsEnclosed s.top ∧ s.select.terminated = false
  | .update s => s.assignments ≠ [] ∧ (∀ c ∈ s.assignments, c.isAssignment = true) ∧
    Sources.Joined s.sources
  | .delete s => OptionalExpression.IsEnclosed s.top ∧ Sources.Joined s.sources
  | .conditional s => s.elseBranch ≠ none →
    ∀ inner, s.thenBranch.EndsWith (.conditional inner) → inner.elseBranch ≠ none
  | .loop _ | .column _ => True
  | .block s => Statements.Separated s.body
  | .empty s => s.terminated = true
  | .expression e => e.Shaped
  | .predicate p => p.Shaped
  | .tableSource s => s.condition.isSome = s.join.needsCondition
  | .subquerySource s =>
    s.condition.isSome = s.join.needsCondition ∧ s.subquery.terminated = false
  | .row r => r.values ≠ []
  | .reference r => r.IsNamed

/-- What a statement does not go on with, what it ends with does not go on with either. -/
theorem Statement.EndsWith.admits {s last : Statement} {k : Kind} (h : s.EndsWith last)
    (hs : s.Admits k) : last.Admits k := by
  induction h with
  | self s => exact hs
  | elseBranch _ ih => exact ih hs
  | thenBranch _ ih => exact ih hs.2
  | body _ ih => exact ih hs

theorem Statement.EndsWith.formed {s last : Statement} (h : s.EndsWith last) (hs : s.Formed) :
    last.Formed := by
  induction h with
  | self s => exact hs
  | elseBranch _ ih => exact ih hs.2.2.1
  | thenBranch _ ih => exact ih hs.2.1
  | body _ ih => exact ih hs.2

/-- A well-formed statement that does not take a semicolon has none to take. -/
theorem Statement.isClosed_of_admits {s : Statement} (hs : s.Formed)
    (ha : s.Admits (.mark .semicolon)) : s.IsClosed := by
  intro last hl ht
  have hf := hl.formed hs
  have ha := hl.admits ha
  cases last with
  | conditional s => cases ht
  | loop s => cases ht
  | block s => cases ht
  | empty s => exact absurd (hf.symm.trans (Option.some.inj ht)) nofun
  | _ =>
      obtain ha | ha := ha
      · exact absurd (ha.symm.trans (Option.some.inj ht)) nofun
      · exact ha rfl

theorem Statements.separated_of_formed {ss : List Statement} (h : Statements.Formed ss) :
    Statements.Separated ss := by
  induction ss with
  | nil => exact .nil
  | cons s ss ih =>
      cases ss with
      | nil => exact .singleton s
      | cons next ss =>
          refine .cons_cons ?_ (ih h.2.2)
          rintro e rfl
          exact Statement.isClosed_of_admits h.1 h.2.1

/-- An `ELSE` never stands behind an `IF` that could have taken it. -/
theorem If.else_of_formed {s : If} (h : s.Formed) : (Visit.conditional s).Shaped := by
  obtain ⟨_, _, thenBranch, _⟩ := s
  intro he inner hl hn
  have ha := hl.admits (h.2.2.2 (Option.isSome_iff_ne_none.2 he))
  obtain ⟨_, _, _, _⟩ := inner
  cases hn
  exact ha.1 rfl

theorem Expression.ne_binary_of_tier {e : Expression} (h : e.tier = 3) :
    ∀ t l op r, e ≠ .binary t l op r := by
  rintro t l op r rfl
  cases op <;> cases h

theorem Predicate.ne_binary_of_tier {p : Predicate} (h : p.tier = 3) :
    ∀ t l op r, p ≠ .binary t l op r := by
  rintro t l op r rfl
  cases op <;> cases h

theorem Reference.NamesFunction.isNamed {r : Reference} (h : r.NamesFunction) : r.IsNamed := by
  obtain h | ⟨p, hp, hn, -⟩ := h
  · exact h.2
  · refine ⟨p, by simp [hp], ?_⟩
    rintro rfl
    cases hn

theorem Expression.Formed.shaped {e : Expression} (h : e.Formed) : e.Shaped := by
  cases e with
  | unary t operator operand => exact Expression.ne_binary_of_tier h.2
  | subquery t select => exact h.2
  | call t function arguments => exact h.1.isNamed
  | binary t left operator right =>
    constructor
    · rintro t l op r rfl
      exact h.1.2
    · rintro t l op r rfl
      exact h.2.2
  | _ => trivial

theorem Predicate.Formed.shaped {p : Predicate} (h : p.Formed) : p.Shaped := by
  cases p with
  | not t inner => exact Predicate.ne_binary_of_tier h.2
  | existence t subquery => exact h.2
  | inSubquery t left negated subquery => exact h.2.2
  | inList t left negated list => exact h.2.1
  | quantified t left operator quantifier subquery => exact h.2.2
  | binary t left operator right =>
    constructor
    · rintro t l op r rfl
      exact h.1.2
    · rintro t l op r rfl
      exact h.2.2
  | _ => trivial

/-- A well-formed node has the shape of its kind. -/
theorem Visit.Formed.shaped {v : Visit} (h : v.Formed) : v.Shaped := by
  cases v with
  | select s =>
    obtain ⟨_, _, _, _, _, _⟩ := s
    exact ⟨h.1.2, h.2.1.1, h.2.1.2.2, h.2.2.1.2⟩
  | insertValues s => exact ⟨h.top.2, h.rows_ne_nil⟩
  | insertSelect s => exact ⟨h.top.2, h.unterminated⟩
  | update s => exact ⟨h.assignments_ne_nil, h.areAssignments, h.joined⟩
  | delete s => exact ⟨h.top.2, h.joined⟩
  | conditional s => exact If.else_of_formed h
  | block s =>
    obtain ⟨_, _⟩ := s
    exact Statements.separated_of_formed h
  | empty s => exact h
  | expression e => exact Expression.Formed.shaped h
  | predicate p => exact Predicate.Formed.shaped h
  | tableSource s =>
    obtain ⟨_, _, _, _, _, _⟩ := s
    exact h.2.2.2
  | subquerySource s =>
    obtain ⟨_, _, _, _, _⟩ := s
    exact ⟨h.2.2.2, h.1.2⟩
  | row r => exact h.1
  | reference r => exact h.2
  | loop _ | column _ => trivial

/-- The shape of parsed statements: every node has the shape of its kind, and no lone semicolon
follows a statement that would have taken it. -/
theorem parse_shaped {source : String} {vs : List Statement} (h : parse source = .ok vs) :
    Statements.Separated vs ∧ ∀ v ∈ Statements.visits vs, v.Shaped := by
  obtain ⟨-, -, hf, -⟩ := parse_sound h
  exact ⟨Statements.separated_of_formed hf, fun v hv => (Statements.formed_visits hf v hv).shaped⟩

/-- An `ELSE` behind nested branches, and a lone semicolon behind the statement that ends them. -/
theorem parse_shaped_nested :
    ∃ vs, parse "if a in (1) if b = 1 begin end else select top (1) * from t cross join u;;" =
        .ok vs ∧ Statements.Separated vs ∧ ∀ v ∈ Statements.visits vs, v.Shaped := by
  obtain ⟨vs, hp⟩ := exists_parse_eq
    (s := "if a in (1) if b = 1 begin end else select top (1) * from t cross join u;;")
    (by decide +kernel)
  exact ⟨vs, hp, parse_shaped hp⟩

end Transact
