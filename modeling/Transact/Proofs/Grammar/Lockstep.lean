import Transact.Proofs.Grammar.Fixpoint
import Transact.Proofs.Grammar.Likeness
import Transact.Proofs.Grammar.Session

namespace Transact.Grammar

open Rule Pairing

variable {n : Nat} {L : Likeness} {x y : Token}

section Names

theorem Parts.add_eq (p : Parts) (h : L.token x y)
    (hk : x.kind = .mark .dot ∨ x.kind.isPlainWord = false) : p.add x = p.add y := by
  have hkind := L.kind_eq h
  by_cases hd : x.kind = .mark .dot
  · simp only [Parts.add, ← hkind, hd, if_true]
  · simp only [Parts.add, ← hkind, hd, if_false, L.text_eq h (hk.resolve_left hd)]

theorem referenceFrom_lockstep (h : L.token x y) (parts : Parts) :
    L.Lockstep L.reference (referenceFrom (n := n) x parts) (referenceFrom y parts) := by
  apply Lockstep.bind (V := Eq)
  · apply Lockstep.loop _ rfl
    rintro parts _ k rfl
    simp only [Parts.step]
    split
    · rename_i hk
      apply Option.Rel.some
      intro x y hxy hx
      apply Lockstep.pure
      apply parts.add_eq hxy
      rcases hk with hk | ⟨hk, _⟩ <;> simp [hx, hk, Kind.isPlainWord]
    · exact .none
  · rintro parts _ rfl
    exact .ite (.pure (L.reference_mk h _)) (.expected _)

theorem reference_lockstep : L.Lockstep L.reference (reference (n := n)) reference :=
  Lockstep.current.bind fun _ _ h => referenceFrom_lockstep h _

theorem aliasName_lockstep (allowString : Bool) :
    L.Lockstep Eq (aliasName (n := n) allowString) (aliasName allowString) := by
  apply (Lockstep.eat _).bind
  rintro explicit _ rfl
  apply Lockstep.onKind
  intro s t hst
  split
  · rename_i hk
    apply (Agree.advance hst).bind
    rintro x y ⟨hxy, hx⟩
    exact .pure (by rw [L.text_eq hxy (by simp [hx, hk, Kind.isPlainWord])])
  · rename_i hk
    split
    · apply (Agree.advance hst).bind
      rintro x y ⟨hxy, hx⟩
      exact .pure (by rw [L.text_eq hxy (by simp [hx, hk, Kind.isPlainWord])])
    · exact Lockstep.ite (.expected _) (.pure rfl) s t hst
  · exact Lockstep.ite (.expected _) (.pure rfl) s t hst

theorem hint_lockstep : L.Lockstep Eq (hint (n := n)) hint := by
  apply Lockstep.current.bind
  intro x y h
  have hkind := L.kind_eq h
  have hword : (if decide (x.kind = .identifier ∨ x.kind = .keyword .HOLDLOCK) = true then
      TableHint.ofWord? x.text else none) =
      if decide (y.kind = .identifier ∨ y.kind = .keyword .HOLDLOCK) = true then
        TableHint.ofWord? y.text else none := by
    rw [← hkind]
    split
    · rename_i hk
      rcases of_decide_eq_true hk with hk | hk
      · rw [L.text_eq h (by simp [hk, Kind.isPlainWord])]
      · exact L.hint_eq h hk
    · rfl
  dsimp only
  rw [hword]
  split
  · exact Lockstep.advance.bind fun _ _ _ => .pure rfl
  · exact .unexpected

theorem hints_lockstep (bare : Bool) : L.Lockstep Eq (hints (n := n) bare) (hints bare) := by
  apply (Lockstep.eat _).bind
  rintro introduced _ rfl
  apply Lockstep.kind
  intro k
  apply Lockstep.ite _ (.pure rfl)
  apply (Lockstep.expect _).bind
  intro _ _ _
  apply hint_lockstep.commaSeparated.bind
  intro found found' hfound
  apply (Lockstep.expect _).bind
  intro _ _ _
  exact .pure (by rwa [List.forall₂_eq_eq_eq] at hfound)

end Names

structure Rules.Lockstep (L : Likeness) (R : Rules n) : Prop where
  primary : L.Lockstep L.expression R.primary R.primary
  expression : L.Lockstep L.expression R.expression R.expression
  predicatePrimary : L.Lockstep L.predicate R.predicatePrimary R.predicatePrimary
  predicate : L.Lockstep L.predicate R.predicate R.predicate
  parenthesized : L.Lockstep L.operand R.parenthesized R.parenthesized
  select : L.Lockstep L.select R.select R.select
  statement : L.Lockstep L.statement R.statement R.statement

section Expressions

variable {e : Rule n Expression} {a b : Expression}

theorem constant_lockstep : L.Lockstep L.expression (constant (n := n)) constant := by
  apply Lockstep.advance.bind
  intro x y h
  have hvalue := L.literal h
  revert hvalue
  cases Constant.ofToken? x <;> cases Constant.ofToken? y <;> intro hvalue <;> cases hvalue
  · exact .fail (.unexpected h)
  · exact .pure ‹_›

theorem arguments_lockstep (h : L.Lockstep L.expression e e) :
    L.Lockstep (List.Forall₂ L.expression) (arguments e) (arguments e) := by
  have close (as bs) (has : List.Forall₂ L.expression as bs) :
      L.Lockstep (List.Forall₂ L.expression)
        (do let _ ← expect (n := n) (.mark .rightParen); return as)
        (do let _ ← expect (.mark .rightParen); return bs) :=
    (Lockstep.expect _).bind fun _ _ _ => .pure has
  apply (Lockstep.expect _).bind
  intro _ _ _
  apply Lockstep.kind
  intro k
  exact .ite ((Lockstep.pure .nil).bind close) (h.commaSeparated.bind close)

theorem climbExpression_lockstep (h : L.Lockstep L.expression e e) (ha : L.expression a b) :
    L.Lockstep L.expression (climbExpression e a) (climbExpression e b) :=
  .climb h (fun operator hx ha hb => L.operation hx ha operator hb) 1 ha

theorem expression_lockstep (h : L.Lockstep L.expression e e) :
    L.Lockstep L.expression (expression e) (expression e) :=
  h.bind fun _ _ ha => climbExpression_lockstep h ha

end Expressions

variable {R : Rules n}

section

variable (h : R.Lockstep L)
include h

theorem call_lockstep {f g : Reference} (hf : L.reference f g) :
    L.Lockstep L.expression (call R f) (call R g) :=
  (arguments_lockstep h.expression).bind fun _ _ has => .pure (L.call hf has)

theorem named_lockstep (hx : L.token x y)
    (hk : x.kind = .mark .dot ∨ x.kind.isPlainWord = false) :
    L.Lockstep L.expression (named R x) (named R y) := by
  rw [named, named, Parts.add_eq _ hx hk]
  apply (referenceFrom_lockstep hx _).bind
  intro r u hr
  exact .kind fun k => .ite (call_lockstep h hr) (.pure (L.name hr))

theorem builtIn_lockstep (hx : L.token x y) (hk : x.kind.isPlainWord = false) :
    L.Lockstep L.expression (builtIn R x) (builtIn R y) := by
  rw [builtIn, builtIn, L.text_eq hx hk]
  exact .kind fun k => .ite (call_lockstep h (L.reference_mk hx _)) (.expected _)

theorem group_lockstep (hx : L.token x y) :
    L.Lockstep L.expression (group R x) (group R y) := by
  apply Lockstep.kind
  intro k
  apply Lockstep.ite
  · apply h.select.bind
    intro s t hs
    exact (Lockstep.expect _).bind fun _ _ _ => .pure (L.subqueryValue hx hs)
  · apply h.expression.bind
    intro a b ha
    exact (Lockstep.expect _).bind fun _ _ _ => .pure (L.groupedValue hx ha)

theorem primary_lockstep : L.Lockstep L.expression (primary R) (primary R) := by
  apply Lockstep.onKind
  intro s t hst
  have hword {w : Keyword} (hw : (Kind.keyword w).isPlainWord = false)
      (hk : s.current.kind = .keyword w) :
      L.Agree L.expression (Rule.take (builtIn R)) (Rule.take (builtIn R)) s t := by
    apply Agree.take hst
    intro x y hxy hx
    exact builtIn_lockstep h hxy (by rw [hx, hk, hw])
  split
  · rename_i operator _
    apply Agree.take hst
    intro x y hxy _
    exact h.primary.bind fun _ _ ha => .pure (L.unary hxy operator ha)
  · split
    · exact constant_lockstep s t hst
    · exact Lockstep.advance.bind (fun _ _ hx => .pure (L.null hx)) s t hst
    · rename_i hk
      apply Agree.take hst
      intro x y hxy hx
      exact named_lockstep h hxy (.inr (by simp [hx, hk, Kind.isPlainWord]))
    · rename_i hk
      apply Agree.take hst
      intro x y hxy hx
      exact named_lockstep h hxy (.inl (hx.trans hk))
    · exact hword rfl ‹_›
    · exact hword rfl ‹_›
    · exact hword rfl ‹_›
    · exact hword rfl ‹_›
    · exact Lockstep.take (fun _ _ hx => group_lockstep h hx) s t hst
    · exact Lockstep.unexpected s t hst

theorem top_lockstep (parenthesized : Bool) :
    L.Lockstep (Option.Rel L.expression) (top R parenthesized) (top R parenthesized) := by
  apply (Lockstep.eat _).bind
  rintro found _ rfl
  apply Lockstep.ite _ (.pure .none)
  apply Lockstep.ite
  · exact .kind fun k => .ite (h.primary.bind fun _ _ ha => .pure (.some ha)) (.expected _)
  · exact h.expression.bind fun _ _ ha => .pure (.some ha)

theorem filter_lockstep : L.Lockstep (Option.Rel L.predicate) (filter R) (filter R) := by
  apply (Lockstep.eat _).bind
  rintro found _ rfl
  exact .ite (h.predicate.bind fun _ _ hp => .pure (.some hp)) (.pure .none)

theorem aliased_lockstep {a b : Expression} (hx : L.token x y) (ha : L.expression a b) :
    L.Lockstep L.column (aliased R x a) (aliased R y b) := by
  apply (climbExpression_lockstep h.primary ha).bind
  intro a b ha
  apply (aliasName_lockstep true).bind
  rintro name _ rfl
  exact .pure (L.value hx ha name)

theorem column_lockstep : L.Lockstep L.column (column R) (column R) := by
  apply Lockstep.current.bind
  intro x y hx
  apply (Lockstep.eat _).bind
  rintro found _ rfl
  apply Lockstep.ite (.pure (L.star hx none))
  apply h.primary.bind
  intro a b ha
  apply Lockstep.kind
  intro k
  rw [L.starTable_eq ha, L.leadingAlias_eq ha]
  split
  · exact Lockstep.advance.bind fun _ _ _ => .pure (L.star hx _)
  · apply Lockstep.advance.bind
    intro _ _ _
    exact h.expression.bind fun _ _ hc => .pure (L.value hx hc _)
  · exact aliased_lockstep h hx ha

theorem condition_lockstep (join : Join) :
    L.Lockstep (Option.Rel L.predicate) (condition R join) (condition R join) := by
  apply Lockstep.ite _ (.pure .none)
  apply (Lockstep.expect _).bind
  intro _ _ _
  exact h.predicate.bind fun _ _ hp => .pure (.some hp)

theorem source_lockstep (join : Join) : L.Lockstep L.source (source R join) (source R join) := by
  apply Lockstep.current.bind
  intro x y hx
  apply (Lockstep.eat _).bind
  rintro opened _ rfl
  apply Lockstep.ite
  · apply h.select.bind
    intro s t hs
    apply (Lockstep.expect _).bind
    intro _ _ _
    apply (aliasName_lockstep false).bind
    rintro name _ rfl
    exact (condition_lockstep h join).bind fun _ _ hp => .pure (L.derived hx hs name join hp)
  · apply reference_lockstep.bind
    intro r u hr
    apply (aliasName_lockstep false).bind
    rintro name _ rfl
    apply (hints_lockstep true).bind
    rintro found _ rfl
    exact (condition_lockstep h join).bind fun _ _ hp => .pure (L.table hx hr name join found hp)

end

theorem eatApply_lockstep : L.Lockstep Eq (eatApply (n := n)) eatApply := by
  apply Lockstep.current.bind
  intro x y hx
  by_cases hk : x.kind = .identifier
  · rw [← L.kind_eq hx, L.text_eq hx (by simp [hk, Kind.isPlainWord])]
    exact .ite (Lockstep.advance.bind fun _ _ _ => .pure rfl) (.pure rfl)
  · rw [if_neg (fun hk' => hk hk'.1), if_neg fun hk' => hk ((L.kind_eq hx).trans hk'.1)]
    exact .pure rfl

theorem outerJoin_lockstep (join : Join) :
    L.Lockstep Eq (outerJoin (n := n) join) (outerJoin join) :=
  (Lockstep.eat _).bind fun _ _ _ => (Lockstep.expect _).bind fun _ _ _ => .pure rfl

theorem crossed_lockstep : L.Lockstep Eq (crossed (n := n)) crossed := by
  apply (Lockstep.eat _).bind
  rintro joined _ rfl
  apply Lockstep.ite (.pure rfl)
  apply eatApply_lockstep.bind
  rintro applied _ rfl
  exact .ite (.pure rfl) (.expected _)

theorem outerApply_lockstep : L.Lockstep Eq (outerApply (n := n)) outerApply := by
  apply eatApply_lockstep.bind
  rintro applied _ rfl
  exact .ite (.pure rfl) (.expected _)

theorem joinFrom_lockstep {k : Kind} {joined : Rule n Join} (h : joinFrom? k = some joined) :
    L.Lockstep Eq joined joined := by
  simp only [joinFrom?] at h
  split at h <;> cases h
  · exact .pure rfl
  · exact (Lockstep.expect _).bind fun _ _ _ => .pure rfl
  · exact outerJoin_lockstep _
  · exact outerJoin_lockstep _
  · exact outerJoin_lockstep _
  · exact crossed_lockstep
  · exact outerApply_lockstep

section

variable (h : R.Lockstep L)
include h

theorem sources_lockstep : L.Lockstep (List.Forall₂ L.source) (sources R) (sources R) := by
  apply (Lockstep.eat _).bind
  rintro found _ rfl
  apply Lockstep.ite _ (.pure .nil)
  apply (source_lockstep h .first).bind
  intro s t hs
  apply Lockstep.loop _ (.cons hs .nil)
  intro ss ts k hss
  cases hk : joinFrom? (n := n) k with
  | none => exact .none
  | some joined =>
      apply Option.Rel.some
      intro _ _ _ _
      apply (joinFrom_lockstep hk).bind
      rintro join _ rfl
      exact (source_lockstep h join).bind fun _ _ hs => .pure (List.rel_append hss (.cons hs .nil))

theorem selectFrom_lockstep (hx : L.token x y) :
    L.Lockstep L.select (selectFrom R x) (selectFrom R y) := by
  apply (top_lockstep h true).bind
  intro a b ha
  apply (column_lockstep h).commaSeparated.bind
  intro cs ds hcs
  apply (sources_lockstep h).bind
  intro ss ts hss
  exact (filter_lockstep h).bind fun _ _ hp => .pure (L.select_mk hx ha hcs hss hp)

theorem select_lockstep : L.Lockstep L.select (select R) (select R) :=
  .begin _ fun _ _ hx => selectFrom_lockstep h hx

end

section Comparisons

variable {e : Rule n Expression} {q : Rule n Select} {a b : Expression}
variable (he : L.Lockstep L.expression e e) (hq : L.Lockstep L.select q q) (ha : L.expression a b)

include hq in
theorem subquery_lockstep : L.Lockstep L.select (subquery q) (subquery q) := by
  apply (Lockstep.expect _).bind
  intro _ _ _
  apply hq.bind
  intro s t hs
  exact (Lockstep.expect _).bind fun _ _ _ => .pure hs

include ha in
theorem nullCheck_lockstep : L.Lockstep L.predicate (nullCheck (n := n) a) (nullCheck b) := by
  apply (Lockstep.expect _).bind
  intro x y hx
  apply (Lockstep.eat _).bind
  rintro negated _ rfl
  exact (Lockstep.expect _).bind fun _ _ _ => .pure (L.nullCheck hx ha _)

include he ha

theorem between_lockstep (negated : Bool) :
    L.Lockstep L.predicate (between e a negated) (between e b negated) := by
  apply (Lockstep.expect _).bind
  intro x y hx
  apply he.bind
  intro c d hc
  apply (Lockstep.expect _).bind
  intro _ _ _
  exact he.bind fun _ _ hf => .pure (L.between hx ha negated hc hf)

include hq

theorem membership_lockstep (negated : Bool) :
    L.Lockstep L.predicate (membership e q a negated) (membership e q b negated) := by
  apply (Lockstep.expect _).bind
  intro x y hx
  apply (Lockstep.expect _).bind
  intro _ _ _
  apply Lockstep.kind
  intro k
  apply Lockstep.ite
  · apply hq.bind
    intro s t hs
    exact (Lockstep.expect _).bind fun _ _ _ => .pure (L.inSubquery hx ha negated hs)
  · apply he.commaSeparated.bind
    intro as bs has
    exact (Lockstep.expect _).bind fun _ _ _ => .pure (L.inList hx ha negated has)

theorem negated_lockstep : L.Lockstep L.predicate (negated e q a) (negated e q b) := by
  apply (Lockstep.expect _).bind
  intro x y hx
  apply Lockstep.kind
  intro k
  split
  · exact between_lockstep he ha true
  · exact membership_lockstep he hq ha true
  · apply Lockstep.advance.bind
    intro like like' hlike
    exact he.bind fun _ _ hc => .pure (L.not hx (L.comparison hlike ha .like hc))
  · exact .expected _

theorem compared_lockstep (operator : ComparisonOperator) :
    L.Lockstep L.predicate (compared e q a operator) (compared e q b operator) := by
  apply Lockstep.advance.bind
  intro x y hx
  apply Lockstep.kind
  intro k
  split
  · rename_i quantifier _
    apply Lockstep.advance.bind
    intro _ _ _
    exact (subquery_lockstep hq).bind fun _ _ hs =>
      .pure (L.quantified hx ha operator quantifier hs)
  · exact he.bind fun _ _ hc => .pure (L.comparison hx ha operator hc)

theorem comparison_lockstep : L.Lockstep L.predicate (comparison e q a) (comparison e q b) := by
  apply Lockstep.kind
  intro k
  split
  · exact nullCheck_lockstep ha
  · exact negated_lockstep he hq ha
  · exact between_lockstep he ha false
  · exact membership_lockstep he hq ha false
  · split
    · exact compared_lockstep he hq ha _
    · exact .unexpected

end Comparisons

theorem climbPredicate_lockstep {p : Rule n Predicate} (h : L.Lockstep L.predicate p p)
    {a b : Predicate} (ha : L.predicate a b) :
    L.Lockstep L.predicate (climbPredicate p a) (climbPredicate p b) :=
  .climb h (fun operator hx ha hb => L.junction hx ha operator hb) 1 ha

theorem predicate_lockstep {p : Rule n Predicate} (h : L.Lockstep L.predicate p p) :
    L.Lockstep L.predicate (predicate p) (predicate p) :=
  h.bind fun _ _ ha => climbPredicate_lockstep h ha

section

variable (h : R.Lockstep L)
include h

theorem operandRest_lockstep {a b : Operand} (ha : L.operand a b) :
    L.Lockstep L.operand (operandRest R a) (operandRest R b) := by
  cases ha with
  | predicate ha =>
      exact (climbPredicate_lockstep h.predicatePrimary ha).bind fun _ _ hp => .pure (.predicate hp)
  | value ha =>
      apply (climbExpression_lockstep h.primary ha).bind
      intro a b ha
      apply Lockstep.kind
      intro k
      apply Lockstep.ite _ (.pure (.value ha))
      apply (comparison_lockstep h.expression h.select ha).bind
      intro p q hp
      exact (climbPredicate_lockstep h.predicatePrimary hp).bind fun _ _ hp => .pure (.predicate hp)

omit h in
theorem Operand.grouped_alike {a b : Operand} (hx : L.token x y) (ha : L.operand a b) :
    L.operand (a.grouped x) (b.grouped y) := by
  cases ha with
  | value h => exact .value (L.groupedValue hx h)
  | predicate h => exact .predicate (L.groupedPredicate hx h)

theorem parenthesizedFrom_lockstep (hx : L.token x y) :
    L.Lockstep L.operand (parenthesizedFrom R x) (parenthesizedFrom R y) := by
  apply Lockstep.kind
  intro k
  have close {a b} (ha : L.operand a b) : L.Lockstep L.operand
      (do let _ ← expect (n := n) (.mark .rightParen); return a.grouped x)
      (do let _ ← expect (.mark .rightParen); return b.grouped y) :=
    (Lockstep.expect _).bind fun _ _ _ => .pure (Operand.grouped_alike hx ha)
  have rest {a b} (ha : L.operand a b) : L.Lockstep L.operand
      (do
        let inner ← operandRest R a
        let _ ← expect (.mark .rightParen)
        return inner.grouped x)
      (do
        let inner ← operandRest R b
        let _ ← expect (.mark .rightParen)
        return inner.grouped y) :=
    (operandRest_lockstep h ha).bind fun _ _ ha => close ha
  split
  · apply h.select.bind
    intro s t hs
    exact (Lockstep.expect _).bind fun _ _ _ => .pure (.value (L.subqueryValue hx hs))
  · exact h.predicate.bind fun _ _ hp => close (.predicate hp)
  · exact h.predicate.bind fun _ _ hp => close (.predicate hp)
  · apply Lockstep.ite
    · exact h.parenthesized.bind fun _ _ ha => rest ha
    · exact (h.primary.map fun _ _ ha => .value ha).bind fun _ _ ha => rest ha

theorem parenthesized_lockstep : L.Lockstep L.operand (parenthesized R) (parenthesized R) :=
  .begin _ fun _ _ hx => parenthesizedFrom_lockstep h hx

theorem operandFirst_lockstep : L.Lockstep L.predicate (operandFirst R) (operandFirst R) := by
  have hprimary := primary_lockstep h
  have value {a b} (ha : L.expression a b) : L.Lockstep L.predicate
      (do comparison (expression (primary R)) (select R) (← climbExpression (primary R) a))
      (do comparison (expression (primary R)) (select R) (← climbExpression (primary R) b)) := by
    apply (climbExpression_lockstep hprimary ha).bind
    intro c d hc
    exact comparison_lockstep (expression_lockstep hprimary) (select_lockstep h) hc
  apply Lockstep.kind
  intro k
  refine .ite ((parenthesized_lockstep h).bind ?_)
    ((hprimary.map (W := L.operand) fun _ _ ha => .value ha).bind ?_)
  all_goals
    intro a b ha
    cases ha with
    | predicate hp => exact .pure hp
    | value ha => exact value ha

theorem predicatePrimary_lockstep :
    L.Lockstep L.predicate (predicatePrimary R) (predicatePrimary R) := by
  apply Lockstep.kind
  intro k
  split
  · exact .take fun _ _ hx => h.predicatePrimary.bind fun _ _ hp => .pure (L.not hx hp)
  · exact .take fun _ _ hx => (subquery_lockstep h.select).bind fun _ _ hs =>
      .pure (L.existence hx hs)
  · exact operandFirst_lockstep h

omit h in
theorem insertColumns_lockstep :
    L.Lockstep (List.Forall₂ L.reference) (insertColumns (n := n)) insertColumns := by
  apply (Lockstep.eat _).bind
  rintro opened _ rfl
  apply Lockstep.ite _ (.pure .nil)
  apply reference_lockstep.commaSeparated.bind
  intro cs ds hcs
  exact (Lockstep.expect _).bind fun _ _ _ => .pure hcs

theorem row_lockstep : L.Lockstep L.row (row R) (row R) := by
  apply (Lockstep.expect _).bind
  intro x y hx
  apply h.expression.commaSeparated.bind
  intro as bs has
  exact (Lockstep.expect _).bind fun _ _ _ => .pure (L.row_mk hx has)

theorem insert_lockstep (hx : L.token x y) :
    L.Lockstep L.statement (insert R x) (insert R y) := by
  apply (top_lockstep h true).bind
  intro a b ha
  apply (Lockstep.eat _).bind
  intro _ _ _
  apply reference_lockstep.bind
  intro r u hr
  apply (hints_lockstep false).bind
  rintro hints _ rfl
  apply insertColumns_lockstep.bind
  intro cs ds hcs
  apply Lockstep.kind
  intro k
  split
  · apply Lockstep.advance.bind
    intro _ _ _
    exact (row_lockstep h).commaSeparated.bind fun _ _ hrs =>
      .pure (L.insertValues hx ha hr hints hcs hrs)
  · exact h.select.bind fun _ _ hs => .pure (L.insertSelect hx ha hr hints hcs hs)
  · exact .expected _

theorem assignment_lockstep : L.Lockstep L.column (assignment R) (assignment R) := by
  apply Lockstep.current.bind
  intro x y hx
  apply reference_lockstep.bind
  intro r u hr
  apply (Lockstep.expect _).bind
  intro _ _ _
  exact h.expression.bind fun _ _ ha => .pure (L.assignment hx hr ha)

theorem update_lockstep (hx : L.token x y) :
    L.Lockstep L.statement (update R x) (update R y) := by
  apply (top_lockstep h false).bind
  intro a b ha
  apply reference_lockstep.bind
  intro r u hr
  apply (Lockstep.expect _).bind
  intro _ _ _
  apply (assignment_lockstep h).commaSeparated.bind
  intro cs ds hcs
  apply (sources_lockstep h).bind
  intro ss ts hss
  exact (filter_lockstep h).bind fun _ _ hp => .pure (L.update hx ha hr hcs hss hp)

theorem delete_lockstep (hx : L.token x y) :
    L.Lockstep L.statement (delete R x) (delete R y) := by
  apply (top_lockstep h true).bind
  intro a b ha
  apply (Lockstep.eat _).bind
  intro _ _ _
  apply reference_lockstep.bind
  intro r u hr
  apply (sources_lockstep h).bind
  intro ss ts hss
  exact (filter_lockstep h).bind fun _ _ hp => .pure (L.delete hx ha hr hss hp)

theorem conditional_lockstep (hx : L.token x y) :
    L.Lockstep L.statement (conditional R x) (conditional R y) := by
  apply h.predicate.bind
  intro p q hp
  apply h.statement.bind
  intro s t hs
  apply (Lockstep.eat _).bind
  rintro found _ rfl
  apply Lockstep.ite
  · exact h.statement.bind fun _ _ ho => .pure (L.conditional hx hp hs (.some ho))
  · exact .pure (L.conditional hx hp hs .none)

theorem repeated_lockstep (hx : L.token x y) :
    L.Lockstep L.statement (repeated R x) (repeated R y) := by
  apply h.predicate.bind
  intro p q hp
  exact h.statement.bind fun _ _ hs => .pure (L.loop hx hp hs)

omit h in
theorem terminated_lockstep {p q : Rule n Statement} (hpq : L.Lockstep L.statement p q) :
    L.Lockstep L.statement (terminated p) (terminated q) := by
  apply hpq.bind
  intro s t hs
  apply (Lockstep.eat _).bind
  rintro found _ rfl
  exact .pure (L.withTerminator hs found)

theorem block_lockstep (hx : L.token x y) :
    L.Lockstep L.statement (block R x) (block R y) := by
  apply (Lockstep.many h.statement .nil).bind
  intro ss ts hss
  exact (Lockstep.expect _).bind fun _ _ _ => .pure (L.block hx hss)

theorem statement_lockstep : L.Lockstep L.statement (statement R) (statement R) := by
  intro s t hst hs ht
  simp only [statement, ← L.kind_eq hst.current]
  split
  · exact Lockstep.take (fun _ _ hx => terminated_lockstep
      ((selectFrom_lockstep h hx).map fun _ _ hs => L.selection hs)) s t hst hs ht
  · exact Lockstep.take (fun _ _ hx => terminated_lockstep (insert_lockstep h hx)) s t hst hs ht
  · exact Lockstep.take (fun _ _ hx => terminated_lockstep (update_lockstep h hx)) s t hst hs ht
  · exact Lockstep.take (fun _ _ hx => terminated_lockstep (delete_lockstep h hx)) s t hst hs ht
  · exact Lockstep.take (fun _ _ hx => conditional_lockstep h hx) s t hst hs ht
  · exact Lockstep.take (fun _ _ hx => repeated_lockstep h hx) s t hst hs ht
  · exact Lockstep.take (fun _ _ hx => block_lockstep h hx) s t hst hs ht
  · exact Lockstep.take (fun _ _ hx => .pure (L.empty hx)) s t hst hs ht
  · exact Lockstep.unexpected s t hst hs ht

end

theorem rules_lockstep (L : Likeness) (n : Nat) : (rules n).Lockstep L := by
  induction n with
  | zero =>
      have none {α β : Type} {V : α → β → Prop} (p : Rule 0 α) (q : Rule 0 β) : L.Lockstep V p q :=
        fun _ _ _ hs _ => absurd hs (Nat.not_lt_zero _)
      exact ⟨none _ _, none _ _, none _ _, none _ _, none _ _, none _ _, none _ _⟩
  | succ n ih =>
      have primary : L.Lockstep L.expression (rules (n + 1)).primary (rules (n + 1)).primary := by
        rw [primary_rules_succ]
        exact primary_lockstep ih
      have predicatePrimary : L.Lockstep L.predicate (rules (n + 1)).predicatePrimary
          (rules (n + 1)).predicatePrimary := by
        rw [predicatePrimary_rules_succ]
        exact predicatePrimary_lockstep ih
      constructor
      · exact primary
      · rw [expression_rules]
        exact expression_lockstep primary
      · exact predicatePrimary
      · rw [predicate_rules]
        exact predicate_lockstep predicatePrimary
      · rw [parenthesized_rules_succ]
        exact parenthesized_lockstep ih
      · rw [select_rules_succ]
        exact select_lockstep ih
      · rw [statement_rules_succ]
        exact statement_lockstep ih

end Transact.Grammar

namespace Transact.Likeness

variable {L : Likeness} {s t : Stream}

/-- The statements that follow are alike, or both readings fail alike, unless the first one is lost
at its lexical error. -/
inductive Results (L : Likeness) :
    Except SyntaxError (List Statement) → Except SyntaxError (List Statement) → Prop where
  | lost {e : LexicalError} {r : Except SyntaxError (List Statement)} (h : L.fault = some e) :
      Results L (.error (.lexical e)) r
  | error {e e' : SyntaxError} (h : L.Errors e e') : Results L (.error e) (.error e')
  | ok {vs ws : List Statement} (h : List.Forall₂ L.statement vs ws) : Results L (.ok vs) (.ok ws)

theorem results_started (h : L.Streams s t) :
    L.Results (Session.started s).statements (Session.started t).statements := by
  induction s using Stream.bySize generalizing t with
  | step s ih =>
    have hkind := L.kind_eq h.current
    by_cases hk : s.current.kind = .eof
    · rw [Session.statements_started_eof hk, Session.statements_started_eof (hkind ▸ hk)]
      exact .ok .nil
    · have hk' : t.current.kind ≠ .eof := hkind ▸ hk
      have hright {m : Nat} (hm : t.size < m) (he : m = t.size + 1) :
          (Grammar.rules m).statement t hm = t.statement := by
        subst he
        rfl
      have hfirst := (Grammar.rules_lockstep L (s.size + 1)).statement s t h (Nat.lt_succ_self _)
        (h.size_eq ▸ Nat.lt_succ_self _)
      rw [hright _ (by rw [h.size_eq])] at hfirst
      change L.Outcomes L.statement s.statement t.statement at hfirst
      generalize ho : s.statement = o, ho' : t.statement = o' at hfirst
      cases hfirst with
      | lost he =>
          rw [Session.statements_started_error hk ho]
          exact .lost he
      | error he =>
          rw [Session.statements_started_error hk ho, Session.statements_started_error hk' ho']
          exact .error he
      | @ok v w u u' _ _ hv hst =>
          have hrest := ih u (Stream.size_statement_lt ho) hst
          rw [Session.statements_started_ok hk ho, Session.statements_started_ok hk' ho']
          generalize (Session.started u).statements = r, (Session.started u').statements = r'
            at hrest ⊢
          cases hrest with
          | lost he => exact .lost he
          | error he => exact .error he
          | ok hvs => exact .ok (.cons hv hvs)

theorem results_statements (h : L.Streams s t) : L.Results s.statements t.statements := by
  obtain ⟨e, he, ha⟩ | ⟨s', t', ha, ha', h'⟩ := h.advance
  · rw [Stream.statements_eq_error ha]
    exact .lost he
  · rw [Stream.statements_eq_started ha, Stream.statements_eq_started ha']
    exact results_started h'

end Transact.Likeness
