import Transact.Grammar.Parse
import Transact.Proofs.Count.Climb
import Transact.Proofs.Sound.Name

namespace Transact

theorem Constant.exists_of_token {t : Token} {type : ConstantType} (h : t.word.IsLexical)
    (hk : t.kind = .constant type) :
    ∃ c, Constant.ofToken? t = some c ∧ c.IsLiteral ∧ c.word = t.word := by
  generalize hw : t.word = w at h
  cases h with
  | @name p hn =>
      have hkind : t.kind = Kind.ofWord (String.ofList p) := congrArg Prod.fst hw
      obtain hn | ⟨k, hn⟩ := Kind.ofWord_cases (String.ofList p) <;>
        cases hn.symm.trans (hkind.symm.trans hk)
  | @constant c hc =>
      obtain ⟨k, place, value⟩ := t
      refine ⟨c, ?_, hc, rfl⟩
      cases c <;> cases hw <;> rfl
  | mark m => cases (congrArg Prod.fst hw : t.kind = .mark m).symm.trans hk

namespace Expression

theorem endsBefore_of_none {e : Expression} (h : e.lastName? = none) (k : Kind) :
    e.EndsBefore k := by
  intro r hr
  cases h.symm.trans hr

theorem tier_of_isParenthesized {e : Expression} (h : e.isParenthesized = true) : e.tier = 3 := by
  cases e <;> first | rfl | cases h

theorem endsBefore_of_isParenthesized {e : Expression} (h : e.isParenthesized = true) (k : Kind) :
    e.EndsBefore k := by
  cases e <;> first | exact endsBefore_of_none rfl k | cases h

/-- The value is well formed, it has no operator outside parentheses, and the kind may follow. -/
def IsPrimary (e : Expression) (k : Kind) : Prop := e.Formed ∧ e.tier = 3 ∧ e.EndsBefore k

end Expression

namespace Grammar

open Rule Rule.Ensures

variable {n : Nat} {s t : Stream} {m : Multiset Word}

namespace Operand

def words : Operand → List Word
  | value e => e.words
  | predicate p => p.words

def IsEnclosed : Operand → Prop
  | value e => e.Formed ∧ e.isParenthesized = true
  | predicate p => p.Formed ∧ p.tier = 3

end Operand

structure Rules.Sound (R : Rules n) : Prop where
  primary : R.primary.Accounts (fun t e u => e.IsPrimary u.current.kind ∧
    (t.current.kind = .mark .leftParen → e.isParenthesized = true)) Expression.words
  expression : R.expression.Accounts (fun _ e u => e.Formed ∧ e.Admits u.current.kind)
    Expression.words
  predicatePrimary : R.predicatePrimary.Accounts (fun _ p _ => p.Formed ∧ p.tier = 3)
    Predicate.words
  predicate : R.predicate.Accounts (fun _ p _ => p.Formed) Predicate.words
  parenthesized : R.parenthesized.Accounts (fun _ o _ => o.IsEnclosed) Operand.words
  select : R.select.Accounts (fun _ v _ => v.Formed ∧ v.terminated = false) Select.words
  statement : R.statement.Accounts (fun t v u => v.Formed ∧ v.Admits u.current.kind ∧
    Word.headKind v.words = t.current.kind) Statement.words

theorem accounts_constant (h : s.Spends t m) {type : ConstantType}
    (hk : t.current.kind = .constant type) :
    (constant : Rule n Expression).Ensures t (fun e u =>
      e.IsPrimary u.current.kind ∧ s.Spends u (m + Word.bag e.words)) True := by
  have hne : t.current.kind ≠ .eof := by simp [hk]
  obtain ⟨c, hc, hl, hw⟩ := Constant.exists_of_token (h.isLexical_current hne) hk
  refine (spend_advance hne h).bind fun token u hu => ?_
  obtain ⟨rfl, hu⟩ := hu
  rw [hc]
  refine Ensures.pure ⟨⟨hl, rfl, Expression.endsBefore_of_none rfl _⟩, hu.cast ?_⟩
  simp [Expression.words, hw]

theorem accounts_arguments {expression : Rule n Expression}
    (he : expression.Accounts (fun _ e _ => e.Formed) Expression.words) :
    (arguments expression).Accounts (fun _ es _ => Expressions.Formed es)
      (fun es => Word.enclosed (Word.listed (Expressions.words es))) := by
  intro s t m h
  refine (spend_expect (.mark .leftParen) rfl h).bind fun _ u hu => ?_
  have hclose : ∀ es v, (Expressions.Formed es ∧ s.Spends v (m + Word.count (Word.mark .leftParen) +
      Word.bag (Word.listed (Expressions.words es)))) →
      (do let _ ← expect (.mark .rightParen); return es : Rule n (List Expression)).Ensures v
        (fun es u => Expressions.Formed es ∧
          s.Spends u (m + Word.bag (Word.enclosed (Word.listed (Expressions.words es))))) True := by
    rintro es v ⟨hall, hv⟩
    exact spend_close hv fun w hw => Ensures.pure ⟨hall, hw⟩
  refine Ensures.kind ?_
  dsimp only
  split
  · refine Ensures.bind (Ensures.pure ?_) hclose
    exact ⟨trivial, hu.cast (by simp [Expressions.words, Word.listed, Kind.word])⟩
  · refine Ensures.bind ((accounts_commaSeparated he hu).imp fun es v hv => ?_) hclose
    rw [Expressions.words_eq, Expressions.formed_iff]
    exact ⟨hv.1.2, hv.2⟩

variable {R : Rules n}

theorem accounts_call (hR : R.Sound) {function : Reference} (hf : function.NamesFunction)
    (h : s.Spends t (m + Word.bag function.words)) :
    (call R function).Ensures t (fun e u =>
      e.IsPrimary u.current.kind ∧ s.Spends u (m + Word.bag e.words)) True := by
  refine (accounts_arguments (hR.expression.imp fun _ _ _ he => he.1) h).bind fun es u hu => ?_
  refine Ensures.pure ⟨⟨⟨hf, hu.1⟩, rfl, Expression.endsBefore_of_none rfl _⟩, hu.2.cast ?_⟩
  rw [Expression.words, Word.bag_append, add_assoc]

theorem accounts_named (hR : R.Sound) (h : s.Spends t m)
    (hk : t.current.kind = .mark .dot ∨ t.current.kind = .identifier) :
    (take (named R)).Ensures t (fun e u =>
      e.IsPrimary u.current.kind ∧ s.Spends u (m + Word.bag e.words)) True := by
  refine Ensures.take (fun u hne hu => ?_) (fun _ => trivial) fun _ _ => trivial
  have hstart := (Parts.Reads.start h.refl).add (hk.imp_right fun hk => ⟨hk, rfl⟩) hu
  refine (Ensures.referenceFrom _ hstart).bind fun r v hv => ?_
  obtain ⟨hr, -, hspent, hends⟩ := hv
  refine Ensures.kind ?_
  split
  · exact accounts_call hR (.inl hr) (h.trans hspent)
  · rename_i hparen
    refine Ensures.pure ⟨⟨hr, rfl, ?_⟩, h.trans hspent⟩
    rintro _ ⟨⟩
    exact ⟨hends, hparen⟩

theorem accounts_builtIn (hR : R.Sound) (h : s.Spends t m)
    (hk : t.current.kind.isFunction = true) :
    (take (builtIn R)).Ensures t (fun e u =>
      e.IsPrimary u.current.kind ∧ s.Spends u (m + Word.bag e.words)) True := by
  have hword : ∃ k, t.current.kind = .keyword k := by
    rw [Kind.isFunction.eq_def] at hk
    split at hk
    all_goals first | exact ⟨_, ‹_›⟩ | cases hk
  have hne : t.current.kind ≠ .eof := by
    obtain ⟨k, hk⟩ := hword
    simp [hk]
  have hl := h.isLexical_current hne
  obtain ⟨hname, hcount⟩ := Token.isName hl (.inr hword)
  refine spend_take h fun u hu => Ensures.kind ?_
  split
  · refine accounts_call hR (.inr ⟨_, rfl, hname, ?_⟩) (hu.cast ?_)
    · rwa [Token.kind_eq hl (.inr hword)]
    · rw [Reference.words_single (r := ⟨_, _⟩) rfl hname, hcount]
      simp
  · exact Ensures.expected trivial

theorem accounts_group (hR : R.Sound) (h : s.Spends t (m + Word.count (Word.mark .leftParen)))
    (paren : Token) :
    (group R paren).Ensures t (fun e u =>
      (e.Formed ∧ e.isParenthesized = true) ∧ s.Spends u (m + Word.bag e.words)) True := by
  refine Ensures.kind ?_
  split
  · refine (hR.select h).bind fun v u hu => ?_
    exact spend_close hu.2 fun w hw => Ensures.pure ⟨⟨hu.1, rfl⟩, hw⟩
  · refine (hR.expression h).bind fun e u hu => ?_
    exact spend_close hu.2 fun w hw => Ensures.pure ⟨⟨hu.1.1, rfl⟩, hw⟩

theorem UnaryOperator.kind_of_ofKind? {k : Kind} {operator : UnaryOperator}
    (h : UnaryOperator.ofKind? k = some operator) : k = .mark operator.mark := by
  rw [UnaryOperator.ofKind?.eq_def] at h
  split at h
  all_goals first | cases h; rfl | cases h

theorem accounts_unary (hR : R.Sound) (h : s.Spends t m) {operator : UnaryOperator}
    (hk : t.current.kind = .mark operator.mark) :
    (take fun sign => return .unary sign operator (← R.primary) : Rule (n + 1) Expression).Ensures t
      (fun e u => e.IsPrimary u.current.kind ∧ s.Spends u (m + Word.bag e.words)) True := by
  refine spend_take h fun u hu => (hR.primary hu).bind fun e v hv => Ensures.pure ?_
  obtain ⟨⟨⟨hf, ht, he⟩, -⟩, hv⟩ := hv
  refine ⟨⟨⟨hf, ht⟩, rfl, he⟩, hv.cast ?_⟩
  have hne : t.current.kind ≠ .eof := by simp [hk]
  rw [(h.isLexical_current hne).eq_mark hk, Expression.words, Word.bag_cons, add_assoc]

theorem accounts_null (h : s.Spends t m) (hk : t.current.kind = .keyword .NULL) :
    (return .null (← advance) : Rule n Expression).Ensures t (fun e u =>
      e.IsPrimary u.current.kind ∧ s.Spends u (m + Word.bag e.words)) True := by
  have hne : t.current.kind ≠ .eof := by simp [hk]
  refine (spend_advance hne h).bind fun token u hu => Ensures.pure ?_
  refine ⟨⟨trivial, rfl, Expression.endsBefore_of_none rfl _⟩, hu.2.cast ?_⟩
  have hword : t.current.word.1 = .keyword .NULL := hk
  rw [(h.isLexical_current hne).count_eq (by rw [hword]; rfl), hword]
  simp [Expression.words, Kind.word]

theorem accounts_primary (hR : R.Sound) :
    (primary R).Accounts (fun t e u => e.IsPrimary u.current.kind ∧
      (t.current.kind = .mark .leftParen → e.isParenthesized = true)) Expression.words := by
  intro s t m h
  have hother {p : Rule (n + 1) Expression} (hk : t.current.kind ≠ .mark .leftParen)
      (hp : p.Ensures t (fun e u =>
        e.IsPrimary u.current.kind ∧ s.Spends u (m + Word.bag e.words)) True) :
      p.Ensures t (fun e u => (e.IsPrimary u.current.kind ∧
        (t.current.kind = .mark .leftParen → e.isParenthesized = true)) ∧
          s.Spends u (m + Word.bag e.words)) True :=
    hp.imp fun e u he => ⟨⟨he.1, fun hparen => absurd hparen hk⟩, he.2⟩
  refine Ensures.kind ?_
  split
  · rename_i operator ho
    have hk := UnaryOperator.kind_of_ofKind? ho
    exact hother (by cases operator <;> simp [hk, UnaryOperator.mark]) (accounts_unary hR h hk)
  · split
    · rename_i type hk
      exact hother (by simp [hk]) (accounts_constant h hk)
    · rename_i hk
      exact hother (by simp [hk]) (accounts_null h hk)
    · rename_i hk
      exact hother (by simp [hk]) (accounts_named hR h (.inr hk))
    · rename_i hk
      exact hother (by simp [hk]) (accounts_named hR h (.inl hk))
    · rename_i hk
      exact hother (by simp [hk]) (accounts_builtIn hR h (by rw [hk]; rfl))
    · rename_i hk
      exact hother (by simp [hk]) (accounts_builtIn hR h (by rw [hk]; rfl))
    · rename_i hk
      exact hother (by simp [hk]) (accounts_builtIn hR h (by rw [hk]; rfl))
    · rename_i hk
      exact hother (by simp [hk]) (accounts_builtIn hR h (by rw [hk]; rfl))
    · rename_i hk
      refine spend_take h fun u hu => ?_
      have hparen := (h.isLexical_current (by simp [hk])).eq_mark hk
      refine (accounts_group hR (hu.cast (by rw [hparen])) _).imp fun e v hv => ?_
      obtain ⟨⟨hf, hp⟩, hv⟩ := hv
      exact ⟨⟨⟨hf, Expression.tier_of_isParenthesized hp,
        Expression.endsBefore_of_isParenthesized hp _⟩, fun _ => hp⟩, hv⟩
    · exact Ensures.unexpected trivial

theorem joins_expression : Joins BinaryOperator.ofKind? BinaryOperator.tier Expression.binary
    Expression.Formed Expression.tier Expression.EndsBefore Expression.words where
  isFixed := by
    intro k op h
    rw [BinaryOperator.ofKind?.eq_def] at h
    split at h
    all_goals first | rfl | cases h
  tier_lt := by
    intro op
    cases op <;> decide
  formed := fun _ _ _ _ hl hr htl htr => ⟨⟨hl, htl⟩, hr, htr⟩
  tier_join := fun _ _ _ _ => rfl
  ends := fun _ _ _ _ _ h => h
  words := by
    intro token left op right h
    have hk : token.kind = .mark op.mark := by
      rw [BinaryOperator.ofKind?.eq_def] at h
      split at h
      all_goals first | (cases h; assumption) | cases h
    rw [hk, Expression.words, Word.bag_append, Word.bag_cons]
    rfl

/-- Folding operators onto a value ends before a kind that the result admits. -/
theorem accounts_climbExpression {operand : Rule n Expression} {left : Expression}
    (ho : operand.Accounts (fun _ e u => e.IsPrimary u.current.kind) Expression.words)
    (hl : left.IsPrimary t.current.kind) (h : s.Spends t (m + Word.bag left.words)) :
    (climbExpression operand left).Ensures t (fun e u =>
      (e.Formed ∧ e.Admits u.current.kind) ∧ s.Spends u (m + Word.bag e.words)) True := by
  obtain ⟨hf, ht, he⟩ := hl
  have htier : ∀ op : BinaryOperator, 1 ≤ op.tier ∧ op.tier ≤ 2 := by
    intro op
    cases op <;> decide
  refine (spend_climb joins_expression ho 1 hf (by rw [ht]; decide) he
    (fun op _ => by rw [ht]; exact Nat.le_succ_of_le (htier op).2) h).imp fun e u hu => ?_
  obtain ⟨⟨hf, -, he, hn⟩, hu⟩ := hu
  refine ⟨⟨hf, ?_, he⟩, hu⟩
  cases hop : BinaryOperator.ofKind? u.current.kind with
  | none => rfl
  | some op => exact absurd (hn op hop) (Nat.not_lt.2 (htier op).1)

theorem accounts_expression {operand : Rule n Expression}
    (ho : operand.Accounts (fun _ e u => e.IsPrimary u.current.kind) Expression.words) :
    (expression operand).Accounts (fun _ e u => e.Formed ∧ e.Admits u.current.kind)
      Expression.words := fun _ _ _ h =>
  (ho h).bind fun _ _ hu => accounts_climbExpression ho hu.1 hu.2

end Grammar

end Transact
