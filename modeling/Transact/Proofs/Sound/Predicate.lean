import Transact.Proofs.Sound.Select

namespace Transact.Grammar

open Rule Rule.Ensures

variable {n : Nat} {s t : Stream} {m : Multiset Word} {expression : Rule n Expression}
variable {select : Rule n Select} {left : Expression} {R : Rules n}

section

variable (he : expression.Accounts (fun _ e _ => e.Formed) Expression.words)
variable (hs : select.Accounts (fun _ v _ => v.Formed ∧ v.terminated = false) Select.words)

include hs in
theorem accounts_subquery :
    (subquery select).Accounts (fun _ v _ => v.Formed ∧ v.terminated = false)
      (fun v => Word.enclosed v.words) := by
  intro s t m h
  refine (spend_expect (.mark .leftParen) rfl h).bind fun _ u hu => ?_
  refine (hs hu).bind fun v w hv => ?_
  exact spend_close hv.2 fun x hx => Ensures.pure ⟨hv.1, hx⟩

include he in
theorem accounts_between (hl : left.Formed) (negated : Bool)
    (h : s.Spends t (m + (Word.bag left.words + Word.bag (Word.negated negated)))) :
    (between expression left negated).Ensures t (fun p u =>
      (p.Formed ∧ p.tier = 3) ∧ s.Spends u (m + Word.bag p.words)) True := by
  refine (spend_expect (.keyword .BETWEEN) rfl h).bind fun origin u hu => ?_
  refine (he hu).bind fun low v hv => ?_
  refine (spend_expect (.keyword .AND) rfl hv.2).bind fun _ w hw => ?_
  refine (he hw).bind fun high x hx => Ensures.pure ⟨⟨⟨hl, hv.1, hx.1⟩, rfl⟩, hx.2.cast ?_⟩
  simp only [Predicate.words, Word.bag_append, Word.bag_cons, Kind.word]
  abel

include he hs

theorem accounts_membership (hl : left.Formed) (negated : Bool)
    (h : s.Spends t (m + (Word.bag left.words + Word.bag (Word.negated negated)))) :
    (membership expression select left negated).Ensures t (fun p u =>
      (p.Formed ∧ p.tier = 3) ∧ s.Spends u (m + Word.bag p.words)) True := by
  refine (spend_expect (.keyword .IN) rfl h).bind fun origin u hu => ?_
  refine (spend_expect (.mark .leftParen) rfl hu).bind fun _ v hv => ?_
  refine Ensures.kind ?_
  split
  · refine (hs hv).bind fun found w hw => ?_
    refine spend_close hw.2 fun x hx => Ensures.pure ⟨⟨⟨hl, hw.1⟩, rfl⟩, hx.cast ?_⟩
    simp only [Predicate.words, Word.bag_append, Word.bag_cons, Kind.word]
    abel
  · refine (accounts_commaSeparated he hv).bind fun list w hw => ?_
    obtain ⟨⟨hne, hall⟩, hw⟩ := hw
    have hlist := (Expressions.formed_iff list).2 hall
    refine spend_close hw fun x hx => Ensures.pure ⟨⟨⟨hl, hne, hlist⟩, rfl⟩, hx.cast ?_⟩
    simp only [Predicate.words, Word.bag_append, Word.bag_cons, Kind.word, Expressions.words_eq]
    abel

omit he hs in
theorem accounts_nullCheck (hl : left.Formed) (h : s.Spends t (m + Word.bag left.words)) :
    (nullCheck left : Rule n Predicate).Ensures t (fun p u =>
      (p.Formed ∧ p.tier = 3) ∧ s.Spends u (m + Word.bag p.words)) True := by
  refine (spend_expect (.keyword .IS) rfl h).bind fun origin u hu => ?_
  refine (spend_eat (.keyword .NOT) rfl hu).bind fun negated v hv => ?_
  have hv : s.Spends v (m + Word.bag left.words + Word.count (Word.keyword .IS) +
      Word.bag (Word.negated negated)) := by
    obtain ⟨rfl, hv⟩ | ⟨rfl, rfl, -⟩ := hv
    · exact hv.cast (by simp [Word.negated, Kind.word])
    · exact hu.cast (by simp [Word.negated, Kind.word])
  refine (spend_expect (.keyword .NULL) rfl hv).bind fun _ w hw =>
    Ensures.pure ⟨⟨hl, rfl⟩, hw.cast ?_⟩
  simp only [Predicate.words, Word.bag_append, Word.bag_cons, Word.bag_nil, Kind.word,
    Bool.not_not]
  abel

theorem accounts_negated (hl : left.Formed) (h : s.Spends t (m + Word.bag left.words)) :
    (negated expression select left).Ensures t (fun p u =>
      (p.Formed ∧ p.tier = 3) ∧ s.Spends u (m + Word.bag p.words)) True := by
  refine (spend_expect (.keyword .NOT) rfl h).bind fun origin u hu => ?_
  have hnot : s.Spends u (m + (Word.bag left.words + Word.bag (Word.negated true))) :=
    hu.cast (by simp [Word.negated, Kind.word, add_assoc])
  refine Ensures.kind ?_
  split
  · exact accounts_between he hl true hnot
  · exact accounts_membership he hs hl true hnot
  · rename_i hk
    refine (spend_advance_fixed (.keyword .LIKE) rfl hk hu).bind fun like v hv => ?_
    refine (he hv).bind fun e w hw => Ensures.pure ⟨⟨⟨⟨hl, hw.1⟩, rfl⟩, rfl⟩, hw.2.cast ?_⟩
    simp only [Predicate.words, Word.bag_append, Word.bag_cons, Kind.word,
      ComparisonOperator.word]
    abel
  · exact Ensures.expected trivial

omit he hs in
theorem ComparisonOperator.count_of_ofKind? {token : Token} {operator : ComparisonOperator}
    (h : ComparisonOperator.ofKind? token.kind = some operator) :
    token.kind.isFixed = true ∧ Word.count token.kind.word = Word.count operator.word := by
  generalize token.kind = k at h
  rw [ComparisonOperator.ofKind?.eq_def] at h
  split at h
  all_goals first | (cases h; exact ⟨rfl, rfl⟩) | cases h

omit he hs in
theorem Quantifier.kind_of_ofKind? {k : Kind} {quantifier : Quantifier}
    (h : Quantifier.ofKind? k = some quantifier) : k = .keyword quantifier.keyword := by
  rw [Quantifier.ofKind?.eq_def] at h
  split at h
  all_goals first | (cases h; rfl) | cases h

theorem accounts_compared (hl : left.Formed) {operator : ComparisonOperator}
    (ho : ComparisonOperator.ofKind? t.current.kind = some operator)
    (h : s.Spends t (m + Word.bag left.words)) :
    (compared expression select left operator).Ensures t (fun p u =>
      (p.Formed ∧ p.tier = 3) ∧ s.Spends u (m + Word.bag p.words)) True := by
  obtain ⟨hfixed, hcount⟩ := ComparisonOperator.count_of_ofKind? ho
  refine (spend_advance_fixed _ hfixed rfl h).bind fun origin u hu => ?_
  rw [hcount] at hu
  refine Ensures.kind ?_
  split
  · rename_i quantifier hq
    have hk := Quantifier.kind_of_ofKind? hq
    refine (spend_advance_fixed _ rfl hk hu).bind fun _ v hv => ?_
    refine (accounts_subquery hs hv).bind fun found w hw =>
      Ensures.pure ⟨⟨⟨hl, hw.1⟩, rfl⟩, hw.2.cast ?_⟩
    simp only [Predicate.words, Word.bag_append, Word.bag_cons, Kind.word]
    abel
  · refine (he hu).bind fun e v hv => Ensures.pure ⟨⟨⟨hl, hv.1⟩, rfl⟩, hv.2.cast ?_⟩
    simp only [Predicate.words, Word.bag_append, Word.bag_cons]
    abel

theorem accounts_comparison (hl : left.Formed) (h : s.Spends t (m + Word.bag left.words)) :
    (comparison expression select left).Ensures t (fun p u =>
      (p.Formed ∧ p.tier = 3) ∧ s.Spends u (m + Word.bag p.words)) True := by
  have hplain : s.Spends t (m + (Word.bag left.words + Word.bag (Word.negated false))) :=
    h.cast (by simp [Word.negated])
  refine Ensures.kind ?_
  split
  · exact accounts_nullCheck hl h
  · exact accounts_negated he hs hl h
  · exact accounts_between he hl false hplain
  · exact accounts_membership he hs hl false hplain
  · split
    · rename_i operator ho
      exact accounts_compared he hs hl ho h
    · exact Ensures.unexpected trivial

end

theorem joins_predicate : Joins LogicalOperator.ofKind? LogicalOperator.tier Predicate.binary
    Predicate.Formed Predicate.tier (fun _ _ => True) Predicate.words where
  isFixed := by
    intro k op h
    rw [LogicalOperator.ofKind?.eq_def] at h
    split at h
    all_goals first | rfl | cases h
  tier_lt := by
    intro op
    cases op <;> decide
  formed := fun _ _ _ _ hl hr htl htr => ⟨⟨hl, htl⟩, hr, htr⟩
  tier_join := fun _ _ _ _ => rfl
  ends := fun _ _ _ _ _ _ => trivial
  words := by
    intro token left op right h
    have hk : token.kind = .keyword op.keyword := by
      rw [LogicalOperator.ofKind?.eq_def] at h
      split at h
      all_goals first | (cases h; assumption) | cases h
    rw [hk, Predicate.words, Word.bag_append, Word.bag_cons]
    rfl

theorem accounts_climbPredicate {operand : Rule n Predicate} {first : Predicate}
    (ho : operand.Accounts (fun _ p _ => p.Formed ∧ p.tier = 3) Predicate.words)
    (hf : first.Formed ∧ first.tier = 3) (h : s.Spends t (m + Word.bag first.words)) :
    (climbPredicate operand first).Ensures t (fun p u =>
      p.Formed ∧ s.Spends u (m + Word.bag p.words)) True := by
  have htier : ∀ op : LogicalOperator, op.tier ≤ 3 := by
    intro op
    cases op <;> decide
  refine (spend_climb joins_predicate (ho.imp fun _ p _ hp => ⟨hp.1, hp.2, trivial⟩) 1 hf.1
    (by rw [hf.2]; decide) trivial (fun op _ => by rw [hf.2]; exact htier op) h).imp
    fun p u hu => ?_
  exact ⟨hu.1.1, hu.2⟩

theorem accounts_predicate {operand : Rule n Predicate}
    (ho : operand.Accounts (fun _ p _ => p.Formed ∧ p.tier = 3) Predicate.words) :
    (predicate operand).Accounts (fun _ p _ => p.Formed) Predicate.words := fun _ _ _ h =>
  (ho h).bind fun _ _ hu => accounts_climbPredicate ho hu.1 hu.2

namespace Operand

def Formed : Operand → Prop
  | value e => e.Formed
  | predicate p => p.Formed

def IsPrimary (k : Kind) : Operand → Prop
  | value e => e.IsPrimary k
  | predicate p => p.Formed ∧ p.tier = 3

theorem IsEnclosed.isPrimary {o : Operand} (h : o.IsEnclosed) (k : Kind) : o.IsPrimary k := by
  cases o with
  | value e =>
      exact ⟨h.1, Expression.tier_of_isParenthesized h.2,
        Expression.endsBefore_of_isParenthesized h.2 k⟩
  | predicate p => exact h

theorem Formed.grouped {o : Operand} (h : o.Formed) (paren : Token) :
    (o.grouped paren).IsEnclosed := by
  cases o with
  | value e => exact ⟨h, rfl⟩
  | predicate p => exact ⟨h, rfl⟩

theorem words_grouped (o : Operand) (paren : Token) :
    (o.grouped paren).words = Word.enclosed o.words := by cases o <;> rfl

end Operand

theorem accounts_operandRest (hR : R.Sound) {first : Operand}
    (hf : first.IsPrimary t.current.kind) (h : s.Spends t (m + Word.bag first.words)) :
    (operandRest R first).Ensures t (fun o u =>
      o.Formed ∧ s.Spends u (m + Word.bag o.words)) True := by
  cases first with
  | predicate p =>
      exact (accounts_climbPredicate hR.predicatePrimary hf h).bind fun q u hu => Ensures.pure hu
  | value e =>
      have hprimary := hR.primary.imp fun _ _ _ he => he.1
      refine (accounts_climbExpression hprimary hf h).bind fun e u hu => ?_
      refine Ensures.kind ?_
      split
      · have hcompared := accounts_comparison (hR.expression.imp fun _ _ _ he => he.1) hR.select
          hu.1.1 hu.2
        refine hcompared.bind fun p v hv => ?_
        refine (accounts_climbPredicate hR.predicatePrimary hv.1 hv.2).bind fun q w hw => ?_
        exact Ensures.pure hw
      · exact Ensures.pure ⟨hu.1.1, hu.2⟩

theorem accounts_grouped (hR : R.Sound) (paren : Token)
    (h : s.Spends t (m + Word.count (Word.mark .leftParen))) :
    (do
      let inner ← R.predicate
      let _ ← expect (.mark .rightParen)
      return Operand.predicate (.grouped paren inner) : Rule n Operand).Ensures t (fun o u =>
        o.IsEnclosed ∧ s.Spends u (m + Word.bag o.words)) True := by
  refine (hR.predicate h).bind fun p u hu => ?_
  exact spend_close hu.2 fun v hv => Ensures.pure ⟨⟨hu.1, rfl⟩, hv⟩

theorem accounts_operandClosed (hR : R.Sound) (paren : Token) (o : Operand)
    (ho : o.IsPrimary t.current.kind)
    (h : s.Spends t (m + Word.count (Word.mark .leftParen) + Word.bag o.words)) :
    (do
      let inner ← operandRest R o
      let _ ← expect (.mark .rightParen)
      return inner.grouped paren : Rule n Operand).Ensures t (fun o u =>
        o.IsEnclosed ∧ s.Spends u (m + Word.bag o.words)) True := by
  refine (accounts_operandRest hR ho h).bind fun inner u hu => ?_
  refine spend_close hu.2 fun v hv => Ensures.pure ⟨hu.1.grouped paren, ?_⟩
  rwa [Operand.words_grouped]

theorem accounts_parenthesizedFrom (hR : R.Sound) (paren : Token)
    (h : s.Spends t (m + Word.count (Word.mark .leftParen))) :
    (parenthesizedFrom R paren).Ensures t (fun o u =>
      o.IsEnclosed ∧ s.Spends u (m + Word.bag o.words)) True := by
  refine Ensures.kind ?_
  split
  · refine (hR.select h).bind fun v u hu => ?_
    exact spend_close hu.2 fun w hw => Ensures.pure ⟨⟨hu.1, rfl⟩, hw⟩
  · exact accounts_grouped hR paren h
  · exact accounts_grouped hR paren h
  · dsimp only
    split
    · refine (hR.parenthesized h).bind fun o u ho => ?_
      exact accounts_operandClosed hR paren o (ho.1.isPrimary _) ho.2
    · have hvalue : (Operand.value <$> R.primary).Ensures t (fun o u => o.IsPrimary u.current.kind ∧
          s.Spends u (m + Word.count (Word.mark .leftParen) + Word.bag o.words)) True :=
        Ensures.map ((hR.primary h).imp fun e u he => ⟨he.1.1, he.2⟩)
      exact hvalue.bind fun o u ho => accounts_operandClosed hR paren o ho.1 ho.2

theorem accounts_parenthesized (hR : R.Sound) :
    (parenthesized R).Accounts (fun _ o _ => o.IsEnclosed) Operand.words := by
  intro s t m h
  refine Ensures.begin nofun (fun hk u hu => ?_) (fun _ => trivial) fun _ _ => trivial
  exact accounts_parenthesizedFrom hR _ (h.step_fixed _ rfl hk hu)

theorem accounts_operandFirst (hR : R.Sound) :
    (operandFirst R).Accounts (fun _ p _ => p.Formed ∧ p.tier = 3) Predicate.words := by
  intro s t m h
  have hprimary := (accounts_primary hR).imp fun _ _ _ he => he.1
  have hvalue {e : Expression} {u : Stream} (he : e.IsPrimary u.current.kind)
      (hu : s.Spends u (m + Word.bag e.words)) :
      (climbExpression (primary R) e >>= fun e =>
        comparison (Grammar.expression (primary R)) (Grammar.select R) e).Ensures u (fun p v =>
          (p.Formed ∧ p.tier = 3) ∧ s.Spends v (m + Word.bag p.words)) True := by
    refine (accounts_climbExpression hprimary he hu).bind fun e v hv => ?_
    exact accounts_comparison ((accounts_expression hprimary).imp fun _ _ _ he => he.1)
      (accounts_select hR) hv.1.1 hv.2
  refine Ensures.kind ?_
  dsimp only
  split
  · refine (accounts_parenthesized hR h).bind fun o u ho => ?_
    cases o with
    | predicate p => exact Ensures.pure ⟨ho.1.isPrimary u.current.kind, ho.2⟩
    | value e => exact hvalue (ho.1.isPrimary u.current.kind) ho.2
  · have hfirst : (Operand.value <$> primary R).Ensures t (fun o u => ∃ e, o = .value e ∧
        e.IsPrimary u.current.kind ∧ s.Spends u (m + Word.bag e.words)) True :=
      Ensures.map ((hprimary h).imp fun e u he => ⟨e, rfl, he⟩)
    refine hfirst.bind fun o u ho => ?_
    obtain ⟨e, rfl, he, hu⟩ := ho
    exact hvalue he hu

theorem accounts_predicatePrimary (hR : R.Sound) :
    (predicatePrimary R).Accounts (fun _ p _ => p.Formed ∧ p.tier = 3) Predicate.words := by
  intro s t m h
  refine Ensures.kind ?_
  split
  · rename_i hk
    refine Ensures.take (fun u _ hu => ?_) (fun _ => trivial) fun _ _ => trivial
    refine (hR.predicatePrimary (h.step_fixed _ rfl hk hu)).bind fun p v hv =>
      Ensures.pure ⟨⟨hv.1, rfl⟩, hv.2.cast ?_⟩
    rw [Predicate.words, Word.bag_cons, add_assoc]
    rfl
  · rename_i hk
    refine Ensures.take (fun u _ hu => ?_) (fun _ => trivial) fun _ _ => trivial
    refine (accounts_subquery hR.select (h.step_fixed _ rfl hk hu)).bind fun v w hv =>
      Ensures.pure ⟨⟨hv.1, rfl⟩, hv.2.cast ?_⟩
    rw [Predicate.words, Word.bag_cons, add_assoc]
    rfl
  · exact accounts_operandFirst hR h

end Transact.Grammar
