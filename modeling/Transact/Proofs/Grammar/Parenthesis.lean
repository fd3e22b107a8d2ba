import Transact.Proofs.Grammar.Fixpoint
import Transact.Proofs.Rule.Gives

namespace Transact.Grammar

open Rule

variable {n : Nat} {s t : Stream}

def enclosed (R : Rules n) (paren : Token) : Rule n Predicate := do
  let inner ← R.predicate
  let _ ← expect (.mark .rightParen)
  return .grouped paren inner

def opening (R : Rules n) (k : Kind) : Rule n Operand :=
  if k = .mark .leftParen then R.parenthesized else Operand.value <$> R.primary

theorem beginsComparison_of_gives {e : Rule n Expression} {q : Rule n Select} {left : Expression}
    {p : Predicate} (h : (comparison e q left).Gives s p t) :
    beginsComparison s.current.kind = true := by
  rw [comparison, gives_kind_bind] at h
  split at h
  · rename_i hk
    simp [beginsComparison, hk]
  · rename_i hk
    simp [beginsComparison, hk]
  · rename_i hk
    simp [beginsComparison, hk]
  · rename_i hk
    simp [beginsComparison, hk]
  · split at h
    · rename_i op ho
      simp [beginsComparison, ho]
    · exact absurd h not_gives_unexpected

theorem gives_operandRest_value {R : Rules n} {first : Operand} {v : Expression} :
    (operandRest R first).Gives s (.value v) t ↔
      ∃ e, first = .value e ∧ (climbExpression R.primary e).Gives s v t ∧
        ¬beginsComparison t.current.kind = true := by
  cases first with
  | predicate p =>
      change (Operand.predicate <$> climbPredicate R.predicatePrimary p).Gives s (.value v) t ↔ _
      simp [gives_map]
  | value e =>
      rw [operandRest, gives_bind]
      constructor
      · rintro ⟨w, u, hw, hv⟩
        rw [gives_kind_bind] at hv
        split at hv
        · obtain ⟨c, x, -, hp⟩ := gives_bind.1 hv
          obtain ⟨p, y, -, hp⟩ := gives_bind.1 hp
          cases (gives_pure.1 hp).2.1
        · rename_i hk
          obtain ⟨-, hvw, rfl⟩ := gives_pure.1 hv
          cases hvw
          exact ⟨e, rfl, hw, hk⟩
      · rintro ⟨_, ⟨⟩, hw, hk⟩
        refine ⟨v, t, hw, ?_⟩
        rw [gives_kind_bind, if_neg hk]
        exact gives_pure.2 ⟨Nat.lt_of_le_of_lt hw.size_le hw.size_lt, rfl, rfl⟩

theorem gives_operandRest_predicate {R : Rules n} {first : Operand} {p : Predicate} :
    (operandRest R first).Gives s (.predicate p) t ↔
      (∃ c, first = .predicate c ∧ (climbPredicate R.predicatePrimary c).Gives s p t) ∨
      ∃ e v u c w, first = .value e ∧ (climbExpression R.primary e).Gives s v u ∧
        (comparison R.expression R.select v).Gives u c w ∧
        (climbPredicate R.predicatePrimary c).Gives w p t := by
  cases first with
  | predicate c =>
      change (Operand.predicate <$> climbPredicate R.predicatePrimary c).Gives s _ t ↔ _
      simp [gives_map]
  | value e =>
      rw [operandRest, gives_bind]
      constructor
      · rintro ⟨v, u, hv, hp⟩
        rw [gives_kind_bind] at hp
        split at hp
        · obtain ⟨c, w, hc, hp⟩ := gives_bind.1 hp
          obtain ⟨p', hp, hpp⟩ := gives_map.1 hp
          cases hpp
          exact .inr ⟨e, v, u, c, w, rfl, hv, hc, hp⟩
        · cases (gives_pure.1 hp).2.1
      · rintro (⟨c, ⟨⟩, -⟩ | ⟨_, v, u, c, w, ⟨⟩, hv, hc, hp⟩)
        refine ⟨v, u, hv, ?_⟩
        rw [gives_kind_bind, if_pos (beginsComparison_of_gives hc), gives_bind]
        exact ⟨c, w, hc, gives_map.2 ⟨p, hp, rfl⟩⟩

theorem gives_primary_opens {e : Expression} (h : (rules n).primary.Gives s e t) :
    s.current.kind ≠ .keyword .SELECT ∧ s.current.kind ≠ .keyword .NOT ∧
      s.current.kind ≠ .keyword .EXISTS := by
  cases n with
  | zero => exact absurd h.size_lt (Nat.not_lt_zero _)
  | succ n =>
      rw [primary_rules_succ, primary, gives_kind_bind] at h
      refine ⟨?_, ?_, ?_⟩
      all_goals
        intro hk
        rw [hk] at h
        exact not_gives_unexpected h

theorem gives_bind_operand {p : Rule n Operand} {f : Operand → Rule n α} {v : α} :
    (p >>= f).Gives s v t ↔
      (∃ c u, p.Gives s (.predicate c) u ∧ (f (.predicate c)).Gives u v t) ∨
      ∃ e u, p.Gives s (.value e) u ∧ (f (.value e)).Gives u v t := by
  rw [gives_bind]
  constructor
  · rintro ⟨first, u, hu, hv⟩
    cases first with
    | predicate c => exact .inl ⟨c, u, hu, hv⟩
    | value e => exact .inr ⟨e, u, hu, hv⟩
  · rintro (⟨c, u, hu, hv⟩ | ⟨e, u, hu, hv⟩)
    · exact ⟨_, u, hu, hv⟩
    · exact ⟨_, u, hu, hv⟩

/-- Behind an operand nothing is left to read when it is a predicate, and the rest of a comparison
when it is a value. -/
theorem gives_bind_comparison {p : Rule n Operand} {f : Operand → Rule n Predicate}
    {climb : Expression → Rule n Expression} {rest : Expression → Rule n Predicate} {c : Predicate}
    (hfound : ∀ found, f (.predicate found) = pure found)
    (hvalue : ∀ e, f (.value e) = climb e >>= rest) :
    (p >>= f).Gives s c t ↔ p.Gives s (.predicate c) t ∨
      ∃ e u v w, p.Gives s (.value e) u ∧ (climb e).Gives u v w ∧ (rest v).Gives w c t := by
  rw [gives_bind_operand]
  constructor
  · rintro (⟨found, u, hu, hc⟩ | ⟨e, u, hu, hc⟩)
    · rw [hfound, gives_pure] at hc
      obtain ⟨-, rfl, rfl⟩ := hc
      exact .inl hu
    · rw [hvalue, gives_bind] at hc
      obtain ⟨v, w, hv, hc⟩ := hc
      exact .inr ⟨e, u, v, w, hu, hv, hc⟩
  · rintro (hc | ⟨e, u, v, w, hu, hv, hc⟩)
    · refine .inl ⟨c, t, hc, ?_⟩
      rw [hfound]
      exact gives_pure.2 ⟨Nat.lt_of_le_of_lt hc.size_le hc.size_lt, rfl, rfl⟩
    · refine .inr ⟨e, u, hu, ?_⟩
      rw [hvalue]
      exact gives_bind.2 ⟨v, w, hv, hc⟩

theorem gives_predicatePrimary_opening {c : Predicate} (hn : s.current.kind ≠ .keyword .NOT)
    (he : s.current.kind ≠ .keyword .EXISTS) :
    (rules n).predicatePrimary.Gives s c t ↔
      (opening (rules n) s.current.kind).Gives s (.predicate c) t ∨
      ∃ e u v w, (opening (rules n) s.current.kind).Gives s (.value e) u ∧
        (climbExpression (rules n).primary e).Gives u v w ∧
        (comparison (rules n).expression (rules n).select v).Gives w c t := by
  cases n with
  | zero =>
      constructor
      · intro h
        exact absurd h.size_lt (Nat.not_lt_zero _)
      · rintro (h | ⟨e, u, v, w, h, -⟩)
        · exact absurd h.size_lt (Nat.not_lt_zero _)
        · exact absurd h.size_lt (Nat.not_lt_zero _)
  | succ n =>
      rw [expression_rules, predicatePrimary_rules_succ, primary_rules_succ, select_rules_succ,
        opening, parenthesized_rules_succ, primary_rules_succ, predicatePrimary, gives_kind_bind]
      split
      · contradiction
      · contradiction
      · rw [operandFirst, gives_kind_bind]
        dsimp only
        split
        · exact gives_bind_comparison (fun _ => rfl) fun _ => rfl
        · exact gives_bind_comparison (fun _ => rfl) fun _ => rfl

theorem gives_parenthesizedFrom_opening {R : Rules n} {paren : Token} {o : Operand}
    (hs : s.current.kind ≠ .keyword .SELECT) (hn : s.current.kind ≠ .keyword .NOT)
    (he : s.current.kind ≠ .keyword .EXISTS) :
    (parenthesizedFrom R paren).Gives s o t ↔
      ∃ f u inner w, (opening R s.current.kind).Gives s f u ∧
        (operandRest R f).Gives u inner w ∧ w.current.kind = .mark .rightParen ∧
        w.advance = .ok t ∧ inner.grouped paren = o := by
  have hbind : (parenthesizedFrom R paren).Gives s o t ↔ (opening R s.current.kind >>= fun first =>
      operandRest R first >>= fun inner => do
        let _ ← expect (.mark .rightParen)
        return inner.grouped paren).Gives s o t := by
    rw [parenthesizedFrom, gives_kind_bind, opening]
    split
    · contradiction
    · contradiction
    · contradiction
    · split <;> rfl
  rw [hbind]
  simp only [gives_bind (p := opening R _), gives_bind (p := operandRest R _),
    gives_expect_bind_pure]
  constructor
  · rintro ⟨f, u, hf, inner, w, hi, -, hk, ht, ho⟩
    exact ⟨f, u, inner, w, hf, hi, hk, ht, ho⟩
  · rintro ⟨f, u, inner, w, hf, hi, hk, ht, ho⟩
    exact ⟨f, u, hf, inner, w, hi, Nat.lt_of_le_of_lt hi.size_le hi.size_lt, hk, ht, ho⟩

theorem gives_enclosed {R : Rules n} {paren : Token} {g : Predicate} :
    (enclosed R paren).Gives s g t ↔ ∃ b w, R.predicate.Gives s b w ∧
      w.current.kind = .mark .rightParen ∧ w.advance = .ok t ∧ .grouped paren b = g := by
  simp only [enclosed, gives_bind (p := R.predicate), gives_expect_bind_pure]
  constructor
  · rintro ⟨b, w, hb, -, hk, ht, hg⟩
    exact ⟨b, w, hb, hk, ht, hg⟩
  · rintro ⟨b, w, hb, hk, ht, hg⟩
    exact ⟨b, w, hb, Nat.lt_of_le_of_lt hb.size_le hb.size_lt, hk, ht, hg⟩

theorem not_beginsComparison_rightParen (h : s.current.kind = .mark .rightParen) :
    ¬beginsComparison s.current.kind = true := by
  rw [h]
  decide

theorem not_gives_value_of_grouped {p : Rule n Predicate} {paren : Token} {v : Expression} :
    ¬(p >>= fun inner => do
      let _ ← expect (.mark .rightParen)
      return Operand.predicate (.grouped paren inner)).Gives s (.value v) t := by
  rw [gives_bind]
  rintro ⟨b, w, -, h⟩
  cases (gives_expect_bind_pure.1 h).2.2.2

/-- A group whose content does not begin with `SELECT` holds an expression. -/
theorem gives_group {paren : Token} {v : Expression} (hk : s.current.kind ≠ .keyword .SELECT) :
    (group (rules n) paren).Gives s v t ↔ ∃ e u inner w, (rules n).primary.Gives s e u ∧
      (climbExpression (rules n).primary e).Gives u inner w ∧
      w.current.kind = .mark .rightParen ∧ w.advance = .ok t ∧ .grouped paren inner = v := by
  rw [group, gives_kind_bind, if_neg hk, gives_bind, expression_rules, expression]
  simp only [gives_bind (p := (rules n).primary), gives_expect_bind_pure]
  constructor
  · rintro ⟨inner, w, ⟨e, u, he, hi⟩, -, hk, ht, hv⟩
    exact ⟨e, u, inner, w, he, hi, hk, ht, hv⟩
  · rintro ⟨e, u, inner, w, he, hi, hk, ht, hv⟩
    exact ⟨inner, w, ⟨e, u, he, hi⟩, Nat.lt_of_le_of_lt hi.size_le hi.size_lt, hk, ht, hv⟩

/-- The content of a parenthesis is read as a value exactly if it is one in an expression. -/
theorem gives_parenthesizedFrom_value {paren : Token} {v : Expression}
    (ih : ∀ e t, s.current.kind = .mark .leftParen →
      ((rules n).parenthesized.Gives s (.value e) t ↔ (rules n).primary.Gives s e t)) :
    (parenthesizedFrom (rules n) paren).Gives s (.value v) t ↔
      (group (rules n) paren).Gives s v t := by
  have hopening : ∀ e t, (opening (rules n) s.current.kind).Gives s (.value e) t ↔
      (rules n).primary.Gives s e t := by
    intro e t
    rw [opening]
    split
    · exact ih e t ‹_›
    · simp [gives_map]
  by_cases hs : s.current.kind = .keyword .SELECT
  · rw [parenthesizedFrom, group, gives_kind_bind, gives_kind_bind, hs, if_pos rfl]
    simp only [gives_bind (p := (rules n).select), gives_expect_bind_pure, Operand.value.injEq]
  · rw [gives_group hs]
    by_cases hn : s.current.kind = .keyword .NOT
    · rw [parenthesizedFrom, gives_kind_bind, hn]
      refine iff_of_false not_gives_value_of_grouped ?_
      rintro ⟨e, u, inner, w, he, -⟩
      exact (gives_primary_opens he).2.1 hn
    · by_cases he : s.current.kind = .keyword .EXISTS
      · rw [parenthesizedFrom, gives_kind_bind, he]
        refine iff_of_false not_gives_value_of_grouped ?_
        rintro ⟨e, u, inner, w, hp, -⟩
        exact (gives_primary_opens hp).2.2 he
      · rw [gives_parenthesizedFrom_opening hs hn he]
        constructor
        · rintro ⟨f, u, inner, w, hf, hi, hk, ht, ho⟩
          cases inner with
          | predicate p => cases ho
          | value inner =>
              cases ho
              obtain ⟨e, rfl, hi, -⟩ := gives_operandRest_value.1 hi
              exact ⟨e, u, inner, w, (hopening e u).1 hf, hi, hk, ht, rfl⟩
        · rintro ⟨e, u, inner, w, he, hi, hk, ht, rfl⟩
          exact ⟨.value e, u, .value inner, w, (hopening e u).2 he, gives_operandRest_value.2
            ⟨e, rfl, hi, not_beginsComparison_rightParen hk⟩, hk, ht, rfl⟩

theorem not_gives_predicate_select {p : Predicate} (hs : s.current.kind = .keyword .SELECT) :
    ¬(rules n).predicate.Gives s p t := by
  rw [predicate_rules, predicate, gives_bind]
  rintro ⟨c, u, hc, -⟩
  rw [gives_predicatePrimary_opening (by simp [hs]) (by simp [hs]), opening, hs,
    if_neg (by decide)] at hc
  obtain hc | ⟨e, w, v, x, he, -⟩ := hc
  · simp [gives_map] at hc
  · obtain ⟨e', he, -⟩ := gives_map.1 he
    exact (gives_primary_opens he).1 hs

/-- The content of a parenthesis is read as a predicate exactly if it is one. -/
theorem gives_parenthesizedFrom_predicate {paren : Token} {g : Predicate} :
    (parenthesizedFrom (rules n) paren).Gives s (.predicate g) t ↔
      (enclosed (rules n) paren).Gives s g t := by
  have hworded : ((rules n).predicate >>= fun inner => do
      let _ ← expect (.mark .rightParen)
      return Operand.predicate (.grouped paren inner)).Gives s (.predicate g) t ↔
      (enclosed (rules n) paren).Gives s g t := by
    simp only [enclosed, gives_bind (p := (rules n).predicate), gives_expect_bind_pure,
      Operand.predicate.injEq]
  -- The first token decides. With `NOT` or `EXISTS` the rule goes on as a grouped predicate
  -- does, with `SELECT` neither gives a predicate, and else it starts from an operand.
  by_cases hn : s.current.kind = .keyword .NOT
  · rw [parenthesizedFrom, gives_kind_bind, hn]
    exact hworded
  · by_cases he : s.current.kind = .keyword .EXISTS
    · rw [parenthesizedFrom, gives_kind_bind, he]
      exact hworded
    · by_cases hs : s.current.kind = .keyword .SELECT
      · rw [parenthesizedFrom, gives_kind_bind, hs, gives_enclosed]
        refine iff_of_false ?_ ?_
        · rw [gives_bind]
          rintro ⟨select, w, -, h⟩
          cases (gives_expect_bind_pure.1 h).2.2.2
        · rintro ⟨b, w, hb, -⟩
          exact not_gives_predicate_select hs hb
      · rw [gives_parenthesizedFrom_opening hs hn he, gives_enclosed, predicate_rules, predicate]
        simp only [gives_bind (p := (rules n).predicatePrimary),
          gives_predicatePrimary_opening hn he]
        constructor
        · rintro ⟨f, u, inner, w, hf, hi, hk, ht, ho⟩
          cases inner with
          | value v => cases ho
          | predicate b =>
              cases ho
              obtain ⟨c, rfl, hb⟩ | ⟨e, v, x, c, y, rfl, hv, hc, hb⟩ :=
                gives_operandRest_predicate.1 hi
              · exact ⟨b, w, ⟨c, u, .inl hf, hb⟩, hk, ht, rfl⟩
              · exact ⟨b, w, ⟨c, y, .inr ⟨e, u, v, x, hf, hv, hc⟩, hb⟩, hk, ht, rfl⟩
        · rintro ⟨b, w, ⟨c, y, hf | ⟨e, u, v, x, hf, hv, hc⟩, hb⟩, hk, ht, rfl⟩
          · exact ⟨.predicate c, y, .predicate b, w, hf,
              gives_operandRest_predicate.2 (.inl ⟨c, rfl, hb⟩), hk, ht, rfl⟩
          · exact ⟨.value e, u, .predicate b, w, hf,
              gives_operandRest_predicate.2 (.inr ⟨e, v, x, c, y, rfl, hv, hc, hb⟩), hk, ht, rfl⟩

theorem gives_parenthesized_value {e : Expression} (hs : s.current.kind = .mark .leftParen) :
    (rules n).parenthesized.Gives s (.value e) t ↔ (rules n).primary.Gives s e t := by
  induction n generalizing s e t with
  | zero =>
      constructor
      · intro h
        exact absurd h.size_lt (Nat.not_lt_zero _)
      · intro h
        exact absurd h.size_lt (Nat.not_lt_zero _)
  | succ n ih =>
      have hprimary : (primary (rules n)).Gives s e t ↔ (take (group (rules n))).Gives s e t := by
        rw [primary, gives_kind_bind, hs]
        rfl
      rw [parenthesized_rules_succ, primary_rules_succ, hprimary, parenthesized,
        gives_begin (by decide), gives_take]
      simp only [hs, true_and, ne_eq, reduceCtorEq, not_false_eq_true]
      simp only [gives_parenthesizedFrom_value fun e t hk => ih hk]

theorem gives_parenthesized_predicate {g : Predicate} (hs : s.current.kind = .mark .leftParen) :
    (rules (n + 1)).parenthesized.Gives s (.predicate g) t ↔
      (take (enclosed (rules n))).Gives s g t := by
  rw [parenthesized_rules_succ, parenthesized, gives_begin (by decide), gives_take]
  simp only [hs, true_and, ne_eq, reduceCtorEq, not_false_eq_true,
    gives_parenthesizedFrom_predicate]

end Transact.Grammar
