import Transact.Proofs.Layout.Name
import Transact.Proofs.Sound.Expression

namespace Transact.Grammar

open Rule Rule.Ensures

variable {n : Nat} {s t : Stream} {m : Multiset Word} {R : Rules n}

/-- The value behind `TOP` stands in parentheses, or it admits the token behind it. -/
theorem accounts_top (hR : R.Sound) (parenthesized : Bool) :
    (top R parenthesized).Accounts (fun _ e u => OptionalExpression.Formed e ∧
      ∀ x, e = some x → if parenthesized then x.isParenthesized = true
        else x.Admits u.current.kind) (OptionalExpression.words .TOP) := by
  intro s t m h
  refine (spend_eat (.keyword .TOP) rfl h).bind fun found u hu => ?_
  obtain ⟨rfl, hu⟩ | ⟨rfl, rfl, -⟩ := hu
  · rw [if_pos rfl]
    cases parenthesized with
    | true =>
        refine Ensures.kind ?_
        dsimp only
        split
        · rename_i hk
          refine (hR.primary hu).bind fun e v hv => Ensures.pure ⟨⟨hv.1.1.1, ?_⟩, hv.2.cast ?_⟩
          · rintro _ ⟨⟩
            exact hv.1.2 hk
          · rw [OptionalExpression.words, Word.bag_cons, add_assoc]
            rfl
        · exact Ensures.expected trivial
    | false =>
        refine (hR.expression hu).bind fun e v hv => Ensures.pure ⟨⟨hv.1.1, ?_⟩, hv.2.cast ?_⟩
        · rintro _ ⟨⟩
          exact hv.1.2
        · rw [OptionalExpression.words, Word.bag_cons, add_assoc]
          rfl
  · exact Ensures.pure ⟨⟨trivial, by simp⟩, h.cast (by simp [OptionalExpression.words])⟩

theorem accounts_filter (hR : R.Sound) :
    (filter R).Accounts (fun _ p _ => OptionalPredicate.Formed p)
      (OptionalPredicate.words .WHERE) := by
  intro s t m h
  refine (spend_eat (.keyword .WHERE) rfl h).bind fun found u hu => ?_
  obtain ⟨rfl, hu⟩ | ⟨rfl, rfl, -⟩ := hu
  · refine (hR.predicate hu).bind fun p v hv => Ensures.pure ⟨hv.1, hv.2.cast ?_⟩
    rw [OptionalPredicate.words, Word.bag_cons, add_assoc]
    rfl
  · exact Ensures.pure ⟨trivial, h.cast (by simp [OptionalPredicate.words])⟩

theorem accounts_condition (hR : R.Sound) (join : Join) :
    (condition R join).Accounts
      (fun _ p _ => OptionalPredicate.Formed p ∧ p.isSome = join.needsCondition)
      (OptionalPredicate.words .ON) := by
  intro s t m h
  rw [condition]
  split
  · rename_i hneeds
    refine (spend_expect (.keyword .ON) rfl h).bind fun _ u hu => ?_
    refine (hR.predicate hu).bind fun p v hv => Ensures.pure ⟨⟨hv.1, hneeds.symm⟩, hv.2.cast ?_⟩
    rw [OptionalPredicate.words, Word.bag_cons, add_assoc]
    rfl
  · rename_i hneeds
    exact Ensures.pure ⟨⟨trivial, (Bool.eq_false_iff.2 hneeds).symm⟩,
      h.cast (by simp [OptionalPredicate.words])⟩

theorem starTable?_eq_some {e : Expression} {table : String} (he : e.Formed)
    (h : starTable? e = some table) :
    ∃ parts, table = Reference.identifier ⟨.nowhere, parts⟩ ∧
      Reference.Formed ⟨.nowhere, parts⟩ ∧
      e.words = Reference.dotted parts ++ [Word.mark .dot] := by
  cases e with
  | reference name =>
      obtain ⟨origin, parts⟩ := name
      simp only [starTable?] at h
      split at h
      · rename_i hcond
        simp only [Bool.and_eq_true, decide_eq_true_eq, String.isEmpty_iff] at hcond
        obtain ⟨hlength, hlast⟩ := hcond
        have hne : parts ≠ [] := by
          rintro rfl
          cases hlength
        have hsplit : parts.dropLast ++ [""] = parts := by
          have hl : parts.getLast hne = "" := by
            rw [← hlast, Reference.objectName, List.getLastD_eq_getLast?,
              List.getLast?_eq_some_getLast hne]
            rfl
          rw [← hl, List.dropLast_append_getLast hne]
        obtain ⟨hpart, part, hp, hempty⟩ := he
        dsimp only at hpart hp
        refine ⟨parts.dropLast, (Option.some.inj h).symm,
          ⟨fun p hp => hpart p (List.dropLast_subset _ hp), part, ?_, hempty⟩, ?_⟩
        · rw [← hsplit] at hp
          obtain hp | hp := List.mem_append.1 hp
          · exact hp
          · exact absurd (List.mem_singleton.1 hp) hempty
        · have hdrop : parts.dropLast ≠ [] := by
            intro h0
            rw [h0] at hsplit
            rw [← hsplit] at hlength
            cases hlength with
            | step h => cases h
          rw [Expression.words, Reference.words]
          conv => lhs; rw [← hsplit, Reference.dotted_concat hdrop]
          rfl
      · cases h
  | _ => cases h

theorem leadingAlias?_eq_some {e : Expression} {text : String} (he : e.Formed)
    (h : leadingAlias? e = some text) : IsAlias true text ∧ e.words = Text.words text := by
  cases e with
  | reference name =>
      obtain ⟨origin, parts⟩ := name
      simp only [leadingAlias?] at h
      split at h
      · rename_i hcond
        simp only [Bool.and_eq_true, Reference.isSingle, beq_iff_eq, Bool.not_eq_true',
          List.length_eq_one_iff] at hcond
        obtain ⟨⟨part, rfl⟩, hne⟩ := hcond
        have hempty : part ≠ "" := by
          rintro rfl
          cases hne
        obtain rfl := Option.some.inj h
        obtain hp | ⟨hname, hk⟩ := he.1 part (by simp)
        · exact absurd hp hempty
        · have hid : Reference.identifier ⟨origin, [part]⟩ = part := String.ofList_toList
          rw [hid, Text.words_name hname]
          exact ⟨.inl ⟨hname, hk⟩, if_neg hempty⟩
      · cases h
  | constant origin c =>
      cases c with
      | varchar t =>
          cases h
          rw [Text.words_quote]
          exact ⟨.inr ⟨rfl, t, rfl⟩, rfl⟩
      | _ => cases h
  | _ => cases h

theorem accounts_column (hR : R.Sound) :
    (column R).Accounts (fun _ c _ => c.Formed ∧ c.isAssignment = false) Column.words := by
  intro s t m h
  refine Ensures.current ?_
  refine (spend_eat (.mark .star) rfl h).bind fun found u hu => ?_
  obtain ⟨rfl, hu⟩ | ⟨rfl, rfl, -⟩ := hu
  · exact Ensures.pure ⟨⟨trivial, rfl⟩, hu.cast (by simp [Column.words, Kind.word])⟩
  · have hprimary := hR.primary.imp fun _ _ _ he => he.1
    refine (hprimary h).bind fun first u hu => ?_
    obtain ⟨hfirst, hu⟩ := hu
    refine Ensures.kind ?_
    split
    · rename_i table hk htable
      obtain ⟨parts, rfl, hformed, hwords⟩ := starTable?_eq_some hfirst.1 htable
      refine (spend_advance_fixed (.mark .star) rfl hk hu).bind fun _ v hv =>
        Ensures.pure ⟨⟨⟨parts, rfl, hformed⟩, rfl⟩, hv.cast ?_⟩
      rw [hwords, Column.words, hformed.words_identifier]
      simp [Reference.words, Kind.word, add_assoc]
    · rename_i _ text hk halias
      obtain ⟨hisAlias, hwords⟩ := leadingAlias?_eq_some hfirst.1 halias
      refine (spend_advance_fixed (.mark .eq) rfl hk hu).bind fun _ v hv => ?_
      refine (hR.expression hv).bind fun e w hw => Ensures.pure ⟨⟨⟨hw.1.1, ?_⟩, rfl⟩, hw.2.cast ?_⟩
      · rintro _ ⟨⟩
        exact hisAlias
      · rw [hwords]
        simp only [Column.words, Word.aliased, Word.bag_append, Word.bag_cons, Word.count_as,
          Word.count_eq, Kind.word]
        abel
    · refine (accounts_climbExpression hprimary hfirst hu).bind fun e v hv => ?_
      refine (accounts_aliasName true hv.2).bind fun name w hw =>
        Ensures.pure ⟨⟨⟨hv.1.1, hw.1⟩, rfl⟩, hw.2.cast ?_⟩
      rw [Column.words, Word.bag_append, add_assoc]

theorem spend_eatApply (h : s.Spends t m) :
    (eatApply : Rule n Bool).Ensures t (fun found u =>
      (found = true ∧ s.Spends u (m + Word.count (Word.name "APPLY"))) ∨
        (found = false ∧ u = t)) True := by
  refine Ensures.current ?_
  split
  · rename_i hcond
    obtain ⟨hk, hword⟩ := hcond
    have hne : t.current.kind ≠ .eof := by simp [hk]
    have hl := h.isLexical_current hne
    refine (spend_advance hne h).bind fun _ u hu => Ensures.pure (.inl ⟨rfl, hu.2.cast ?_⟩)
    have hkind := (Token.kind_eq hl (.inl hk)).trans hk
    have happly : Kind.ofWord "APPLY" = .identifier := by decide +kernel
    rw [(Token.isName hl (.inl hk)).2, Word.count_identifier hkind, Word.count_identifier happly,
      beq_iff_eq.1 hword]
  · exact Ensures.pure (.inr ⟨rfl, rfl⟩)

theorem accounts_joinFrom {k : Kind} {joined : Rule n Join} (hj : joinFrom? k = some joined)
    (h : s.Spends t (m + Word.count k.word)) :
    joined.Ensures t (fun j u => j ≠ .first ∧ s.Spends u (m + Word.bag j.words)) True := by
  have houter {j : Join} {w : Word} (hfirst : j ≠ .first)
      (hw : Word.bag j.words = Word.count w + Word.count (Word.keyword .JOIN))
      (h : s.Spends t (m + Word.count w)) :
      (outerJoin j : Rule n Join).Ensures t
        (fun j u => j ≠ .first ∧ s.Spends u (m + Word.bag j.words)) True := by
    refine (spend_eat (.keyword .OUTER) rfl h).bind fun found u hu => ?_
    have hu : s.Spends u (m + Word.count w) := by
      obtain ⟨-, hu⟩ | ⟨-, rfl, -⟩ := hu
      · exact hu.cast (by simp [Kind.word])
      · exact h
    refine (spend_expect (.keyword .JOIN) rfl hu).bind fun _ v hv =>
      Ensures.pure ⟨hfirst, hv.cast ?_⟩
    rw [hw, add_assoc]
    rfl
  rw [joinFrom?.eq_def] at hj
  split at hj
  · cases hj
    exact Ensures.pure ⟨by simp, h.cast (by simp [Join.words, Kind.word])⟩
  · cases hj
    refine (spend_expect (.keyword .JOIN) rfl h).bind fun _ u hu =>
      Ensures.pure ⟨by simp, hu.cast (by simp [Join.words, Kind.word])⟩
  · cases hj
    exact houter (by simp) (by simp [Join.words, Kind.word]) h
  · cases hj
    exact houter (by simp) (by simp [Join.words, Kind.word]) h
  · cases hj
    exact houter (by simp) (by simp [Join.words, Kind.word]) h
  · cases hj
    refine (spend_eat (.keyword .JOIN) rfl h).bind fun found u hu => ?_
    obtain ⟨rfl, hu⟩ | ⟨rfl, rfl, -⟩ := hu
    · exact Ensures.pure ⟨by simp, hu.cast (by simp [Join.words, Kind.word, add_assoc])⟩
    · refine (spend_eatApply h).bind fun found v hv => ?_
      obtain ⟨rfl, hv⟩ | ⟨rfl, -⟩ := hv
      · exact Ensures.pure ⟨by simp, hv.cast (by simp [Join.words, Kind.word, add_assoc])⟩
      · exact Ensures.expected trivial
  · cases hj
    refine (spend_eatApply h).bind fun found v hv => ?_
    obtain ⟨rfl, hv⟩ | ⟨rfl, -⟩ := hv
    · exact Ensures.pure ⟨by simp, hv.cast (by simp [Join.words, Kind.word])⟩
    · exact Ensures.expected trivial
  · cases hj

theorem accounts_source (hR : R.Sound) (join : Join)
    (h : s.Spends t (m + Word.bag join.words)) :
    (source R join).Ensures t (fun v u =>
      (v.Formed ∧ v.join = join) ∧ s.Spends u (m + Word.bag v.words)) True := by
  refine Ensures.current ?_
  refine (spend_eat (.mark .leftParen) rfl h).bind fun found u hu => ?_
  obtain ⟨rfl, hu⟩ | ⟨rfl, rfl, -⟩ := hu
  · refine (hR.select hu).bind fun select v hv => ?_
    refine spend_close hv.2 fun w hw => ?_
    refine (accounts_aliasName false hw).bind fun name x hx => ?_
    refine (accounts_condition hR join hx.2).bind fun on y hy =>
      Ensures.pure ⟨⟨⟨hv.1, hx.1, hy.1⟩, rfl⟩, hy.2.cast ?_⟩
    simp only [Source.words, SubquerySource.words, Word.bag_append]
    abel
  · refine (accounts_reference h).bind fun table v hv => ?_
    refine (accounts_aliasName false hv.2).bind fun name x hx => ?_
    refine (accounts_hints true hx.2).bind fun found y hy => ?_
    refine (accounts_condition hR join hy.2).bind fun on z hz =>
      Ensures.pure ⟨⟨⟨hv.1.1, hx.1, hz.1⟩, rfl⟩, hz.2.cast ?_⟩
    simp only [Source.words, TableSource.words, Word.bag_append]
    abel

theorem Sources.bag_words_concat (clause : Keyword) {ss : List Source} (h : ss ≠ [])
    (v : Source) : Word.bag (Sources.words clause (ss ++ [v])) =
      Word.bag (Sources.words clause ss) + Word.bag v.words := by
  obtain ⟨first, rest, rfl⟩ := List.exists_cons_of_ne_nil h
  simp only [List.cons_append, Sources.words, Sources.joined_eq, List.map_append,
    List.flatten_append, Word.bag_cons, Word.bag_append, List.map_singleton, List.flatten_singleton]
  abel

theorem Sources.joined_concat {ss : List Source} (h : Sources.Joined ss) (hne : ss ≠ [])
    {v : Source} (hv : v.join ≠ .first) : Sources.Joined (ss ++ [v]) := by
  obtain ⟨first, rest, rfl⟩ := List.exists_cons_of_ne_nil hne
  refine ⟨h.1, fun x hx => ?_⟩
  obtain hx | hx := List.mem_append.1 hx
  · exact h.2 x hx
  · rwa [List.mem_singleton.1 hx]

theorem accounts_sources (hR : R.Sound) :
    (sources R).Accounts (fun _ ss _ => Sources.Formed ss ∧ Sources.Joined ss)
      (Sources.words .FROM) := by
  intro s t m h
  refine (spend_eat (.keyword .FROM) rfl h).bind fun found u hu => ?_
  obtain ⟨rfl, hu⟩ | ⟨rfl, rfl, -⟩ := hu
  · have hsource := accounts_source hR .first (hu.cast (show _ = m + Word.bag (Join.words .first) by
      simp [Join.words, Kind.word]))
    refine hsource.bind fun first v hv => ?_
    refine Ensures.imp (Ensures.loop (fun ss w =>
      (ss ≠ [] ∧ Sources.Formed ss ∧ Sources.Joined ss) ∧
      s.Spends w (m + Word.bag (Sources.words .FROM ss))) ?_ ?_) fun ss w hw => ⟨hw.1.1.2, hw.1.2⟩
    · rintro ss w f x ⟨⟨hne, hformed, hjoined⟩, hw⟩ hstep hk hx
      obtain ⟨joined, hj, rfl⟩ := Option.map_eq_some_iff.1 hstep
      have hfixed : w.current.kind.isFixed = true := by
        rw [joinFrom?.eq_def] at hj
        split at hj
        all_goals first | rename_i hk; rw [hk]; rfl | cases hj
      refine (accounts_joinFrom hj (hw.step_fixed _ hfixed rfl hx)).bind fun join y hy => ?_
      refine (accounts_source hR join hy.2).bind fun v z hz =>
        Ensures.pure ⟨⟨by simp, ?_, ?_⟩, hz.2.cast ?_⟩
      · rw [Sources.formed_iff] at hformed ⊢
        simp only [List.mem_append, List.mem_singleton]
        rintro a (ha | rfl)
        · exact hformed a ha
        · exact hz.1.1
      · exact Sources.joined_concat hjoined hne (hz.1.2 ▸ hy.1)
      · rw [Sources.bag_words_concat _ hne, add_assoc]
    · refine ⟨⟨List.cons_ne_nil _ _, ⟨hv.1.1, trivial⟩, hv.1.2, by simp⟩, hv.2.cast ?_⟩
      simp [Sources.words, Sources.joined]
  · exact Ensures.pure ⟨⟨trivial, trivial⟩, h.cast (by simp [Sources.words])⟩

theorem accounts_selectFrom (hR : R.Sound) (origin : Token)
    (h : s.Spends t (m + Word.count (Word.keyword .SELECT))) :
    (selectFrom R origin).Ensures t (fun v u =>
      (v.Formed ∧ v.terminated = false) ∧ s.Spends u (m + Word.bag v.words)) True := by
  refine (accounts_top hR true h).bind fun top u hu => ?_
  refine (accounts_commaSeparated (accounts_column hR) hu.2).bind fun columns v hv => ?_
  refine (accounts_sources hR hv.2).bind fun sources w hw => ?_
  refine (accounts_filter hR hw.2).bind fun filter x hx => Ensures.pure ⟨⟨?_, rfl⟩, hx.2.cast ?_⟩
  · exact ⟨⟨hu.1.1, fun e he => hu.1.2 e he⟩, ⟨hv.1.1,
      (Columns.formed_iff columns).2 fun c hc => (hv.1.2 c hc).1, fun c hc => (hv.1.2 c hc).2⟩,
      hw.1, hx.1⟩
  · simp only [Select.words, Word.bag_append, Word.bag_cons, Columns.words_eq, Word.terminator,
      Bool.false_eq_true, if_false, Word.bag_nil]
    abel

theorem accounts_select (hR : R.Sound) :
    (select R).Accounts (fun _ v _ => v.Formed ∧ v.terminated = false) Select.words := by
  intro s t m h
  refine Ensures.begin nofun (fun hk u hu => ?_) (fun _ => trivial) fun _ _ => trivial
  exact accounts_selectFrom hR _ (h.step_fixed _ rfl hk hu)

end Transact.Grammar
