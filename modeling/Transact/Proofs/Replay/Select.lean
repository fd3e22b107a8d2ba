import Transact.Proofs.Replay.Expression
import Transact.Proofs.Sound.Select

namespace Transact

namespace Kind

def endsSource : Kind → Bool
  | .keyword .WHERE | .keyword .JOIN | .keyword .INNER | .keyword .LEFT | .keyword .RIGHT
  | .keyword .FULL | .keyword .CROSS | .keyword .OUTER => true
  | k => k.endsClauses

def endsColumns : Kind → Bool
  | .keyword .FROM | .keyword .WHERE => true
  | k => k.endsClauses

def endsColumn (k : Kind) : Bool := k = .mark .comma || k.endsColumns

variable {k : Kind}

def EndsPredicate (k : Kind) : Prop := k.endsValue = true ∧ LogicalOperator.ofKind? k = none

theorem endsPredicate_of_endsClauses (h : k.endsClauses = true) : k.EndsPredicate := by
  rw [endsClauses.eq_def] at h
  split at h
  all_goals first | exact ⟨rfl, rfl⟩ | cases h

theorem endsName_of_endsClauses (h : k.endsClauses = true) : k.endsName = true := by
  rw [endsClauses.eq_def] at h
  split at h
  all_goals first | rfl | cases h

theorem endsPredicate_of_endsSource (h : k.endsSource = true) : k.EndsPredicate := by
  rw [endsSource.eq_def] at h
  split at h
  all_goals first | exact ⟨rfl, rfl⟩ | exact endsPredicate_of_endsClauses h

theorem of_endsColumn (h : k.endsColumn = true) : k.endsValue = true ∧ k.endsName = true := by
  obtain hk | hk := Bool.or_eq_true_iff.1 h
  · rw [of_decide_eq_true hk]
    exact ⟨rfl, rfl⟩
  · rw [endsColumns.eq_def] at hk
    split at hk
    · exact ⟨rfl, rfl⟩
    · exact ⟨rfl, rfl⟩
    · exact ⟨(endsPredicate_of_endsClauses hk).1, endsName_of_endsClauses hk⟩

theorem endsName_of_endsSource (h : k.endsSource = true) : k.endsName = true := by
  rw [endsSource.eq_def] at h
  split at h
  all_goals first | rfl | exact endsName_of_endsClauses h

theorem ne_of_eq_true {f : Kind → Bool} {k' : Kind} (h : f k = true) (hk : f k' = false) :
    k ≠ k' := by
  rintro rfl
  exact Bool.false_ne_true (hk.symm.trans h)

end Kind

namespace Word

variable {f : Kind → Bool} {ws : List Word}

theorem headKind_aliased (name : Option String) (hf : f (.keyword .AS) = true)
    (h : f (headKind ws) = true) : f (headKind (aliased name ++ ws)) = true := by
  cases name with
  | none => exact h
  | some text => exact hf

theorem headKind_hinted (hints : List TableHint) (hf : f (.keyword .WITH) = true)
    (h : f (headKind ws) = true) : f (headKind (hinted hints ++ ws)) = true := by
  rw [hinted]
  split
  · exact h
  · exact hf

theorem headKind_predicate (clause : Keyword) (p : Option Predicate)
    (hf : f (.keyword clause) = true) (h : f (headKind ws) = true) :
    f (headKind (OptionalPredicate.words clause p ++ ws)) = true := by
  cases p with
  | none => exact h
  | some p => exact hf

theorem headKind_sources (clause : Keyword) (ss : List Source)
    (hf : f (.keyword clause) = true) (h : f (headKind ws) = true) :
    f (headKind (Sources.words clause ss ++ ws)) = true := by
  cases ss with
  | nil => exact h
  | cons s ss => exact hf

end Word

def Source.entry : Source → List Word
  | .table ⟨_, name, aliasName, _, hints, condition⟩ =>
    name.words ++ (Word.aliased aliasName ++ (Word.hinted hints ++
      OptionalPredicate.words .ON condition))
  | .subquery ⟨_, select, aliasName, _, condition⟩ =>
    Word.enclosed select.words ++ (Word.aliased aliasName ++
      OptionalPredicate.words .ON condition)

theorem Source.words_eq (s : Source) : s.words = s.join.words ++ s.entry := by
  cases s with
  | table s =>
      obtain ⟨_, _, _, _, _, _⟩ := s
      rw [words, TableSource.words]
      rfl
  | subquery s =>
      obtain ⟨_, _, _, _, _⟩ := s
      rw [words, SubquerySource.words]
      rfl

theorem Column.Formed.head {c : Column} (hc : c.Formed) (h : c.isAssignment = false) :
    ∃ w vs, c.words = w :: vs ∧ (w.1.beginsOperand = true ∨ w.1 = .mark .star) := by
  cases c with
  | star token table =>
      cases table with
      | none => exact ⟨_, _, rfl, .inr rfl⟩
      | some table =>
          obtain ⟨parts, rfl, hr⟩ := hc
          obtain ⟨w, vs, hw, hk⟩ := hr.head
          refine ⟨w, vs ++ [Word.mark .dot, Word.mark .star], ?_, .inl ?_⟩
          · rw [words, hr.words_identifier, hw, List.cons_append]
          · obtain hk | rfl := hk
            · rw [hk]
              rfl
            · rfl
  | value token e aliasName =>
      obtain ⟨w, vs, hw, hb, -⟩ := hc.1.head
      exact ⟨w, vs ++ Word.aliased aliasName, by rw [words, hw, List.cons_append], .inl hb⟩
  | assignment => cases h

theorem Columns.clean_iff (cs : List Column) :
    Clean (Columns.visits cs) ↔ ∀ c ∈ cs, Clean c.visits := by
  induction cs with
  | nil => simp [Columns.visits]
  | cons c cs ih => simp [Columns.visits, ih]

theorem Column.clean_value {token : Token} {e : Expression} {aliasName : Option String} :
    Clean (value token e aliasName).visits ↔ e.isCaptured = false ∧ Clean e.visits := by
  simp [visits, Visit.isCaptured]

namespace Grammar

open Rule Rule.Ensures

variable {n : Nat} {s t : Stream} {ws : List Word} {R : Rules n} {fault : Prop}

theorem holds_top (hR : R.Complete) {parenthesized : Bool} {e : Option Expression}
    (hf : OptionalExpression.Formed e) (he : ∀ x, e = some x → if parenthesized then
      x.isParenthesized = true else x.Admits (Word.headKind ws))
    (hk : Word.headKind ws ≠ .keyword .TOP)
    (h : s.Holds (OptionalExpression.words .TOP e ++ ws)) :
    (top R parenthesized).Ensures s (fun u t => Clean (OptionalExpression.visits e) ∧
      OptionalExpression.rename .bare u = OptionalExpression.rename .bare e ∧ t.Holds ws)
      (¬Clean (OptionalExpression.visits e)) := by
  cases e with
  | none =>
      rw [← show s.current.kind = Word.headKind ws from h.kind] at hk
      refine eat_miss hk ?_
      exact Ensures.pure ⟨clean_nil, rfl, h⟩
  | some e =>
      refine holds_eat h rfl fun t ht => ?_
      have hx := he e rfl
      rw [if_pos rfl]
      cases parenthesized with
      | true =>
          have hparen : t.current.kind = .mark .leftParen := by
            rw [ht.kind]
            cases e <;> first | rfl | cases hx
          refine Ensures.kind ?_
          rw [if_pos hparen]
          refine follow (hR.primary ⟨⟨hf, Expression.tier_of_isParenthesized hx⟩,
            Expression.endsBefore_of_isParenthesized hx _⟩ ht) id
            fun u v hc hu => Ensures.pure ⟨hc, ?_, hu.2⟩
          rw [OptionalExpression.rename, OptionalExpression.rename, hu.1]
      | false =>
          refine follow (hR.expression ⟨hf, hx⟩ ht) id
            fun u v hc hu => Ensures.pure ⟨hc, ?_, hu.2⟩
          rw [OptionalExpression.rename, OptionalExpression.rename, hu.1]

theorem holds_filter (hR : R.Complete) {p : Option Predicate} (hf : OptionalPredicate.Formed p)
    (hk : (Word.headKind ws).endsClauses = true)
    (h : s.Holds (OptionalPredicate.words .WHERE p ++ ws)) :
    (filter R).Ensures s (fun u t => Clean (OptionalPredicate.visits p) ∧
      OptionalPredicate.rename .bare u = OptionalPredicate.rename .bare p ∧ t.Holds ws)
      (¬Clean (OptionalPredicate.visits p)) := by
  cases p with
  | none =>
      have hne : s.current.kind ≠ .keyword .WHERE := by
        rw [h.kind]
        exact Kind.ne_of_eq_true hk rfl
      refine eat_miss hne ?_
      exact Ensures.pure ⟨clean_nil, rfl, h⟩
  | some p =>
      refine holds_eat h rfl fun t ht => ?_
      refine follow (hR.predicate ⟨hf, Kind.endsPredicate_of_endsClauses hk⟩ ht) id
        fun u v hc hu => Ensures.pure ⟨hc, ?_, hu.2⟩
      rw [OptionalPredicate.rename, OptionalPredicate.rename, hu.1]

theorem filter_stuck (h : s.Stuck) : (filter R).Ensures s (fun _ t => t.Stuck) fault := by
  refine eat_miss (h.ne rfl) ?_
  exact Ensures.pure h

theorem holds_condition (hR : R.Complete) {join : Join} {p : Option Predicate}
    (hf : OptionalPredicate.Formed p) (hp : p.isSome = join.needsCondition)
    (hk : (Word.headKind ws).endsSource = true)
    (h : s.Holds (OptionalPredicate.words .ON p ++ ws)) :
    (condition R join).Ensures s (fun u t => Clean (OptionalPredicate.visits p) ∧
      OptionalPredicate.rename .bare u = OptionalPredicate.rename .bare p ∧ t.Holds ws)
      (¬Clean (OptionalPredicate.visits p)) := by
  rw [condition]
  cases p with
  | none =>
      rw [← hp]
      exact Ensures.pure ⟨clean_nil, rfl, h⟩
  | some p =>
      rw [← hp, Option.isSome_some, if_pos rfl]
      refine (holds_expect h rfl).bind fun _ t ht => ?_
      refine follow (hR.predicate ⟨hf, Kind.endsPredicate_of_endsSource hk⟩ ht) id
        fun u v hc hu => Ensures.pure ⟨hc, ?_, hu.2⟩
      rw [OptionalPredicate.rename, OptionalPredicate.rename, hu.1]

theorem holds_tableSource (hR : R.Complete) {v : TableSource} (hf : v.Formed)
    (hk : (Word.headKind ws).endsSource = true) (h : s.Holds ((Source.table v).entry ++ ws)) :
    (source R v.join).Ensures s
      (fun u t => Clean v.visits ∧ u.rename .bare = (Source.table v).rename .bare ∧ t.Holds ws)
      (¬Clean v.visits) := by
  obtain ⟨token, name, aliasName, join, hints, condition⟩ := v
  obtain ⟨hformed, halias, hcondition, hjoin⟩ := hf
  have hvalue := (Kind.endsPredicate_of_endsSource hk).1
  have hname := Kind.endsName_of_endsSource hk
  have hclean : Clean (TableSource.visits ⟨token, name, aliasName, join, hints, condition⟩) ↔
      Clean (OptionalPredicate.visits condition) := by
    simp [TableSource.visits, Visit.isCaptured]
  rw [hclean]
  simp only [Source.entry, List.append_assoc] at h
  have hopen : s.current.kind ≠ .mark .leftParen := by
    rw [h.kind]
    exact hformed.headKind_ne (by decide) (by decide) _
  refine Ensures.current (eat_miss hopen ?_)
  refine (holds_reference hformed (name.endsBefore_of_endsValue ?_) h).bind fun table u hu => ?_
  · exact Word.headKind_aliased _ rfl
      (Word.headKind_hinted _ rfl (Word.headKind_predicate _ _ rfl hvalue))
  refine (holds_aliasName halias (fun _ => ?_) hu.2).bind fun found x hx => ?_
  · exact Word.headKind_hinted _ rfl (Word.headKind_predicate _ _ rfl hname)
  refine (holds_hints (fun _ => ?_) hx.2).bind fun found y hy => ?_
  · cases condition with
    | none => exact ⟨Kind.ne_of_eq_true hk rfl, fun _ => Kind.ne_of_eq_true hvalue rfl⟩
    | some p =>
        have hwith : Kind.keyword .ON ≠ .keyword .WITH := by decide
        have hopen : Kind.keyword .ON ≠ .mark .leftParen := by decide
        exact ⟨hwith, fun _ => hopen⟩
  refine follow (holds_condition hR hcondition hjoin hk hy.2) id fun on z hc hz =>
    Ensures.pure ⟨hc, ?_, hz.2⟩
  rw [Source.rename, Source.rename, TableSource.rename, TableSource.rename, Renaming.bare_table,
    hu.1, hx.1, hy.1, hz.1]

theorem holds_subquerySource (hR : R.Complete) {v : SubquerySource} (hf : v.Formed)
    (hk : (Word.headKind ws).endsSource = true) (h : s.Holds ((Source.subquery v).entry ++ ws)) :
    (source R v.join).Ensures s
      (fun u t => Clean v.visits ∧ u.rename .bare = (Source.subquery v).rename .bare ∧ t.Holds ws)
      (¬Clean v.visits) := by
  obtain ⟨token, select, aliasName, join, condition⟩ := v
  obtain ⟨hselect, halias, hcondition, hjoin⟩ := hf
  have hname := Kind.endsName_of_endsSource hk
  have hclean : Clean (SubquerySource.visits ⟨token, select, aliasName, join, condition⟩) ↔
      Clean select.visits ∧ Clean (OptionalPredicate.visits condition) := by
    simp [SubquerySource.visits, Visit.isCaptured]
  rw [hclean]
  simp only [Source.entry, Word.enclosed, List.cons_append, List.append_assoc,
    List.nil_append] at h
  refine Ensures.current (holds_eat h rfl fun t ht => ?_)
  refine follow_closed (hR.select ⟨hselect, rfl⟩ ht) And.left fun found u hs hfound hu => ?_
  refine (holds_aliasName halias (fun _ => ?_) hu).bind fun name x hx => ?_
  · exact Word.headKind_predicate _ _ rfl hname
  refine follow (holds_condition hR hcondition hjoin hk hx.2) And.right fun on z hc hz =>
    Ensures.pure ⟨⟨hs, hc⟩, ?_, hz.2⟩
  rw [Source.rename, Source.rename, SubquerySource.rename, SubquerySource.rename, hfound, hx.1,
    hz.1]

theorem holds_source (hR : R.Complete) {v : Source} (hf : v.Formed)
    (hk : (Word.headKind ws).endsSource = true) (h : s.Holds (v.entry ++ ws)) :
    (source R v.join).Ensures s
      (fun u t => Clean v.visits ∧ u.rename .bare = v.rename .bare ∧ t.Holds ws)
      (¬Clean v.visits) := by
  cases v with
  | table v =>
      rw [Source.visits]
      exact holds_tableSource hR hf hk h
  | subquery v =>
      rw [Source.visits]
      exact holds_subquerySource hR hf hk h

theorem holds_eatApply (h : s.Holds (Word.name "APPLY" :: ws)) :
    (eatApply : Rule n Bool).Ensures s (fun found t => found = true ∧ t.Holds ws) fault := by
  have hid : Kind.ofWord "APPLY" = .identifier := by decide +kernel
  have hword : Text.sameWord "APPLY" "APPLY" = true := by decide +kernel
  refine Ensures.current ?_
  rw [if_pos ⟨h.kind.trans hid, by rw [Token.text_of_word h.word_current]; exact hword⟩]
  exact (holds_advance h).bind fun _ t ht => Ensures.pure ⟨rfl, ht.2⟩

theorem exists_joinFrom {j : Join} (hj : j ≠ .first) :
    ∃ (w : Word) (vs : List Word) (joined : Rule n Join), j.words = w :: vs ∧
      joinFrom? w.1 = some joined ∧ w.1.endsSource = true ∧
      ∀ (s : Stream) (ws : List Word) (fault : Prop), s.Holds (vs ++ ws) →
        joined.Ensures s (fun i t => i = j ∧ t.Holds ws) fault := by
  have houter {j : Join} {s : Stream} {ws : List Word} {fault : Prop}
      (h : s.Holds (Word.keyword .JOIN :: ws)) :
      (outerJoin j : Rule n Join).Ensures s (fun i t => i = j ∧ t.Holds ws) fault := by
    refine eat_miss (by rw [h.kind]; nofun) ?_
    exact (holds_expect h rfl).bind fun _ t ht => Ensures.pure ⟨rfl, ht⟩
  cases j with
  | first => exact absurd rfl hj
  | inner =>
      refine ⟨_, _, _, rfl, rfl, rfl, fun s ws fault h => ?_⟩
      exact (holds_expect h rfl).bind fun _ t ht => Ensures.pure ⟨rfl, ht⟩
  | left => exact ⟨_, _, _, rfl, rfl, rfl, fun s ws fault h => houter h⟩
  | right => exact ⟨_, _, _, rfl, rfl, rfl, fun s ws fault h => houter h⟩
  | full =>
      refine ⟨_, _, _, rfl, rfl, rfl, fun s ws fault h => ?_⟩
      refine holds_eat h rfl fun t ht => ?_
      exact (holds_expect ht rfl).bind fun _ t ht => Ensures.pure ⟨rfl, ht⟩
  | cross =>
      refine ⟨_, _, _, rfl, rfl, rfl, fun s ws fault h => ?_⟩
      refine holds_eat h rfl fun t ht => ?_
      exact Ensures.pure ⟨rfl, ht⟩
  | crossApply =>
      refine ⟨_, _, _, rfl, rfl, rfl, fun s ws fault h => ?_⟩
      have hid : Kind.ofWord "APPLY" = .identifier := by decide +kernel
      have hjoin : s.current.kind ≠ .keyword .JOIN := by
        rw [h.kind.trans hid]
        nofun
      refine eat_miss hjoin ?_
      refine (holds_eatApply h).bind fun found t ht => ?_
      obtain ⟨rfl, ht⟩ := ht
      exact Ensures.pure ⟨rfl, ht⟩
  | outerApply =>
      refine ⟨_, _, _, rfl, rfl, rfl, fun s ws fault h => ?_⟩
      refine (holds_eatApply h).bind fun found t ht => ?_
      obtain ⟨rfl, ht⟩ := ht
      exact Ensures.pure ⟨rfl, ht⟩

/-- An entry of a `FROM` list is followed by another one or by what follows the list. -/
theorem endsSource_joined {ss : List Source} (hj : ∀ v ∈ ss, v.join ≠ .first)
    (hk : (Word.headKind ws).endsSource = true) :
    (Word.headKind (Sources.joined ss ++ ws)).endsSource = true := by
  cases ss with
  | nil => exact hk
  | cons v ss =>
      obtain ⟨w, vs, joined, hw, -, hfirst, -⟩ := exists_joinFrom (n := 0) (hj v (by simp))
      rw [Sources.joined, Source.words_eq, hw]
      exact hfirst

theorem loop_sources (hR : R.Complete) {ss us : List Source} (hf : Sources.Formed ss)
    (hj : ∀ v ∈ ss, v.join ≠ .first) (hk : (Word.headKind ws).endsSource = true)
    (hn : (joinFrom? (Word.headKind ws) : Option (Rule n Join)) = none)
    (h : s.Holds (Sources.joined ss ++ ws)) :
    Ensures (Rule.loop (fun entries k => (joinFrom? k).map fun joined _ =>
        return entries ++ [← source R (← joined)]) us) s
      (fun xs t => Clean (Sources.visits ss) ∧
        Sources.rename .bare xs = Sources.rename .bare us ++ Sources.rename .bare ss ∧ t.Holds ws)
      (¬Clean (Sources.visits ss)) := by
  induction ss generalizing us s with
  | nil =>
      refine loop_stop ?_ ⟨clean_nil, by simp [Sources.rename], h⟩
      rw [h.kind]
      change Option.map _ (joinFrom? (Word.headKind ws)) = none
      rw [hn]
      rfl
  | cons v ss ih =>
      have hclean : Clean (Sources.visits (v :: ss)) ↔
          Clean v.visits ∧ Clean (Sources.visits ss) := by simp [Sources.visits]
      rw [hclean]
      obtain ⟨w, vs, joined, hw, hjoined, hfirst, hreads⟩ :=
        exists_joinFrom (n := n) (hj v (by simp))
      simp only [Sources.joined, Source.words_eq, hw, List.cons_append, List.append_assoc] at h
      obtain ⟨t, ht, hh⟩ := h.exists_advance
      have htail : ∀ v ∈ ss, v.join ≠ .first := fun v hv => hj v (by simp [hv])
      refine loop_step (f := fun _ => do return us ++ [← source R (← joined)])
        ?_ h.ne_eof ht ?_
      · rw [h.kind]
        change Option.map _ (joinFrom? w.1) = _
        rw [hjoined]
        rfl
      refine (hreads _ _ _ hh).bind fun j u hu => ?_
      obtain ⟨rfl, hu⟩ := hu
      refine follow (holds_source hR hf.1 (endsSource_joined htail hk) hu) And.left
        fun x u hcx hx => Ensures.pure ?_
      refine (ih hf.2 htail hx.2).mono ?_ (mt And.right)
      rintro xs u ⟨hc, hxs, hu⟩
      refine ⟨⟨hcx, hc⟩, ?_, hu⟩
      rw [hxs, Sources.rename_eq, List.map_append, List.append_assoc, Sources.rename, ← hx.1,
        Sources.rename_eq _ us]
      rfl

theorem joinFrom?_of_endsClauses {k : Kind} (h : k.endsClauses = true) :
    (joinFrom? k : Option (Rule n Join)) = none := by
  rw [Kind.endsClauses.eq_def] at h
  split at h
  all_goals first | rfl | cases h

/-- What follows a `FROM` clause is a `WHERE` or the end of the clauses. -/
theorem holds_sources (hR : R.Complete) {ss : List Source} (hf : Sources.Formed ss)
    (hj : Sources.Joined ss)
    (hk : Word.headKind ws = .keyword .WHERE ∨ (Word.headKind ws).endsClauses = true)
    (h : s.Holds (Sources.words .FROM ss ++ ws)) :
    (sources R).Ensures s (fun u t => Clean (Sources.visits ss) ∧
      Sources.rename .bare u = Sources.rename .bare ss ∧ t.Holds ws)
      (¬Clean (Sources.visits ss)) := by
  have hnext : (Word.headKind ws).endsSource = true ∧
      (joinFrom? (Word.headKind ws) : Option (Rule n Join)) = none ∧
      Word.headKind ws ≠ .keyword .FROM := by
    obtain hk | hk := hk
    · rw [hk]
      exact ⟨rfl, rfl, nofun⟩
    · refine ⟨?_, joinFrom?_of_endsClauses hk, Kind.ne_of_eq_true hk rfl⟩
      rw [Kind.endsSource.eq_def]
      split <;> first | rfl | exact hk
  cases ss with
  | nil =>
      have hfrom := hnext.2.2
      rw [← show s.current.kind = Word.headKind ws from h.kind] at hfrom
      refine eat_miss hfrom ?_
      exact Ensures.pure ⟨clean_nil, rfl, h⟩
  | cons v ss =>
      have hclean : Clean (Sources.visits (v :: ss)) ↔
          Clean v.visits ∧ Clean (Sources.visits ss) := by simp [Sources.visits]
      rw [hclean]
      rw [Sources.words, Source.words_eq, hj.1, Join.words, List.nil_append, List.cons_append,
        List.append_assoc] at h
      refine holds_eat h rfl fun t ht => ?_
      rw [if_pos rfl, ← hj.1]
      refine follow (holds_source hR hf.1 (endsSource_joined hj.2 hnext.1) ht) And.left
        fun x u hcx hx => ?_
      refine (loop_sources hR hf.2 hj.2 hnext.1 hnext.2.1 hx.2).mono ?_ (mt And.right)
      rintro xs u ⟨hc, hxs, hu⟩
      refine ⟨⟨hcx, hc⟩, ?_, hu⟩
      rw [hxs, Sources.rename, Sources.rename, Sources.rename, hx.1]
      rfl

theorem sources_stuck (h : s.Stuck) : (sources R).Ensures s (fun _ t => t.Stuck) fault := by
  refine eat_miss (h.ne rfl) ?_
  exact Ensures.pure h

theorem starTable?_bare (e : Expression) : starTable? (e.rename .bare) = starTable? e := by
  cases e <;> rfl

/-- Behind the leftmost operand there is nothing, or an operator and another operand. -/
theorem Nests.tail {e first : Expression} (h : Nests e first ws) :
    ws = [] ∨ ∃ (op : BinaryOperator) (right : Expression) (vs : List Word), right.Formed ∧
      ws = Word.mark op.mark :: (right.words ++ vs) := by
  induction h with
  | operand => exact .inl rfl
  | @join left right first first' ws ws' op token hl hr htl htr ihl _ =>
      obtain rfl | ⟨op', x, vs, hx, rfl⟩ := ihl
      · exact .inr ⟨op, first', ws', hr.isOperand_first.1, rfl⟩
      · refine .inr ⟨op', x, vs ++ Word.mark op.mark :: (first'.words ++ ws'), hx, ?_⟩
        rw [List.cons_append, List.append_assoc]

/-- A value is captured if its leftmost operand is a name that ends in a point, with a star behind
it. -/
theorem Nests.isCaptured_iff {e first : Expression} (h : Nests e first ws) :
    e.isCaptured = true ↔
      (starTable? first).isSome = true ∧ Word.headKind ws = .mark .star := by
  induction h with
  | @operand v h =>
      obtain ⟨-, ht⟩ := h
      cases v with
      | binary _ _ op _ => cases op <;> cases ht
      | _ => simp [Expression.isCaptured, Word.headKind]
  | @join left right first first' ws ws' op token hl hr htl htr ihl _ =>
      have hop : op = .multiply ↔ Kind.mark op.mark = .mark .star := by
        cases op <;> simp [BinaryOperator.mark]
      rw [Expression.isCaptured, Bool.or_eq_true, decide_eq_true_eq, ihl]
      cases hl with
      | operand hleft => simp [Word.headKind, Word.mark, hop, and_comm]
      | join token' hl' hr' htl' htr' =>
          rw [Word.headKind_append (List.append_ne_nil_of_right_ne_nil _ (List.cons_ne_nil _ _))]
          simp only [starTable?, Option.isSome_none, Bool.false_eq_true, and_false, false_or]

/-- A star behind a table is read as a name that ends in a point, with a star behind it. -/
theorem holds_star (hR : R.Complete) {parts : List String}
    (hr : Reference.Formed ⟨.nowhere, parts⟩)
    (h : s.Holds (Reference.dotted parts ++ Word.mark .dot :: Word.mark .star :: ws)) :
    (column R).Ensures s (fun u t =>
      u.rename .bare = .star .nowhere (some (Reference.identifier ⟨.nowhere, parts⟩)) ∧ t.Holds ws)
      fault := by
  have hne : parts ≠ [] := hr.parts_ne_nil
  have hformed : Reference.Formed ⟨.nowhere, parts ++ [""]⟩ := by
    obtain ⟨part, hp, hempty⟩ := hr.2
    refine ⟨fun part hp => ?_, part, List.mem_append_left _ hp, hempty⟩
    obtain hp | hp := List.mem_append.1 hp
    · exact hr.1 part hp
    · exact .inl (List.mem_singleton.1 hp)
  have hwords : s.Holds (Reference.words ⟨.nowhere, parts ++ [""]⟩ ++ Word.mark .star :: ws) :=
    h.cast (by simp [Reference.words, Reference.dotted_concat hne, Reference.partWords])
  have htable : starTable? (.reference ⟨.nowhere, parts ++ [""]⟩) =
      some (Reference.identifier ⟨.nowhere, parts⟩) := by
    have hlength : 0 < parts.length := List.length_pos_iff.2 hne
    simp [starTable?, Reference.objectName, hlength]
  have hopen : s.current.kind ≠ .mark .star := by
    rw [hwords.kind]
    exact hformed.headKind_ne (by decide) (by decide) _
  refine Ensures.current (eat_miss hopen ?_)
  have hends : Expression.EndsBefore (.reference ⟨.nowhere, parts ++ [""]⟩) (.mark .star) := by
    rintro _ ⟨⟩
    exact ⟨Reference.endsBefore_of_ne _ (by decide) (by decide), by decide⟩
  have hprimary := hR.primary (v := .reference ⟨.nowhere, parts ++ [""]⟩)
    ⟨⟨hformed, rfl⟩, by exact hends⟩ hwords
  refine (hprimary.mono (fun _ _ => id) fun hn => absurd ?_ hn).bind fun u t hu => ?_
  · simp [Expression.visits, Visit.isCaptured]
  obtain ⟨-, hu, ht⟩ := hu
  have hstar : starTable? u = some (Reference.identifier ⟨.nowhere, parts⟩) := by
    rw [← starTable?_bare, hu, starTable?_bare, htable]
  refine Ensures.kind ?_
  rw [ht.kind, hstar]
  exact (holds_advance ht).bind fun _ x hx => Ensures.pure ⟨rfl, hx.2⟩

theorem holds_aliased (hR : R.Complete) {token : Token} {e first u : Expression} {tail : List Word}
    {aliasName : Option String} (origin : Token) (hn : Nests e first tail)
    (hu : u.rename .bare = first.rename .bare) (hc : Clean first.visits)
    (hcaptured : e.isCaptured = false)
    (halias : ∀ text, aliasName = some text → IsAlias true text)
    (hk : (Word.headKind ws).endsColumn = true)
    (h : s.Holds (tail ++ (Word.aliased aliasName ++ ws))) :
    (aliased R origin u).Ensures s (fun u t => Clean (Column.value token e aliasName).visits ∧
      u.rename .bare = (Column.value token e aliasName).rename .bare ∧ t.Holds ws)
      (¬Clean (Column.value token e aliasName).visits) := by
  obtain ⟨hvalue, hname⟩ := Kind.of_endsColumn hk
  have hadmits := e.admits_of_endsValue (Word.headKind_aliased aliasName rfl hvalue)
  refine follow (holds_climbExpression hR.primary hn hu hc hadmits h)
    (fun hc => (Column.clean_value.1 hc).2) fun x y hce hx => ?_
  refine (holds_aliasName halias (fun _ => hname) hx.2).bind
    fun name z hz => Ensures.pure ⟨Column.clean_value.2 ⟨hcaptured, hce⟩, ?_, hz.2⟩
  rw [Column.rename, Column.rename, hx.1, hz.1]

theorem sticks_value (hR : R.Complete) {token : Token} {e : Expression} {aliasName : Option String}
    (hf : e.Formed) (halias : ∀ text, aliasName = some text → IsAlias true text)
    (hk : (Word.headKind ws).endsColumn = true)
    (h : s.Holds (e.words ++ Word.aliased aliasName ++ ws)) :
    (column R).Ensures s (fun u t => (Clean (Column.value token e aliasName).visits ∧
      u.rename .bare = (Column.value token e aliasName).rename .bare ∧ t.Holds ws) ∨
      (¬Clean (Column.value token e aliasName).visits ∧ t.Stuck))
      (¬Clean (Column.value token e aliasName).visits) := by
  have hvalue : (Word.headKind (Word.aliased aliasName ++ ws)).endsValue = true :=
    Word.headKind_aliased _ rfl ((Kind.of_endsColumn hk).1)
  -- Only the leftmost operand is read before the star is looked for, and so the words are split
  -- there.
  obtain ⟨first, tail, hn, hw⟩ := exists_nests hf
  rw [hw, List.append_assoc, List.append_assoc] at h
  refine Ensures.current (eat_miss ((hn.isOperand_first.1.stuck h).ne rfl) ?_)
  have hends := hn.admits_first folds_expression (e.admits_of_endsValue hvalue).2
  refine follow (hR.primary ⟨hn.isOperand_first, hends⟩ h)
    (fun hc => hn.clean_first (Column.clean_value.1 hc).2) fun u t hcu hu => ?_
  obtain ⟨hu, ht⟩ := hu
  have htable : starTable? u = starTable? first := by
    rw [← starTable?_bare, hu, starTable?_bare]
  refine Ensures.kind ?_
  rw [htable]
  obtain rfl | ⟨op, right, vs, hright, rfl⟩ := hn.tail
  · -- no operator follows, so that the value is not captured
    have hcaptured : e.isCaptured = false := by
      refine Bool.eq_false_iff.2 fun hcaptured => ?_
      cases (hn.isCaptured_iff.1 hcaptured).2
    have hnext : t.current.kind = Word.headKind (Word.aliased aliasName ++ ws) := ht.kind
    split
    · rename_i hstar _
      rw [← hnext, hstar] at hvalue
      cases hvalue
    · rename_i hassign _
      have hassigned : (Word.headKind (Word.aliased aliasName ++ ws)) ≠ .mark .eq := by
        cases aliasName with
        | none => exact Kind.ne_of_eq_true hk rfl
        | some text =>
            have has : Kind.keyword .AS ≠ .mark .eq := by decide
            exact has
      exact absurd (hnext.symm.trans hassign) hassigned
    · exact (holds_aliased hR _ hn hu hcu hcaptured halias hk ht).imp fun _ _ => .inl
  · -- an operator follows, and a star behind the name of a table is taken for all its columns
    have hnext : t.current.kind = .mark op.mark := ht.kind
    split
    · rename_i table hstar htable
      have hcaptured : e.isCaptured = true :=
        hn.isCaptured_iff.2 ⟨by rw [htable]; rfl, hnext.symm.trans hstar⟩
      refine (holds_advance ht).bind fun _ y hy => Ensures.pure (.inr ⟨fun hc => ?_, ?_⟩)
      · exact Bool.false_ne_true ((Column.clean_value.1 hc).1.symm.trans hcaptured)
      · exact hright.stuck (hy.2.cast (List.append_assoc ..))
    · rename_i hassign _
      rw [hnext] at hassign
      cases op <;> cases hassign
    · rename_i hstar _
      have hcaptured : e.isCaptured = false := by
        refine Bool.eq_false_iff.2 fun hcaptured => ?_
        obtain ⟨hsome, hop⟩ := hn.isCaptured_iff.1 hcaptured
        obtain ⟨table, htable⟩ := Option.isSome_iff_exists.1 hsome
        exact hstar table (hnext.trans hop) htable
      exact (holds_aliased hR _ hn hu hcu hcaptured halias hk ht).imp fun _ _ => .inl

theorem sticks_column (hR : R.Complete) :
    (column R).Sticks
      (fun c k => (c.Formed ∧ c.isAssignment = false) ∧ k.endsColumn = true) Column.words
      (fun c => Clean c.visits) (Column.rename .bare) := by
  rintro c ws s ⟨⟨hf, hassignment⟩, hk⟩ h
  dsimp only at h ⊢
  cases c with
  | star token table =>
      have hclean : Clean (Column.star token table).visits := by
        simp [Column.visits, Visit.isCaptured]
      cases table with
      | none =>
          refine Ensures.current (holds_eat h rfl fun t ht => ?_)
          exact Ensures.pure (.inl ⟨hclean, rfl, ht⟩)
      | some table =>
          obtain ⟨parts, rfl, hr⟩ := hf
          rw [Column.words, hr.words_identifier, List.append_assoc] at h
          exact (holds_star hR hr h).imp fun u t hu => .inl ⟨hclean, hu⟩
  | value token e aliasName => exact sticks_value hR hf.1 hf.2 hk h
  | assignment => cases hassignment

theorem headKind_filter (p : Option Predicate) (hk : (Word.headKind ws).endsClauses = true) :
    Word.headKind (OptionalPredicate.words .WHERE p ++ ws) = .keyword .WHERE ∨
      (Word.headKind (OptionalPredicate.words .WHERE p ++ ws)).endsClauses = true := by
  cases p with
  | none => exact .inr hk
  | some p => exact .inl rfl

theorem endsColumns_clauses (ss : List Source) (p : Option Predicate)
    (hk : (Word.headKind ws).endsClauses = true) :
    (Word.headKind (Sources.words .FROM ss ++
      (OptionalPredicate.words .WHERE p ++ ws))).endsColumns = true := by
  refine Word.headKind_sources _ _ rfl (Word.headKind_predicate _ _ rfl ?_)
  rw [Kind.endsColumns.eq_def]
  split <;> first | rfl | exact hk

theorem follow_clauses {α : Type} (hR : R.Complete) {ss : List Source} {p : Option Predicate}
    {f : List Source → Option Predicate → Rule n α} {c : Prop} {post : α → Stream → Prop}
    (hss : Sources.Formed ss) (hj : Sources.Joined ss) (hp : OptionalPredicate.Formed p)
    (hk : (Word.headKind ws).endsClauses = true)
    (hc : c → Clean (Sources.visits ss) ∧ Clean (OptionalPredicate.visits p))
    (h : s.Holds (Sources.words .FROM ss ++ (OptionalPredicate.words .WHERE p ++ ws)))
    (hf : ∀ ss' p' t, Clean (Sources.visits ss) → Clean (OptionalPredicate.visits p) →
      Sources.rename .bare ss' = Sources.rename .bare ss →
      OptionalPredicate.rename .bare p' = OptionalPredicate.rename .bare p →
      t.Holds ws → (f ss' p').Ensures t post (¬c)) :
    (do let ss ← sources R; let p ← filter R; f ss p).Ensures s post (¬c) := by
  refine follow (holds_sources hR hss hj (headKind_filter p hk) h) (fun h => (hc h).1)
    fun ss' t hcs hss' => ?_
  exact follow (holds_filter hR hp hk hss'.2) (fun h => (hc h).2)
    fun p' u hcp hp' => hf ss' p' u hcs hcp hss'.1 hp'.1 hp'.2

theorem clauses_stuck {α : Type} {f : List Source → Option Predicate → Rule n α}
    {post : α → Stream → Prop} (h : s.Stuck)
    (hf : ∀ ss p t, t.Stuck → (f ss p).Ensures t post fault) :
    (do let ss ← sources R; let p ← filter R; f ss p).Ensures s post fault :=
  (sources_stuck h).bind fun ss _ ht => (filter_stuck ht).bind fun p u hu => hf ss p u hu

theorem holds_selectFrom (hR : R.Complete) (origin : Token) {v : Select}
    (hf : v.Formed) (ht : v.terminated = false) (hk : (Word.headKind ws).endsClauses = true)
    {rest : List Word} (hw : v.words = Word.keyword .SELECT :: rest) (h : s.Holds (rest ++ ws)) :
    (selectFrom R origin).Ensures s
      (fun u t => (Clean v.visits ∧ u.rename .bare = v.rename .bare ∧ t.Holds ws) ∨
        (¬Clean v.visits ∧ t.Stuck))
      (¬Clean v.visits) := by
  obtain ⟨token, top, columns, sources, filter, terminated⟩ := v
  obtain ⟨⟨htop, hparen⟩, ⟨hne, hcolumns, hall⟩, ⟨hsources, hjoined⟩, hfilter⟩ := hf
  obtain rfl : terminated = false := ht
  have hclean : Clean (Select.visits ⟨token, top, columns, sources, filter, false⟩) ↔
      Clean (OptionalExpression.visits top) ∧ (∀ c ∈ columns, Clean c.visits) ∧
        Clean (Sources.visits sources) ∧ Clean (OptionalPredicate.visits filter) := by
    simp [Select.visits, Visit.isCaptured, Columns.clean_iff]
  rw [hclean]
  obtain rfl := (List.cons.inj hw).2
  simp only [Word.terminator, Bool.false_eq_true, if_false, List.append_nil, List.append_assoc,
    Columns.words_eq] at h
  have hend := endsColumns_clauses sources filter hk
  refine follow (holds_top hR htop (fun e he => hparen e he) ?_ h) And.left
    fun top' t hct htop' => ?_
  · obtain ⟨c, cs, rfl⟩ := List.exists_cons_of_ne_nil hne
    obtain ⟨w, vs, hw, hfirst⟩ := Column.Formed.head hcolumns.1 (hall c (by simp))
    rw [List.map_cons, Word.listed_cons, hw]
    change w.1 ≠ _
    rintro htop
    rw [htop] at hfirst
    obtain hfirst | hfirst := hfirst <;> cases hfirst
  refine follow_stuck (sticks_commaSeparated (sticks_column hR) ⟨hne, ?_, fun c hc => ?_⟩ htop'.2)
    (fun hc => hc.2.1) (fun columns' u hcc hcolumns' => ?_) fun columns' u hn hu => ?_
  · exact Kind.ne_of_eq_true hend rfl
  · have hc := And.intro ((Columns.formed_iff _).1 hcolumns c hc) (hall c hc)
    exact ⟨⟨hc, rfl⟩, hc, Bool.or_eq_true_iff.2 (.inr hend)⟩
  · refine follow_clauses hR hsources hjoined hfilter hk (fun hc => hc.2.2) hcolumns'.2
      fun sources' filter' x hcs hcf hsources' hfilter' hx =>
        Ensures.pure (.inl ⟨⟨hct, hcc, hcs, hcf⟩, ?_, hx⟩)
    rw [Select.rename, Select.rename, htop'.1, Columns.rename_eq, Columns.rename_eq, hcolumns'.1,
      hsources', hfilter']
  · exact clauses_stuck hu fun sources' filter' x hx => Ensures.pure (.inr ⟨hn, hx⟩)

theorem sticks_select (hR : R.Complete) :
    (select R).Sticks (fun v k => (v.Formed ∧ v.terminated = false) ∧ k.endsClauses = true)
      Select.words (fun v => Clean v.visits) (Select.rename .bare) := by
  rintro v ws s ⟨⟨hf, ht⟩, hk⟩ h
  obtain ⟨rest, hw⟩ : ∃ rest, v.words = Word.keyword .SELECT :: rest := by
    cases v
    exact ⟨_, rfl⟩
  rw [hw, List.cons_append] at h
  exact holds_begin h rfl fun t h' => holds_selectFrom hR _ hf ht hk hw h'

end Grammar

end Transact
