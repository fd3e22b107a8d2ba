import Transact.Proofs.Replay.Select
import Transact.Proofs.Sound.Predicate

namespace Transact

namespace Predicate

def left? : Predicate → Option Expression
  | inSubquery _ left .. | inList _ left .. | between _ left .. | quantified _ left ..
  | nullCheck _ left _ | comparison _ left .. => some left
  | _ => none

def relation : Predicate → List Word
  | inSubquery _ _ negated subquery =>
    Word.negated negated ++ Word.keyword .IN :: Word.enclosed subquery.words
  | inList _ _ negated list =>
    Word.negated negated ++
      Word.keyword .IN :: Word.enclosed (Word.listed (Expressions.words list))
  | between _ _ negated low high =>
    Word.negated negated ++
      Word.keyword .BETWEEN :: (low.words ++ Word.keyword .AND :: high.words)
  | quantified _ _ operator quantifier subquery =>
    operator.word :: Word.keyword quantifier.keyword :: Word.enclosed subquery.words
  | nullCheck _ _ isNull => Word.keyword .IS :: (Word.negated (!isNull) ++ [Word.keyword .NULL])
  | comparison _ _ operator right => operator.word :: right.words
  | _ => []

theorem words_eq {p : Predicate} {left : Expression} (h : p.left? = some left) :
    p.words = left.words ++ p.relation := by
  cases p <;> first | (cases h; rw [words, relation]) | cases h

theorem Formed.left {p : Predicate} {left : Expression} (hf : p.Formed)
    (h : p.left? = some left) : left.Formed := by
  cases p <;> first | (cases h; exact hf.1) | (cases h; exact hf) | cases h

theorem clean_left {p : Predicate} {left : Expression} (h : p.left? = some left)
    (hc : Clean p.visits) : Clean left.visits := by
  cases p <;> first
    | (cases h; simp only [visits, clean_cons, clean_append] at hc; tauto)
    | cases h

/-- The value ends where the rest of its comparison begins. -/
theorem headKind_relation {p : Predicate} {left : Expression} (h : p.left? = some left)
    (ws : List Word) : Grammar.beginsComparison (Word.headKind (p.relation ++ ws)) = true ∧
      (Word.headKind (p.relation ++ ws)).endsValue = true := by
  cases p with
  | inSubquery _ _ negated _ => cases negated <;> exact ⟨rfl, rfl⟩
  | inList _ _ negated _ => cases negated <;> exact ⟨rfl, rfl⟩
  | between _ _ negated _ _ => cases negated <;> exact ⟨rfl, rfl⟩
  | quantified _ _ operator _ _ => cases operator <;> exact ⟨rfl, rfl⟩
  | nullCheck => exact ⟨rfl, rfl⟩
  | comparison _ _ operator _ => cases operator <;> exact ⟨rfl, rfl⟩
  | _ => cases h

/-- A predicate without operators outside parentheses is a comparison, it stands in parentheses, or
it begins with a word of its own. -/
theorem cases_of_tier {p : Predicate} (ht : p.tier = 3) :
    (∃ token inner, p = .not token inner) ∨ (∃ token subquery, p = .existence token subquery) ∨
      (∃ token inner, p = .grouped token inner) ∨ ∃ left, p.left? = some left := by
  cases p with
  | not token inner => exact .inl ⟨_, _, rfl⟩
  | existence token subquery => exact .inr (.inl ⟨_, _, rfl⟩)
  | grouped token inner => exact .inr (.inr (.inl ⟨_, _, rfl⟩))
  | binary token left op right => cases op <;> cases ht
  | _ => exact .inr (.inr (.inr ⟨_, rfl⟩))

end Predicate

namespace Grammar

open Rule Rule.Ensures

variable {n : Nat} {s t : Stream} {ws : List Word} {fault c : Prop}
variable {post : Predicate → Stream → Prop}

section

variable {expression : Rule n Expression} {select : Rule n Select} {left u : Expression}

theorem holds_negated {k : Keyword} {phrase : Bool → Rule n Predicate}
    (hp : (k = .BETWEEN ∧ phrase = between expression u) ∨
      (k = .IN ∧ phrase = membership expression select u)) (negated : Bool)
    (h : s.Holds (Word.negated negated ++ Word.keyword k :: ws))
    (hb : ∀ t, t.Holds (Word.keyword k :: ws) → (phrase negated).Ensures t post fault) :
    (comparison expression select u).Ensures s post fault := by
  refine Ensures.kind ?_
  rw [h.kind]
  cases negated with
  | false => obtain ⟨rfl, rfl⟩ | ⟨rfl, rfl⟩ := hp <;> exact hb s h
  | true =>
      refine (holds_expect h rfl).bind fun origin t ht => Ensures.kind ?_
      rw [ht.kind]
      obtain ⟨rfl, rfl⟩ | ⟨rfl, rfl⟩ := hp <;> exact hb t ht

theorem holds_compared {operator : ComparisonOperator} (h : s.Holds (operator.word :: ws))
    (hc : (compared expression select u operator).Ensures s post fault) :
    (comparison expression select u).Ensures s post fault := by
  refine Ensures.kind ?_
  cases operator <;> (rw [h.kind]; exact hc)

theorem Quantifier.ofKind?_keyword (quantifier : Quantifier) :
    Quantifier.ofKind? (.keyword quantifier.keyword) = some quantifier := by
  cases quantifier <;> rfl

theorem Quantifier.ofKind?_of_stuck (h : s.Stuck) : Quantifier.ofKind? s.current.kind = none := by
  rw [Option.eq_none_iff_forall_ne_some]
  intro quantifier hq
  refine h.ne ?_ (Quantifier.kind_of_ofKind? hq)
  cases quantifier <;> rfl

variable (he : expression.Replays (fun e k => e.Formed ∧ e.Admits k) Expression.words
  (fun e => Clean e.visits) (Expression.rename .bare))
variable (hs : select.Sticks
  (fun v k => (v.Formed ∧ v.terminated = false) ∧ k.endsClauses = true) Select.words
  (fun v => Clean v.visits) (Select.rename .bare))

include hs in
theorem replays_subquery : (subquery select).Replays (fun v _ => v.Formed ∧ v.terminated = false)
    (fun v => Word.enclosed v.words) (fun v => Clean v.visits) (Select.rename .bare) := by
  intro v ws s hv h
  dsimp only at h ⊢
  rw [Word.enclosed, List.cons_append, List.append_assoc, List.singleton_append] at h
  refine (holds_expect h rfl).bind fun _ t ht => ?_
  exact follow_closed (hs ⟨hv, rfl⟩ ht) id fun u t hc hu ht => Ensures.pure ⟨hc, hu, ht⟩

section

variable {token : Token} {negated : Bool}
variable (hu : u.rename .bare = left.rename .bare) (hc : Clean left.visits)

include hu hc

include hs in
theorem holds_membership_subquery {subquery : Select}
    (hf : subquery.Formed ∧ subquery.terminated = false)
    (h : s.Holds (Word.keyword .IN :: (Word.enclosed subquery.words ++ ws))) :
    (membership expression select u negated).Ensures s
      (fun q t => Clean (Predicate.inSubquery token left negated subquery).visits ∧
        q.rename .bare = (Predicate.inSubquery token left negated subquery).rename .bare ∧
        t.Holds ws)
      (¬Clean (Predicate.inSubquery token left negated subquery).visits) := by
  have hclean : Clean (Predicate.inSubquery token left negated subquery).visits ↔
      Clean subquery.visits := by simp [Predicate.visits, Visit.isCaptured, hc]
  rw [hclean]
  simp only [Word.enclosed, List.append_assoc, List.cons_append, List.nil_append] at h
  refine (holds_expect h rfl).bind fun origin t ht => ?_
  refine (holds_expect ht rfl).bind fun _ t ht => Ensures.kind ?_
  rw [if_pos (ht.kind.trans (subquery.headKind_words _))]
  refine follow_closed (hs ⟨hf, rfl⟩ ht) id fun v t hc hv ht => Ensures.pure ⟨hc, ?_, ht⟩
  rw [Predicate.rename, Predicate.rename, hu, hv]

include he in
theorem holds_membership_list {list : List Expression} (hne : list ≠ [])
    (hf : Expressions.Formed list)
    (h : s.Holds
      (Word.keyword .IN :: (Word.enclosed (Word.listed (Expressions.words list)) ++ ws))) :
    (membership expression select u negated).Ensures s
      (fun q t => Clean (Predicate.inList token left negated list).visits ∧
        q.rename .bare = (Predicate.inList token left negated list).rename .bare ∧ t.Holds ws)
      (¬Clean (Predicate.inList token left negated list).visits) := by
  have hclean : Clean (Predicate.inList token left negated list).visits ↔
      ∀ e ∈ list, Clean e.visits := by
    simp [Predicate.visits, Visit.isCaptured, hc, Expressions.clean_iff]
  rw [hclean]
  simp only [Word.enclosed, List.append_assoc, List.cons_append, List.nil_append,
    Expressions.words_eq] at h
  refine (holds_expect h rfl).bind fun origin t ht => ?_
  refine (holds_expect ht rfl).bind fun _ t ht => Ensures.kind ?_
  rw [Expressions.formed_iff] at hf
  have hstuck : t.Stuck := by
    obtain ⟨e, es, rfl⟩ := List.exists_cons_of_ne_nil hne
    rw [List.map_cons, Word.listed_cons, List.append_assoc] at ht
    exact (hf e (by simp)).stuck ht
  rw [if_neg (hstuck.ne rfl)]
  refine follow_closed (sticks_values he ⟨⟨hne, hf⟩, rfl⟩ ht) id
    fun es t hc hes ht => Ensures.pure ⟨hc, ?_, ht⟩
  rw [Predicate.rename, Predicate.rename, hu, Expressions.rename_eq, Expressions.rename_eq, hes]

include he in
theorem holds_between {low high : Expression} (hlow : low.Formed) (hhigh : high.Formed)
    (hk : (Word.headKind ws).endsValue = true)
    (h : s.Holds
      (Word.keyword .BETWEEN :: (low.words ++ Word.keyword .AND :: (high.words ++ ws)))) :
    (between expression u negated).Ensures s
      (fun q t => Clean (Predicate.between token left negated low high).visits ∧
        q.rename .bare = (Predicate.between token left negated low high).rename .bare ∧ t.Holds ws)
      (¬Clean (Predicate.between token left negated low high).visits) := by
  have hclean : Clean (Predicate.between token left negated low high).visits ↔
      Clean low.visits ∧ Clean high.visits := by
    simp [Predicate.visits, Visit.isCaptured, hc]
  rw [hclean]
  refine (holds_expect h rfl).bind fun origin t ht => ?_
  refine follow (he ⟨hlow, low.admits_of_endsValue rfl⟩ ht) And.left fun low' t hcl hlow' => ?_
  refine (holds_expect hlow'.2 rfl).bind fun _ t ht => ?_
  refine follow (he ⟨hhigh, high.admits_of_endsValue hk⟩ ht) And.right
    fun high' t hch hhigh' => Ensures.pure ⟨⟨hcl, hch⟩, ?_, hhigh'.2⟩
  rw [Predicate.rename, Predicate.rename, hu, hlow'.1, hhigh'.1]

include hs in
theorem holds_quantified {operator : ComparisonOperator} {quantifier : Quantifier}
    {subquery : Select} (hf : subquery.Formed ∧ subquery.terminated = false)
    (h : s.Holds (operator.word :: Word.keyword quantifier.keyword ::
      (Word.enclosed subquery.words ++ ws))) :
    (compared expression select u operator).Ensures s
      (fun q t => Clean (Predicate.quantified token left operator quantifier subquery).visits ∧
        q.rename .bare =
          (Predicate.quantified token left operator quantifier subquery).rename .bare ∧ t.Holds ws)
      (¬Clean (Predicate.quantified token left operator quantifier subquery).visits) := by
  have hclean : Clean (Predicate.quantified token left operator quantifier subquery).visits ↔
      Clean subquery.visits := by simp [Predicate.visits, Visit.isCaptured, hc]
  rw [hclean]
  refine (holds_advance h).bind fun origin t ht => Ensures.kind ?_
  rw [ht.2.kind, show Word.headKind _ = .keyword quantifier.keyword from rfl,
    Quantifier.ofKind?_keyword]
  refine (holds_advance ht.2).bind fun _ t ht => ?_
  refine follow (replays_subquery hs hf ht.2) id fun v t hc hv =>
    Ensures.pure ⟨hc, ?_, hv.2⟩
  rw [Predicate.rename, Predicate.rename, hu, hv.1]

include he in
theorem holds_compared_value {operator : ComparisonOperator} {right : Expression}
    (hf : right.Formed) (hk : (Word.headKind ws).endsValue = true)
    (h : s.Holds (operator.word :: (right.words ++ ws))) :
    (compared expression select u operator).Ensures s
      (fun q t => Clean (Predicate.comparison token left operator right).visits ∧
        q.rename .bare = (Predicate.comparison token left operator right).rename .bare ∧ t.Holds ws)
      (¬Clean (Predicate.comparison token left operator right).visits) := by
  have hclean : Clean (Predicate.comparison token left operator right).visits ↔
      Clean right.visits := by simp [Predicate.visits, Visit.isCaptured, hc]
  rw [hclean]
  refine (holds_advance h).bind fun origin t ht => Ensures.kind ?_
  rw [Quantifier.ofKind?_of_stuck (hf.stuck ht.2)]
  refine follow (he ⟨hf, right.admits_of_endsValue hk⟩ ht.2) id fun v t hc hv =>
    Ensures.pure ⟨hc, ?_, hv.2⟩
  rw [Predicate.rename, Predicate.rename, hu, hv.1]

theorem holds_nullCheck {isNull : Bool}
    (h : s.Holds (Word.keyword .IS :: (Word.negated (!isNull) ++ Word.keyword .NULL :: ws))) :
    (nullCheck u : Rule n Predicate).Ensures s
      (fun q t => Clean (Predicate.nullCheck token left isNull).visits ∧
        q.rename .bare = (Predicate.nullCheck token left isNull).rename .bare ∧ t.Holds ws)
      (¬Clean (Predicate.nullCheck token left isNull).visits) := by
  have hclean : Clean (Predicate.nullCheck token left isNull).visits := by
    simp [Predicate.visits, Visit.isCaptured, hc]
  have hbare (origin : Token) : (Predicate.nullCheck origin u isNull).rename .bare =
      (Predicate.nullCheck token left isNull).rename .bare := by
    rw [Predicate.rename, Predicate.rename, hu]
  refine (holds_expect h rfl).bind fun origin t ht => ?_
  cases isNull with
  | true =>
      have hnot : t.current.kind ≠ .keyword .NOT := by
        rw [ht.kind]
        simp [Word.negated, Word.headKind, Word.keyword]
      refine eat_miss hnot ?_
      exact (holds_expect ht rfl).bind fun _ t ht => Ensures.pure ⟨hclean, hbare origin, ht⟩
  | false =>
      refine holds_eat ht rfl fun t ht => ?_
      exact (holds_expect ht rfl).bind fun _ t ht => Ensures.pure ⟨hclean, hbare origin, ht⟩

end

include he hs

theorem holds_comparison {p : Predicate} (hf : p.Formed) (hl : p.left? = some left)
    (hu : u.rename .bare = left.rename .bare) (hc : Clean left.visits)
    (hk : (Word.headKind ws).endsValue = true) (h : s.Holds (p.relation ++ ws)) :
    (comparison expression select u).Ensures s
      (fun q t => Clean p.visits ∧ q.rename .bare = p.rename .bare ∧ t.Holds ws)
      (¬Clean p.visits) := by
  cases p with
  | inSubquery token left negated subquery =>
      cases hl
      rw [Predicate.relation, List.append_assoc] at h
      exact holds_negated (.inr ⟨rfl, rfl⟩) negated h fun _ ht =>
        holds_membership_subquery hs hu hc hf.2 ht
  | inList token left negated list =>
      cases hl
      rw [Predicate.relation, List.append_assoc] at h
      exact holds_negated (.inr ⟨rfl, rfl⟩) negated h fun _ ht =>
        holds_membership_list he hu hc hf.2.1 hf.2.2 ht
  | between token left negated low high =>
      cases hl
      simp only [Predicate.relation, List.append_assoc, List.cons_append] at h
      exact holds_negated (.inl ⟨rfl, rfl⟩) negated h fun _ ht =>
        holds_between he hu hc hf.2.1 hf.2.2 hk ht
  | quantified token left operator quantifier subquery =>
      cases hl
      exact holds_compared h (holds_quantified hs hu hc hf.2 h)
  | nullCheck token left isNull =>
      cases hl
      simp only [Predicate.relation, List.append_assoc, List.cons_append, List.nil_append] at h
      refine Ensures.kind ?_
      rw [h.kind]
      exact holds_nullCheck hu hc h
  | comparison token left operator right =>
      cases hl
      exact holds_compared h (holds_compared_value he hu hc hf.2 hk h)
  | _ => cases hl

end

def Connects (p first : Predicate) (ws : List Word) : Prop :=
  Nested LogicalOperator.tier Predicate.binary Predicate.tier (fun p => p.Formed ∧ p.tier = 3)
    Predicate.words (fun op => Word.keyword op.keyword) p first ws

theorem folds_predicate : Folds LogicalOperator.ofKind? LogicalOperator.tier Predicate.binary
    Predicate.tier (fun _ k => k.endsValue = true) (fun p => Clean p.visits)
    (Predicate.rename .bare)
    (fun op => Word.keyword op.keyword) where
  operator_word := by
    intro op
    cases op <;> rfl
  tier_join := fun _ _ _ _ => rfl
  admits_word := by
    intro p op
    cases op <;> rfl
  admits_join := fun _ _ _ _ _ h => h
  clean_join := by simp [Predicate.visits, Visit.isCaptured]
  congr := by
    intro token token' left left' op right right' hl hr
    rw [Predicate.rename, Predicate.rename, hl, hr]

theorem Connects.clean_first {p first : Predicate} (h : Connects p first ws)
    (hc : Clean p.visits) : Clean first.visits :=
  Nested.clean_first (C := fun p => Clean p.visits) folds_predicate h hc

theorem exists_connects {p : Predicate} (hp : p.Formed) :
    ∃ first ws, Connects p first ws ∧ p.words = first.words ++ ws := by
  by_cases ht : p.tier = 3
  · exact ⟨p, [], .operand ⟨hp, ht⟩, (List.append_nil _).symm⟩
  · match p, hp with
    | .binary token left op right, hp =>
      obtain ⟨⟨hl, htl⟩, hr, htr⟩ := hp
      obtain ⟨first, ws, hnl, hwl⟩ := exists_connects hl
      obtain ⟨first', ws', hnr, hwr⟩ := exists_connects hr
      refine ⟨first, _, .join token hnl hnr htl htr, ?_⟩
      rw [Predicate.words, hwl, hwr, List.append_assoc]
    | .not .., _ => exact absurd rfl ht
    | .existence .., _ => exact absurd rfl ht
    | .inSubquery .., _ => exact absurd rfl ht
    | .inList .., _ => exact absurd rfl ht
    | .between .., _ => exact absurd rfl ht
    | .grouped .., _ => exact absurd rfl ht
    | .quantified .., _ => exact absurd rfl ht
    | .nullCheck .., _ => exact absurd rfl ht
    | .comparison .., _ => exact absurd rfl ht

section

variable {operand : Rule n Predicate} {p first u : Predicate} {rest : List Word}
variable (ho : operand.Replays (fun p k => (p.Formed ∧ p.tier = 3) ∧ k.endsValue = true)
  Predicate.words (fun p => Clean p.visits) (Predicate.rename .bare))

include ho

theorem holds_climbPredicate (hn : Connects p first ws) (hu : u.rename .bare = first.rename .bare)
    (hc : Clean first.visits) (hk : (Word.headKind rest).EndsPredicate)
    (hs : s.Holds (ws ++ rest)) :
    (climbPredicate operand u).Ensures s
      (fun u t => Clean p.visits ∧ u.rename .bare = p.rename .bare ∧ t.Holds rest)
      (¬Clean p.visits) := by
  have htier : 1 ≤ p.tier := by
    cases p with
    | binary _ _ op _ => cases op <;> simp [Predicate.tier, LogicalOperator.tier]
    | _ => exact Nat.le_add_left 1 2
  exact holds_climb folds_predicate ho hn htier hu hc hk.1 hk.2 hs

theorem replays_predicate : (predicate operand).Replays
    (fun p k => p.Formed ∧ k.endsValue = true ∧ LogicalOperator.ofKind? k = none) Predicate.words
    (fun p => Clean p.visits) (Predicate.rename .bare) := by
  rintro p ws s ⟨hf, hk⟩ h
  obtain ⟨first, tail, hn, hw⟩ := exists_connects hf
  rw [hw, List.append_assoc] at h
  refine follow (ho ⟨hn.isOperand_first, hn.admits_first folds_predicate hk.1⟩ h)
    hn.clean_first fun u t hc hu => ?_
  exact holds_climbPredicate ho hn hu.1 hc hk hu.2

end

section

variable {paren : Rule n Operand} {operand : Rule n Expression} {α : Type}
variable {g : Operand → Rule n α} {post : α → Stream → Prop}
variable (hparen : paren.Replays (fun o _ => o.Encloses) Operand.words
  (fun o => Clean o.visits) Operand.bare)

include hparen

theorem holds_opening_predicate {token : Token} {inner : Predicate} (hf : inner.Formed)
    (h : s.Holds ((Predicate.grouped token inner).words ++ ws))
    (hc : c → Clean (Predicate.grouped token inner).visits)
    (hg : ∀ q t, Clean (Predicate.grouped token inner).visits →
      q.rename .bare = (Predicate.grouped token inner).rename .bare → t.Holds ws →
      (g (.predicate q)).Ensures t post (¬c)) :
    (if s.current.kind = .mark .leftParen then paren >>= g
      else (Operand.value <$> operand) >>= g).Ensures s post (¬c) := by
  have hk : s.current.kind = .mark .leftParen := h.kind
  rw [if_pos hk]
  refine follow (hparen (.predicate hf) h) hc fun o t hco ho => ?_
  obtain ⟨hbare, ht⟩ := ho
  cases o with
  | value e => cases hbare
  | predicate q => exact hg q t hco (Operand.predicate.inj hbare) ht

theorem holds_opening_value (ho : operand.Replays
      (fun e k => (e.Formed ∧ e.tier = 3) ∧ e.EndsBefore k) Expression.words
      (fun e => Clean e.visits) (Expression.rename .bare))
    {first : Expression} (hf : first.Formed ∧ first.tier = 3)
    (he : first.EndsBefore (Word.headKind ws)) (h : s.Holds (first.words ++ ws))
    (hc : c → Clean first.visits)
    (hg : ∀ u t, Clean first.visits → u.rename .bare = first.rename .bare → t.Holds ws →
      (g (.value u)).Ensures t post (¬c)) :
    (if s.current.kind = .mark .leftParen then paren >>= g
      else (Operand.value <$> operand) >>= g).Ensures s post (¬c) := by
  split
  · rename_i hk
    have hp := Expression.isParenthesized_of_headKind hf.1 hf.2 (h.kind.symm.trans hk)
    refine follow (hparen (.value hf.1 hp) h) hc fun o t hco ho => ?_
    obtain ⟨hbare, ht⟩ := ho
    cases o with
    | value u => exact hg u t hco (Operand.value.inj hbare) ht
    | predicate q => cases hbare
  · refine Ensures.bind (m := fun o t => ∃ u, o = .value u ∧ Clean first.visits ∧
      u.rename .bare = first.rename .bare ∧ t.Holds ws) (Ensures.map ?_) ?_
    · exact (ho ⟨hf, he⟩ h).mono (fun u t hu => ⟨u, rfl, hu⟩) (mt hc)
    · rintro _ t ⟨u, rfl, hcu, hu, ht⟩
      exact hg u t hcu hu ht

end

variable {R : Rules n}

/-- Reading on from the first operand of a value comes to the parenthesis that closes it. -/
theorem holds_operandRest_value (hR : R.Complete) {e first u : Expression} {tail : List Word}
    (hn : Nests e first tail) (hu : u.rename .bare = first.rename .bare) (hc : Clean first.visits)
    (h : s.Holds (tail ++ Word.mark .rightParen :: ws)) :
    (operandRest R (.value u)).Ensures s (fun o t => Clean e.visits ∧
      o.bare = .value (e.rename .bare) ∧ t.Holds (Word.mark .rightParen :: ws))
      (¬Clean e.visits) := by
  refine follow (holds_climbExpression hR.primary hn hu hc (e.admits_of_endsValue rfl) h) id
    fun v t hc hv => Ensures.kind ?_
  rw [show t.current.kind = .mark .rightParen from hv.2.kind, if_neg (by decide)]
  exact Ensures.pure ⟨hc, congrArg Operand.value hv.1, hv.2⟩

/-- Reading on from the first operand of a comparison comes to the end of the predicate that the
comparison begins. -/
theorem holds_operandRest_comparison (hR : R.Complete) {p q : Predicate} {left first u : Expression}
    {tail rest : List Word} (hp : Connects p q rest) (hq : q.left? = some left)
    (hn : Nests left first tail) (hu : u.rename .bare = first.rename .bare)
    (hc : Clean first.visits)
    (h : s.Holds (tail ++ (q.relation ++ (rest ++ Word.mark .rightParen :: ws)))) :
    (operandRest R (.value u)).Ensures s (fun o t => Clean p.visits ∧
      o.bare = .predicate (p.rename .bare) ∧ t.Holds (Word.mark .rightParen :: ws))
      (¬Clean p.visits) := by
  obtain ⟨hbegins, hends⟩ :=
    Predicate.headKind_relation hq (rest ++ Word.mark .rightParen :: ws)
  have hnext : (Word.headKind (rest ++ Word.mark .rightParen :: ws)).endsValue = true :=
    hp.admits_first folds_predicate rfl
  refine follow (holds_climbExpression hR.primary hn hu hc (left.admits_of_endsValue hends) h)
    (fun hc => Predicate.clean_left hq (hp.clean_first hc)) fun v t hcl hv => Ensures.kind ?_
  rw [hv.2.kind, if_pos hbegins]
  refine follow (holds_comparison hR.expression hR.select hp.isOperand_first.1 hq hv.1 hcl hnext
    hv.2) hp.clean_first fun v t hcq hv => ?_
  refine follow (holds_climbPredicate hR.predicatePrimary hp hv.1 hcq (by exact ⟨rfl, rfl⟩) hv.2) id
    fun v t hc hv => Ensures.pure ⟨hc, ?_, hv.2⟩
  exact congrArg Operand.predicate hv.1

theorem holds_parenthesizedFrom {paren : Token} {post : Operand → Stream → Prop} (h : s.Stuck)
    (hp : (do
      let o ← if s.current.kind = .mark .leftParen then R.parenthesized
        else Operand.value <$> R.primary
      let inner ← operandRest R o
      let _ ← expect (.mark .rightParen)
      return inner.grouped paren : Rule n Operand).Ensures s post fault) :
    (parenthesizedFrom R paren).Ensures s post fault := by
  refine Ensures.kind ?_
  split
  · exact absurd ‹_› (h.ne rfl)
  · exact absurd ‹_› (h.ne rfl)
  · exact absurd ‹_› (h.ne rfl)
  · exact hp

theorem Operand.bare_grouped {o p : Operand} (h : o.bare = p.bare) (paren token : Token) :
    (o.grouped paren).bare = (p.grouped token).bare := by
  cases o with
  | value e =>
      cases p with
      | value x =>
          simp only [bare, value.injEq] at h
          simp only [Operand.grouped, bare, Expression.rename, h]
      | predicate => cases h
  | predicate q =>
      cases p with
      | value => cases h
      | predicate x =>
          simp only [bare, predicate.injEq] at h
          simp only [Operand.grouped, bare, Predicate.rename, h]

theorem holds_parenthesizedFrom_value (hR : R.Complete) (paren token : Token) {e : Expression}
    (hf : e.Formed) (h : s.Holds (e.words ++ Word.mark .rightParen :: ws)) :
    (parenthesizedFrom R paren).Ensures s (fun o t => Clean e.visits ∧
      o.bare = (Operand.value (.grouped token e)).bare ∧ t.Holds ws) (¬Clean e.visits) := by
  obtain ⟨first, tail, hn, hw⟩ := exists_nests hf
  rw [hw, List.append_assoc] at h
  have hends : first.EndsBefore (Word.headKind (tail ++ Word.mark .rightParen :: ws)) :=
    hn.admits_first folds_expression (e.admits_of_endsValue rfl).2
  refine holds_parenthesizedFrom (hn.isOperand_first.1.stuck h) ?_
  refine holds_opening_value hR.parenthesized hR.primary hn.isOperand_first hends h hn.clean_first
    fun u t hc hu ht => ?_
  refine follow_closed ((holds_operandRest_value hR hn hu hc ht).imp fun _ _ => .inl) id
    fun o t hc ho ht => Ensures.pure ⟨hc, ?_, ht⟩
  exact Operand.bare_grouped (p := .value e) ho _ _

theorem holds_parenthesizedFrom_predicate (hR : R.Complete) (paren token : Token) {p : Predicate}
    (hf : p.Formed) (h : s.Holds (p.words ++ Word.mark .rightParen :: ws)) :
    (parenthesizedFrom R paren).Ensures s (fun o t => Clean p.visits ∧
      o.bare = (Operand.predicate (.grouped token p)).bare ∧ t.Holds ws) (¬Clean p.visits) := by
  have hword : (do
      let inner ← R.predicate
      let _ ← expect (.mark .rightParen)
      return Operand.predicate (.grouped paren inner) : Rule n Operand).Ensures s
        (fun o t => Clean p.visits ∧ o.bare = (Operand.predicate (.grouped token p)).bare ∧
          t.Holds ws) (¬Clean p.visits) := by
    refine follow_closed (hR.predicate.sticks ⟨hf, rfl, rfl⟩ h) id fun q t hc hq ht =>
      Ensures.pure ⟨hc, ?_, ht⟩
    exact congrArg Operand.predicate (congrArg (Predicate.grouped .nowhere) hq)
  obtain ⟨first, tail, hn, hw⟩ := exists_connects hf
  obtain ⟨token', q, rfl⟩ | ⟨token', v, rfl⟩ | ⟨token', q, rfl⟩ | ⟨left, hleft⟩ :=
    Predicate.cases_of_tier hn.isOperand_first.2
  · refine Ensures.kind ?_
    rw [h.kind, hw]
    exact hword
  · refine Ensures.kind ?_
    rw [h.kind, hw]
    exact hword
  · -- the parenthesis opens another one, which holds a predicate
    have hq : q.Formed := hn.isOperand_first.1
    rw [hw, List.append_assoc] at h
    have hstuck : s.Stuck := by
      rw [Stream.Stuck, h.kind]
      rfl
    refine holds_parenthesizedFrom hstuck ?_
    refine holds_opening_predicate hR.parenthesized hq h hn.clean_first fun u t hc hu ht => ?_
    refine follow_closed (P := fun o => o.bare = (Operand.predicate p).bare) ?_ id
      fun o t hc ho ht => Ensures.pure ⟨hc, Operand.bare_grouped ho _ _, ht⟩
    refine follow (holds_climbPredicate hR.predicatePrimary hn hu hc (by exact ⟨rfl, rfl⟩) ht) id
      fun v t hc hv => Ensures.pure (.inl ⟨hc, ?_, hv.2⟩)
    exact congrArg Operand.predicate hv.1
  · -- the parenthesis opens a comparison, whose first operand decides how to go on
    obtain ⟨operand, rest, hnl, hwl⟩ := exists_nests (hn.isOperand_first.1.left hleft)
    rw [hw, Predicate.words_eq hleft, hwl] at h
    simp only [List.append_assoc] at h
    have hends := hnl.admits_first folds_expression (left.admits_of_endsValue
      (Predicate.headKind_relation hleft (tail ++ Word.mark .rightParen :: ws)).2).2
    refine holds_parenthesizedFrom (hnl.isOperand_first.1.stuck h) ?_
    refine holds_opening_value hR.parenthesized hR.primary hnl.isOperand_first hends h
      (fun hc => hnl.clean_first (Predicate.clean_left hleft (hn.clean_first hc)))
      fun u t hc hu ht => ?_
    exact follow_closed ((holds_operandRest_comparison hR hn hleft hnl hu hc ht).imp
      fun _ _ => .inl) id fun o t hc ho ht =>
        Ensures.pure ⟨hc, Operand.bare_grouped (p := .predicate p) ho _ _, ht⟩

theorem replays_parenthesized (hR : R.Complete) :
    (parenthesized R).Replays (fun o _ => o.Encloses) Operand.words (fun o => Clean o.visits)
      Operand.bare := by
  intro o ws s ho h
  dsimp only at h ⊢
  cases ho with
  | @predicate token inner hf =>
      have hclean : Clean (Operand.predicate (.grouped token inner)).visits ↔
          Clean inner.visits := by simp [Operand.visits, Predicate.visits, Visit.isCaptured]
      rw [hclean]
      simp only [Operand.words, Predicate.words, Word.enclosed, List.cons_append,
        List.append_assoc, List.nil_append] at h
      exact holds_begin h rfl fun t ht => holds_parenthesizedFrom_predicate hR _ token hf ht
  | @value e hf hp =>
      cases e with
      | grouped token inner =>
          have hinner : inner.Formed := hf
          have hclean : Clean (Operand.value (.grouped token inner)).visits ↔
              Clean inner.visits := by simp [Operand.visits, Expression.visits, Visit.isCaptured]
          rw [hclean]
          simp only [Operand.words, Expression.words, Word.enclosed, List.cons_append,
            List.append_assoc, List.nil_append] at h
          exact holds_begin h rfl fun t ht => holds_parenthesizedFrom_value hR _ token hinner ht
      | subquery token select =>
          have hclean : Clean (Operand.value (.subquery token select)).visits ↔
              Clean select.visits := by simp [Operand.visits, Expression.visits, Visit.isCaptured]
          rw [hclean]
          simp only [Operand.words, Expression.words, Word.enclosed, List.cons_append,
            List.append_assoc, List.nil_append] at h
          refine holds_begin h rfl fun t ht => Ensures.kind ?_
          rw [ht.kind, select.headKind_words]
          refine follow_closed (hR.select ⟨hf, rfl⟩ ht) id fun v t hc hv ht =>
            Ensures.pure ⟨hc, ?_, ht⟩
          exact congrArg Operand.value (congrArg (Expression.subquery .nowhere) hv)
      | _ => cases hp

def operandThen (R : Rules n) : Operand → Rule (n + 1) Predicate
  | .predicate found => return found
  | .value first => do
    comparison (Grammar.expression (primary R)) (Grammar.select R)
      (← climbExpression (primary R) first)

theorem replays_operandFirst (hR : R.Complete) {p : Predicate} (hf : p.Formed)
    (hp : (∃ token inner, p = .grouped token inner) ∨ ∃ left, p.left? = some left)
    (hk : (Word.headKind ws).endsValue = true) (h : s.Holds (p.words ++ ws)) :
    (operandFirst R).Ensures s
      (fun q t => Clean p.visits ∧ q.rename .bare = p.rename .bare ∧ t.Holds ws)
      (¬Clean p.visits) := by
  have hparen := replays_parenthesized hR
  have hprimary := replays_primary hR
  change (do
    let o ← if (← Rule.kind) = .mark .leftParen then parenthesized R
      else Operand.value <$> primary R
    operandThen R o : Rule (n + 1) Predicate).Ensures s _ _
  refine Ensures.kind ?_
  dsimp only
  obtain ⟨token, inner, rfl⟩ | ⟨left, hleft⟩ := hp
  · have hinner : inner.Formed := hf
    exact holds_opening_predicate hparen hinner h id fun q t hc hq ht =>
      Ensures.pure ⟨hc, hq, ht⟩
  · have hl := hf.left hleft
    obtain ⟨operand, rest, hn, hw⟩ := exists_nests hl
    have hends := (Predicate.headKind_relation hleft ws).2
    rw [Predicate.words_eq hleft, hw] at h
    simp only [List.append_assoc] at h
    refine holds_opening_value hparen hprimary hn.isOperand_first
      (hn.admits_first folds_expression (left.admits_of_endsValue hends).2) h
      (fun hc => hn.clean_first (Predicate.clean_left hleft hc)) fun u t hc hu ht => ?_
    refine follow (holds_climbExpression hprimary hn hu hc (left.admits_of_endsValue hends) ht)
      (Predicate.clean_left hleft) fun v t hcl hv => ?_
    exact holds_comparison (replays_expression hprimary) (sticks_select hR) hf hleft hv.1 hcl hk
      hv.2

theorem replays_predicatePrimary (hR : R.Complete) :
    (predicatePrimary R).Replays (fun p k => (p.Formed ∧ p.tier = 3) ∧ k.endsValue = true)
      Predicate.words (fun p => Clean p.visits) (Predicate.rename .bare) := by
  rintro p ws s ⟨⟨hf, ht⟩, hk⟩ h
  dsimp only at h ⊢
  obtain ⟨token, inner, rfl⟩ | ⟨token, v, rfl⟩ | hp := Predicate.cases_of_tier ht
  · have hclean : Clean (Predicate.not token inner).visits ↔ Clean inner.visits := by
      simp [Predicate.visits, Visit.isCaptured]
    rw [hclean]
    refine Ensures.kind ?_
    rw [h.kind]
    refine holds_take h fun t ht => ?_
    refine follow (hR.predicatePrimary ⟨hf, hk⟩ ht) id fun q t hc hq =>
      Ensures.pure ⟨hc, ?_, hq.2⟩
    rw [Predicate.rename, Predicate.rename, hq.1]
  · have hclean : Clean (Predicate.existence token v).visits ↔ Clean v.visits := by
      simp [Predicate.visits, Visit.isCaptured]
    rw [hclean]
    refine Ensures.kind ?_
    rw [h.kind]
    refine holds_take h fun t ht => ?_
    refine follow (replays_subquery hR.select hf ht) id fun q t hc hq =>
      Ensures.pure ⟨hc, ?_, hq.2⟩
    rw [Predicate.rename, Predicate.rename, hq.1]
  · have hstuck : s.Stuck := by
      obtain ⟨token, inner, rfl⟩ | ⟨left, hleft⟩ := hp
      · rw [Stream.Stuck, h.kind]
        rfl
      · rw [Predicate.words_eq hleft, List.append_assoc] at h
        exact (hf.left hleft).stuck h
    refine Ensures.kind ?_
    split
    · exact absurd ‹_› (hstuck.ne rfl)
    · exact absurd ‹_› (hstuck.ne rfl)
    · exact replays_operandFirst hR hf hp hk h

end Grammar

end Transact
