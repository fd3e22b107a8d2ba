import Transact.Proofs.Replay.Climb
import Transact.Proofs.Replay.Name
import Transact.Proofs.Sound.Expression
import Transact.Proofs.Syntax.Clean
import Transact.Proofs.Traversal.Leaf

namespace Transact

def Kind.endsValue (k : Kind) : Bool :=
  BinaryOperator.ofKind? k = none && k ≠ .mark .dot && k ≠ .mark .leftParen && k ≠ .identifier

def Kind.endsClauses : Kind → Bool
  | .mark .rightParen | .mark .semicolon | .eof | .keyword .ELSE | .keyword .END
  | .keyword .SELECT | .keyword .INSERT | .keyword .UPDATE | .keyword .DELETE | .keyword .IF
  | .keyword .WHILE | .keyword .BEGIN => true
  | _ => false

theorem Expression.admits_of_endsValue (e : Expression) {k : Kind} (h : k.endsValue = true) :
    e.Admits k := by
  simp only [Kind.endsValue, Bool.and_eq_true, decide_eq_true_eq] at h
  obtain ⟨⟨⟨hop, hdot⟩, hparen⟩, hid⟩ := h
  exact ⟨hop, fun r _ => ⟨⟨hdot, fun _ => hid⟩, hparen⟩⟩

theorem Reference.endsBefore_of_endsValue (r : Reference) {k : Kind} (h : k.endsValue = true) :
    r.EndsBefore k :=
  ((Expression.reference r).admits_of_endsValue h).2 r rfl |>.1

theorem Expressions.clean_iff (es : List Expression) :
    Clean (Expressions.visits es) ↔ ∀ e ∈ es, Clean e.visits := by
  induction es with
  | nil => simp [Expressions.visits]
  | cons e es ih => simp [Expressions.visits, ih]

theorem Expression.Formed.stuck {e : Expression} (he : e.Formed) {s : Stream} {ws : List Word}
    (h : s.Holds (e.words ++ ws)) : s.Stuck := by
  obtain ⟨w, vs, hw, hb, -⟩ := he.head
  rw [hw] at h
  rw [Stream.Stuck, h.kind]
  exact hb

theorem Select.headKind_words (v : Select) (ws : List Word) :
    Word.headKind (v.words ++ ws) = .keyword .SELECT := by
  cases v
  rfl

theorem Constant.ofToken?_of_word {t : Token} {c : Constant} (h : t.word = c.word) :
    Constant.ofToken? t = some c := by
  obtain ⟨k, place, value⟩ := t
  cases c <;> cases h <;> rfl

namespace Grammar

open Rule Rule.Ensures

namespace Operand

def bare : Operand → Operand
  | value e => .value (e.rename .bare)
  | predicate p => .predicate (p.rename .bare)

inductive Encloses : Operand → Prop where
  | value {e : Expression} (hf : e.Formed) (hp : e.isParenthesized = true) : Encloses (.value e)
  | predicate {t : Token} {inner : Predicate} (hf : inner.Formed) :
      Encloses (.predicate (.grouped t inner))

end Operand

variable {n : Nat} {s t : Stream} {ws : List Word}

/-- The rules for shorter streams read trees back from their words, unless a column in them is
captured. -/
structure Rules.Complete (R : Rules n) : Prop where
  primary : R.primary.Replays (fun e k => (e.Formed ∧ e.tier = 3) ∧ e.EndsBefore k)
    Expression.words (fun e => Clean e.visits) (Expression.rename .bare)
  expression : R.expression.Replays (fun e k => e.Formed ∧ e.Admits k) Expression.words
    (fun e => Clean e.visits) (Expression.rename .bare)
  predicatePrimary : R.predicatePrimary.Replays
    (fun p k => (p.Formed ∧ p.tier = 3) ∧ k.endsValue = true) Predicate.words
    (fun p => Clean p.visits) (Predicate.rename .bare)
  predicate : R.predicate.Replays
    (fun p k => p.Formed ∧ k.endsValue = true ∧ LogicalOperator.ofKind? k = none) Predicate.words
    (fun p => Clean p.visits) (Predicate.rename .bare)
  parenthesized : R.parenthesized.Replays (fun o _ => o.Encloses) Operand.words
    (fun o => Clean o.visits) Operand.bare
  select : R.select.Sticks (fun v k => (v.Formed ∧ v.terminated = false) ∧ k.endsClauses = true)
    Select.words (fun v => Clean v.visits) (Select.rename .bare)
  statement : R.statement.Sticks
    (fun v k => (v.Formed ∧ v.Admits k) ∧ k.endsClauses = true) Statement.words
    (fun v => Clean v.visits) (Statement.rename .bare)
  stuck : ∀ ⦃s : Stream⦄, s.Stuck → R.statement.Ensures s (fun _ _ => False) True

theorem sticks_values {expression : Rule n Expression}
    (he : expression.Replays (fun e k => e.Formed ∧ e.Admits k) Expression.words
      (fun e => Clean e.visits) (Expression.rename .bare)) :
    (commaSeparated expression).Sticks
      (fun es k => (es ≠ [] ∧ ∀ e ∈ es, e.Formed) ∧ k = .mark .rightParen)
      (fun es => Word.listed (es.map Expression.words)) (fun es => ∀ e ∈ es, Clean e.visits)
      (List.map (Expression.rename .bare)) := by
  rintro es ws s ⟨⟨hne, hf⟩, hk⟩ h
  refine sticks_commaSeparated he.sticks ⟨hne, by simp [hk], fun e hmem => ?_⟩ h
  rw [hk]
  exact ⟨⟨hf e hmem, e.admits_of_endsValue rfl⟩, hf e hmem, e.admits_of_endsValue rfl⟩

theorem replays_arguments {expression : Rule n Expression}
    (he : expression.Replays (fun e k => e.Formed ∧ e.Admits k) Expression.words
      (fun e => Clean e.visits) (Expression.rename .bare)) :
    (arguments expression).Replays (fun es _ => Expressions.Formed es)
      (fun es => Word.enclosed (Word.listed (Expressions.words es)))
      (fun es => Clean (Expressions.visits es)) (Expressions.rename .bare) := by
  intro es ws s hf h
  dsimp only at h ⊢
  rw [Word.enclosed, List.cons_append, List.append_assoc, List.singleton_append] at h
  refine (holds_expect h rfl).bind fun _ t ht => ?_
  refine Ensures.kind ?_
  dsimp only
  cases es with
  | nil =>
      rw [if_pos (show t.current.kind = .mark .rightParen from ht.kind)]
      refine follow_closed (P := fun us => Expressions.rename .bare us = [])
        (Ensures.pure (.inl ⟨?_, rfl, ht⟩)) id fun us u hc hus hu => Ensures.pure ⟨hc, hus, hu⟩
      simp [Expressions.visits]
  | cons e es =>
      have hlist := ht
      rw [Expressions.words, Word.listed_cons, List.append_assoc] at ht
      rw [if_neg (hf.1.stuck ht |>.ne rfl)]
      rw [Expressions.words_eq] at hlist
      rw [Expressions.formed_iff] at hf
      refine follow_closed (sticks_values he ⟨⟨List.cons_ne_nil _ _, hf⟩, rfl⟩ hlist)
        (Expressions.clean_iff _).1 fun us u hc hus hu => Ensures.pure ⟨?_, ?_, hu⟩
      · exact (Expressions.clean_iff _).2 hc
      · rw [Expressions.rename_eq, Expressions.rename_eq, hus]

variable {R : Rules n}

theorem replays_call (hR : R.Complete) {token : Token} {function r : Reference}
    {arguments : List Expression} (hf : Expressions.Formed arguments) (hr : r.bare = function.bare)
    (h : s.Holds (Word.enclosed (Word.listed (Expressions.words arguments)) ++ ws)) :
    (call R r).Ensures s (fun e t => Clean (Expression.call token function arguments).visits ∧
      e.rename .bare = (Expression.call token function arguments).rename .bare ∧ t.Holds ws)
      (¬Clean (Expression.call token function arguments).visits) := by
  have hclean : Clean (Expression.call token function arguments).visits ↔
      Clean (Expressions.visits arguments) := by simp [Expression.visits, Visit.isCaptured]
  rw [hclean]
  refine follow (replays_arguments hR.expression hf h) id fun es t hc hes =>
    Ensures.pure ⟨hc, ?_, hes.2⟩
  rw [Expression.rename, Expression.rename, Renaming.bare_function, hr, hes.1]

theorem holds_named {r : Reference} {post : Expression → Stream → Prop} {fault : Prop}
    (hr : r.Formed) (hk : r.EndsBefore (Word.headKind ws)) (h : s.Holds (r.words ++ ws))
    (hrest : ∀ q t, q.bare = r.bare → t.Holds ws →
      (do if (← Rule.kind) = .mark .leftParen then call R q else return .reference q :
        Rule n Expression).Ensures t post fault) :
    (primary R).Ensures s post fault := by
  obtain ⟨w, vs, hw, hfirst⟩ := hr.head
  have hstart := Parts.Awaits.start hr.parts_ne_nil
  change Parts.start.Awaits r.parts r.words at hstart
  rw [hw] at hstart h
  have htake : (take (named R)).Ensures s post fault := by
    refine holds_take h fun t ht => ?_
    refine (holds_referenceFrom _ hr hk (hstart.add hr.1 h.word_current).2 ht).bind
      fun q u hq => ?_
    exact hrest q u hq.1 hq.2
  refine Ensures.kind ?_
  obtain hid | rfl := hfirst
  · rw [h.kind.trans hid]
    exact htake
  · rw [h.kind]
    exact htake

theorem holds_call_named (hR : R.Complete) {token : Token} {function : Reference}
    {arguments : List Expression} (hfunction : function.Formed) (hf : Expressions.Formed arguments)
    (h : s.Holds
      (function.words ++ (Word.enclosed (Word.listed (Expressions.words arguments)) ++ ws))) :
    (primary R).Ensures s (fun e t => Clean (Expression.call token function arguments).visits ∧
      e.rename .bare = (Expression.call token function arguments).rename .bare ∧ t.Holds ws)
      (¬Clean (Expression.call token function arguments).visits) := by
  have hends : function.EndsBefore (.mark .leftParen) :=
    function.endsBefore_of_ne (by decide) (by decide)
  refine holds_named hfunction (by exact hends) h fun q t hq ht => Ensures.kind ?_
  rw [if_pos (show t.current.kind = .mark .leftParen from ht.kind)]
  exact replays_call hR hf hq ht

theorem holds_call_builtIn (hR : R.Complete) {token : Token} {function : Reference}
    {arguments : List Expression} {p : String} (hp : function.parts = [p])
    (hk : (Kind.ofWord p).isFunction = true) (hf : Expressions.Formed arguments)
    (h : s.Holds
      (Word.name p :: (Word.enclosed (Word.listed (Expressions.words arguments)) ++ ws))) :
    (primary R).Ensures s (fun e t => Clean (Expression.call token function arguments).visits ∧
      e.rename .bare = (Expression.call token function arguments).rename .bare ∧ t.Holds ws)
      (¬Clean (Expression.call token function arguments).visits) := by
  have htake : (take (builtIn R)).Ensures s (fun e t =>
      Clean (Expression.call token function arguments).visits ∧
      e.rename .bare = (Expression.call token function arguments).rename .bare ∧ t.Holds ws)
      (¬Clean (Expression.call token function arguments).visits) := by
    refine holds_take h fun t ht => Ensures.kind ?_
    rw [if_pos (show t.current.kind = .mark .leftParen from ht.kind)]
    refine replays_call hR hf (Reference.bare_inj.2 ?_) ht
    rw [hp, Token.text_of_word h.word_current]
  have hkind : s.current.kind = Kind.ofWord p := h.kind
  refine Ensures.kind ?_
  rw [Kind.isFunction.eq_def] at hk
  split at hk
  all_goals first | (rename_i hp; rw [hkind, hp]; exact htake) | cases hk

theorem UnaryOperator.ofKind?_mark (operator : UnaryOperator) :
    UnaryOperator.ofKind? (.mark operator.mark) = some operator := by cases operator <;> rfl

theorem holds_unary (hR : R.Complete) {token : Token} {operator : UnaryOperator}
    {operand : Expression} (hf : operand.Formed ∧ operand.tier = 3)
    (he : operand.EndsBefore (Word.headKind ws))
    (h : s.Holds (Word.mark operator.mark :: (operand.words ++ ws))) :
    (primary R).Ensures s (fun e t => Clean (Expression.unary token operator operand).visits ∧
      e.rename .bare = (Expression.unary token operator operand).rename .bare ∧ t.Holds ws)
      (¬Clean (Expression.unary token operator operand).visits) := by
  have hclean : Clean (Expression.unary token operator operand).visits ↔
      Clean operand.visits := by simp [Expression.visits, Visit.isCaptured]
  rw [hclean]
  refine Ensures.kind ?_
  simp only [h.kind, Word.headKind, Word.mark, UnaryOperator.ofKind?_mark]
  refine holds_take h fun t ht => ?_
  refine follow (hR.primary ⟨hf, he⟩ ht) id fun v u hc hv => Ensures.pure ⟨hc, ?_, hv.2⟩
  rw [Expression.rename, Expression.rename, hv.1]

theorem replays_group_select (hR : R.Complete) {token : Token} {select : Select}
    (hf : (Expression.subquery token select).Formed)
    (h : s.Holds (select.words ++ Word.mark .rightParen :: ws)) (paren : Token) :
    (group R paren).Ensures s (fun e t => Clean (Expression.subquery token select).visits ∧
      e.rename .bare = (Expression.subquery token select).rename .bare ∧ t.Holds ws)
      (¬Clean (Expression.subquery token select).visits) := by
  have hclean : Clean (Expression.subquery token select).visits ↔ Clean select.visits := by
    simp [Expression.visits, Visit.isCaptured]
  rw [hclean]
  refine Ensures.kind ?_
  rw [if_pos (h.kind.trans (select.headKind_words _))]
  refine follow_closed (hR.select ⟨hf, rfl⟩ h) id fun v t hc hv ht => Ensures.pure ⟨hc, ?_, ht⟩
  rw [Expression.rename, Expression.rename, hv]

theorem replays_group (hR : R.Complete) {token : Token} {inner : Expression}
    (hf : inner.Formed) (h : s.Holds (inner.words ++ Word.mark .rightParen :: ws))
    (paren : Token) :
    (group R paren).Ensures s (fun e t => Clean (Expression.grouped token inner).visits ∧
      e.rename .bare = (Expression.grouped token inner).rename .bare ∧ t.Holds ws)
      (¬Clean (Expression.grouped token inner).visits) := by
  have hclean : Clean (Expression.grouped token inner).visits ↔ Clean inner.visits := by
    simp [Expression.visits, Visit.isCaptured]
  rw [hclean]
  refine Ensures.kind ?_
  rw [if_neg ((hf.stuck h).ne rfl)]
  refine follow_closed (hR.expression.sticks ⟨hf, inner.admits_of_endsValue rfl⟩ h) id
    fun e t hc he ht => Ensures.pure ⟨hc, ?_, ht⟩
  rw [Expression.rename, Expression.rename, he]

theorem replays_primary (hR : R.Complete) :
    (primary R).Replays (fun e k => (e.Formed ∧ e.tier = 3) ∧ e.EndsBefore k) Expression.words
      (fun e => Clean e.visits) (Expression.rename .bare) := by
  rintro e ws s ⟨⟨hf, ht⟩, he⟩ h
  dsimp only at h ⊢
  cases e with
  | unary token operator operand =>
      rw [Expression.words, List.cons_append] at h
      exact holds_unary hR hf he h
  | grouped token inner =>
      simp only [Expression.words, Word.enclosed, List.cons_append, List.append_assoc,
        List.nil_append] at h
      have hinner : inner.Formed := hf
      refine Ensures.kind ?_
      rw [h.kind]
      exact holds_take h fun t ht => replays_group hR hinner ht _
  | null token =>
      refine Ensures.kind ?_
      rw [h.kind]
      refine (holds_advance h).bind fun v t hv => Ensures.pure ⟨?_, rfl, hv.2⟩
      simp [Expression.visits, Visit.isCaptured]
  | constant token value =>
      obtain ⟨type, v, hv⟩ := value.word_kind
      have hk : s.current.kind = .constant type := by
        rw [h.kind]
        exact congrArg Prod.fst hv
      refine Ensures.kind ?_
      rw [hk]
      refine (holds_advance h).bind fun v t hv => ?_
      rw [Constant.ofToken?_of_word hv.1]
      refine Ensures.pure ⟨?_, rfl, hv.2⟩
      simp [Expression.visits, Visit.isCaptured]
  | subquery token select =>
      simp only [Expression.words, Word.enclosed, List.cons_append, List.append_assoc,
        List.nil_append] at h
      refine Ensures.kind ?_
      rw [h.kind]
      exact holds_take h fun t ht => replays_group_select hR hf ht _
  | reference name =>
      obtain ⟨hends, hparen⟩ := he name rfl
      refine holds_named hf hends h fun q t hq ht => Ensures.kind ?_
      rw [if_neg (by rw [ht.kind]; exact hparen)]
      refine Ensures.pure ⟨?_, ?_, ht⟩
      · simp [Expression.visits, Visit.isCaptured]
      · rw [Expression.rename, Expression.rename, Renaming.bare_column, hq]
  | call token function arguments =>
      rw [Expression.words, List.append_assoc] at h
      obtain hfunction | ⟨p, hp, hname, hk⟩ := hf.1
      · exact holds_call_named hR hfunction hf.2 h
      · rw [Reference.words_single hp hname, List.singleton_append] at h
        exact holds_call_builtIn hR hp hk hf.2 h
  | binary token left operator right => cases operator <;> cases ht

def Nests (e first : Expression) (ws : List Word) : Prop :=
  Nested BinaryOperator.tier Expression.binary Expression.tier (fun e => e.Formed ∧ e.tier = 3)
    Expression.words (fun op => Word.mark op.mark) e first ws

theorem BinaryOperator.ofKind?_mark (op : BinaryOperator) :
    BinaryOperator.ofKind? (.mark op.mark) = some op := by cases op <;> rfl

theorem folds_expression : Folds BinaryOperator.ofKind? BinaryOperator.tier Expression.binary
    Expression.tier Expression.EndsBefore (fun e => Clean e.visits) (Expression.rename .bare)
    (fun op => Word.mark op.mark) where
  operator_word := BinaryOperator.ofKind?_mark
  tier_join := fun _ _ _ _ => rfl
  admits_word := by
    intro e op r _
    cases op <;> exact ⟨⟨nofun, fun _ => nofun⟩, nofun⟩
  admits_join := fun _ _ _ _ _ h => h
  clean_join := by simp [Expression.visits, Visit.isCaptured]
  congr := by
    intro token token' left left' op right right' hl hr
    rw [Expression.rename, Expression.rename, hl, hr]

theorem Nests.clean_first {e first : Expression} (h : Nests e first ws) (hc : Clean e.visits) :
    Clean first.visits :=
  Nested.clean_first (C := fun e => Clean e.visits) folds_expression h hc

theorem exists_nests {e : Expression} (he : e.Formed) :
    ∃ first ws, Nests e first ws ∧ e.words = first.words ++ ws := by
  match e, he with
  | .binary token left op right, he =>
    obtain ⟨⟨hl, htl⟩, hr, htr⟩ := he
    obtain ⟨first, ws, hnl, hwl⟩ := exists_nests hl
    obtain ⟨first', ws', hnr, hwr⟩ := exists_nests hr
    refine ⟨first, _, .join token hnl hnr htl htr, ?_⟩
    rw [Expression.words, hwl, hwr, List.append_assoc]
  | .unary token op operand, he => exact ⟨_, [], .operand ⟨he, rfl⟩, (List.append_nil _).symm⟩
  | .grouped token inner, he => exact ⟨_, [], .operand ⟨he, rfl⟩, (List.append_nil _).symm⟩
  | .null token, he => exact ⟨_, [], .operand ⟨he, rfl⟩, (List.append_nil _).symm⟩
  | .constant token value, he => exact ⟨_, [], .operand ⟨he, rfl⟩, (List.append_nil _).symm⟩
  | .subquery token select, he => exact ⟨_, [], .operand ⟨he, rfl⟩, (List.append_nil _).symm⟩
  | .reference name, he => exact ⟨_, [], .operand ⟨he, rfl⟩, (List.append_nil _).symm⟩
  | .call token function arguments, he =>
    exact ⟨_, [], .operand ⟨he, rfl⟩, (List.append_nil _).symm⟩

section

variable {operand : Rule n Expression} {e first u : Expression} {rest : List Word}
variable (ho : operand.Replays (fun e k => (e.Formed ∧ e.tier = 3) ∧ e.EndsBefore k)
  Expression.words (fun e => Clean e.visits) (Expression.rename .bare))

include ho

theorem holds_climbExpression (hn : Nests e first ws) (hu : u.rename .bare = first.rename .bare)
    (hc : Clean first.visits) (ha : e.Admits (Word.headKind rest)) (hs : s.Holds (ws ++ rest)) :
    (climbExpression operand u).Ensures s
      (fun u t => Clean e.visits ∧ u.rename .bare = e.rename .bare ∧ t.Holds rest)
      (¬Clean e.visits) := by
  have htier : 1 ≤ e.tier := by
    cases e with
    | binary _ _ op _ => cases op <;> simp [Expression.tier, BinaryOperator.tier]
    | _ => exact Nat.le_add_left 1 2
  exact holds_climb folds_expression ho hn htier hu hc ha.2 ha.1 hs

theorem replays_expression : (expression operand).Replays (fun e k => e.Formed ∧ e.Admits k)
    Expression.words (fun e => Clean e.visits) (Expression.rename .bare) := by
  rintro e ws s ⟨hf, ha⟩ h
  obtain ⟨first, tail, hn, hw⟩ := exists_nests hf
  rw [hw, List.append_assoc] at h
  refine follow (ho ⟨hn.isOperand_first, hn.admits_first folds_expression ha.2⟩ h)
    hn.clean_first fun u t hc hu => ?_
  exact holds_climbExpression ho hn hu.1 hc ha hu.2

end

end Grammar

end Transact
