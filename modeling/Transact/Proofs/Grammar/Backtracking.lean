import Transact.Proofs.Grammar.Parenthesis
import Transact.Proofs.Grammar.Refines

namespace Transact.Grammar

open Rule

variable {α : Type} {n : Nat} {s t : Stream} {c : Predicate}

def negation (R : Rules n) : Rule (n + 1) Predicate :=
  take fun word => return .not word (← R.predicatePrimary)

def existence (R : Rules n) : Rule (n + 1) Predicate :=
  take fun word => return .existence word (← subquery R.select)

def compareFirst (R : Rules n) : Rule (n + 1) Predicate := do
  comparison (expression (primary R)) (select R) (← expression (primary R))

def guessedPrimary (isGrouped : Stream → Bool) (R : Rules n) : Rule (n + 1) Predicate := fun s hs =>
  match s.current.kind with
  | .keyword .NOT => negation R s hs
  | .keyword .EXISTS => existence R s hs
  | .mark .leftParen => if isGrouped s then take (enclosed R) s hs else compareFirst R s hs
  | _ => compareFirst R s hs

/-- The grammar that takes exactly those parentheses for the ones of grouped predicates that a
guess says. With all guesses it goes all ways that a grammar with unlimited backtracking goes. -/
def guessedRules (isGrouped : Stream → Bool) : (n : Nat) → Rules n
  | 0 => rules 0
  | n + 1 =>
    let R := guessedRules isGrouped n
    { primary := primary R
      expression := expression (primary R)
      predicatePrimary := guessedPrimary isGrouped R
      predicate := predicate (guessedPrimary isGrouped R)
      parenthesized := unexpected
      select := select R
      statement := statement R
      shrinks := shrinks_statement R }

section

variable {R R' : Rules n}

theorem gives_predicatePrimary_not (hk : s.current.kind = .keyword .NOT) :
    (predicatePrimary R).Gives s c t ↔ (negation R).Gives s c t := by
  rw [predicatePrimary, gives_kind_bind, hk, negation]

theorem gives_predicatePrimary_exists (hk : s.current.kind = .keyword .EXISTS) :
    (predicatePrimary R).Gives s c t ↔ (existence R).Gives s c t := by
  rw [predicatePrimary, gives_kind_bind, hk, existence]

theorem gives_predicatePrimary_rest (hn : s.current.kind ≠ .keyword .NOT)
    (he : s.current.kind ≠ .keyword .EXISTS) :
    (rules (n + 1)).predicatePrimary.Gives s c t ↔
      (s.current.kind = .mark .leftParen ∧ (take (enclosed (rules n))).Gives s c t) ∨
      (compareFirst (rules n)).Gives s c t := by
  rw [gives_predicatePrimary_opening hn he, opening]
  have hvalue : (compareFirst (rules n)).Gives s c t ↔ ∃ e u v w,
      (rules (n + 1)).primary.Gives s e u ∧
        (climbExpression (rules (n + 1)).primary e).Gives u v w ∧
        (comparison (rules (n + 1)).expression (rules (n + 1)).select v).Gives w c t := by
    rw [expression_rules, primary_rules_succ, select_rules_succ, compareFirst, gives_bind]
    simp only [expression, gives_bind (p := primary _)]
    constructor
    · rintro ⟨v, w, ⟨e, u, he, hv⟩, hc⟩
      exact ⟨e, u, v, w, he, hv, hc⟩
    · rintro ⟨e, u, v, w, he, hv, hc⟩
      exact ⟨v, w, ⟨e, u, he, hv⟩, hc⟩
  rw [hvalue]
  split
  · rename_i hk
    simp only [gives_parenthesized_predicate hk, gives_parenthesized_value hk, hk, true_and]
  · rename_i hk
    simp [gives_map, hk]

variable {isGrouped : Stream → Bool}

theorem gives_guessedPrimary_not (hk : s.current.kind = .keyword .NOT) :
    (guessedPrimary isGrouped R).Gives s c t ↔ (negation R).Gives s c t :=
  gives_eq fun hs => by simp only [guessedPrimary, hk]

theorem gives_guessedPrimary_exists (hk : s.current.kind = .keyword .EXISTS) :
    (guessedPrimary isGrouped R).Gives s c t ↔ (existence R).Gives s c t :=
  gives_eq fun hs => by simp only [guessedPrimary, hk]

theorem gives_guessedPrimary_rest (hn : s.current.kind ≠ .keyword .NOT)
    (he : s.current.kind ≠ .keyword .EXISTS) :
    (guessedPrimary isGrouped R).Gives s c t ↔
      (s.current.kind = .mark .leftParen ∧ isGrouped s ∧ (take (enclosed R)).Gives s c t) ∨
      (¬(s.current.kind = .mark .leftParen ∧ isGrouped s) ∧ (compareFirst R).Gives s c t) := by
  by_cases hk : s.current.kind = .mark .leftParen
  · by_cases hg : isGrouped s = true
    · rw [gives_eq (q := take (enclosed R)) fun hs => by simp [guessedPrimary, hk, hg]]
      simp [hk, hg]
    · rw [gives_eq (q := compareFirst R) fun hs => by simp [guessedPrimary, hk, hg]]
      simp [hg]
  · rw [gives_eq (q := compareFirst R) fun hs => by simp only [guessedPrimary]]
    simp [hk]

theorem negation_refines (h : R.Refines R') : (negation R).Refines (negation R') :=
  .take fun _ => .first h.predicatePrimary

theorem existence_refines (h : R.Refines R') : (existence R).Refines (existence R') :=
  .take fun _ => .first (subquery_refines h.select)

theorem take_enclosed_refines (h : R.Refines R') :
    (take (enclosed R)).Refines (take (enclosed R')) :=
  .take fun _ => .first h.predicate

theorem compareFirst_refines (h : R.Refines R') : (compareFirst R).Refines (compareFirst R') := by
  have he := expression_refines (primary_refines h)
  exact .bind he fun left => comparison_refines he (select_refines h) left

end

variable {isGrouped : Stream → Bool}

structure Rules.BuiltFrom (S : Rules (n + 1)) (R : Rules n) : Prop where
  primary : S.primary = Grammar.primary R
  expression : S.expression = Grammar.expression (Grammar.primary R)
  predicate : S.predicate = Grammar.predicate S.predicatePrimary
  select : S.select = Grammar.select R
  statement : S.statement = Grammar.statement R

theorem builtFrom_rules : (rules (n + 1)).BuiltFrom (rules n) where
  primary := primary_rules_succ
  expression := by rw [expression_rules, primary_rules_succ]
  predicate := predicate_rules
  select := select_rules_succ
  statement := statement_rules_succ

theorem builtFrom_guessedRules :
    (guessedRules isGrouped (n + 1)).BuiltFrom (guessedRules isGrouped n) :=
  ⟨rfl, rfl, rfl, rfl, rfl⟩

theorem Rules.BuiltFrom.refines {S S' : Rules (n + 1)} {R R' : Rules n} (hS : S.BuiltFrom R)
    (hS' : S'.BuiltFrom R') (h : R.Refines R')
    (hp : S.predicatePrimary.Refines S'.predicatePrimary) : S.Refines S' := by
  have he := primary_refines h
  constructor
  · rw [hS.primary, hS'.primary]
    exact he
  · rw [hS.expression, hS'.expression]
    exact expression_refines he
  · exact hp
  · rw [hS.predicate, hS'.predicate]
    exact predicate_refines hp
  · rw [hS.select, hS'.select]
    exact select_refines h
  · rw [hS.statement, hS'.statement]
    exact statement_refines h

theorem guessedPrimary_refines (h : (guessedRules isGrouped n).Refines (rules n)) :
    (guessedPrimary isGrouped (guessedRules isGrouped n)).Refines
      (rules (n + 1)).predicatePrimary := by
  intro s c t hc
  by_cases hn : s.current.kind = .keyword .NOT
  · rw [gives_guessedPrimary_not hn] at hc
    rw [predicatePrimary_rules_succ, gives_predicatePrimary_not hn]
    exact negation_refines h _ _ _ hc
  · by_cases he : s.current.kind = .keyword .EXISTS
    · rw [gives_guessedPrimary_exists he] at hc
      rw [predicatePrimary_rules_succ, gives_predicatePrimary_exists he]
      exact existence_refines h _ _ _ hc
    · rw [gives_predicatePrimary_rest hn he]
      obtain ⟨hk, -, hc⟩ | ⟨-, hc⟩ := (gives_guessedPrimary_rest hn he).1 hc
      · exact .inl ⟨hk, take_enclosed_refines h _ _ _ hc⟩
      · exact .inr (compareFirst_refines h _ _ _ hc)

/-- Whatever is guessed, nothing is read that the grammar does not read. -/
theorem guessedRules_refines : (guessedRules isGrouped n).Refines (rules n) := by
  induction n with
  | zero => exact ⟨.refl _, .refl _, .refl _, .refl _, .refl _, .refl _⟩
  | succ n ih => exact builtFrom_guessedRules.refines builtFrom_rules ih (guessedPrimary_refines ih)

theorem gives_rules {p : ∀ {n}, Rules n → Rule n α} {v : α}
    (hp : ∀ {m n : Nat} (h : m ≤ n) (R : Rules n), p (R.restrict h) = restrict h (p R))
    (hs : s.size < n) : (p (rules n)).Gives s v t ↔ (p s.rules).Gives s v t := by
  have h : s.rules = (rules n).restrict hs := (restrict_rules hs).symm
  rw [h, hp, gives_restrict]
  exact (and_iff_right (Nat.lt_succ_self _)).symm

theorem size_lt_succ (s : Stream) : s.size < s.size + 1 := Nat.lt_succ_self _

/-- The guess that is right: whether the grammar reads a grouped predicate. -/
def readsGrouped (s : Stream) : Bool :=
  match s.rules.parenthesized s (size_lt_succ s) with
  | .ok (.predicate _) _ _ => true
  | _ => false

theorem readsGrouped_iff :
    readsGrouped s = true ↔ ∃ g t, s.rules.parenthesized.Gives s (.predicate g) t := by
  constructor
  · intro h
    rw [readsGrouped] at h
    split at h
    · rename_i g t le hg
      exact ⟨g, t, Nat.lt_succ_self _, le, hg⟩
    · cases h
  · rintro ⟨g, t, hs, le, hg⟩
    rw [readsGrouped, hg]

theorem gives_parenthesized_rules {o : Operand} (hs : s.size < n) :
    (rules n).parenthesized.Gives s o t ↔ s.rules.parenthesized.Gives s o t :=
  gives_rules (p := Rules.parenthesized) (fun _ _ => rfl) hs

theorem gives_predicate_rules (hs : s.size < n) :
    (rules n).predicate.Gives s c t ↔ s.rules.predicate.Gives s c t :=
  gives_rules (p := Rules.predicate) (fun _ _ => rfl) hs

theorem readsGrouped_of_enclosed (hk : s.current.kind = .mark .leftParen)
    (h : (take (enclosed (rules n))).Gives s c t) : readsGrouped s = true := by
  rw [← gives_parenthesized_predicate hk, gives_parenthesized_rules h.size_lt] at h
  exact readsGrouped_iff.2 ⟨c, t, h⟩

theorem not_readsGrouped_of_compareFirst (hk : s.current.kind = .mark .leftParen)
    (h : (compareFirst (rules n)).Gives s c t) : ¬readsGrouped s = true := by
  obtain ⟨v, w, hv, -⟩ := gives_bind.1 h
  obtain ⟨e, u, he, -⟩ := gives_bind.1 hv
  rw [← primary_rules_succ, ← gives_parenthesized_value hk,
    gives_parenthesized_rules h.size_lt] at he
  intro hg
  obtain ⟨g, x, hg⟩ := readsGrouped_iff.1 hg
  cases (he.eq hg).1

theorem predicatePrimary_refines_guessed (h : (rules n).Refines (guessedRules readsGrouped n)) :
    (rules (n + 1)).predicatePrimary.Refines
      (guessedPrimary readsGrouped (guessedRules readsGrouped n)) := by
  intro s c t hc
  by_cases hn : s.current.kind = .keyword .NOT
  · rw [predicatePrimary_rules_succ, gives_predicatePrimary_not hn] at hc
    rw [gives_guessedPrimary_not hn]
    exact negation_refines h _ _ _ hc
  · by_cases he : s.current.kind = .keyword .EXISTS
    · rw [predicatePrimary_rules_succ, gives_predicatePrimary_exists he] at hc
      rw [gives_guessedPrimary_exists he]
      exact existence_refines h _ _ _ hc
    · rw [gives_guessedPrimary_rest hn he]
      obtain ⟨hk, hc⟩ | hc := (gives_predicatePrimary_rest hn he).1 hc
      · exact .inl ⟨hk, readsGrouped_of_enclosed hk hc, take_enclosed_refines h _ _ _ hc⟩
      · refine .inr ⟨?_, compareFirst_refines h _ _ _ hc⟩
        rintro ⟨hk, hg⟩
        exact not_readsGrouped_of_compareFirst hk hc hg

/-- With the right guess, all is read that the grammar reads. -/
theorem refines_guessedRules : (rules n).Refines (guessedRules readsGrouped n) := by
  induction n with
  | zero => exact ⟨.refl _, .refl _, .refl _, .refl _, .refl _, .refl _⟩
  | succ n ih =>
      exact builtFrom_rules.refines builtFrom_guessedRules ih (predicatePrimary_refines_guessed ih)

/-- A parenthesis where a predicate may stand is resolved exactly. It is read as a value exactly if
an expression can be read there, and as a predicate exactly if a predicate and its closing
parenthesis can be read behind it, and never can both be read. A predicate is thus read exactly if
some way to resolve all parentheses, nested ones included, leads to it. -/
theorem parenthesis_exact (s : Stream) :
    (s.current.kind = .mark .leftParen →
      (∀ e t, s.rules.parenthesized.Gives s (.value e) t ↔ s.rules.primary.Gives s e t) ∧
      (∀ g t, s.rules.parenthesized.Gives s (.predicate g) t ↔
        ∃ u b w, s.advance = .ok u ∧ u.rules.predicate.Gives u b w ∧
          w.current.kind = .mark .rightParen ∧ w.advance = .ok t ∧ g = .grouped s.current b) ∧
      ¬((∃ e t, s.rules.primary.Gives s e t) ∧
        ∃ u b w t, s.advance = .ok u ∧ u.rules.predicate.Gives u b w ∧
          w.current.kind = .mark .rightParen ∧ w.advance = .ok t)) ∧
    ∀ g t, s.rules.predicatePrimary.Gives s g t ↔
      ∃ isGrouped, (guessedRules isGrouped (s.size + 1)).predicatePrimary.Gives s g t := by
  refine ⟨fun hk => ?_, fun g t => ⟨fun h => ⟨readsGrouped, ?_⟩, ?_⟩⟩
  · have hvalue : ∀ e t, s.rules.parenthesized.Gives s (.value e) t ↔ s.rules.primary.Gives s e t :=
      fun e t => gives_parenthesized_value hk
    have hgrouped : ∀ g t, s.rules.parenthesized.Gives s (.predicate g) t ↔
        ∃ u b w, s.advance = .ok u ∧ u.rules.predicate.Gives u b w ∧
          w.current.kind = .mark .rightParen ∧ w.advance = .ok t ∧ g = .grouped s.current b := by
      intro g t
      rw [Stream.rules, gives_parenthesized_predicate hk, gives_take]
      constructor
      · rintro ⟨hne, u, ha, hs, he⟩
        obtain ⟨b, w, hb, hw, ht, rfl⟩ := gives_enclosed.1 he
        exact ⟨u, b, w, ha, (gives_predicate_rules hb.size_lt).1 hb, hw, ht, rfl⟩
      · rintro ⟨u, b, w, ha, hb, hw, ht, rfl⟩
        have hne : s.current.kind ≠ .eof := by
          rw [hk]
          decide
        have lt := Stream.size_advance_lt ha hne
        exact ⟨hne, u, ha, Nat.lt_succ_self _,
          gives_enclosed.2 ⟨b, w, (gives_predicate_rules lt).2 hb, hw, ht, rfl⟩⟩
    refine ⟨hvalue, hgrouped, ?_⟩
    rintro ⟨⟨e, t, he⟩, u, b, w, t', ha, hb, hw, ht⟩
    cases (((hvalue e t).2 he).eq ((hgrouped _ t').2 ⟨u, b, w, ha, hb, hw, ht, rfl⟩)).1
  · exact refines_guessedRules.predicatePrimary _ _ _ h
  · rintro ⟨isGrouped, h⟩
    exact guessedRules_refines.predicatePrimary _ _ _ h

def groupedOne : Stream :=
  ⟨⟨.mark .leftParen, ⟨1, 1, 1⟩, .none⟩,
    [⟨.constant .int, ⟨1, 2, 2⟩, .int 1⟩, ⟨.mark .rightParen, ⟨1, 3, 3⟩, .none⟩], none⟩

theorem parenthesis_exact_groupedOne :
    groupedOne.current.kind = .mark .leftParen ∧
      ∃ e, groupedOne.rules.parenthesized.Gives groupedOne (.value e)
        ⟨.eof ⟨1, 3, 3⟩, [], none⟩ := by
  refine ⟨rfl, .grouped groupedOne.current
    (.constant ⟨.constant .int, ⟨1, 2, 2⟩, .int 1⟩ (.int 1)), ?_⟩
  refine (((parenthesis_exact groupedOne).1 rfl).1 _ _).2 ⟨by decide, by decide, ?_⟩
  cbv

end Transact.Grammar
