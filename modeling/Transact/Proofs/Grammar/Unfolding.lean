import Transact.Proofs.Grammar.Fixpoint
import Transact.Proofs.Rule.Turns

namespace Transact

namespace Rule

variable {α : Type} {m n : Nat} {s : Stream}

@[simp] theorem restrict_taking (h : m ≤ n) (f : Token → Rule n α) :
    restrict h (taking f) = taking fun t => restrict h (f t) := rfl

theorem taking_eq_take (f : Token → Rule (n + 1) α) (hk : s.current.kind ≠ .eof)
    (hs : s.size < n + 1) :
    taking f s hs = take (fun t => restrict (Nat.le_succ n) (f t)) s hs := by
  cases ha : s.advance with
  | error e => rw [taking_eq_error ha, take_eq_error hk ha]
  | ok t =>
      rw [taking_eq_ok hk ha, take_eq_ok hk ha]
      rfl

theorem agreeOn_taking {k : Kind} {f : Token → Rule (n + 1) α} {g : Token → Rule n α}
    (hk : k ≠ .eof) (h : ∀ t, restrict (Nat.le_succ n) (f t) = g t) :
    AgreeOn k (taking f) (take g) := by
  obtain rfl := funext h
  intro s hs hsk
  exact taking_eq_take f (hsk ▸ hk) hs

theorem expect_bind {k : Kind} (hk : k ≠ .eof) (f : Token → Rule (n + 1) α) :
    (expect k >>= f) = begin k fun t => restrict (Nat.le_succ n) (f t) := by
  rw [expect, bind_assoc, begin]
  refine kind_bind_congr fun l => ?_
  split
  · rename_i h
    exact agreeOn_taking (h ▸ hk) fun _ => rfl
  · exact fun _ _ _ => rfl

end Rule

namespace Grammar

open Rule

variable {m n k : Nat}

def primaryBy (R : Rules n) : Rule n Expression := do
  let k ← kind
  match UnaryOperator.ofKind? k with
  | some operator => taking fun sign => return .unary sign operator (← R.primary)
  | none =>
    match k with
    | .constant _ => constant
    | .keyword .NULL => return .null (← advance)
    | .identifier | .mark .dot => taking (named R)
    | .keyword .COALESCE | .keyword .NULLIF | .keyword .LEFT | .keyword .RIGHT =>
      taking (builtIn R)
    | .mark .leftParen => taking (group R)
    | _ => unexpected

/-- A primary predicate that calls other rules through `R`. It calls three of them before it takes a
token. -/
def predicatePrimaryBy (R : Rules n) : Rule n Predicate := do
  match ← kind with
  | .keyword .NOT => taking fun word => return .not word (← R.predicatePrimary)
  | .keyword .EXISTS => taking fun word => return .existence word (← subquery R.select)
  | .mark .leftParen => do
    match ← R.parenthesized with
    | .predicate found => return found
    | .value first => comparison R.expression R.select (← climbExpression R.primary first)
  | _ => comparison R.expression R.select (← R.expression)

def statementBy (R : Rules n) : Rule n Statement := fun s hs =>
  match s.current.kind with
  | .keyword .SELECT => taking (fun t => terminated (Statement.select <$> selectFrom R t)) s hs
  | .keyword .INSERT => taking (fun t => terminated (insert R t)) s hs
  | .keyword .UPDATE => taking (fun t => terminated (update R t)) s hs
  | .keyword .DELETE => taking (fun t => terminated (delete R t)) s hs
  | .keyword .IF => taking (conditional R) s hs
  | .keyword .WHILE => taking (repeated R) s hs
  | .keyword .BEGIN => taking (block R) s hs
  | .mark .semicolon => taking (fun t => return .empty ⟨t, true⟩) s hs
  | _ => unexpected s hs

theorem shrinks_statementBy (R : Rules n) : Shrinks (statementBy R) := by
  intro s hs value rest le h
  simp only [statementBy] at h
  split at h
  case h_9 => exact shrinks_unexpected s hs value rest le h
  all_goals
    rename_i hk
    exact size_taking_lt (by simp [hk]) h

namespace Rules

def unfold (R : Rules n) : Rules n :=
  { primary := primaryBy R
    expression := Grammar.expression R.primary
    parenthesized := expect (.mark .leftParen) >>= parenthesizedFrom R
    select := expect (.keyword .SELECT) >>= selectFrom R
    predicatePrimary := predicatePrimaryBy R
    predicate := Grammar.predicate R.predicatePrimary
    statement := statementBy R
    shrinks := shrinks_statementBy R }

/-- Rules whose calls go through each other `k` times and end up in `R`. -/
def unfolds (R : Rules n) : Nat → Rules n
  | 0 => R
  | k + 1 => (R.unfolds k).unfold

theorem unfolds_add (R : Rules n) (j k : Nat) : R.unfolds (j + k) = (R.unfolds j).unfolds k := by
  induction k with
  | zero => rfl
  | succ k ih => exact congrArg unfold ih

theorem ext {R S : Rules n} (primary : R.primary = S.primary)
    (expression : R.expression = S.expression)
    (predicatePrimary : R.predicatePrimary = S.predicatePrimary)
    (predicate : R.predicate = S.predicate) (parenthesized : R.parenthesized = S.parenthesized)
    (select : R.select = S.select) (statement : R.statement = S.statement) : R = S := by
  cases R
  cases S
  cases primary
  cases expression
  cases predicatePrimary
  cases predicate
  cases parenthesized
  cases select
  cases statement
  rfl

theorem zero_eq (R S : Rules 0) : R = S := by
  apply ext
  all_goals exact rule_zero_eq _ _

end Rules

section

variable (h : m ≤ n) (R : Rules n)

@[simp] theorem restrict_primaryBy :
    Rule.restrict h (primaryBy R) = primaryBy (R.restrict h) := by
  simp only [primaryBy, restrict_bind, restrict_kind]
  refine bind_congr fun k => ?_
  split
  · simp [Rules.restrict]
  · split <;> simp

@[simp] theorem restrict_predicatePrimaryBy :
    Rule.restrict h (predicatePrimaryBy R) = predicatePrimaryBy (R.restrict h) := by
  simp only [predicatePrimaryBy, restrict_bind, restrict_kind]
  refine bind_congr fun k => ?_
  split
  · simp [Rules.restrict]
  · simp [Rules.restrict]
  · rw [restrict_bind]
    refine bind_congr (m := Rule m) fun first => ?_
    cases first <;> simp [Rules.restrict]
  · simp [Rules.restrict]

theorem restrict_statementBy :
    Rule.restrict h (statementBy R) = statementBy (R.restrict h) := by
  have at_stream {p : Rule n Statement} {q : Rule m Statement} (hpq : Rule.restrict h p = q)
      (s : Stream) (hs : s.size < m) : p s (Nat.lt_of_lt_of_le hs h) = q s hs :=
    congrFun (congrFun hpq s) hs
  funext s hs
  simp only [Rule.restrict, statementBy]
  split <;> exact at_stream (by simp) s hs

theorem restrict_unfold : R.unfold.restrict h = (R.restrict h).unfold := by
  apply Rules.ext
  · exact restrict_primaryBy h R
  · exact restrict_expression h R.primary
  · exact restrict_predicatePrimaryBy h R
  · exact restrict_predicate h R.predicatePrimary
  · simp [Rules.restrict, Rules.unfold]
  · simp [Rules.restrict, Rules.unfold]
  · exact restrict_statementBy h R

theorem restrict_unfolds (k : Nat) : (R.unfolds k).restrict h = (R.restrict h).unfolds k := by
  induction k with
  | zero => rfl
  | succ k ih => rw [Rules.unfolds, restrict_unfold, ih, Rules.unfolds]

end

section

variable (R : Rules (n + 1))

theorem primaryBy_eq : primaryBy R = primary (R.restrict (Nat.le_succ n)) := by
  refine kind_bind_congr fun k => ?_
  cases ho : UnaryOperator.ofKind? k with
  | some operator =>
      refine agreeOn_taking ?_ fun _ => rfl
      rintro rfl
      cases ho
  | none =>
      dsimp only
      split
      case h_1 => exact fun _ _ _ => rfl
      case h_2 => exact fun _ _ _ => rfl
      case h_10 => intro s hs hk; simp
      all_goals exact agreeOn_taking (by simp) fun _ => by simp

theorem parenthesizedBy_eq : (R.unfold).parenthesized =
    parenthesized (R.restrict (Nat.le_succ n)) := by
  refine (expect_bind (by simp) (parenthesizedFrom R)).trans ?_
  simp [parenthesized]

theorem selectBy_eq : (R.unfold).select = select (R.restrict (Nat.le_succ n)) := by
  refine (expect_bind (by simp) (selectFrom R)).trans ?_
  simp [select]

theorem statementBy_eq : statementBy R = statement (R.restrict (Nat.le_succ n)) := by
  funext s hs
  rw [statementBy, statement]
  generalize hk : s.current.kind = k
  split
  case h_9 => simp
  all_goals exact agreeOn_taking (by simp) (fun _ => by simp) s hs hk

variable {R}

section

variable (h : R.restrict (Nat.le_succ n) = rules n)
include h

theorem unfold_primary : R.unfold.primary = (rules (n + 1)).primary := by
  rw [primary_rules_succ, ← h]
  exact primaryBy_eq R

theorem unfold_parenthesized : R.unfold.parenthesized = (rules (n + 1)).parenthesized := by
  rw [parenthesized_rules_succ, ← h]
  exact parenthesizedBy_eq R

theorem unfold_select : R.unfold.select = (rules (n + 1)).select := by
  rw [select_rules_succ, ← h]
  exact selectBy_eq R

theorem unfold_statement : R.unfold.statement = (rules (n + 1)).statement := by
  rw [statement_rules_succ, ← h]
  exact statementBy_eq R

/-- A primary predicate is read right when the rules that it calls before it takes a token are. -/
theorem unfold_predicatePrimary (hprimary : R.primary = (rules (n + 1)).primary)
    (hexpression : R.expression = (rules (n + 1)).expression)
    (hparenthesized : R.parenthesized = (rules (n + 1)).parenthesized)
    (hselect : R.select = (rules (n + 1)).select) :
    R.unfold.predicatePrimary = (rules (n + 1)).predicatePrimary := by
  rw [expression_rules] at hexpression
  rw [primary_rules_succ] at hprimary hexpression
  rw [parenthesized_rules_succ] at hparenthesized
  rw [select_rules_succ] at hselect
  rw [predicatePrimary_rules_succ]
  have hrest : R.restrict (Nat.le_succ n) = rules n := h
  refine kind_bind_congr fun k => ?_
  split
  · refine agreeOn_taking (by simp) fun _ => ?_
    rw [← hrest]
    rfl
  · refine agreeOn_taking (by simp) fun _ => ?_
    rw [← hrest]
    simp [Rules.restrict]
  · intro s hs hk
    dsimp only
    rewrite [operandFirst, kind_bind_eq, if_pos hk, hparenthesized, hexpression, hprimary, hselect]
    refine congrFun (congrFun (bind_congr (m := Rule (n + 1)) fun first => ?_) s) hs
    cases first <;> rfl
  · rename_i hne
    intro s hs hk
    simp only
    rw [operandFirst, kind_bind_eq, if_neg (hk ▸ hne), hexpression, hselect, expression, bind_assoc,
      bind_map_left]

end

/-- The grammar calls itself only. -/
theorem unfold_rules (n : Nat) : (rules n).unfold = rules n := by
  cases n with
  | zero => exact Rules.zero_eq _ _
  | succ n =>
      have h : (rules (n + 1)).restrict (Nat.le_succ n) = rules n := restrict_rules _
      have hpredicatePrimary : (rules (n + 1)).unfold.predicatePrimary =
          (rules (n + 1)).predicatePrimary := unfold_predicatePrimary h rfl rfl rfl rfl
      apply Rules.ext
      · exact unfold_primary h
      · exact expression_rules.symm
      · exact hpredicatePrimary
      · exact predicate_rules.symm
      · exact unfold_parenthesized h
      · exact unfold_select h
      · exact unfold_statement h

theorem unfolds_rules (n k : Nat) : (rules n).unfolds k = rules n := by
  induction k with
  | zero => rfl
  | succ k ih => rw [Rules.unfolds, ih, unfold_rules]

/-- Rules that are those of the grammar on all shorter streams are so here, too, after four calls:
a call for a predicate leads to a primary predicate, then to an expression and then to a primary
expression, which takes a token. -/
theorem unfolds_four (h : R.restrict (Nat.le_succ n) = rules n) :
    R.unfolds 4 = rules (n + 1) := by
  have hrest (k : Nat) : (R.unfolds k).restrict (Nat.le_succ n) = rules n := by
    rw [restrict_unfolds, h, unfolds_rules]
  -- A rule is right one call later than the rules that it calls on the same stream.
  have hprimary (k : Nat) : (R.unfolds (k + 1)).primary = (rules (n + 1)).primary :=
    unfold_primary (hrest k)
  have hparenthesized (k : Nat) :
      (R.unfolds (k + 1)).parenthesized = (rules (n + 1)).parenthesized :=
    unfold_parenthesized (hrest k)
  have hselect (k : Nat) : (R.unfolds (k + 1)).select = (rules (n + 1)).select :=
    unfold_select (hrest k)
  have hexpression (k : Nat) : (R.unfolds (k + 2)).expression = (rules (n + 1)).expression := by
    rw [expression_rules, ← hprimary k]
    rfl
  have hpredicatePrimary (k : Nat) :
      (R.unfolds (k + 3)).predicatePrimary = (rules (n + 1)).predicatePrimary :=
    unfold_predicatePrimary (hrest (k + 2)) (hprimary (k + 1)) (hexpression k)
      (hparenthesized (k + 1)) (hselect (k + 1))
  apply Rules.ext
  · exact hprimary 3
  · exact hexpression 2
  · exact hpredicatePrimary 1
  · rw [predicate_rules, ← hpredicatePrimary 0]
    rfl
  · exact hparenthesized 3
  · exact hselect 3
  · exact unfold_statement (hrest 3)

end

theorem restrict_unfolds_four_mul (h : m ≤ n) (R : Rules n) :
    (R.unfolds (4 * m)).restrict h = rules m := by
  induction m with
  | zero => exact Rules.zero_eq _ _
  | succ m ih =>
      rw [Nat.mul_succ, Rules.unfolds_add, restrict_unfolds]
      exact unfolds_four (ih (Nat.le_of_succ_le h))

/-- Calls of the grammar on streams of fewer than `n` tokens are no more than `4 * n` deep. What
stands deeper is never called. -/
theorem unfolds_eq_rules (R : Rules n) (hk : 4 * n ≤ k) : R.unfolds k = rules n := by
  obtain ⟨j, rfl⟩ := Nat.exists_eq_add_of_le hk
  have h : R.unfolds (4 * n) = rules n := restrict_unfolds_four_mul (Nat.le_refl n) R
  rw [Rules.unfolds_add, h, unfolds_rules]

section Loops

variable {α : Type} {R : Rules n}

def listTurns (item : Rule n α) (beyond : List α → Rule n (List α)) (k : Nat) :
    Rule n (List α) := do
  let first ← item
  turns (fun items kind =>
    if kind = .mark .comma then some (taking fun _ => return items ++ [← item]) else none)
    beyond k [first]

def nameTurns (origin : Token) (parts : Parts) (beyond : Parts → Rule n Parts) (k : Nat) :
    Rule n Reference := do
  let parts ← turns (fun parts kind =>
    if kind = .mark .dot ∨ (kind = .identifier ∧ parts.isOpen) then
      some (taking fun t => return parts.add t)
    else none) beyond k parts
  if parts.isNamed then return ⟨origin, parts.all⟩ else expected (.kind .identifier)

def sourcesTurns (R : Rules n) (beyond : List Source → Rule n (List Source)) (k : Nat) :
    Rule n (List Source) := do
  if ← eat (.keyword .FROM) then
    let first ← source R .first
    turns (fun entries kind => (joinFrom? kind).map fun joined =>
      taking fun _ => return entries ++ [← source R (← joined)]) beyond k [first]
  else return []

def blockTurns (R : Rules n) (origin : Token)
    (beyond : List Statement → Rule n (List Statement)) (k : Nat) : Rule n Statement := do
  let body ← turns (fun body kind =>
    if kind = .keyword .END || kind = .eof then none else some do return body ++ [← R.statement])
    beyond k []
  let _ ← expect (.keyword .END)
  return .block ⟨origin, body⟩

/-- On streams of fewer than `n` tokens, each loop of the grammar ends before its turn number `k`:
it does the same whatever would come then. -/
structure LoopsEnd (n k : Nat) : Prop where
  list {α : Type} (item : Rule n α) (beyond : List α → Rule n (List α)) :
    listTurns item beyond k = commaSeparated item
  name (origin : Token) (parts : Parts) (beyond : Parts → Rule n Parts) :
    nameTurns origin parts beyond k = referenceFrom origin parts
  sources (R : Rules n) (beyond : List Source → Rule n (List Source)) :
    sourcesTurns R beyond k = sources R
  block (R : Rules n) (origin : Token) (beyond : List Statement → Rule n (List Statement)) :
    blockTurns R origin beyond k = block R origin
  expression (primary : Rule n Expression) (left : Expression)
    (beyond : Expression → Rule n Expression) :
    climbTurns BinaryOperator.ofKind? BinaryOperator.tier primary Expression.binary beyond
      k 1 left =
      climbExpression primary left
  predicate (primary : Rule n Predicate) (left : Predicate)
    (beyond : Predicate → Rule n Predicate) :
    climbTurns LogicalOperator.ofKind? LogicalOperator.tier primary Predicate.binary beyond
      k 1 left =
      climbPredicate primary left

theorem loopsEnd (hk : n ≤ k) : LoopsEnd n k := by
  constructor
  · intro α item beyond
    refine bind_congr fun first => Winds.turns_eq_whole (winds_loop ?_ fun items => rfl) hk
    intro items kind
    split <;> rfl
  · intro origin parts beyond
    rw [nameTurns, Winds.turns_eq_whole (winds_loop ?_ fun parts => ?_) hk, referenceFrom]
    · intro parts kind
      unfold Parts.step
      split <;> rfl
    · simp [Parts.step]
  · intro R beyond
    refine bind_congr fun found => ?_
    split
    · refine bind_congr fun first => Winds.turns_eq_whole (winds_loop ?_ fun entries => rfl) hk
      intro entries kind
      rw [Option.map_map]
      rfl
    · rfl
  · intro R origin beyond
    rw [blockTurns, Winds.turns_eq_whole (winds_many R.shrinks) hk]
    rfl
  · intro primary left beyond
    exact funext fun s => funext fun hs =>
      climbTurns_eq rfl (Nat.lt_of_lt_of_le hs hk) hs
  · intro primary left beyond
    exact funext fun s => funext fun hs =>
      climbTurns_eq rfl (Nat.lt_of_lt_of_le hs hk) hs

end Loops

end Grammar

end Transact
