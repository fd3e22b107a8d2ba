import Transact.Proofs.Grammar.Lockstep
import Transact.Proofs.Text.Letter
import Transact.Syntax.Same

namespace Transact

def Value.same : Value → Value → Bool
  | none, none => true
  | text a, text b => a == b
  | int a, int b => a == b
  | bigInt a, bigInt b => a == b
  | numeric a, numeric b => a.sameValue b
  | real a, real b => a.sameValue b
  | _, _ => false

def Value.sameWord : Value → Value → Bool
  | text a, text b => Text.sameWord a b
  | _, _ => false

/-- Tokens of one kind and value, wherever they stand. The words that name no function may differ in
case. -/
def Token.alike (x y : Token) : Bool :=
  x.kind == y.kind &&
    (x.value.same y.value || (x.kind.isPlainWord && x.value.sameWord y.value))

/-- Errors that differ in nothing but the token that was found, and not in the kind of that. -/
inductive SyntaxError.Alike : SyntaxError → SyntaxError → Prop where
  | unexpected {x y : Token} (h : x.kind = y.kind) : Alike (.unexpected x) (.unexpected y)
  | expected {x y : Token} (what : Expectation) (h : x.kind = y.kind) :
      Alike (.expected what x) (.expected what y)

theorem Token.alike_iff {x y : Token} : x.alike y = true ↔ x.kind = y.kind ∧
    (x.value.same y.value = true ∨ x.kind.isPlainWord = true ∧
      ∃ a b, x.value = .text a ∧ y.value = .text b ∧ Text.sameWord a b = true) := by
  have hword : x.value.sameWord y.value = true ↔
      ∃ a b, x.value = .text a ∧ y.value = .text b ∧ Text.sameWord a b = true := by
    cases x.value <;> cases y.value <;> simp [Value.sameWord]
  simp [alike, hword]

theorem Token.text_eq_of_same {x y : Token} (h : x.value.same y.value = true) :
    x.text = y.text := by
  obtain ⟨k, p, v⟩ := x
  obtain ⟨k', p', w⟩ := y
  cases v <;> cases w <;> simp_all [Token.text, Value.same]

theorem Constant.ofToken?_alike {x y : Token} (hxy : x.alike y = true) :
    Option.Rel (fun c d : Constant => c.same d = true) (ofToken? x) (ofToken? y) := by
  obtain ⟨hkind, h⟩ := Token.alike_iff.1 hxy
  clear hxy
  obtain ⟨k, p, v⟩ := x
  obtain ⟨k', p', w⟩ := y
  dsimp only at hkind h
  subst hkind
  obtain h | ⟨hk, a, b, rfl, rfl, -⟩ := h
  · cases v <;> cases w <;> simp only [Value.same, Bool.false_eq_true] at h
    case none.none =>
      simp only [ofToken?]
      exact .none
    case text.text a b =>
      obtain rfl := eq_of_beq h
      simp only [ofToken?]
      split
      · exact .some (by simp [same])
      · exact .some (by simp [same])
      all_goals first | contradiction | exact .none
    all_goals
      simp only [ofToken?]
      exact .some h
  · cases k <;> simp only [Kind.isPlainWord, Bool.false_eq_true] at hk
    simp only [ofToken?]
    exact .none

theorem same_of_forall₂ {α : Type} {same : α → α → Bool} {sames : List α → List α → Bool}
    (hnil : sames [] [] = true)
    (hcons : ∀ a b as bs, sames (a :: as) (b :: bs) = (same a b && sames as bs)) {as bs : List α}
    (h : List.Forall₂ (fun a b => same a b = true) as bs) : sames as bs = true := by
  induction h with
  | nil => exact hnil
  | cons h _ ih => rw [hcons, h, ih]; rfl

section

variable {as bs : List Expression} {a b : Option Expression} {p q : Option Predicate}
variable {rs us : List Reference} {cs ds : List Column} {ss ts : List Source}
variable {rows rows' : List Row} {vs ws : List Statement} {s t : Option Statement}

theorem References.same_of_forall₂ (h : List.Forall₂ (fun a b => a.same b = true) rs us) :
    References.same rs us = true :=
  Transact.same_of_forall₂ (by simp only [same]) (by simp only [same, implies_true]) h

theorem Expressions.same_of_forall₂ (h : List.Forall₂ (fun a b => a.same b = true) as bs) :
    Expressions.same as bs = true :=
  Transact.same_of_forall₂ (by simp only [same]) (by simp only [same, implies_true]) h

theorem Columns.same_of_forall₂ (h : List.Forall₂ (fun a b => a.same b = true) cs ds) :
    Columns.same cs ds = true :=
  Transact.same_of_forall₂ (by simp only [same]) (by simp only [same, implies_true]) h

theorem Sources.same_of_forall₂ (h : List.Forall₂ (fun a b => a.same b = true) ss ts) :
    Sources.same ss ts = true :=
  Transact.same_of_forall₂ (by simp only [same]) (by simp only [same, implies_true]) h

theorem Rows.same_of_forall₂ (h : List.Forall₂ (fun a b => a.same b = true) rows rows') :
    Rows.same rows rows' = true :=
  Transact.same_of_forall₂ (by simp only [same]) (by simp only [same, implies_true]) h

theorem Statements.same_of_forall₂ (h : List.Forall₂ (fun a b => a.same b = true) vs ws) :
    Statements.same vs ws = true :=
  Transact.same_of_forall₂ (by simp only [same]) (by simp only [same, implies_true]) h

theorem OptionalExpression.same_of_rel (h : Option.Rel (fun a b => a.same b = true) a b) :
    OptionalExpression.same a b = true := by
  cases h with
  | some h => simp only [same, h]
  | none => simp only [same]

theorem OptionalPredicate.same_of_rel (h : Option.Rel (fun a b => a.same b = true) p q) :
    OptionalPredicate.same p q = true := by
  cases h with
  | some h => simp only [same, h]
  | none => simp only [same]

theorem OptionalStatement.same_of_rel (h : Option.Rel (fun a b => a.same b = true) s t) :
    OptionalStatement.same s t = true := by
  cases h with
  | some h => simp only [same, h]
  | none => simp only [same]

end

theorem Grammar.starTable?_same {a b : Expression} (h : a.same b = true) :
    starTable? a = starTable? b := by
  cases a <;> cases b <;> simp only [Expression.same, Bool.false_eq_true] at h <;> try rfl
  rename_i r u
  obtain ⟨x, parts⟩ := r
  obtain ⟨y, parts'⟩ := u
  obtain rfl : parts = parts' := by simpa [Reference.same] using h
  rfl

theorem Grammar.leadingAlias?_same {a b : Expression} (h : a.same b = true) :
    leadingAlias? a = leadingAlias? b := by
  cases a <;> cases b <;> simp only [Expression.same, Bool.false_eq_true] at h <;> try rfl
  case constant.constant c _ d =>
    cases c <;> cases d <;> simp only [Constant.same, Bool.false_eq_true] at h <;> try rfl
    rw [leadingAlias?, leadingAlias?, eq_of_beq h]
  case reference.reference r u =>
    obtain ⟨x, parts⟩ := r
    obtain ⟨y, parts'⟩ := u
    obtain rfl : parts = parts' := by simpa [Reference.same] using h
    rfl

theorem Statement.same_withTerminator {s t : Statement} (h : s.same t = true) (terminated : Bool) :
    (s.withTerminator terminated).same (t.withTerminator terminated) = true := by
  cases s <;> cases t <;> simp only [Statement.same, Bool.false_eq_true] at h
  case select.select s t =>
    cases s
    cases t
    simp_all [withTerminator, Statement.same, Select.same]
  all_goals
    simp_all [withTerminator, Statement.same, InsertValues.same, InsertSelect.same, Update.same,
      Delete.same]

def Likeness.respelled : Likeness where
  token x y := x.alike y = true
  fault := none
  kind_eq h := (Token.alike_iff.1 h).1
  eof _ := rfl
  reference a b := a.same b = true
  expression a b := a.same b = true
  predicate a b := a.same b = true
  select a b := a.same b = true
  column a b := a.same b = true
  source a b := a.same b = true
  row a b := a.same b = true
  statement a b := a.same b = true
  text_eq h hk := by
    obtain h | ⟨hk', -⟩ := (Token.alike_iff.1 h).2
    · exact Token.text_eq_of_same h
    · rw [hk] at hk'
      cases hk'
  hint_eq h _ := by
    obtain h | ⟨-, a, b, ha, hb, h⟩ := (Token.alike_iff.1 h).2
    · rw [Token.text_eq_of_same h]
    · simp only [Token.text, ha, hb, TableHint.ofWord?, Text.sameWord_iff.1 h]
  starTable_eq := Grammar.starTable?_same
  leadingAlias_eq := Grammar.leadingAlias?_same
  reference_mk _ _ := by simp [Reference.same]
  unary _ _ ha := by simp [Expression.same, ha]
  groupedValue _ ha := by simp [Expression.same, ha]
  null _ := by simp [Expression.same]
  literal h := by
    have hliteral := Constant.ofToken?_alike h
    revert hliteral
    generalize Constant.ofToken? _ = c, Constant.ofToken? _ = d
    intro hliteral
    cases hliteral with
    | none => exact .none
    | some h => exact .some (by simp only [Expression.same, h])
  subqueryValue _ hs := by simp [Expression.same, hs]
  name h := by simp [Expression.same, h]
  call h has := by simp [Expression.same, h, Expressions.same_of_forall₂ has]
  operation _ ha _ hc := by simp [Expression.same, ha, hc]
  not _ hp := by simp [Predicate.same, hp]
  existence _ hs := by simp [Predicate.same, hs]
  inSubquery _ ha _ hs := by simp [Predicate.same, ha, hs]
  inList _ ha _ has := by simp [Predicate.same, ha, Expressions.same_of_forall₂ has]
  between _ ha _ hc he := by simp [Predicate.same, ha, hc, he]
  groupedPredicate _ hp := by simp [Predicate.same, hp]
  quantified _ ha _ _ hs := by simp [Predicate.same, ha, hs]
  nullCheck _ ha _ := by simp [Predicate.same, ha]
  comparison _ ha _ hc := by simp [Predicate.same, ha, hc]
  junction _ hp _ hq := by simp [Predicate.same, hp, hq]
  select_mk _ ha hcs hss hp := by
    simp [Select.same, OptionalExpression.same_of_rel ha, Columns.same_of_forall₂ hcs,
      Sources.same_of_forall₂ hss, OptionalPredicate.same_of_rel hp]
  star _ _ := by simp [Column.same]
  value _ ha _ := by simp [Column.same, ha]
  assignment _ hr ha := by simp [Column.same, hr, ha]
  table _ hr _ _ _ hp := by
    simp [Source.same, TableSource.same, hr, OptionalPredicate.same_of_rel hp]
  derived _ hs _ _ hp := by
    simp [Source.same, SubquerySource.same, hs, OptionalPredicate.same_of_rel hp]
  row_mk _ has := by simp [Row.same, Expressions.same_of_forall₂ has]
  selection h := by simp [Statement.same, h]
  insertValues _ ha hr _ hcs hrs := by
    simp [Statement.same, InsertValues.same, OptionalExpression.same_of_rel ha, hr,
      References.same_of_forall₂ hcs, Rows.same_of_forall₂ hrs]
  insertSelect _ ha hr _ hcs hs := by
    simp [Statement.same, InsertSelect.same, OptionalExpression.same_of_rel ha, hr,
      References.same_of_forall₂ hcs, hs]
  update _ ha hr hcs hss hp := by
    simp [Statement.same, Update.same, OptionalExpression.same_of_rel ha, hr,
      Columns.same_of_forall₂ hcs, Sources.same_of_forall₂ hss, OptionalPredicate.same_of_rel hp]
  delete _ ha hr hss hp := by
    simp [Statement.same, Delete.same, OptionalExpression.same_of_rel ha, hr,
      Sources.same_of_forall₂ hss, OptionalPredicate.same_of_rel hp]
  conditional _ hp hs ho := by
    simp [Statement.same, If.same, hp, hs, OptionalStatement.same_of_rel ho]
  loop _ hp hs := by simp [Statement.same, While.same, hp, hs]
  block _ hss := by simp [Statement.same, Block.same, Statements.same_of_forall₂ hss]
  empty _ := by simp [Statement.same]
  withTerminator h _ := Statement.same_withTerminator h _

/-- Two sources with the same tokens, one by one, have the same statements, or they have errors of
one form and text for tokens of one kind. It does not matter where the tokens stand, what comments
there are between them, and in which case the words that name no function are written. -/
theorem parse_respelled {a b : String} {ts us : List Token} (ha : lex a = .ok ts)
    (hb : lex b = .ok us)
    (h : List.Forall₂ (fun x y => x.alike y = true) (ts.filter fun t => !t.kind.isComment)
      (us.filter fun t => !t.kind.isComment)) :
    (∃ vs ws, parse a = .ok vs ∧ parse b = .ok ws ∧ Statements.same vs ws = true) ∨
      ∃ e f, parse a = .error e ∧ parse b = .error f ∧ e.Alike f := by
  have hstreams : Likeness.respelled.Streams (Stream.ofTokens ts none) (Stream.ofTokens us none) :=
    ⟨rfl, h, rfl, rfl⟩
  have hresults := Likeness.results_statements hstreams
  rw [parse_eq_parseTokens ha, parse_eq_parseTokens hb, parseTokens, parseTokens]
  generalize (Stream.ofTokens ts none).statements = r, (Stream.ofTokens us none).statements = r'
    at hresults ⊢
  cases hresults with
  | lost h => cases h
  | error h =>
      refine .inr ⟨_, _, rfl, rfl, ?_⟩
      cases h with
      | unexpected h => exact .unexpected (Likeness.respelled.kind_eq h)
      | expected what h => exact .expected what (Likeness.respelled.kind_eq h)
  | ok h => exact .inl ⟨_, _, rfl, rfl, Statements.same_of_forall₂ h⟩

/-- Keywords in capitals, a hint that is a reserved word, numbers of one value, and comments. -/
theorem parse_respelled_capitals :
    ∃ a b ts us,
      a = "select coalesce(1.50) from t with (holdlock)" ∧
      b = "SELECT coalesce(1.5) -- one\nFROM t WITH(HOLDLOCK/* two */)" ∧
      lex a = .ok ts ∧ lex b = .ok us ∧
      List.Forall₂ (fun x y => x.alike y = true) (ts.filter fun t => !t.kind.isComment)
        (us.filter fun t => !t.kind.isComment) ∧
      ((∃ vs ws, parse a = .ok vs ∧ parse b = .ok ws ∧ Statements.same vs ws = true) ∨
        ∃ e f, parse a = .error e ∧ parse b = .error f ∧ e.Alike f) := by
  generalize ha : "select coalesce(1.50) from t with (holdlock)" = a,
    hb : "SELECT coalesce(1.5) -- one\nFROM t WITH(HOLDLOCK/* two */)" = b
  have hlex : (lex a).isOk = true ∧ (lex b).isOk = true ∧
      List.Forall₂ (fun x y => x.alike y = true)
        (((lex a).toOption.getD []).filter fun t => !t.kind.isComment)
        (((lex b).toOption.getD []).filter fun t => !t.kind.isComment) := by
    subst ha hb
    decide +kernel
  cases hts : lex a with
  | error e => simp [hts, Except.isOk, Except.toBool] at hlex
  | ok ts =>
      cases hus : lex b with
      | error e => simp [hus, Except.isOk, Except.toBool] at hlex
      | ok us =>
          rw [hts, hus] at hlex
          exact ⟨a, b, ts, us, rfl, rfl, hts, hus, hlex.2.2, parse_respelled hts hus hlex.2.2⟩

end Transact
