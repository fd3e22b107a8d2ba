import Transact.Grammar.Parse
import Transact.Proofs.Rule.Lockstep
import Transact.Proofs.Syntax.Formed

namespace Transact

def Kind.isPlainWord : Kind → Bool
  | .keyword word => !(Kind.keyword word).isFunction
  | _ => false

/-- A pairing of tokens with relations between trees that all constructors keep. Lists are related
item by item. -/
structure Likeness extends Pairing where
  reference : Reference → Reference → Prop
  expression : Expression → Expression → Prop
  predicate : Predicate → Predicate → Prop
  select : Select → Select → Prop
  column : Column → Column → Prop
  source : Source → Source → Prop
  row : Row → Row → Prop
  statement : Statement → Statement → Prop
  text_eq {x y} (h : token x y) (hk : x.kind.isPlainWord = false) : x.text = y.text
  hint_eq {x y} (h : token x y) (hk : x.kind = .keyword .HOLDLOCK) :
    TableHint.ofWord? x.text = TableHint.ofWord? y.text
  starTable_eq {a b} (h : expression a b) : Grammar.starTable? a = Grammar.starTable? b
  leadingAlias_eq {a b} (h : expression a b) : Grammar.leadingAlias? a = Grammar.leadingAlias? b
  reference_mk {x y} (h : token x y) (parts : List String) : reference ⟨x, parts⟩ ⟨y, parts⟩
  unary {x y a b} (h : token x y) (operator : UnaryOperator) (ha : expression a b) :
    expression (.unary x operator a) (.unary y operator b)
  groupedValue {x y a b} (h : token x y) (ha : expression a b) :
    expression (.grouped x a) (.grouped y b)
  null {x y} (h : token x y) : expression (.null x) (.null y)
  literal {x y} (h : token x y) : Option.Rel expression
    ((Constant.ofToken? x).map (.constant x)) ((Constant.ofToken? y).map (.constant y))
  subqueryValue {x y s t} (h : token x y) (hs : select s t) :
    expression (.subquery x s) (.subquery y t)
  name {r u} (h : reference r u) : expression (.reference r) (.reference u)
  call {f g as bs} (h : reference f g) (has : List.Forall₂ expression as bs) :
    expression (.call f.origin f as) (.call g.origin g bs)
  operation {x y a b c d} (h : token x y) (ha : expression a b) (operator : BinaryOperator)
    (hc : expression c d) : expression (.binary x a operator c) (.binary y b operator d)
  not {x y p q} (h : token x y) (hp : predicate p q) : predicate (.not x p) (.not y q)
  existence {x y s t} (h : token x y) (hs : select s t) :
    predicate (.existence x s) (.existence y t)
  inSubquery {x y a b s t} (h : token x y) (ha : expression a b) (negated : Bool)
    (hs : select s t) : predicate (.inSubquery x a negated s) (.inSubquery y b negated t)
  inList {x y a b as bs} (h : token x y) (ha : expression a b) (negated : Bool)
    (has : List.Forall₂ expression as bs) :
    predicate (.inList x a negated as) (.inList y b negated bs)
  between {x y a b c d e f} (h : token x y) (ha : expression a b) (negated : Bool)
    (hc : expression c d) (he : expression e f) :
    predicate (.between x a negated c e) (.between y b negated d f)
  groupedPredicate {x y p q} (h : token x y) (hp : predicate p q) :
    predicate (.grouped x p) (.grouped y q)
  quantified {x y a b s t} (h : token x y) (ha : expression a b) (operator : ComparisonOperator)
    (quantifier : Quantifier) (hs : select s t) :
    predicate (.quantified x a operator quantifier s) (.quantified y b operator quantifier t)
  nullCheck {x y a b} (h : token x y) (ha : expression a b) (isNull : Bool) :
    predicate (.nullCheck x a isNull) (.nullCheck y b isNull)
  comparison {x y a b c d} (h : token x y) (ha : expression a b) (operator : ComparisonOperator)
    (hc : expression c d) : predicate (.comparison x a operator c) (.comparison y b operator d)
  junction {x y p q p' q'} (h : token x y) (hp : predicate p q) (operator : LogicalOperator)
    (hp' : predicate p' q') : predicate (.binary x p operator p') (.binary y q operator q')
  select_mk {x y a b cs ds ss ts p q} (h : token x y) (ha : Option.Rel expression a b)
    (hcs : List.Forall₂ column cs ds) (hss : List.Forall₂ source ss ts)
    (hp : Option.Rel predicate p q) : select ⟨x, a, cs, ss, p, false⟩ ⟨y, b, ds, ts, q, false⟩
  star {x y} (h : token x y) (table : Option String) : column (.star x table) (.star y table)
  value {x y a b} (h : token x y) (ha : expression a b) (aliasName : Option String) :
    column (.value x a aliasName) (.value y b aliasName)
  assignment {x y r u a b} (h : token x y) (hr : reference r u) (ha : expression a b) :
    column (.assignment x r a) (.assignment y u b)
  table {x y r u p q} (h : token x y) (hr : reference r u) (aliasName : Option String)
    (join : Join) (hints : List TableHint) (hp : Option.Rel predicate p q) :
    source (.table ⟨x, r, aliasName, join, hints, p⟩) (.table ⟨y, u, aliasName, join, hints, q⟩)
  derived {x y s t p q} (h : token x y) (hs : select s t) (aliasName : Option String)
    (join : Join) (hp : Option.Rel predicate p q) :
    source (.subquery ⟨x, s, aliasName, join, p⟩) (.subquery ⟨y, t, aliasName, join, q⟩)
  row_mk {x y as bs} (h : token x y) (has : List.Forall₂ expression as bs) : row ⟨x, as⟩ ⟨y, bs⟩
  selection {s t} (h : select s t) : statement (.select s) (.select t)
  insertValues {x y a b r u cs ds rs us} (h : token x y) (ha : Option.Rel expression a b)
    (hr : reference r u) (hints : List TableHint) (hcs : List.Forall₂ reference cs ds)
    (hrs : List.Forall₂ row rs us) :
    statement (.insertValues ⟨x, a, r, hints, cs, rs, false⟩)
      (.insertValues ⟨y, b, u, hints, ds, us, false⟩)
  insertSelect {x y a b r u cs ds s t} (h : token x y) (ha : Option.Rel expression a b)
    (hr : reference r u) (hints : List TableHint) (hcs : List.Forall₂ reference cs ds)
    (hs : select s t) :
    statement (.insertSelect ⟨x, a, r, hints, cs, s, false⟩)
      (.insertSelect ⟨y, b, u, hints, ds, t, false⟩)
  update {x y a b r u cs ds ss ts p q} (h : token x y) (ha : Option.Rel expression a b)
    (hr : reference r u) (hcs : List.Forall₂ column cs ds) (hss : List.Forall₂ source ss ts)
    (hp : Option.Rel predicate p q) :
    statement (.update ⟨x, a, r, cs, ss, p, false⟩) (.update ⟨y, b, u, ds, ts, q, false⟩)
  delete {x y a b r u ss ts p q} (h : token x y) (ha : Option.Rel expression a b)
    (hr : reference r u) (hss : List.Forall₂ source ss ts) (hp : Option.Rel predicate p q) :
    statement (.delete ⟨x, a, r, ss, p, false⟩) (.delete ⟨y, b, u, ts, q, false⟩)
  conditional {x y p q s t o o'} (h : token x y) (hp : predicate p q) (hs : statement s t)
    (ho : Option.Rel statement o o') :
    statement (.conditional ⟨x, p, s, o⟩) (.conditional ⟨y, q, t, o'⟩)
  loop {x y p q s t} (h : token x y) (hp : predicate p q) (hs : statement s t) :
    statement (.loop ⟨x, p, s⟩) (.loop ⟨y, q, t⟩)
  block {x y ss ts} (h : token x y) (hss : List.Forall₂ statement ss ts) :
    statement (.block ⟨x, ss⟩) (.block ⟨y, ts⟩)
  empty {x y} (h : token x y) : statement (.empty ⟨x, true⟩) (.empty ⟨y, true⟩)
  withTerminator {s t} (h : statement s t) (terminated : Bool) :
    statement (s.withTerminator terminated) (t.withTerminator terminated)

namespace Likeness

inductive operand (L : Likeness) : Grammar.Operand → Grammar.Operand → Prop where
  | value {a b : Expression} (h : L.expression a b) : operand L (.value a) (.value b)
  | predicate {p q : Predicate} (h : L.predicate p q) : operand L (.predicate p) (.predicate q)

theorem rel_eq_iff {α : Type} {a b : Option α} : Option.Rel Eq a b ↔ a = b := by
  constructor
  · intro h
    cases h with
    | some h => rw [h]
    | none => rfl
  · rintro rfl
    cases a with
    | none => exact .none
    | some v => exact .some rfl

def identical (fault : Option LexicalError) : Likeness where
  token := Eq
  fault := fault
  kind_eq := congrArg Token.kind
  eof h := h ▸ rfl
  reference := Eq
  expression := Eq
  predicate := Eq
  select := Eq
  column := Eq
  source := Eq
  row := Eq
  statement := Eq
  text_eq h _ := congrArg Token.text h
  hint_eq h _ := h ▸ rfl
  starTable_eq := congrArg Grammar.starTable?
  leadingAlias_eq := congrArg Grammar.leadingAlias?
  reference_mk := by simp
  unary := by simp +contextual
  groupedValue := by simp +contextual
  null := by simp
  literal h := rel_eq_iff.2 (by rw [h])
  subqueryValue := by simp +contextual
  name := by simp
  call := by simp +contextual
  operation := by simp +contextual
  not := by simp +contextual
  existence := by simp +contextual
  inSubquery := by simp +contextual
  inList := by simp +contextual
  between := by simp +contextual
  groupedPredicate := by simp +contextual
  quantified := by simp +contextual
  nullCheck := by simp +contextual
  comparison := by simp +contextual
  junction := by simp +contextual
  select_mk := by simp +contextual [rel_eq_iff]
  star := by simp
  value := by simp +contextual
  assignment := by simp +contextual
  table := by simp +contextual [rel_eq_iff]
  derived := by simp +contextual [rel_eq_iff]
  row_mk := by simp +contextual
  selection := by simp
  insertValues := by simp +contextual [rel_eq_iff]
  insertSelect := by simp +contextual [rel_eq_iff]
  update := by simp +contextual [rel_eq_iff]
  delete := by simp +contextual [rel_eq_iff]
  conditional := by simp +contextual [rel_eq_iff]
  loop := by simp +contextual
  block := by simp +contextual
  empty := by simp
  withTerminator := by simp

end Likeness

end Transact
