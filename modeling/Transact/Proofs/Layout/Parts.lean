import Transact.Proofs.Layout.Name

namespace Transact

open Doc (Opens Prints Starts Begins)

theorem Word.listed_eq (wss : List (List Word)) :
    listed wss = [mark .comma].intercalate wss := by
  fun_induction listed wss with
  | case1 => rfl
  | case2 ws => simp
  | case3 ws rest hne ih =>
      rw [ih, List.intercalate_cons_of_ne_nil (by simpa using hne)]
      simp

theorem Word.intercalate_nil (wss : List (List Word)) : [].intercalate wss = wss.flatten := by
  induction wss with
  | nil => rfl
  | cons ws wss ih =>
      cases wss with
      | nil => simp
      | cons vs wss => rw [List.intercalate_cons_of_ne_nil (List.cons_ne_nil _ _), ih]; simp

namespace Doc

variable {ds : List Doc} {wss : List (List Word)} {us : List Word} {separator : Doc}

theorem prints_join (hs : Opens separator us) (hb : Begins separator)
    (h : List.Forall₂ Prints ds wss) : Prints (join separator ds) (us.intercalate wss) := by
  induction h with
  | nil => exact opens_nil.prints
  | @cons d ws ds wss hd hds ih =>
      cases hds with
      | nil => exact Prints.cast hd (by simp)
      | @cons e vs ds wss he hds =>
          rw [List.intercalate_cons_of_ne_nil (List.cons_ne_nil _ _)]
          exact ((hd.append_opens hs hb).append_prints ih).cast (by simp)

theorem prints_commas (h : List.Forall₂ Prints ds wss) : Prints (commas ds) (Word.listed wss) := by
  rw [Word.listed_eq]
  exact prints_join (Piece.opens [.mark .comma, .blank] rfl rfl)
    (begins_text (c := ',') rfl (by simp)) h

theorem prints_commaLines (h : List.Forall₂ Prints ds wss) :
    Prints (commaLines ds) (Word.listed wss) := by
  rw [Word.listed_eq]
  exact prints_join (opens_line.append (Piece.opens [.mark .comma] rfl rfl)) begins_line.append h

end Doc

namespace Layout

variable {d left right : Doc} {ds : List Doc} {ws vs us : List Word} {wss : List (List Word)}

theorem opens_leftParen : Opens (.text "(") [Word.mark .leftParen] :=
  Piece.opens [.mark .leftParen] rfl rfl

theorem opens_rightParen : Opens (.text ")") [Word.mark .rightParen] :=
  Piece.opens [.mark .rightParen] rfl rfl

theorem begins_rightParen : Begins (.text ")") := Doc.begins_text (c := ')') rfl (by simp)

theorem begins_leftParen : Begins (.text "(") := Doc.begins_text (c := '(') rfl (by simp)

theorem begins_blank (t : String) (h : t.toList.head? = some ' ') : Begins (.text t) :=
  Doc.begins_text h (by simp)

theorem opens_subquery (h : Prints d ws) : Opens (subquery d) (Word.enclosed ws) :=
  ((((opens_leftParen.append Doc.opens_line).append_prints (h.nest 2)).append_opens Doc.opens_line
    Doc.begins_line).append opens_rightParen).cast (by simp [Word.enclosed])

theorem opens_list {opening : String} (ho : Opens (.text opening) us)
    (h : List.Forall₂ Prints ds wss) :
    Opens (list opening ds) (us ++ (Word.listed wss ++ [Word.mark .rightParen])) :=
  ((((ho.append Doc.opens_line).append_prints ((Doc.prints_commaLines h).nest 2)).append_opens
    Doc.opens_line Doc.begins_line).append opens_rightParen).cast (by simp)

theorem begins_list {opening : String} (h : Begins (.text opening)) : Begins (list opening ds) :=
  (((h.append).append).append).append

theorem prints_infixed {symbol : String} (hl : Prints left ws)
    (hs : Opens (.text (" " ++ symbol ++ " ")) vs) (hr : Prints right us) :
    Prints (infixed left symbol right) (ws ++ (vs ++ us)) := by
  have hb : Begins (.text (" " ++ symbol ++ " ")) :=
    Doc.begins_text (c := ' ') (by simp) (by simp)
  exact ((hl.append_opens hs hb).append_prints hr).cast (by simp)

theorem starts_terminator (terminated : Bool) : Starts (terminator terminated) := by
  cases terminated
  · exact Doc.starts_nil
  · exact (Doc.begins_text (c := ';') rfl (by simp)).starts

theorem opens_terminator (terminated : Bool) :
    Opens (terminator terminated) (Word.terminator terminated) := by
  cases terminated
  · exact Doc.opens_nil
  · exact Piece.opens [.mark .semicolon] rfl rfl

theorem starts_sources (entries : List Doc) : Starts (sources entries) := by
  rw [sources]
  split
  · exact Doc.starts_nil
  · exact (Begins.append (Begins.append Doc.begins_line)).starts

theorem starts_filter (condition : Option Doc) : Starts (filter condition) := by
  cases condition with
  | none => exact Doc.starts_nil
  | some d => exact (Begins.append (Begins.append Doc.begins_line)).starts

theorem starts_condition (on : Option Doc) : Starts (condition on) := by
  cases on with
  | none => exact Doc.starts_nil
  | some d => exact ((Begins.append (Begins.append Doc.begins_line)).nest 2).starts

theorem opens_binary (operator : BinaryOperator) :
    Opens (.text (" " ++ operator.symbol ++ " ")) [Word.mark operator.mark] := by
  have hs : Piece.areSeparated Piece.isFree [.blank, .mark operator.mark, .blank] = true := by
    cases operator <;> rfl
  refine Piece.opens [.blank, .mark operator.mark, .blank] ?_ hs
  cases operator <;> rfl

theorem prints_nullCheck (isNull : Bool) :
    Prints (.text (if isNull then " IS NULL" else " IS NOT NULL"))
      (Word.keyword .IS :: (Word.negated (!isNull) ++ [Word.keyword .NULL])) := by
  cases isNull
  · exact Piece.prints [.blank, .word .IS, .blank, .word .NOT, .blank, .word .NULL] rfl rfl
  · exact Piece.prints [.blank, .word .IS, .blank, .word .NULL] rfl rfl

theorem begins_nullCheck (isNull : Bool) :
    Begins (.text (if isNull then " IS NULL" else " IS NOT NULL")) := by
  cases isNull
  · exact begins_blank _ rfl
  · exact begins_blank _ rfl

theorem prints_logical (operator : LogicalOperator) :
    Prints (.text operator.symbol) [Word.keyword operator.keyword] := by
  cases operator
  · exact Piece.prints [.word .AND] rfl rfl
  · exact Piece.prints [.word .OR] rfl rfl

def comparisonPiece : ComparisonOperator → Piece
  | .equal => .mark .eq
  | .notEqual => .mark .ltGt
  | .lessThan => .mark .lt
  | .lessThanOrEqual => .mark .ltEq
  | .greaterThan => .mark .gt
  | .greaterThanOrEqual => .mark .gtEq
  | .notLessThan => .mark .notLt
  | .notGreaterThan => .mark .notGt
  | .like => .word .LIKE

theorem opens_comparison (operator : ComparisonOperator) :
    Opens (.text (" " ++ operator.symbol ++ " ")) [operator.word] := by
  have hs : Piece.areSeparated Piece.isFree [.blank, comparisonPiece operator, .blank] = true := by
    cases operator <;> rfl
  refine (Piece.opens [.blank, comparisonPiece operator, .blank] ?_ hs).cast ?_
  · cases operator <;> rfl
  · cases operator <;> rfl

theorem opens_quantified (operator : ComparisonOperator) (quantifier : Quantifier) :
    Opens (.text (" " ++ operator.symbol ++ " " ++ quantifier.symbol ++ " "))
      [operator.word, Word.keyword quantifier.keyword] := by
  have hs : Piece.areSeparated Piece.isFree [.blank, comparisonPiece operator, .blank,
      .word quantifier.keyword, .blank] = true := by
    cases operator <;> cases quantifier <;> rfl
  refine (Piece.opens [.blank, comparisonPiece operator, .blank, .word quantifier.keyword, .blank]
    ?_ hs).cast ?_
  · cases operator <;> cases quantifier <;> rfl
  · cases operator <;> rfl

theorem begins_quantified (operator : ComparisonOperator) (quantifier : Quantifier) :
    Begins (.text (" " ++ operator.symbol ++ " " ++ quantifier.symbol ++ " ")) :=
  Doc.begins_text (c := ' ') (by simp) (by simp)

theorem opens_negated (negated : Bool) (t u : String)
    (ht : Opens (.text t) (Word.keyword .NOT :: us)) (hu : Opens (.text u) us) :
    Opens (.text (if negated then t else u)) (Word.negated negated ++ us) := by
  cases negated
  · exact hu
  · exact ht

theorem begins_negated (negated : Bool) {t u : String} (ht : Begins (.text t))
    (hu : Begins (.text u)) : Begins (.text (if negated then t else u)) := by
  cases negated
  · exact hu
  · exact ht

theorem opens_introduction (join : Join) : Opens (.text join.introduction) join.words := by
  cases join
  · exact Piece.opens [] rfl rfl
  · exact Piece.opens [.word .INNER, .blank, .word .JOIN, .blank] rfl rfl
  · exact Piece.opens [.word .LEFT, .blank, .word .JOIN, .blank] rfl rfl
  · exact Piece.opens [.word .RIGHT, .blank, .word .JOIN, .blank] rfl rfl
  · exact Piece.opens [.word .FULL, .blank, .word .OUTER, .blank, .word .JOIN, .blank] rfl rfl
  · exact Piece.opens [.word .CROSS, .blank, .word .JOIN, .blank] rfl rfl
  · exact Piece.opens [.word .CROSS, .blank, .name "APPLY", .blank] rfl rfl
  · exact Piece.opens [.word .OUTER, .blank, .name "APPLY", .blank] rfl rfl

theorem opens_top (h : Prints d ws) : Opens (top (some d)) (Word.keyword .TOP :: ws) :=
  (((Piece.opens [.word .TOP, .blank] rfl rfl).append_prints h).append_opens Doc.opens_line
    Doc.begins_line).cast (by simp [Piece.words])

theorem prints_filter (h : Prints d ws) : Prints (filter (some d)) (Word.keyword .WHERE :: ws) :=
  (Doc.opens_line.append (Piece.opens [.word .WHERE, .blank, .blank, .blank] rfl
    rfl)).append_prints (h.nest clauseWidth)

theorem prints_condition (h : Prints d ws) : Prints (condition (some d)) (Word.keyword .ON :: ws) :=
  ((Doc.opens_line.append (Piece.opens [.word .ON, .blank] rfl rfl)).append_prints
    (h.nest 2)).nest 2

theorem prints_sources {ss : List Source}
    (h : List.Forall₂ Prints (Sources.layouts ss) (ss.map Source.words)) :
    Prints (sources (Sources.layouts ss)) (Sources.words .FROM ss) := by
  cases ss with
  | nil => exact Doc.opens_nil.prints
  | cons s ss =>
      have hentries := (Doc.prints_join Doc.opens_line Doc.begins_line h).nest clauseWidth
      refine ((Doc.opens_line.append (Piece.opens [.word .FROM, .blank, .blank, .blank, .blank] rfl
        rfl)).append_prints hentries).cast ?_
      simp [Sources.words, Piece.words, Sources.joined_eq, Word.intercalate_nil]

end Layout

end Transact
