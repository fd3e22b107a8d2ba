import Transact.Proofs.Layout.Parts

namespace Transact

open Doc (Opens Prints Starts Begins)
open Layout

/-- The star behind a name is read apart from the point, also if the name ends in another one. -/
theorem Column.prints_star {r : Reference} (hr : r.Formed) :
    Prints (.text r.identifier ++ .text "." ++ .text "*")
      (Text.words r.identifier ++ [Word.mark .dot, Word.mark .star]) := by
  intro n mid cs vs hc h
  have hstar := h.mark (m := .star) fun c hcs => by
    have hm := hc c hcs
    simp only [List.mem_cons, List.not_mem_nil, or_false] at hm
    obtain rfl | rfl | rfl | rfl | rfl | rfl := hm <;> decide
  have hdot := hstar.mark (m := .dot) (by rintro _ ⟨⟩; decide)
  rw [Doc.chars_append, Doc.chars_append, hr.words_identifier, List.append_assoc]
  exact Doc.reads_indented (hr.reads (endsName_dot _) hdot)

mutual

theorem Expression.prints : (e : Expression) → e.Formed → Prints e.layout e.words
  | .unary _ _ operand, h => UnaryOperator.prints h.1 h.2 (operand.prints h.1)
  | .grouped _ inner, h =>
    (((opens_leftParen.append_prints (Expression.prints inner h)).append_opens opens_rightParen
      begins_rightParen).cast (by simp [Expression.words, Word.enclosed])).prints
  | .null _, _ => Piece.prints [.word .NULL] rfl rfl
  | .constant _ _, h => Doc.prints_text fun _ _ hc hr => .constant h hc hr
  | .subquery _ select, h => (opens_subquery (select.prints h.1)).prints
  | .reference _, h => Reference.Formed.prints h
  | .call _ function arguments, h => by
      have hopen := (Reference.NamesFunction.prints h.1).append_opens opens_leftParen
        begins_leftParen
      have harguments := Doc.prints_commas (Expressions.prints arguments h.2)
      exact (((hopen.append_prints harguments).append_opens opens_rightParen
        begins_rightParen).cast (by simp [Expression.words, Word.enclosed])).prints
  | .binary _ left operator right, h =>
    prints_infixed (left.prints h.1.1) (opens_binary operator) (right.prints h.2.1)

theorem Expressions.prints : (es : List Expression) → Expressions.Formed es →
    List.Forall₂ Prints (Expressions.layouts es) (Expressions.words es)
  | [], _ => .nil
  | e :: es, h => .cons (e.prints h.1) (Expressions.prints es h.2)

theorem OptionalExpression.opensTop : (e : Option Expression) → OptionalExpression.Formed e →
    Opens (top (OptionalExpression.layout e)) (OptionalExpression.words .TOP e)
  | none, _ => Doc.opens_nil
  | some e, h => opens_top (e.prints h)

theorem Predicate.prints : (p : Predicate) → p.Formed → Prints p.layout p.words
  | .not _ inner, h =>
    (Piece.opens [.word .NOT, .blank] rfl rfl).append_prints (inner.prints h.1)
  | .existence _ subquery, h =>
    ((Piece.opens [.word .EXISTS, .blank] rfl rfl).append
      (opens_subquery (subquery.prints h.1))).prints
  | .inSubquery _ left negated subquery, h => by
      have hword := opens_negated negated " NOT IN " " IN "
        (Piece.opens [.blank, .word .NOT, .blank, .word .IN, .blank] rfl rfl)
        (Piece.opens [.blank, .word .IN, .blank] rfl rfl)
      have hb := begins_negated negated (begins_blank " NOT IN " rfl) (begins_blank " IN " rfl)
      exact ((((left.prints h.1).append_opens hword hb).append
        (opens_subquery (subquery.prints h.2.1))).cast
          (by simp [Predicate.words, Piece.words])).prints
  | .inList _ left negated list, h => by
      have hword := opens_negated negated " NOT IN (" " IN ("
        (Piece.opens [.blank, .word .NOT, .blank, .word .IN, .blank, .mark .leftParen] rfl rfl)
        (Piece.opens [.blank, .word .IN, .blank, .mark .leftParen] rfl rfl)
      have hb := begins_negated negated (begins_blank " NOT IN (" rfl) (begins_blank " IN (" rfl)
      have hlist := opens_list hword (Expressions.prints list h.2.2)
      exact (((left.prints h.1).append_opens hlist (begins_list hb)).cast
        (by simp [Predicate.words, Piece.words, Word.enclosed])).prints
  | .between _ left negated low high, h => by
      have hword := opens_negated negated " NOT BETWEEN " " BETWEEN "
        (Piece.opens [.blank, .word .NOT, .blank, .word .BETWEEN, .blank] rfl rfl)
        (Piece.opens [.blank, .word .BETWEEN, .blank] rfl rfl)
      have hb := begins_negated negated (begins_blank " NOT BETWEEN " rfl)
        (begins_blank " BETWEEN " rfl)
      have hlow := ((left.prints h.1).append_opens hword hb).append_prints (low.prints h.2.1)
      have hand := Piece.opens (t := " AND ") [.blank, .word .AND, .blank] rfl rfl
      exact ((hlow.append_opens hand (begins_blank _ rfl)).append_prints (high.prints h.2.2)).cast
        (by simp [Predicate.words, Piece.words])
  | .grouped _ inner, h => by
      have hinner := (((Doc.opens_line.append_prints (Predicate.prints inner h)).append_opens
        Doc.opens_line Doc.begins_line).nest 2)
      exact (((opens_leftParen.append hinner).append opens_rightParen).cast
        (by simp [Predicate.words, Word.enclosed])).prints
  | .quantified _ left operator quantifier subquery, h =>
    ((((left.prints h.1).append_opens (opens_quantified operator quantifier)
      (begins_quantified operator quantifier)).append
        (opens_subquery (subquery.prints h.2.1))).cast (by simp [Predicate.words])).prints
  | .nullCheck _ left isNull, h =>
    (left.prints h).append (prints_nullCheck isNull) (begins_nullCheck isNull).starts
  | .comparison _ left operator right, h =>
    prints_infixed (left.prints h.1) (opens_comparison operator) (right.prints h.2)
  | .binary _ left operator right, h => by
      have hline := (left.prints h.1.1).append_opens Doc.opens_line Doc.begins_line
      have hblank := (hline.append_prints (prints_logical operator)).append_opens
        (Piece.opens (t := " ") [.blank] rfl rfl) (begins_blank _ rfl)
      exact (hblank.append_prints (right.prints h.2.1)).cast
        (by simp [Predicate.words, Piece.words])

theorem OptionalPredicate.prints : (p : Option Predicate) → OptionalPredicate.Formed p →
    Prints (filter (OptionalPredicate.layout p)) (OptionalPredicate.words .WHERE p) ∧
      Prints (condition (OptionalPredicate.layout p)) (OptionalPredicate.words .ON p)
  | none, _ => ⟨Doc.opens_nil.prints, Doc.opens_nil.prints⟩
  | some p, h => ⟨prints_filter (p.prints h), prints_condition (p.prints h)⟩

theorem Select.prints : (s : Select) → s.Formed → Prints s.layout s.words
  | ⟨_, top, columns, sources, filter, terminated⟩, h => by
      obtain ⟨htop, hcolumns, hsources, hfilter⟩ := h
      have hhead := (Piece.opens (t := "SELECT  ") [.word .SELECT, .blank, .blank] rfl rfl).append
        (OptionalExpression.opensTop top htop.1)
      have hbody := hhead.append_prints
        ((Doc.prints_commaLines (Columns.prints columns hcolumns.2.1)).nest clauseWidth)
      have hfrom := hbody.append (prints_sources (Sources.prints sources hsources.1))
        (starts_sources _)
      have hwhere := hfrom.append (OptionalPredicate.prints filter hfilter).1 (starts_filter _)
      exact (hwhere.append (opens_terminator terminated).prints (starts_terminator _)).cast
        (by simp [Select.words, Piece.words])

theorem Column.prints : (c : Column) → c.Formed → Prints c.layout c.words
  | .star _ none, _ => Piece.prints [.mark .star] rfl rfl
  | .star _ (some table), h => by
      obtain ⟨parts, rfl, hr⟩ := h
      exact Column.prints_star hr
  | .value _ expression aliasName, h =>
    (expression.prints h.1).append (prints_aliasName h.2) (starts_aliasName aliasName)
  | .assignment _ target expression, h => by
      have heq := h.1.prints.append_opens (Piece.opens (t := " = ") [.blank, .mark .eq, .blank]
        rfl rfl) (begins_blank _ rfl)
      exact (heq.append_prints (expression.prints h.2)).cast (by simp [Column.words, Piece.words])

theorem Columns.prints : (cs : List Column) → Columns.Formed cs →
    List.Forall₂ Prints (Columns.layouts cs) (Columns.words cs)
  | [], _ => .nil
  | c :: cs, h => .cons (c.prints h.1) (Columns.prints cs h.2)

theorem Source.prints : (s : Source) → s.Formed → Prints s.layout s.words
  | .table source, h => source.prints h
  | .subquery source, h => source.prints h

theorem Sources.prints : (ss : List Source) → Sources.Formed ss →
    List.Forall₂ Prints (Sources.layouts ss) (ss.map Source.words)
  | [], _ => .nil
  | s :: ss, h => .cons (s.prints h.1) (Sources.prints ss h.2)

theorem TableSource.prints : (s : TableSource) → s.Formed → Prints s.layout s.words
  | ⟨_, name, aliasName, join, found, condition⟩, h => by
      obtain ⟨hname, halias, hcondition, -⟩ := h
      have hhead := (opens_introduction join).append_prints hname.prints
      have hnamed := hhead.append (prints_aliasName halias) (starts_aliasName aliasName)
      have hhints := hnamed.append (prints_hints found) (starts_hints found)
      exact (hhints.append (OptionalPredicate.prints condition hcondition).2
        (starts_condition _)).cast (by simp [TableSource.words])

theorem SubquerySource.prints : (s : SubquerySource) → s.Formed → Prints s.layout s.words
  | ⟨_, subquery, aliasName, join, condition⟩, h => by
      obtain ⟨hsubquery, halias, hcondition, -⟩ := h
      have hopen := ((opens_introduction join).append opens_leftParen).append_prints
        ((Doc.opens_line.append_prints (subquery.prints hsubquery.1)).nest 2)
      have hclose := (hopen.append_opens Doc.opens_line Doc.begins_line).append opens_rightParen
      have hnamed := hclose.append_prints (prints_aliasName halias)
      exact (hnamed.append (OptionalPredicate.prints condition hcondition).2
        (starts_condition _)).cast (by simp [SubquerySource.words, Word.enclosed])

end

theorem Row.prints {r : Row} (h : r.Formed) : Prints r.layout r.words :=
  have hvalues := Doc.prints_commas (Expressions.prints r.values h.2)
  (((opens_leftParen.append_prints hvalues).append_opens opens_rightParen begins_rightParen).cast
    (by simp [words, Word.enclosed])).prints

theorem Layout.prints_insertHead {topValue : Option Expression} {target : Reference}
    (found : List TableHint) (ht : OptionalExpression.IsTop topValue) (hr : target.Formed) :
    Prints (insertHead topValue target found) (Word.keyword .INSERT ::
      (OptionalExpression.words .TOP topValue ++ (target.words ++ Word.hinted found))) := by
  have hhead := (Piece.opens (t := "INSERT  ") [.word .INSERT, .blank, .blank] rfl rfl).append
    (OptionalExpression.opensTop topValue ht.1)
  have htarget := hhead.append_prints (hr.prints.nest clauseWidth)
  exact (htarget.append (prints_hints found) (starts_hints found)).cast (by simp [Piece.words])

theorem Layout.starts_insertColumns (columns : List Reference) :
    Starts (insertColumns columns) := by
  rw [insertColumns]
  split
  · exact Doc.starts_nil
  · exact ((begins_list (begins_blank _ rfl)).nest clauseWidth).starts

theorem Layout.prints_insertColumns {columns : List Reference} (h : ∀ c ∈ columns, c.Formed) :
    Prints (insertColumns columns) (Word.columns columns) := by
  rw [insertColumns, Word.columns]
  by_cases hne : columns = []
  · subst hne
    exact Doc.opens_nil.prints
  · rw [if_neg (by simpa using hne), if_neg hne]
    have hcolumns : List.Forall₂ Prints (columns.map Reference.layout)
        (columns.map Reference.words) := by
      rw [List.forall₂_map_left_iff, List.forall₂_map_right_iff, List.forall₂_same]
      exact fun c hc => (h c hc).prints
    exact (((opens_list (Piece.opens (t := " (") [.blank, .mark .leftParen] rfl rfl)
      hcolumns).nest clauseWidth).cast (by simp [Piece.words, Word.enclosed])).prints

theorem InsertValues.Formed.prints {s : InsertValues} (h : s.Formed) :
    Prints s.layout s.words := by
  have hhead := (prints_insertHead s.hints h.top h.target).append
    (prints_insertColumns h.columns) (starts_insertColumns s.columns)
  have hline := hhead.append_opens Doc.opens_line Doc.begins_line
  have hvalues := hline.append (Piece.opens (t := "VALUES  ") [.word .VALUES, .blank, .blank]
    rfl rfl)
  have hrows : List.Forall₂ Prints (s.rows.map Row.layout) (s.rows.map Row.words) := by
    rw [List.forall₂_map_left_iff, List.forall₂_map_right_iff, List.forall₂_same]
    exact fun r hr => Row.prints (h.rows r hr)
  have hbody := hvalues.append_prints ((Doc.prints_commaLines hrows).nest clauseWidth)
  exact (hbody.append (opens_terminator s.terminated).prints (starts_terminator _)).cast
    (by simp [words, Piece.words])

theorem InsertSelect.Formed.prints {s : InsertSelect} (h : s.Formed) :
    Prints s.layout s.words := by
  have hhead := (prints_insertHead s.hints h.top h.target).append
    (prints_insertColumns h.columns) (starts_insertColumns s.columns)
  have hline := hhead.append_opens Doc.opens_line Doc.begins_line
  have hselect := hline.append_prints (s.select.prints h.select)
  exact (hselect.append (opens_terminator s.terminated).prints (starts_terminator _)).cast
    (by simp [words])

theorem Update.Formed.prints {s : Update} (h : s.Formed) : Prints s.layout s.words := by
  have hhead := (Piece.opens (t := "UPDATE  ") [.word .UPDATE, .blank, .blank] rfl rfl).append
    (OptionalExpression.opensTop s.top h.top)
  have htarget := (hhead.append_prints (h.target.prints.nest clauseWidth)).append_opens
    Doc.opens_line Doc.begins_line
  have hset := htarget.append (Piece.opens (t := "SET     ")
    [.word .SET, .blank, .blank, .blank, .blank, .blank] rfl rfl)
  have hbody := hset.append_prints
    ((Doc.prints_commaLines (Columns.prints s.assignments h.assignments)).nest clauseWidth)
  have hfrom := hbody.append (prints_sources (Sources.prints s.sources h.sources))
    (starts_sources _)
  have hwhere := hfrom.append (OptionalPredicate.prints s.filter h.filter).1 (starts_filter _)
  exact (hwhere.append (opens_terminator s.terminated).prints (starts_terminator _)).cast
    (by simp [words, Piece.words])

theorem Delete.Formed.prints {s : Delete} (h : s.Formed) : Prints s.layout s.words := by
  have hhead := (Piece.opens (t := "DELETE  ") [.word .DELETE, .blank, .blank] rfl rfl).append
    (OptionalExpression.opensTop s.top h.top.1)
  have htarget := hhead.append_prints (h.target.prints.nest clauseWidth)
  have hfrom := htarget.append (prints_sources (Sources.prints s.sources h.sources))
    (starts_sources _)
  have hwhere := hfrom.append (OptionalPredicate.prints s.filter h.filter).1 (starts_filter _)
  exact (hwhere.append (opens_terminator s.terminated).prints (starts_terminator _)).cast
    (by simp [words, Piece.words])

theorem Layout.prints_branch (isBlock : Bool) {d : Doc} {ws : List Word} (h : Prints d ws) :
    Prints (branch isBlock d) ws := by
  cases isBlock
  · exact h.nest 2
  · exact h

theorem Else.starts (branch : Option Statement) : Starts (Else.layout branch) := by
  cases branch with
  | none => exact Doc.starts_nil
  | some branch => exact (((Doc.begins_line.append).append).append).starts

mutual

theorem Statement.prints : (s : Statement) → s.Formed → Prints s.layout s.words
  | .select s, h => s.prints h
  | .insertValues _, h => InsertValues.Formed.prints h
  | .insertSelect _, h => InsertSelect.Formed.prints h
  | .update _, h => Update.Formed.prints h
  | .delete _, h => Delete.Formed.prints h
  | .conditional s, h => s.prints h
  | .loop s, h => s.prints h
  | .block s, h => s.prints h
  | .empty _, _ => Piece.prints [.mark .semicolon] rfl rfl

theorem If.prints : (s : If) → s.Formed → Prints s.layout s.words
  | ⟨_, test, thenBranch, elseBranch⟩, h => by
      obtain ⟨htest, hthen, helse, -⟩ := h
      have hhead := (Piece.opens (t := "IF ") [.word .IF, .blank] rfl rfl).append_prints
        (test.prints htest)
      have hline := hhead.append_opens Doc.opens_line Doc.begins_line
      have hbranch := hline.append_prints
        (prints_branch thenBranch.isBlock (thenBranch.prints hthen))
      exact (hbranch.append (Else.prints elseBranch helse) (Else.starts elseBranch)).cast
        (by simp [If.words, Piece.words])

theorem Else.prints : (branch : Option Statement) → Else.Formed branch →
    Prints (Else.layout branch) (Else.words branch)
  | none, _ => Doc.opens_nil.prints
  | some branch, h => by
      have hword := Doc.opens_line.append_prints
        (Piece.prints (t := "ELSE") [.word .ELSE] rfl rfl)
      have hline := hword.append_opens Doc.opens_line Doc.begins_line
      exact (hline.append_prints (prints_branch branch.isBlock (branch.prints h))).cast
        (by simp [Else.words, Piece.words])

theorem While.prints : (s : While) → s.Formed → Prints s.layout s.words
  | ⟨_, test, body⟩, h => by
      have hhead := (Piece.opens (t := "WHILE ") [.word .WHILE, .blank] rfl rfl).append_prints
        (test.prints h.1)
      have hbody := (Doc.opens_line.append_prints (body.prints h.2)).nest 2
      exact (hhead.append hbody (Doc.begins_line.append.nest 2).starts).cast
        (by simp [While.words, Piece.words])

theorem Block.prints : (s : Block) → s.Formed → Prints s.layout s.words
  | ⟨_, body⟩, h => by
      have hword := (Piece.prints (t := "BEGIN") [.word .BEGIN] rfl rfl).append_opens
        Doc.opens_line Doc.begins_line
      have hjoin := (Doc.prints_join (Doc.opens_line.append Doc.opens_line)
        Doc.begins_line.append (Statements.prints body h)).nest 2
      have hline := (hword.append_prints hjoin).append_opens Doc.opens_line Doc.begins_line
      exact (hline.append_prints (Piece.prints (t := "END") [.word .END] rfl rfl)).cast
        (by simp [Block.words, Piece.words, Statements.words_eq, Word.intercalate_nil])

theorem Statements.prints : (ss : List Statement) → Statements.Formed ss →
    List.Forall₂ Prints (Statements.layouts ss) (ss.map Statement.words)
  | [], _ => .nil
  | s :: ss, h => .cons (s.prints h.1) (Statements.prints ss h.2.2)

end

theorem Page.reads_appendAll {ss : List Statement} (h : Statements.Formed ss) (p : Page) :
    ∃ cs, (p.appendAll ss).content.toList = p.content.toList ++ cs ∧
      Reads cs (Statements.words ss) := by
  induction ss generalizing p with
  | nil => exact ⟨[], by rw [List.append_nil]; rfl, .nil⟩
  | cons s ss ih =>
      obtain ⟨cs, hcs, hr⟩ := ih h.2.2 (p.append s)
      have hbreak : Reads ('\n' :: '\n' :: cs) (Statements.words ss) :=
        .blank (by decide) (.blank (by decide) hr)
      refine ⟨s.layout.chars p.indent p.isMidline ++ '\n' :: '\n' :: cs, ?_,
        s.prints h.1 _ _ _ _ (.cons (by simp)) hbreak⟩
      change ((p.append s).appendAll ss).content.toList = _
      rw [hcs, append, Doc.set_eq]
      simp [breakLine]

/-- The text of well-formed statements is read as their words. -/
theorem reads_format {ss : List Statement} (h : Statements.Formed ss) :
    Reads (format ss).toList (Statements.words ss) := by
  obtain ⟨cs, hcs, hr⟩ := Page.blank.reads_appendAll h
  rw [format, hcs]
  exact hr

end Transact
