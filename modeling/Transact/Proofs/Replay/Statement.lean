import Transact.Proofs.Replay.Predicate
import Transact.Proofs.Sound.Statement

namespace Transact

theorem Rows.clean_iff (rows : List Row) :
    Clean (rows.flatMap Row.visits) ↔ ∀ r ∈ rows, Clean (Expressions.visits r.values) := by
  induction rows with
  | nil => simp
  | cons r rows ih => simp [List.flatMap_cons, Row.visits, Visit.isCaptured, ih]

theorem Select.exists_words_eq (v : Select) :
    ∃ rest, v.words = Word.keyword .SELECT :: (rest ++ Word.terminator v.terminated) := by
  cases v
  exact ⟨_, by simp only [words, ← List.append_assoc]; rfl⟩

theorem If.words_eq (v : If) : v.words = Word.keyword .IF ::
    (v.test.words ++ (v.thenBranch.words ++ Else.words v.elseBranch)) := by
  cases v
  rfl

theorem While.words_eq (v : While) :
    v.words = Word.keyword .WHILE :: (v.test.words ++ v.body.words) := by
  cases v
  rfl

theorem Block.words_eq (v : Block) :
    v.words = Word.keyword .BEGIN :: (Statements.words v.body ++ [Word.keyword .END]) := by
  cases v
  rfl

namespace Statement

theorem rename_withTerminator (m : Renaming) (v : Statement) (b : Bool) :
    (v.withTerminator b).rename m = (v.rename m).withTerminator b := by
  cases v with
  | select v =>
      obtain ⟨_, _, _, _, _, _⟩ := v
      rfl
  | _ => rfl

theorem withTerminator_terminated {v : Statement} {b : Bool} (h : v.terminated? = some b) :
    (v.withTerminator false).withTerminator b = v := by
  cases v with
  | select v =>
      obtain ⟨_, _, _, _, _, _⟩ := v
      cases h
      rfl
  | conditional | loop | block => cases h
  | _ => cases h; rfl

/-- A statement begins with a word that ends the clauses in front of it. -/
theorem headKind_words (v : Statement) (ws : List Word) :
    (Word.headKind (v.words ++ ws)).endsClauses = true ∧
      Word.headKind (v.words ++ ws) ≠ .keyword .END ∧ Word.headKind (v.words ++ ws) ≠ .eof := by
  cases v with
  | select v => cases v; exact ⟨rfl, nofun, nofun⟩
  | conditional v => cases v; exact ⟨rfl, nofun, nofun⟩
  | loop v => cases v; exact ⟨rfl, nofun, nofun⟩
  | block v => cases v; exact ⟨rfl, nofun, nofun⟩
  | _ => exact ⟨rfl, nofun, nofun⟩

end Statement

namespace Grammar

open Rule Rule.Ensures

variable {n : Nat} {s t : Stream} {ws : List Word} {R : Rules n} {fault : Prop}

theorem holds_insertColumns {columns : List Reference} (hf : ∀ c ∈ columns, c.Formed)
    (hk : columns = [] → Word.headKind ws ≠ .mark .leftParen)
    (h : s.Holds (Word.columns columns ++ ws)) :
    (insertColumns : Rule n (List Reference)).Ensures s (fun cs t =>
      cs.map Reference.bare = columns.map Reference.bare ∧ t.Holds ws) fault := by
  rw [Word.columns] at h
  split at h
  · rename_i hnil
    have hne := hk hnil
    rw [← show s.current.kind = Word.headKind ws from h.kind] at hne
    refine eat_miss hne ?_
    exact Ensures.pure ⟨by rw [hnil], h⟩
  · rename_i hne
    rw [Word.enclosed, List.cons_append, List.append_assoc, List.singleton_append] at h
    refine holds_eat h rfl fun t ht => ?_
    have hcomma : Kind.mark .rightParen ≠ .mark .comma := by decide
    refine (holds_commaSeparated replays_reference hne (by exact hcomma) (fun c hc => ?_) ht).bind
      fun cs t hcs => ?_
    · exact ⟨⟨hf c hc, c.endsBefore_of_endsValue rfl⟩, hf c hc, c.endsBefore_of_endsValue rfl⟩
    · exact (holds_expect hcs.2 rfl).bind fun _ t ht => Ensures.pure ⟨hcs.1, ht⟩

theorem replays_row (hR : R.Complete) :
    (row R).Replays (fun r _ => r.Formed) Row.words (fun r => Clean (Expressions.visits r.values))
      (Row.rename .bare) := by
  rintro ⟨token, values⟩ ws s ⟨hne, hvalues⟩ h
  dsimp only at h hne hvalues ⊢
  rw [Row.words, Word.enclosed, List.cons_append, List.append_assoc, List.singleton_append,
    Expressions.words_eq] at h
  rw [Expressions.formed_iff] at hvalues
  refine (holds_expect h rfl).bind fun origin t ht => ?_
  refine follow_closed (sticks_values hR.expression ⟨⟨hne, hvalues⟩, rfl⟩ ht)
    (Expressions.clean_iff _).1 fun es t hc hes ht =>
      Ensures.pure ⟨(Expressions.clean_iff _).2 hc, ?_, ht⟩
  rw [Row.rename, Row.rename, Expressions.rename_eq, Expressions.rename_eq, hes]

theorem replays_assignment (hR : R.Complete) :
    (assignment R).Replays (fun c k => (c.Formed ∧ c.isAssignment = true) ∧ k.endsColumn = true)
      Column.words (fun c => Clean c.visits) (Column.rename .bare) := by
  rintro c ws s ⟨⟨hf, hassignment⟩, hk⟩ h
  dsimp only at h ⊢
  cases c with
  | assignment token target e =>
      have hclean : Clean (Column.assignment token target e).visits ↔ Clean e.visits := by
        simp [Column.visits, Visit.isCaptured]
      rw [hclean]
      rw [Column.words, List.append_assoc] at h
      refine Ensures.current ((holds_reference hf.1 (target.endsBefore_of_endsValue rfl) h).bind
        fun r t hr => ?_)
      refine (holds_expect hr.2 rfl).bind fun _ t ht => ?_
      refine follow (hR.expression ⟨hf.2, e.admits_of_endsValue (Kind.of_endsColumn hk).1⟩ ht) id
        fun u t hc hu => Ensures.pure ⟨hc, ?_, hu.2⟩
      rw [Column.rename, Column.rename, Renaming.bare_column, hr.1, hu.1]
  | _ => cases hassignment

/-- What is read of a statement: the statement without its semicolon, or a part of it behind which
the stream is stuck. -/
def Bodies (v : Statement) (ws : List Word) (u : Statement) (t : Stream) : Prop :=
  (Clean v.visits ∧ u.rename .bare = (v.withTerminator false).rename .bare ∧ t.Holds ws) ∨
    (¬Clean v.visits ∧ t.Stuck)

def insertThen (R : Rules n) (origin : Token) (top : Option Expression) (target : Reference)
    (hints : List TableHint) (columns : List Reference) : Rule n Statement := do
  match ← Rule.kind with
  | .keyword .VALUES => do
    let _ ← Rule.advance
    let rows ← commaSeparated (row R)
    return .insertValues ⟨origin, top, target, hints, columns, rows, false⟩
  | .keyword .SELECT => do
    let select ← R.select
    return .insertSelect ⟨origin, top, target, hints, columns, select, false⟩
  | _ => expected (.kind (.keyword .VALUES))

theorem holds_insert (hR : R.Complete) (origin : Token) {top : Option Expression}
    {target : Reference} {hints : List TableHint} {columns : List Reference} {c : Prop}
    {post : Statement → Stream → Prop} (htop : OptionalExpression.IsTop top)
    (htarget : target.Formed) (hcolumns : ∀ c ∈ columns, c.Formed)
    (hc : c → Clean (OptionalExpression.visits top))
    (hk : Word.headKind ws = .keyword .VALUES ∨ Word.headKind ws = .keyword .SELECT)
    (h : s.Holds (OptionalExpression.words .TOP top ++ (target.words ++ (Word.hinted hints ++
      (Word.columns columns ++ ws)))))
    (hrest : ∀ top' target' columns' t, Clean (OptionalExpression.visits top) →
      OptionalExpression.rename .bare top' = OptionalExpression.rename .bare top →
      target'.bare = target.bare →
      columns'.map Reference.bare = columns.map Reference.bare → t.Holds ws →
      (insertThen R origin top' target' hints columns').Ensures t post (¬c)) :
    (insert R origin).Ensures s post (¬c) := by
  have hnext : Word.headKind (Word.columns columns ++ ws) = .mark .leftParen ∨
      Word.headKind (Word.columns columns ++ ws) = .keyword .VALUES ∨
      Word.headKind (Word.columns columns ++ ws) = .keyword .SELECT := by
    rw [Word.columns]
    split
    · exact .inr hk
    · exact .inl rfl
  have hends : target.EndsBefore (Word.headKind (Word.hinted hints ++
      (Word.columns columns ++ ws))) := by
    rw [Word.hinted]
    split
    · rw [List.nil_append]
      obtain hk | hk | hk := hnext <;> exact target.endsBefore_of_ne (by simp [hk]) (by simp [hk])
    · exact target.endsBefore_of_endsValue rfl
  refine follow (holds_top hR htop.1 (fun e he => htop.2 e he) ?_ h) hc
    fun top' t hct htop' => ?_
  · exact htarget.headKind_ne (by decide) (by decide) _
  have hinto : t.current.kind ≠ .keyword .INTO := by
    rw [htop'.2.kind]
    exact htarget.headKind_ne (by decide) (by decide) _
  refine eat_miss hinto ?_
  refine (holds_reference htarget hends htop'.2).bind fun target' t htarget' => ?_
  refine (holds_hints (fun _ => ⟨?_, by simp⟩) htarget'.2).bind fun found t hfound => ?_
  · obtain hk | hk | hk := hnext <;> simp [hk]
  obtain ⟨rfl, ht⟩ := hfound
  refine (holds_insertColumns hcolumns (fun _ => ?_) ht).bind fun columns' t hcolumns' => ?_
  · obtain hk | hk := hk <;> simp [hk]
  exact hrest top' target' columns' t hct htop'.1 htarget'.1 hcolumns'.1 hcolumns'.2

theorem holds_insertValues (hR : R.Complete) (origin : Token) {v : InsertValues} (hf : v.Formed)
    (hk : (Word.headKind ws).endsClauses = true)
    (h : s.Holds (OptionalExpression.words .TOP v.top ++ (v.target.words ++ (Word.hinted v.hints ++
      (Word.columns v.columns ++ Word.keyword .VALUES :: (Word.listed (v.rows.map Row.words) ++
        ws)))))) :
    (insert R origin).Ensures s (Bodies (.insertValues v) ws)
      (¬Clean (Statement.insertValues v).visits) := by
  have hclean : Clean (Statement.insertValues v).visits ↔
      Clean (OptionalExpression.visits v.top) ∧
        ∀ r ∈ v.rows, Clean (Expressions.visits r.values) := by
    simp [Statement.visits, InsertValues.visits, Visit.isCaptured, clean_references,
      Rows.clean_iff]
  refine holds_insert hR origin hf.top hf.target hf.columns (fun hc => (hclean.1 hc).1) (.inl rfl) h
    fun top' target' columns' t hct htop' htarget' hcolumns' ht => Ensures.kind ?_
  rw [ht.kind]
  refine (holds_advance ht).bind fun _ t ht => ?_
  refine follow_stuck (sticks_commaSeparated (replays_row hR).sticks ⟨hf.rows_ne_nil,
    Kind.ne_of_eq_true hk rfl, fun r hr => ⟨hf.rows r hr, hf.rows r hr⟩⟩ ht.2)
    (fun hc => (hclean.1 hc).2) (fun rows' t hcr hrows' => Ensures.pure ?_)
    fun rows' t hn ht => Ensures.pure (.inr ⟨hn, ht⟩)
  refine .inl ⟨hclean.2 ⟨hct, hcr⟩, ?_, hrows'.2⟩
  simp only [Statement.rename, InsertValues.rename, Statement.withTerminator, htop', htarget',
    hcolumns', hrows'.1]

theorem holds_insertSelect (hR : R.Complete) (origin : Token) {v : InsertSelect} (hf : v.Formed)
    (hk : (Word.headKind ws).endsClauses = true)
    (h : s.Holds (OptionalExpression.words .TOP v.top ++ (v.target.words ++ (Word.hinted v.hints ++
      (Word.columns v.columns ++ (v.select.words ++ ws)))))) :
    (insert R origin).Ensures s (Bodies (.insertSelect v) ws)
      (¬Clean (Statement.insertSelect v).visits) := by
  have hclean : Clean (Statement.insertSelect v).visits ↔
      Clean (OptionalExpression.visits v.top) ∧ Clean v.select.visits := by
    simp [Statement.visits, InsertSelect.visits, Visit.isCaptured, clean_references]
  have hselect := v.select.headKind_words ws
  refine holds_insert hR origin hf.top hf.target hf.columns (fun hc => (hclean.1 hc).1)
    (.inr hselect) h fun top' target' columns' t hct htop' htarget' hcolumns' ht => Ensures.kind ?_
  rw [ht.kind, hselect]
  refine follow_stuck (hR.select ⟨⟨hf.select, hf.unterminated⟩, hk⟩ ht) (fun hc => (hclean.1 hc).2)
    (fun select' t hcs hselect' => Ensures.pure ?_)
    fun select' t hn ht => Ensures.pure (.inr ⟨hn, ht⟩)
  refine .inl ⟨hclean.2 ⟨hct, hcs⟩, ?_, hselect'.2⟩
  simp only [Statement.rename, InsertSelect.rename, Statement.withTerminator, htop', htarget',
    hcolumns', hselect'.1]

theorem holds_update (hR : R.Complete) (origin : Token) {v : Update} (hf : v.Formed)
    (hk : (Word.headKind ws).endsClauses = true)
    (h : s.Holds (OptionalExpression.words .TOP v.top ++ (v.target.words ++ Word.keyword .SET ::
      (Word.listed (Columns.words v.assignments) ++ (Sources.words .FROM v.sources ++
        (OptionalPredicate.words .WHERE v.filter ++ ws)))))) :
    (update R origin).Ensures s (Bodies (.update v) ws) (¬Clean (Statement.update v).visits) := by
  have hclean : Clean (Statement.update v).visits ↔
      Clean (OptionalExpression.visits v.top) ∧ (∀ c ∈ v.assignments, Clean c.visits) ∧
        Clean (Sources.visits v.sources) ∧ Clean (OptionalPredicate.visits v.filter) := by
    simp [Statement.visits, Update.visits, Visit.isCaptured, Columns.clean_iff]
  refine follow (holds_top hR hf.top (fun e he => ?_) ?_ h) (fun hc => (hclean.1 hc).1)
    fun top' t hct htop' => ?_
  · obtain ⟨w, vs, hw, -⟩ := hf.target.head
    have ha := hf.admits e he
    rw [hw] at ha ⊢
    exact ha
  · exact hf.target.headKind_ne (by decide) (by decide) _
  refine (holds_reference hf.target (v.target.endsBefore_of_endsValue rfl) htop'.2).bind
    fun target' t htarget' => ?_
  refine (holds_expect htarget'.2 rfl).bind fun _ t ht => ?_
  rw [Columns.words_eq] at ht
  have hend := endsColumns_clauses v.sources v.filter hk
  refine follow_stuck (sticks_commaSeparated (replays_assignment hR).sticks
    ⟨hf.assignments_ne_nil, Kind.ne_of_eq_true hend rfl, fun c hc => ?_⟩ ht)
    (fun hc => (hclean.1 hc).2.1) (fun assignments' t hca hassignments' => ?_)
    fun assignments' t hn ht => ?_
  · have hc := And.intro ((Columns.formed_iff _).1 hf.assignments c hc) (hf.areAssignments c hc)
    exact ⟨⟨hc, rfl⟩, hc, Bool.or_eq_true_iff.2 (.inr hend)⟩
  · refine follow_clauses hR hf.sources hf.joined hf.filter hk (fun hc => (hclean.1 hc).2.2)
      hassignments'.2 fun sources' filter' u hcs hcf hsources' hfilter' hu =>
        Ensures.pure (.inl ⟨hclean.2 ⟨hct, hca, hcs, hcf⟩, ?_, hu⟩)
    simp only [Statement.rename, Update.rename, Statement.withTerminator, htop'.1, htarget'.1,
      Columns.rename_eq, hassignments'.1, hsources', hfilter']
  · exact clauses_stuck ht fun sources' filter' u hu => Ensures.pure (.inr ⟨hn, hu⟩)

theorem holds_delete (hR : R.Complete) (origin : Token) {v : Delete} (hf : v.Formed)
    (hk : (Word.headKind ws).endsClauses = true)
    (h : s.Holds (OptionalExpression.words .TOP v.top ++ (v.target.words ++
      (Sources.words .FROM v.sources ++ (OptionalPredicate.words .WHERE v.filter ++ ws))))) :
    (delete R origin).Ensures s (Bodies (.delete v) ws) (¬Clean (Statement.delete v).visits) := by
  have hclean : Clean (Statement.delete v).visits ↔
      Clean (OptionalExpression.visits v.top) ∧ Clean (Sources.visits v.sources) ∧
        Clean (OptionalPredicate.visits v.filter) := by
    simp [Statement.visits, Delete.visits, Visit.isCaptured]
  refine follow (holds_top hR hf.top.1 (fun e he => hf.top.2 e he) ?_ h)
    (fun hc => (hclean.1 hc).1) fun top' t hct htop' => ?_
  · exact hf.target.headKind_ne (by decide) (by decide) _
  have hfrom : t.current.kind ≠ .keyword .FROM := by
    rw [htop'.2.kind]
    exact hf.target.headKind_ne (by decide) (by decide) _
  refine eat_miss hfrom ?_
  have hends := Kind.of_endsColumn (Bool.or_eq_true_iff.2
    (.inr (endsColumns_clauses v.sources v.filter hk)))
  refine (holds_reference hf.target (v.target.endsBefore_of_endsValue hends.1) htop'.2).bind
    fun target' t htarget' => ?_
  refine follow_clauses hR hf.sources hf.joined hf.filter hk (fun hc => (hclean.1 hc).2)
    htarget'.2 fun sources' filter' u hcs hcf hsources' hfilter' hu =>
      Ensures.pure (.inl ⟨hclean.2 ⟨hct, hcs, hcf⟩, ?_, hu⟩)
  simp only [Statement.rename, Delete.rename, Statement.withTerminator, htop'.1, htarget'.1,
    hsources', hfilter']

theorem holds_terminated {body : Rule n Statement} {v : Statement} {b : Bool}
    (hb : v.terminated? = some b) (hk : b = true ∨ Word.headKind ws ≠ .mark .semicolon)
    (h : body.Ensures s (Bodies v (Word.terminator b ++ ws)) (¬Clean v.visits)) :
    (terminated body).Ensures s (fun u t =>
      (Clean v.visits ∧ u.rename .bare = v.rename .bare ∧ t.Holds ws) ∨ (¬Clean v.visits ∧ t.Stuck))
      (¬Clean v.visits) := by
  have hbare {u : Statement} (hu : u.rename .bare = (v.withTerminator false).rename .bare) :
      (u.withTerminator b).rename .bare = v.rename .bare := by
    rw [Statement.rename_withTerminator, hu, ← Statement.rename_withTerminator,
      Statement.withTerminator_terminated hb]
  refine h.bind fun u t hu => ?_
  obtain ⟨hc, hu, ht⟩ | ⟨hn, ht⟩ := hu
  · cases b with
    | true =>
        refine holds_eat ht rfl fun w hw => ?_
        exact Ensures.pure (.inl ⟨hc, hbare hu, hw⟩)
    | false =>
        have hne : t.current.kind ≠ .mark .semicolon := by
          rw [ht.kind]
          exact hk.resolve_left nofun
        refine eat_miss hne ?_
        exact Ensures.pure (.inl ⟨hc, hbare hu, ht⟩)
  · refine eat_miss (ht.ne rfl) ?_
    exact Ensures.pure (.inr ⟨hn, ht⟩)

theorem endsClauses_terminator (b : Bool) (hk : (Word.headKind ws).endsClauses = true) :
    (Word.headKind (Word.terminator b ++ ws)).endsClauses = true := by
  cases b with
  | true => rfl
  | false => exact hk

theorem holds_selectBody (hR : R.Complete) (origin : Token) {v : Select} (hf : v.Formed)
    (hk : (Word.headKind ws).endsClauses = true) {rest : List Word}
    (hw : v.words = Word.keyword .SELECT :: (rest ++ Word.terminator v.terminated))
    (h : s.Holds (rest ++ ws)) :
    (Statement.select <$> selectFrom R origin).Ensures s (Bodies (.select v) ws)
      (¬Clean (Statement.select v).visits) := by
  obtain ⟨token, top, columns, sources, filter, terminated⟩ := v
  have hclean : Clean (Statement.select ⟨token, top, columns, sources, filter, terminated⟩).visits ↔
      Clean (Select.visits ⟨token, top, columns, sources, filter, false⟩) := by
    simp [Statement.visits, Select.visits, Visit.isCaptured]
  have hrest : Select.words ⟨token, top, columns, sources, filter, false⟩ =
      Word.keyword .SELECT :: rest := by
    simp only [Select.words, ← List.append_assoc, List.cons.injEq, true_and,
      List.append_cancel_right_eq] at hw
    rw [← hw]
    simp [Select.words, Word.terminator]
  refine Ensures.map ((holds_selectFrom hR origin
    (v := ⟨token, top, columns, sources, filter, false⟩)
    hf rfl hk hrest h).mono ?_ (mt hclean.1))
  rintro u t (⟨hc, hu, ht⟩ | ⟨hn, ht⟩)
  · refine .inl ⟨hclean.2 hc, ?_, ht⟩
    rw [Statement.rename, hu]
    rfl
  · exact .inr ⟨mt hclean.1 hn, ht⟩

theorem Else.headKind (branch : Option Statement) (hk : (Word.headKind ws).endsClauses = true) :
    (Word.headKind (Else.words branch ++ ws)).endsClauses = true := by
  cases branch with
  | none => exact hk
  | some v => rfl

theorem holds_conditional (hR : R.Complete) (origin : Token) {v : If} (hf : v.Formed)
    (ha : v.Admits (Word.headKind ws)) (hk : (Word.headKind ws).endsClauses = true)
    (h : s.Holds (v.test.words ++ (v.thenBranch.words ++ Else.words v.elseBranch) ++ ws)) :
    (conditional R origin).Ensures s (fun u t =>
      (Clean v.visits ∧ u.rename .bare = (Statement.conditional v).rename .bare ∧ t.Holds ws) ∨
        (¬Clean v.visits ∧ t.Stuck)) (¬Clean v.visits) := by
  obtain ⟨token, test, thenBranch, elseBranch⟩ := v
  obtain ⟨htest, hthen, helse, hadmits⟩ := hf
  have hclean : Clean (If.visits ⟨token, test, thenBranch, elseBranch⟩) ↔
      Clean test.visits ∧ Clean thenBranch.visits ∧
        Clean (OptionalStatement.visits elseBranch) := by
    simp [If.visits, Visit.isCaptured]
  rw [hclean]
  simp only [List.append_assoc] at h
  have hhead := thenBranch.headKind_words (Else.words elseBranch ++ ws)
  refine follow (hR.predicate ⟨htest, Kind.endsPredicate_of_endsClauses hhead.1⟩ h) And.left
    fun test' t hct htest' => ?_
  have hnext : thenBranch.Admits (Word.headKind (Else.words elseBranch ++ ws)) := by
    cases elseBranch with
    | none => exact ha.2
    | some branch => exact hadmits rfl
  refine follow_stuck (hR.statement ⟨⟨hthen, hnext⟩, Else.headKind _ hk⟩ htest'.2)
    (fun hc => hc.2.1) (fun then' t hch hthen' => ?_) fun then' t hn ht => ?_
  · cases elseBranch with
    | none =>
        have hne : t.current.kind ≠ .keyword .ELSE := by
          rw [hthen'.2.kind]
          exact ha.1
        refine eat_miss hne ?_
        refine Ensures.pure (.inl ⟨⟨hct, hch, clean_nil⟩, ?_, hthen'.2⟩)
        rw [Statement.rename, Statement.rename, If.rename, If.rename, htest'.1, hthen'.1]
    | some branch =>
        refine holds_eat hthen'.2 rfl fun u hu => ?_
        refine follow_stuck (hR.statement ⟨⟨helse, ha⟩, hk⟩ hu) (fun hc => hc.2.2)
          (fun else' t hce helse' => Ensures.pure (.inl ⟨⟨hct, hch, hce⟩, ?_, helse'.2⟩))
          fun else' t hn ht => Ensures.pure (.inr ⟨hn, ht⟩)
        rw [Statement.rename, Statement.rename, If.rename, If.rename, htest'.1, hthen'.1,
          OptionalStatement.rename, OptionalStatement.rename, helse'.1]
  · refine eat_miss (ht.ne rfl) ?_
    exact Ensures.pure (.inr ⟨hn, ht⟩)

theorem holds_repeated (hR : R.Complete) (origin : Token) {v : While} (hf : v.Formed)
    (ha : v.Admits (Word.headKind ws)) (hk : (Word.headKind ws).endsClauses = true)
    (h : s.Holds (v.test.words ++ v.body.words ++ ws)) :
    (repeated R origin).Ensures s (fun u t =>
      (Clean v.visits ∧ u.rename .bare = (Statement.loop v).rename .bare ∧ t.Holds ws) ∨
        (¬Clean v.visits ∧ t.Stuck)) (¬Clean v.visits) := by
  obtain ⟨token, test, body⟩ := v
  have hclean : Clean (While.visits ⟨token, test, body⟩) ↔
      Clean test.visits ∧ Clean body.visits := by simp [While.visits, Visit.isCaptured]
  rw [hclean]
  rw [List.append_assoc] at h
  have hhead := body.headKind_words ws
  refine follow (hR.predicate ⟨hf.1, Kind.endsPredicate_of_endsClauses hhead.1⟩ h) And.left
    fun test' t hct htest' => ?_
  refine follow_stuck (hR.statement ⟨⟨hf.2, ha⟩, hk⟩ htest'.2) And.right
    (fun body' t hcb hbody' => Ensures.pure (.inl ⟨⟨hct, hcb⟩, ?_, hbody'.2⟩))
    fun body' t hn ht => Ensures.pure (.inr ⟨hn, ht⟩)
  rw [Statement.rename, Statement.rename, While.rename, While.rename, htest'.1, hbody'.1]

/-- The statements of a block behind those in `us`. Where a statement is stuck, no other begins, and
neither does `END`. -/
theorem many_statements (hR : R.Complete) {body us : List Statement}
    (hf : Statements.Formed body)
    (h : s.Holds (Statements.words body ++ Word.keyword .END :: ws)) :
    Ensures (many (fun k => k = .keyword .END || k = .eof) R.statement R.shrinks us) s
      (fun xs t => Clean (Statements.visits body) ∧
        Statements.rename .bare xs = Statements.rename .bare us ++ Statements.rename .bare body ∧
        t.Holds (Word.keyword .END :: ws)) (¬Clean (Statements.visits body)) := by
  induction body generalizing us s with
  | nil =>
      refine many_stop ?_ ⟨clean_nil, by simp [Statements.rename], h⟩
      rw [h.kind]
      rfl
  | cons v body ih =>
      have hclean : Clean (Statements.visits (v :: body)) ↔
          Clean v.visits ∧ Clean (Statements.visits body) := by simp [Statements.visits]
      rw [hclean]
      rw [Statements.words, List.append_assoc] at h
      obtain ⟨-, hend, heof⟩ := v.headKind_words (Statements.words body ++ Word.keyword .END :: ws)
      have hnext : v.Admits (Word.headKind (Statements.words body ++ Word.keyword .END :: ws)) ∧
          (Word.headKind (Statements.words body ++ Word.keyword .END :: ws)).endsClauses =
            true := by
        cases body with
        | nil => exact ⟨v.admits_of_ne (k := .keyword .END) (by decide) (by decide), rfl⟩
        | cons x body =>
            have ha := hf.2.1
            rw [Statements.words, Word.headKind_append x.words_ne_nil] at ha
            rw [Statements.words, List.append_assoc]
            refine ⟨?_, (x.headKind_words _).1⟩
            rwa [Word.headKind_append x.words_ne_nil]
      refine many_step (by rw [h.kind]; simp [hend, heof]) ?_
      refine (hR.statement ⟨⟨hf.1, hnext.1⟩, hnext.2⟩ h).mono ?_ (mt And.left)
      rintro x t (⟨hc, hx, ht⟩ | ⟨hn, ht⟩)
      · refine (ih hf.2.2 ht).mono ?_ (mt And.right)
        rintro xs u ⟨hcs, hxs, hu⟩
        refine ⟨⟨hc, hcs⟩, ?_, hu⟩
        rw [hxs, Statements.rename_eq, List.map_append, List.append_assoc, List.map_singleton, hx,
          Statements.rename_eq _ us]
        rfl
      · -- the block goes on where its statement is stuck, and there no statement begins
        refine many_step ?_ ((hR.stuck ht).mono (fun _ _ => False.elim) fun _ => mt And.left hn)
        have hne : t.current.kind ≠ .keyword .END := ht.ne rfl
        have hne' : t.current.kind ≠ .eof := ht.ne rfl
        simp [hne, hne']

theorem holds_block (hR : R.Complete) (origin : Token) {v : Block} (hf : v.Formed)
    (h : s.Holds (Statements.words v.body ++ [Word.keyword .END] ++ ws)) :
    (block R origin).Ensures s (fun u t =>
      Clean v.visits ∧ u.rename .bare = (Statement.block v).rename .bare ∧ t.Holds ws)
      (¬Clean v.visits) := by
  obtain ⟨token, body⟩ := v
  have hclean : Clean (Block.visits ⟨token, body⟩) ↔ Clean (Statements.visits body) := by
    simp [Block.visits, Visit.isCaptured]
  rw [hclean]
  rw [List.append_assoc, List.singleton_append] at h
  refine follow (many_statements hR hf h) id fun body' t hc hbody' => ?_
  refine (holds_expect hbody'.2 rfl).bind fun _ u hu => Ensures.pure ⟨hc, ?_, hu⟩
  rw [Statement.rename, Statement.rename, Block.rename, Block.rename, hbody'.1, Statements.rename,
    List.nil_append]

theorem statement_stuck (h : s.Stuck) : (statement R).Ensures s (fun _ _ => False) True := by
  intro hs
  rw [Stream.Stuck] at h
  simp only [statement]
  split <;> first | trivial | (rename_i hk; rw [hk] at h; cases h)

theorem holds_statement (k : Kind) {w : Word} {vs : List Word} {f : Token → Rule n Statement}
    {post : Statement → Stream → Prop} (h : s.Holds (w :: vs)) (hw : w.1 = k)
    (hrule : s.current.kind = k → ∀ hs, statement R s hs = take f s hs)
    (hf : ∀ t, t.Holds vs → (f s.current).Ensures t post fault) :
    (statement R).Ensures s post fault := by
  intro hs
  rw [hrule (h.kind.trans hw) hs]
  exact holds_take h hf hs

theorem sticks_statement (hR : R.Complete) :
    (statement R).Sticks (fun v k => (v.Formed ∧ v.Admits k) ∧ k.endsClauses = true)
      Statement.words (fun v => Clean v.visits) (Statement.rename .bare) := by
  rintro v ws s ⟨⟨hf, ha⟩, hk⟩ h
  dsimp only at h ha hk ⊢
  have hend (b : Bool) := endsClauses_terminator b hk
  cases v with
  | select v =>
      obtain ⟨rest, hw⟩ := v.exists_words_eq
      rw [Statement.words, hw, List.cons_append, List.append_assoc] at h
      exact holds_statement (.keyword .SELECT) h rfl
        (fun hkind hs => by simp only [statement, hkind]; rfl)
        fun t ht => holds_terminated rfl ha (holds_selectBody hR _ hf (hend _) hw ht)
  | insertValues v =>
      simp only [Statement.words, InsertValues.words, List.cons_append, List.append_assoc] at h
      exact holds_statement (.keyword .INSERT) h rfl
        (fun hkind hs => by simp only [statement, hkind]; rfl)
        fun t ht => holds_terminated rfl ha (holds_insertValues hR _ hf (hend _) ht)
  | insertSelect v =>
      simp only [Statement.words, InsertSelect.words, List.cons_append, List.append_assoc] at h
      exact holds_statement (.keyword .INSERT) h rfl
        (fun hkind hs => by simp only [statement, hkind]; rfl)
        fun t ht => holds_terminated rfl ha (holds_insertSelect hR _ hf (hend _) ht)
  | update v =>
      simp only [Statement.words, Update.words, List.cons_append, List.append_assoc] at h
      exact holds_statement (.keyword .UPDATE) h rfl
        (fun hkind hs => by simp only [statement, hkind]; rfl)
        fun t ht => holds_terminated rfl ha (holds_update hR _ hf (hend _) ht)
  | delete v =>
      simp only [Statement.words, Delete.words, List.cons_append, List.append_assoc] at h
      exact holds_statement (.keyword .DELETE) h rfl
        (fun hkind hs => by simp only [statement, hkind]; rfl)
        fun t ht => holds_terminated rfl ha (holds_delete hR _ hf (hend _) ht)
  | conditional v =>
      rw [Statement.words, v.words_eq, List.cons_append] at h
      exact holds_statement (.keyword .IF) h rfl
        (fun hkind hs => by simp only [statement, hkind])
        fun t ht => holds_conditional hR _ hf ha hk ht
  | loop v =>
      rw [Statement.words, v.words_eq, List.cons_append] at h
      exact holds_statement (.keyword .WHILE) h rfl
        (fun hkind hs => by simp only [statement, hkind])
        fun t ht => holds_repeated hR _ hf ha hk ht
  | block v =>
      rw [Statement.words, v.words_eq, List.cons_append] at h
      exact holds_statement (.keyword .BEGIN) h rfl
        (fun hkind hs => by simp only [statement, hkind])
        fun t ht => (holds_block hR _ hf ht).imp fun _ _ => .inl
  | empty v =>
      have hclean : Clean (Statement.empty v).visits := by
        simp [Statement.visits, Visit.isCaptured]
      refine holds_statement (.mark .semicolon) h rfl
        (fun hkind hs => by simp only [statement, hkind]; rfl) fun t ht => ?_
      refine Ensures.pure (.inl ⟨hclean, ?_, ht⟩)
      rw [Statement.rename, Statement.rename, show v.terminated = true from hf]

/-- The rules of the grammar read every well-formed tree back from its words, unless a column in it
is captured. -/
theorem rules_complete (n : Nat) : (rules n).Complete := by
  induction n with
  | zero =>
      have hnone {α : Type} {p : Rule 0 α} {s : Stream} {post : α → Stream → Prop} {fault : Prop} :
          p.Ensures s post fault := fun hs => absurd hs (Nat.not_lt_zero _)
      exact ⟨fun _ _ _ _ _ => hnone, fun _ _ _ _ _ => hnone, fun _ _ _ _ _ => hnone,
        fun _ _ _ _ _ => hnone, fun _ _ _ _ _ => hnone, fun _ _ _ _ _ => hnone,
        fun _ _ _ _ _ => hnone, fun _ _ => hnone⟩
  | succ n ih =>
      -- The primary rules come first: expressions and predicates begin with them on the same
      -- stream.
      have hprimary := replays_primary ih
      have hpredicate := replays_predicatePrimary ih
      rw [← primary_rules_succ] at hprimary
      rw [← predicatePrimary_rules_succ] at hpredicate
      refine ⟨hprimary, ?_, hpredicate, ?_, ?_, ?_, ?_, ?_⟩
      · rw [expression_rules]
        exact replays_expression hprimary
      · rw [predicate_rules]
        exact replays_predicate hpredicate
      · rw [parenthesized_rules_succ]
        exact replays_parenthesized ih
      · rw [select_rules_succ]
        exact sticks_select ih
      · rw [statement_rules_succ]
        exact sticks_statement ih
      · rw [statement_rules_succ]
        exact fun _ hs => statement_stuck hs

end Grammar

end Transact
