import Transact.Proofs.Grammar.Fixpoint
import Transact.Proofs.Sound.Predicate

namespace Transact

def Statement.awaitsTerminator : Statement → Bool
  | .select s => !s.terminated
  | .insertValues s => !s.terminated
  | .insertSelect s => !s.terminated
  | .update s => !s.terminated
  | .delete s => !s.terminated
  | _ => false

namespace Statement

variable {s : Statement} (b : Bool)

theorem words_withTerminator (h : s.awaitsTerminator = true) :
    (s.withTerminator b).words = s.words ++ Word.terminator b := by
  cases s with
  | select s =>
      obtain ⟨_, _, _, _, _, terminated⟩ := s
      cases terminated
      · simp [withTerminator, words, Select.words, Word.terminator]
      · cases h
  | insertValues s =>
      have ht : s.terminated = false := by simpa [awaitsTerminator] using h
      simp [withTerminator, words, InsertValues.words, Word.terminator, ht]
  | insertSelect s =>
      have ht : s.terminated = false := by simpa [awaitsTerminator] using h
      simp [withTerminator, words, InsertSelect.words, Word.terminator, ht]
  | update s =>
      have ht : s.terminated = false := by simpa [awaitsTerminator] using h
      simp [withTerminator, words, Update.words, Word.terminator, ht]
  | delete s =>
      have ht : s.terminated = false := by simpa [awaitsTerminator] using h
      simp [withTerminator, words, Delete.words, Word.terminator, ht]
  | _ => cases h

theorem Formed.withTerminator (hs : s.Formed) (h : s.awaitsTerminator = true) :
    (s.withTerminator b).Formed := by
  cases s with
  | select s =>
      obtain ⟨_, _, _, _, _, _⟩ := s
      exact hs
  | insertValues s => exact ⟨hs.top, hs.target, hs.columns, hs.rows_ne_nil, hs.rows⟩
  | insertSelect s => exact ⟨hs.top, hs.target, hs.columns, hs.select, hs.unterminated⟩
  | update s => exact ⟨hs.top, hs.admits, hs.target, hs.assignments_ne_nil, hs.assignments,
      hs.areAssignments, hs.sources, hs.joined, hs.filter⟩
  | delete s => exact ⟨hs.top, hs.target, hs.sources, hs.joined, hs.filter⟩
  | _ => cases h

theorem admits_withTerminator (h : s.awaitsTerminator = true) {k : Kind}
    (hk : b = true ∨ k ≠ .mark .semicolon) : (s.withTerminator b).Admits k := by
  cases s <;> first | exact hk | cases h

end Statement

namespace Grammar

open Rule Rule.Ensures

variable {n : Nat} {s t : Stream} {m : Multiset Word} {R : Rules n}

theorem accounts_insertColumns : (insertColumns : Rule n (List Reference)).Accounts
    (fun _ cs _ => ∀ c ∈ cs, c.Formed) Word.columns := by
  intro s t m h
  refine (spend_eat (.mark .leftParen) rfl h).bind fun found u hu => ?_
  obtain ⟨rfl, hu⟩ | ⟨rfl, rfl, -⟩ := hu
  · have hitem := accounts_reference (n := n).imp fun _ _ _ hr => hr.1
    refine (accounts_commaSeparated hitem hu).bind fun columns v hv => ?_
    obtain ⟨⟨hne, hall⟩, hv⟩ := hv
    refine spend_close hv fun w hw => Ensures.pure ⟨hall, ?_⟩
    rwa [Word.columns, if_neg hne]
  · exact Ensures.pure ⟨by simp, h.cast (by simp [Word.columns])⟩

theorem accounts_row (hR : R.Sound) :
    (row R).Accounts (fun _ r _ => r.Formed) Row.words := by
  intro s t m h
  refine (spend_expect (.mark .leftParen) rfl h).bind fun origin u hu => ?_
  have hitem := hR.expression.imp fun _ _ _ he => he.1
  refine (accounts_commaSeparated hitem hu).bind fun values v hv => ?_
  obtain ⟨⟨hne, hall⟩, hv⟩ := hv
  refine spend_close hv fun w hw =>
    Ensures.pure ⟨⟨hne, (Expressions.formed_iff values).2 hall⟩, ?_⟩
  rwa [Row.words, Expressions.words_eq]

def IsBody (k : Keyword) (v : Statement) : Prop :=
  v.Formed ∧ v.awaitsTerminator = true ∧ Word.headKind v.words = .keyword k

theorem accounts_insert (hR : R.Sound) (origin : Token)
    (h : s.Spends t (m + Word.count (Word.keyword .INSERT))) :
    (insert R origin).Ensures t (fun v u =>
      IsBody .INSERT v ∧ s.Spends u (m + Word.bag v.words)) True := by
  refine (accounts_top hR true h).bind fun top u hu => ?_
  refine (spend_eat (.keyword .INTO) rfl hu.2).bind fun _ v hv => ?_
  have hv : s.Spends v (m + Word.count (Word.keyword .INSERT) +
      Word.bag (OptionalExpression.words .TOP top)) := by
    obtain ⟨-, hv⟩ | ⟨-, rfl, -⟩ := hv
    · exact hv.cast (by simp [Kind.word])
    · exact hu.2
  refine (accounts_reference hv).bind fun target w hw => ?_
  refine (accounts_hints false hw.2).bind fun found x hx => ?_
  refine (accounts_insertColumns hx.2).bind fun columns y hy => ?_
  refine Ensures.kind ?_
  split
  · rename_i hk
    refine (spend_advance_fixed (.keyword .VALUES) rfl hk hy.2).bind fun _ z hz => ?_
    refine (accounts_commaSeparated (accounts_row hR) hz).bind fun rows z' hz' =>
      Ensures.pure ⟨⟨?_, rfl, rfl⟩, hz'.2.cast ?_⟩
    · exact ⟨⟨hu.1.1, fun e he => hu.1.2 e he⟩, hw.1.1, hy.1, hz'.1.1, hz'.1.2⟩
    · simp only [Statement.words, InsertValues.words, Word.bag_append, Word.bag_cons,
        Word.terminator, Bool.false_eq_true, if_false, Word.bag_nil, Kind.word]
      abel
  · refine (hR.select hy.2).bind fun select z hz => Ensures.pure ⟨⟨?_, rfl, rfl⟩, hz.2.cast ?_⟩
    · exact ⟨⟨hu.1.1, fun e he => hu.1.2 e he⟩, hw.1.1, hy.1, hz.1.1, hz.1.2⟩
    · simp only [Statement.words, InsertSelect.words, Word.bag_append, Word.bag_cons,
        Word.terminator, Bool.false_eq_true, if_false, Word.bag_nil]
      abel
  · exact Ensures.expected trivial

theorem accounts_assignment (hR : R.Sound) :
    (assignment R).Accounts (fun _ c _ => c.Formed ∧ c.isAssignment = true) Column.words := by
  intro s t m h
  refine Ensures.current ?_
  refine (accounts_reference h).bind fun target u hu => ?_
  refine (spend_expect (.mark .eq) rfl hu.2).bind fun _ v hv => ?_
  refine (hR.expression hv).bind fun e w hw =>
    Ensures.pure ⟨⟨⟨hu.1.1, hw.1.1⟩, rfl⟩, hw.2.cast ?_⟩
  simp only [Column.words, Word.bag_append, Word.bag_cons, Kind.word]
  abel

theorem accounts_update (hR : R.Sound) (origin : Token)
    (h : s.Spends t (m + Word.count (Word.keyword .UPDATE))) :
    (update R origin).Ensures t (fun v u =>
      IsBody .UPDATE v ∧ s.Spends u (m + Word.bag v.words)) True := by
  refine (accounts_top hR false h).bind fun top u hu => ?_
  refine (accounts_reference hu.2).bind fun target v hv => ?_
  refine (spend_expect (.keyword .SET) rfl hv.2).bind fun _ w hw => ?_
  refine (accounts_commaSeparated (accounts_assignment hR) hw).bind fun assignments x hx => ?_
  refine (accounts_sources hR hx.2).bind fun sources y hy => ?_
  refine (accounts_filter hR hy.2).bind fun filter z hz =>
    Ensures.pure ⟨⟨?_, rfl, rfl⟩, hz.2.cast ?_⟩
  · have hhead : Word.headKind target.words = u.current.kind := by
      obtain ⟨first, rest, hwords, -⟩ := hv.1.1.head
      rw [← u.headKind_words, hv.1.2.1, Word.headKind_append (by rw [hwords]; nofun)]
    refine ⟨hu.1.1, fun e he => ?_, hv.1.1, hx.1.1, ?_, fun c hc => (hx.1.2 c hc).2, hy.1.1,
      hy.1.2, hz.1⟩
    · rw [hhead]
      exact hu.1.2 e he
    · exact (Columns.formed_iff assignments).2 fun c hc => (hx.1.2 c hc).1
  · simp only [Statement.words, Update.words, Word.bag_append, Word.bag_cons, Columns.words_eq,
      Word.terminator, Bool.false_eq_true, if_false, Word.bag_nil, Kind.word]
    abel

theorem accounts_delete (hR : R.Sound) (origin : Token)
    (h : s.Spends t (m + Word.count (Word.keyword .DELETE))) :
    (delete R origin).Ensures t (fun v u =>
      IsBody .DELETE v ∧ s.Spends u (m + Word.bag v.words)) True := by
  refine (accounts_top hR true h).bind fun top u hu => ?_
  refine (spend_eat (.keyword .FROM) rfl hu.2).bind fun _ v hv => ?_
  have hv : s.Spends v (m + Word.count (Word.keyword .DELETE) +
      Word.bag (OptionalExpression.words .TOP top)) := by
    obtain ⟨-, hv⟩ | ⟨-, rfl, -⟩ := hv
    · exact hv.cast (by simp [Kind.word])
    · exact hu.2
  refine (accounts_reference hv).bind fun target w hw => ?_
  refine (accounts_sources hR hw.2).bind fun sources y hy => ?_
  refine (accounts_filter hR hy.2).bind fun filter z hz =>
    Ensures.pure ⟨⟨?_, rfl, rfl⟩, hz.2.cast ?_⟩
  · exact ⟨⟨hu.1.1, fun e he => hu.1.2 e he⟩, hw.1.1, hy.1.1, hy.1.2, hz.1⟩
  · simp only [Statement.words, Delete.words, Word.bag_append, Word.bag_cons, Word.terminator,
      Bool.false_eq_true, if_false, Word.bag_nil]
    abel

def IsRead (first k : Kind) (v : Statement) : Prop :=
  v.Formed ∧ v.Admits k ∧ Word.headKind v.words = first

theorem accounts_terminated {body : Rule n Statement} {k : Keyword}
    (hb : body.Ensures t (fun v u => IsBody k v ∧ s.Spends u (m + Word.bag v.words)) True) :
    (terminated body).Ensures t (fun v u =>
      IsRead (.keyword k) u.current.kind v ∧ s.Spends u (m + Word.bag v.words)) True := by
  refine hb.bind fun v u hu => ?_
  obtain ⟨⟨hf, ha, hk⟩, hu⟩ := hu
  refine (spend_eat (.mark .semicolon) rfl hu).bind fun found w hw => Ensures.pure ?_
  have hkind : Word.headKind (v.withTerminator found).words = .keyword k := by
    rw [Statement.words_withTerminator _ ha, Word.headKind_append v.words_ne_nil, hk]
  rw [Statement.words_withTerminator _ ha]
  obtain ⟨rfl, hw⟩ | ⟨rfl, rfl, hne⟩ := hw
  · refine ⟨⟨hf.withTerminator _ ha, Statement.admits_withTerminator _ ha (.inl rfl), hkind⟩,
      hw.cast ?_⟩
    simp [Word.terminator, Kind.word, add_assoc]
  · refine ⟨⟨hf.withTerminator _ ha, Statement.admits_withTerminator _ ha (.inr hne), hkind⟩,
      hu.cast ?_⟩
    simp [Word.terminator]

theorem accounts_conditional (hR : R.Sound) (origin : Token)
    (h : s.Spends t (m + Word.count (Word.keyword .IF))) :
    (conditional R origin).Ensures t (fun v u =>
      IsRead (.keyword .IF) u.current.kind v ∧ s.Spends u (m + Word.bag v.words)) True := by
  refine (hR.predicate h).bind fun test u hu => ?_
  refine (hR.statement hu.2).bind fun thenBranch v hv => ?_
  obtain ⟨⟨hf, ha, -⟩, hv⟩ := hv
  have heat : (eat (.keyword .ELSE) : Rule n Bool).Ensures v (fun found w =>
      (found = true ∧ v.current.kind = .keyword .ELSE ∧
        s.Spends w (m + Word.count (Word.keyword .IF) +
        Word.bag test.words + Word.bag thenBranch.words + Word.count (Word.keyword .ELSE))) ∨
      (found = false ∧ w = v ∧ v.current.kind ≠ .keyword .ELSE)) True :=
    Ensures.eat (fun hk _ hw => .inl ⟨rfl, hk, hv.step_fixed _ rfl hk hw⟩)
      (fun hk => .inr ⟨rfl, rfl, hk⟩) fun _ _ => trivial
  refine heat.bind fun found w hw => ?_
  obtain ⟨rfl, hk, hw⟩ | ⟨rfl, rfl, hk⟩ := hw
  · refine (hR.statement hw).bind fun elseBranch x hx => Ensures.pure ⟨⟨?_, ?_, rfl⟩, hx.2.cast ?_⟩
    · exact ⟨hu.1, hf, hx.1.1, fun _ => hk ▸ ha⟩
    · exact hx.1.2.1
    · simp only [Statement.words, If.words, Else.words, Word.bag_append, Word.bag_cons]
      abel
  · refine Ensures.pure ⟨⟨⟨hu.1, hf, trivial, by simp⟩, ⟨hk, ha⟩, rfl⟩, hv.cast ?_⟩
    simp only [Statement.words, If.words, Else.words, Word.bag_append, Word.bag_cons, Word.bag_nil]
    abel

theorem accounts_repeated (hR : R.Sound) (origin : Token)
    (h : s.Spends t (m + Word.count (Word.keyword .WHILE))) :
    (repeated R origin).Ensures t (fun v u =>
      IsRead (.keyword .WHILE) u.current.kind v ∧ s.Spends u (m + Word.bag v.words)) True := by
  refine (hR.predicate h).bind fun test u hu => ?_
  refine (hR.statement hu.2).bind fun body v hv =>
    Ensures.pure ⟨⟨⟨hu.1, hv.1.1⟩, hv.1.2.1, rfl⟩, hv.2.cast ?_⟩
  simp only [Statement.words, While.words, Word.bag_append, Word.bag_cons]
  abel

theorem Statements.bag_words_concat (ss : List Statement) (v : Statement) :
    Word.bag (Statements.words (ss ++ [v])) =
      Word.bag (Statements.words ss) + Word.bag v.words := by
  simp only [Statements.words_eq, List.map_append, List.flatten_append, Word.bag_append,
    List.map_singleton, List.flatten_singleton]

theorem accounts_block (hR : R.Sound) (origin : Token)
    (h : s.Spends t (m + Word.count (Word.keyword .BEGIN))) :
    (block R origin).Ensures t (fun v u =>
      IsRead (.keyword .BEGIN) u.current.kind v ∧ s.Spends u (m + Word.bag v.words)) True := by
  refine Ensures.bind (Ensures.many (fun body u => (Statements.Formed body ∧
    ∀ last, body.getLast? = some last → last.Admits u.current.kind) ∧
    s.Spends u (m + Word.count (Word.keyword .BEGIN) + Word.bag (Statements.words body))) ?_ ?_)
    fun body u hu => ?_
  · rintro body u ⟨⟨hformed, hlast⟩, hu⟩ -
    refine (hR.statement hu).imp fun v w hv => ?_
    obtain ⟨⟨hf, ha, hk⟩, hv⟩ := hv
    refine ⟨⟨Statements.formed_concat hformed hf (hk ▸ hlast), ?_⟩, hv.cast ?_⟩
    · simp only [List.getLast?_concat]
      rintro _ ⟨⟩
      exact ha
    · rw [Statements.bag_words_concat]
      abel
  · exact ⟨⟨trivial, nofun⟩, h.cast (by simp [Statements.words])⟩
  · obtain ⟨⟨⟨hformed, -⟩, hu⟩, -⟩ := hu
    refine (spend_expect (.keyword .END) rfl hu).bind fun _ w hw =>
      Ensures.pure ⟨⟨hformed, trivial, rfl⟩, hw.cast ?_⟩
    simp only [Statement.words, Block.words, Word.bag_append, Word.bag_cons, Word.bag_nil,
      Kind.word]
    abel

theorem accounts_statement (hR : R.Sound) :
    (statement R).Accounts (fun t v u => IsRead t.current.kind u.current.kind v)
      Statement.words := by
  intro s t m h hs
  have htake {k : Kind} {f : Token → Rule n Statement} (hk : t.current.kind = k)
      (hfixed : k.isFixed = true) (hf : ∀ u, s.Spends u (m + Word.count k.word) →
        (f t.current).Ensures u (fun v w =>
          IsRead k w.current.kind v ∧ s.Spends w (m + Word.bag v.words)) True) :
      (take f).Ensures t (fun v w => IsRead t.current.kind w.current.kind v ∧
        s.Spends w (m + Word.bag v.words)) True := by
    rw [hk]
    exact Ensures.take (fun u _ hu => hf u (h.step_fixed k hfixed hk hu)) (fun _ => trivial)
      fun _ _ => trivial
  simp only [statement]
  split
  · rename_i hk
    refine htake hk rfl (fun u hu => accounts_terminated (Ensures.map ?_)) hs
    refine (accounts_selectFrom hR _ hu).imp fun v w hv => ?_
    obtain ⟨⟨hf, hterminated⟩, hw⟩ := hv
    obtain ⟨_, _, _, _, _, _⟩ := v
    exact ⟨⟨hf, by simpa [Statement.awaitsTerminator] using hterminated, rfl⟩, hw⟩
  · rename_i hk
    exact htake hk rfl (fun u hu => accounts_terminated (accounts_insert hR _ hu)) hs
  · rename_i hk
    exact htake hk rfl (fun u hu => accounts_terminated (accounts_update hR _ hu)) hs
  · rename_i hk
    exact htake hk rfl (fun u hu => accounts_terminated (accounts_delete hR _ hu)) hs
  · rename_i hk
    exact htake hk rfl (fun u hu => accounts_conditional hR _ hu) hs
  · rename_i hk
    exact htake hk rfl (fun u hu => accounts_repeated hR _ hu) hs
  · rename_i hk
    exact htake hk rfl (fun u hu => accounts_block hR _ hu) hs
  · rename_i hk
    refine htake hk rfl (fun u hu => Ensures.pure ⟨⟨rfl, trivial, rfl⟩, hu.cast ?_⟩) hs
    simp [Statement.words, Kind.word]
  · trivial

/-- What the rules read is well formed, and it is made up of the tokens that they take. -/
theorem rules_sound (n : Nat) : (rules n).Sound := by
  induction n with
  | zero =>
      have hzero {α : Type} {p : Rule 0 α} {P : Stream → α → Stream → Prop} {W : α → List Word} :
          p.Accounts P W := fun _ _ _ _ hs => absurd hs (Nat.not_lt_zero _)
      exact ⟨hzero, hzero, hzero, hzero, hzero, hzero, hzero⟩
  | succ n ih =>
      have hprimary := accounts_primary ih
      have hpredicate := accounts_predicatePrimary ih
      rw [← primary_rules_succ] at hprimary
      rw [← predicatePrimary_rules_succ] at hpredicate
      refine ⟨hprimary, ?_, hpredicate, ?_, ?_, ?_, ?_⟩
      · rw [expression_rules]
        exact accounts_expression (hprimary.imp fun _ _ _ he => he.1)
      · rw [predicate_rules]
        exact accounts_predicate hpredicate
      · rw [parenthesized_rules_succ]
        exact accounts_parenthesized ih
      · rw [select_rules_succ]
        exact accounts_select ih
      · rw [statement_rules_succ]
        exact accounts_statement ih

end Grammar

end Transact
