import Transact.Proofs.Table.Qualified

namespace Transact

/-- Two spellings of a name, whatever the case and the delimiters. -/
def Text.sameName (a b : String) : Bool := sameWord (undelimited a) (undelimited b)

namespace JoinedChange

def TargetsEntry (c : JoinedChange) : Prop :=
  c.target.isSingle = true ∧ Sources.HasName Text.sameName c.sources c.target.objectName

instance (c : JoinedChange) : Decidable c.TargetsEntry :=
  inferInstanceAs (Decidable (_ ∧ _))

end JoinedChange

namespace Visit

variable {v : Visit} {c : JoinedChange}

theorem ne_reference_of_joinedChange (hc : v.joinedChange? = some c) (name : Reference) :
    v ≠ .reference name := by
  rintro rfl
  cases hc

theorem joinedChange?_rename (m : Renaming) (hc : v.joinedChange? = some c) :
    ∃ c', (v.rename m).joinedChange? = some c' ∧ c'.context = c.context ∧
      c'.target = m.changed c.sources c.target := by
  cases v <;> simp only [joinedChange?, Option.some.injEq, reduceCtorEq] at hc
  all_goals
    subst hc
    exact ⟨_, rfl, rfl, rfl⟩

end Visit

theorem Renaming.changed_ofSchema_eq_iff {schema : String} {sources : List Source}
    {target : Reference} : (ofSchema schema).changed sources target = target ↔
      ¬ target.TakesSchema ∨ Sources.HasName Text.sameWord sources target.objectName := by
  by_cases h : Sources.HasName Text.sameWord sources target.objectName
  · simp [changed_of_hasName h, h]
  · simp [changed_of_not_hasName h, h, Reference.qualified_eq_self_iff]

/-- The target of a change is left as it is if and only if it takes no schema or it is the name of
an entry of the `FROM` list as written, up to the case. -/
theorem qualifyTables_target_eq_iff (schema : String) {statements : List Statement} {i : Nat}
    {v : Visit} {c : JoinedChange} (hv : (Statements.visits statements)[i]? = some v)
    (hc : v.joinedChange? = some c) :
    ∃ v' c', (Statements.visits (qualifyTables schema statements).1)[i]? = some v' ∧
      v'.joinedChange? = some c' ∧ c'.context = c.context ∧
      (c'.target = c.target ↔ ¬ c.target.TakesSchema ∨
        Sources.HasName Text.sameWord c.sources c.target.objectName) := by
  have haligned := Statements.aligned (m := .ofSchema schema) statements
  have hv' := haligned.getElem?_eq hv (Visit.ne_reference_of_joinedChange hc)
  obtain ⟨c', hc', hcontext, htarget⟩ := Visit.joinedChange?_rename (.ofSchema schema) hc
  rw [qualifyTables_eq]
  refine ⟨_, c', hv', hc', hcontext, ?_⟩
  rw [htarget]
  exact Renaming.changed_ofSchema_eq_iff

/-- The target of a deletion that names the second entry of its list, in a branch. -/
theorem qualifyTables_target_eq_iff_branch : ∃ vs v c v' c',
    parse "if a = 1 delete top (2) [O] from t cross join orders as [o]" = .ok vs ∧
      (Statements.visits vs)[5]? = some v ∧ v.joinedChange? = some c ∧
      (Statements.visits (qualifyTables "dbo" vs).1)[5]? = some v' ∧
      v'.joinedChange? = some c' ∧ c'.context = c.context ∧
      (c'.target = c.target ↔ ¬ c.target.TakesSchema ∨
        Sources.HasName Text.sameWord c.sources c.target.objectName) := by
  obtain ⟨vs, hvs, h⟩ := exists_of_parse
    "if a = 1 delete top (2) [O] from t cross join orders as [o]"
    (fun vs => (Statements.visits vs)[5]?.any fun v => v.joinedChange?.isSome) (by decide +kernel)
  simp only [Option.any_eq_true, Option.isSome_iff_exists] at h
  obtain ⟨v, hv, c, hc⟩ := h
  obtain ⟨v', c', hv', hc', hcontext, htarget⟩ := qualifyTables_target_eq_iff "dbo" hv hc
  exact ⟨vs, v, c, v', c', hvs, hv, hc, hv', hc', hcontext, htarget⟩

/-- A target that names an entry in another spelling, without the brackets around its alias, gets
the schema. -/
theorem qualifyTables_target_changed : ∃ vs v c v' c',
    parse "UPDATE o SET a = 1 FROM orders [o]" = .ok vs ∧
      (Statements.visits vs)[0]? = some v ∧ v.joinedChange? = some c ∧ c.TargetsEntry ∧
      (Statements.visits (qualifyTables "dbo" vs).1)[0]? = some v' ∧
      v'.joinedChange? = some c' ∧ c'.target ≠ c.target := by
  obtain ⟨vs, hvs, h⟩ := exists_of_parse "UPDATE o SET a = 1 FROM orders [o]"
    (fun vs => (Statements.visits vs)[0]?.any fun v => v.joinedChange?.any fun c =>
      c.TargetsEntry && (Statements.visits (Statements.rename (.ofSchema "dbo") vs))[0]?.any
        fun v' => v'.joinedChange?.any fun c' => c'.target ≠ c.target) (by decide +kernel)
  rw [show Statements.rename (.ofSchema "dbo") vs = (qualifyTables "dbo" vs).1 by
    rw [qualifyTables_eq]] at h
  simp only [Option.any_eq_true, Bool.and_eq_true, decide_eq_true_eq] at h
  obtain ⟨v, hv, c, hc, hentry, v', hv', c', hc', htarget⟩ := h
  exact ⟨vs, v, c, v', c', hvs, hv, hc, hentry, hv', hc', htarget⟩

end Transact
