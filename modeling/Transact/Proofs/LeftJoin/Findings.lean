import Transact.Proofs.LeftJoin.Filtering
import Transact.Proofs.Table.Qualified
import Transact.Proofs.Table.Search

namespace Transact

/-- The entry is brought in by a `LEFT JOIN`, and it goes by a name that is the word in any case. -/
structure Source.JoinedAs (s : Source) (word name : String) : Prop where
  join_eq : s.join = .left
  goesBy : s.GoesBy name
  sameWord : Text.sameWord name word = true

/-- A name of several parts the first of which is the name of an entry of the `FROM` list that a
`LEFT JOIN` brings in. -/
def Filtering.Offends (f : Filtering) (r : Reference) : Prop :=
  ∃ word part parts, r.parts = word :: part :: parts ∧
    ∃ s ∈ f.sources, ∃ name, s.JoinedAs word name

/-- The finding is at the name and shows it, with the first of the names of entries that it begins
with. -/
structure Finding.Reports (finding : Finding) (f : Filtering) (r : Reference) : Prop where
  line_eq : finding.line = r.origin.place.line
  column_eq : finding.column = r.origin.place.column
  reference_eq : finding.reference = r.identifier
  first : ∃ word before s after, r.parts.head? = some word ∧ f.sources = before ++ s :: after ∧
    s.JoinedAs word finding.aliasName ∧ ∀ t ∈ before, ∀ name, ¬ t.JoinedAs word name

def Finding.position (f : Finding) : Nat × Nat := (f.line, f.column)

namespace Source

variable {s : Source} {word : String}

def isJoinedAs (word : String) (s : Source) : Bool :=
  s.join = .left && s.visibleName.any fun name => Text.sameWord name word

theorem isJoinedAs_iff : s.isJoinedAs word = true ↔ ∃ name, s.JoinedAs word name := by
  simp only [isJoinedAs, Bool.and_eq_true, decide_eq_true_eq, Option.any_eq_true,
    visibleName_eq_some_iff]
  constructor
  · rintro ⟨hjoin, name, hname, hsame⟩
    exact ⟨name, hjoin, hname, hsame⟩
  · rintro ⟨name, hjoin, hname, hsame⟩
    exact ⟨hjoin, name, hname, hsame⟩

end Source

/-- The first name of a joined entry that is the word is the name of the first such entry. -/
theorem Sources.find?_leftNames (sources : List Source) (word : String) :
    (leftNames sources).find? (fun name => Text.sameWord name word) =
      (sources.find? (Source.isJoinedAs word)).bind Source.visibleName := by
  rw [leftNames, List.find?_filterMap, List.find?_filter]
  simp only [decide_eq_true_eq, Bool.decide_and, Bool.decide_eq_true]
  rfl

namespace LeftJoin

variable {f : Filtering} {r : Reference}

theorem exists_finding (h : f.Offends r) :
    ∃ finding, finding? (Sources.leftNames f.sources) r = some finding ∧ finding.Reports f r := by
  obtain ⟨word, part, parts, hparts, s, hs, hname⟩ := h
  have hfind : (f.sources.find? (Source.isJoinedAs word)).isSome = true :=
    List.find?_isSome.2 ⟨s, hs, Source.isJoinedAs_iff.2 hname⟩
  obtain ⟨t, ht⟩ := Option.isSome_iff_exists.1 hfind
  obtain ⟨htrue, before, after, hsources, hbefore⟩ := List.find?_eq_some_iff_append.1 ht
  obtain ⟨name, hjoined⟩ := Source.isJoinedAs_iff.1 htrue
  have hleft : (Sources.leftNames f.sources).find? (fun name => Text.sameWord name word) =
      some name := by
    rw [Sources.find?_leftNames, ht, Option.bind_some,
      Source.visibleName_eq_some_iff.2 hjoined.goesBy]
  refine ⟨⟨r.origin.place.line, r.origin.place.column, name, r.identifier⟩, ?_, rfl, rfl, rfl,
    word, before, t, after, by rw [hparts]; rfl, hsources, hjoined, fun u hu n hn => ?_⟩
  · simp only [finding?, hparts, hleft, Option.map_some]
  · have hfalse := hbefore u hu
    rw [Source.isJoinedAs_iff.2 ⟨n, hn⟩] at hfalse
    cases hfalse

theorem finding?_eq_none (h : ¬ f.Offends r) :
    finding? (Sources.leftNames f.sources) r = none := by
  rw [finding?]
  split
  · rename_i word part parts hparts
    rw [Sources.find?_leftNames, Option.map_eq_none_iff, List.find?_eq_none.2, Option.bind_none]
    intro s hs hname
    exact h ⟨word, part, parts, hparts, s, hs, Source.isJoinedAs_iff.1 hname⟩
  · rfl

theorem isSome_finding?_iff :
    (finding? (Sources.leftNames f.sources) r).isSome = true ↔ f.Offends r := by
  constructor
  · intro h
    by_contra hoffends
    rw [finding?_eq_none hoffends] at h
    cases h
  · intro h
    obtain ⟨finding, hfinding, -⟩ := exists_finding h
    rw [hfinding]
    rfl

end LeftJoin

instance (f : Filtering) (r : Reference) : Decidable (f.Offends r) :=
  decidable_of_iff _ LeftJoin.isSome_finding?_iff

def Filtering.offences (f : Filtering) : List Reference :=
  f.references.filter fun r => f.Offends r

def Statements.offences (statements : List Statement) : List (Filtering × Reference) :=
  ((Statements.visits statements).filterMap Visit.filtering?).flatMap fun f =>
    f.offences.map fun r => (f, r)

namespace LeftJoin

/-- One finding for each offence, in the same order. -/
theorem forall₂_reports (f : Filtering) (rs : List Reference) :
    List.Forall₂ (fun finding r => finding.Reports f r)
      (rs.filterMap (finding? (Sources.leftNames f.sources)))
      (rs.filter fun r => f.Offends r) := by
  induction rs with
  | nil => exact .nil
  | cons r rs ih =>
      by_cases h : f.Offends r
      · obtain ⟨finding, hfinding, hreports⟩ := exists_finding h
        rw [List.filterMap_cons_some hfinding, List.filter_cons_of_pos (by simpa using h)]
        exact .cons hreports ih
      · rw [List.filterMap_cons_none (finding?_eq_none h),
          List.filter_cons_of_neg (by simpa using h)]
        exact ih

theorem findings_eq (sources : List Source) (filter : Option Predicate) :
    findings sources filter = (filter.map (⟨sources, ·⟩ : Predicate → Filtering)).elim [] fun f =>
      f.references.filterMap (finding? (Sources.leftNames f.sources)) := by
  cases filter with
  | none => rfl
  | some condition =>
      rw [findings, ← condition.filterNames]
      rfl

theorem check_eq (v : Visit) : check v = v.filtering?.elim [] fun f =>
    f.references.filterMap (finding? (Sources.leftNames f.sources)) := by
  cases v <;> first | rfl | exact findings_eq _ _

theorem forall₂_check (visits : List Visit) :
    List.Forall₂ (fun finding o => finding.Reports o.1 o.2) (visits.flatMap check)
      ((visits.filterMap Visit.filtering?).flatMap fun f => f.offences.map fun r => (f, r)) := by
  induction visits with
  | nil => exact .nil
  | cons v visits ih =>
      rw [List.flatMap_cons, check_eq]
      cases hv : v.filtering? with
      | none =>
          rw [List.filterMap_cons_none hv]
          exact ih
      | some f =>
          have hown : List.Forall₂ (fun finding (o : Filtering × Reference) =>
              finding.Reports o.1 o.2)
              (f.references.filterMap (finding? (Sources.leftNames f.sources)))
              (f.offences.map fun r => (f, r)) :=
            List.forall₂_map_right_iff.2 (forall₂_reports f f.references)
          rw [List.filterMap_cons_some hv, List.flatMap_cons]
          exact List.rel_append hown ih

end LeftJoin

theorem Statements.offences_sublist (statements : List Statement) :
    ((Statements.offences statements).map Prod.snd).Sublist
      (Visit.filtered (Statements.visits statements)) := by
  rw [offences, Visit.filtered, List.map_flatMap]
  refine List.Sublist.flatMap_right _ fun f _ => ?_
  have hoffences : (f.offences.map fun r => (f, r)).map Prod.snd = f.offences := by simp
  rw [hoffences]
  exact List.filter_sublist

theorem parse_offences_nodup {source : String} {vs : List Statement} (h : parse source = .ok vs) :
    ((Statements.offences vs).map fun o => o.2.position).Nodup := by
  have hle : (Visit.filtered (Statements.visits vs) : Multiset Reference) ≤
      Visit.names (Statements.visits vs) :=
    (Multiset.le_add_right _ _).trans (Statements.nested vs).filtered_add_le
  have hnodup := Multiset.nodup_of_le (Multiset.map_le_map hle) (parse_names_nodup h)
  rw [Multiset.map_coe, Multiset.coe_nodup] at hnodup
  have hoffences := hnodup.sublist ((Statements.offences_sublist vs).map Reference.position)
  rwa [List.map_map] at hoffences

/-- The findings are at the names of several parts that a walk meets in the conditions of the
statements and of all their subqueries, outside checks that ask for `NULL` and outside the
subqueries of the condition, and that begin with the name of an entry that a `LEFT JOIN` brings in;
one for each, in the order of the walk. In a parsed source no two are at one place. -/
theorem checkLeftJoins_exact (statements : List Statement) :
    List.Forall₂ (fun finding o => finding.Reports o.1 o.2) (checkLeftJoins statements)
        (Statements.offences statements) ∧
      ∀ source, parse source = .ok statements →
        ((checkLeftJoins statements).map Finding.position).Nodup := by
  have hreports := LeftJoin.forall₂_check (Statements.visits statements)
  refine ⟨hreports, fun source h => ?_⟩
  have hpositions : (checkLeftJoins statements).map Finding.position =
      (Statements.offences statements).map fun o => o.2.position := by
    rw [← List.forall₂_eq_eq_eq, List.forall₂_map_left_iff, List.forall₂_map_right_iff]
    exact hreports.imp fun finding o h => Prod.ext h.line_eq h.column_eq
  rw [hpositions]
  exact parse_offences_nodup h

/-- A deletion with a finding. The check for `NULL` is none, and neither is the name of the joined
table in a subquery. -/
theorem checkLeftJoins_exact_delete : ∃ vs,
    parse "delete t from t left join u on 1 = 1
      where u.a is null or U.b > 1 or exists (select 1 where u.c = 1)" = .ok vs ∧
    (Statements.offences vs).map (fun o => o.2.identifier) = ["U.b"] ∧
    List.Forall₂ (fun finding o => finding.Reports o.1 o.2) (checkLeftJoins vs)
      (Statements.offences vs) ∧
    ((checkLeftJoins vs).map Finding.position).Nodup := by
  obtain ⟨vs, hvs, h⟩ := exists_of_parse "delete t from t left join u on 1 = 1
      where u.a is null or U.b > 1 or exists (select 1 where u.c = 1)"
    (fun vs => (Statements.offences vs).map (fun o => o.2.identifier) = ["U.b"])
    (by decide +kernel)
  obtain ⟨hreports, hnodup⟩ := checkLeftJoins_exact vs
  exact ⟨vs, hvs, of_decide_eq_true h, hreports, hnodup _ hvs⟩

end Transact
