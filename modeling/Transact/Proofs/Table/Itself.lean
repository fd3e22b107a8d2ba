import Transact.Proofs.Sound.Shape
import Transact.Proofs.Table.Hits
import Transact.Proofs.Table.Pattern

namespace Transact

namespace Text

theorem mem_dropWhile {p : Char → Bool} {c : Char} (hc : p c = false) {text : List Char} :
    c ∈ text.dropWhile p ↔ c ∈ text := by
  constructor
  · exact fun h => (List.dropWhile_sublist p).mem h
  · intro h
    rw [← List.takeWhile_append_dropWhile (p := p) (l := text)] at h
    obtain h | h := List.mem_append.1 h
    · exact absurd (List.all_eq_true.1 List.all_takeWhile c h) (by simp [hc])
    · exact h

theorem toLower_eq_point {c : Char} : c.toLower = '.' ↔ c = '.' := by
  have hpoint : '.'.toNat = 46 := rfl
  rw [← Char.toNat_inj, ← Char.toNat_inj, toNat_toLower, hpoint]
  split <;> omega

/-- The form in which parts are compared has the points of the part. -/
theorem point_mem_compared {part : String} :
    '.' ∈ (lower (undelimited part)).toList ↔ '.' ∈ part.toList := by
  have hlower (text : List Char) : '.' ∈ text.map Char.toLower ↔ '.' ∈ text := by
    simp only [List.mem_map, toLower_eq_point, exists_eq_right]
  rw [lower, undelimited, String.toList_ofList, String.toList_ofList, hlower, List.mem_reverse,
    mem_dropWhile (by decide), List.mem_reverse, mem_dropWhile (by decide)]

end Text

namespace TablePattern

theorem dropDefaultSchema_subset (parts : List String) : dropDefaultSchema parts ⊆ parts := by
  intro part h
  rw [dropDefaultSchema] at h
  split at h
  · rename_i object schema outer hparts
    split at h
    · rw [← List.mem_reverse, hparts]
      rw [List.mem_reverse] at h
      rcases List.mem_cons.1 h with rfl | h
      · exact List.mem_cons_self ..
      · exact List.mem_cons_of_mem _ (List.mem_cons_of_mem _ h)
    · exact h
  · exact h

theorem mem_dropDefaultSchema {parts : List String} {part : String} (h : part ∈ parts)
    (hne : part ≠ "") (hdbo : part ≠ "dbo") : part ∈ dropDefaultSchema parts := by
  rw [dropDefaultSchema]
  split
  · rename_i object schema outer hparts
    split
    · rename_i hschema
      rw [← List.mem_reverse, hparts] at h
      rw [List.mem_reverse]
      rcases List.mem_cons.1 h with rfl | h
      · exact List.mem_cons_self ..
      · rcases List.mem_cons.1 h with rfl | h
        · exact absurd hschema (not_or.2 ⟨hne, hdbo⟩)
        · exact List.mem_cons_of_mem _ h
    · exact h
  · exact h

variable {r : Reference}

theorem exists_of_mem_normalized {part : String} (h : part ∈ normalized r) :
    ∃ p ∈ r.parts, Text.lower (Text.undelimited p) = part :=
  List.mem_map.1 (dropDefaultSchema_subset _ h)

/-- A part with a point is compared. -/
theorem mem_normalized {part : String} (h : part ∈ r.parts) (hpoint : '.' ∈ part.toList) :
    Text.lower (Text.undelimited part) ∈ normalized r := by
  have hcompared := Text.point_mem_compared.2 hpoint
  refine mem_dropDefaultSchema (List.mem_map_of_mem h) ?_ ?_ <;> intro he <;> rw [he] at hcompared
  · cases hcompared
  · exact absurd hcompared (by decide)

theorem parts_ofDotted_identifier (hne : r.parts ≠ []) (h : ∀ part ∈ r.parts, '.' ∉ part.toList) :
    (Reference.ofDotted r.identifier).parts = r.parts := by
  have hmap : r.parts.map String.toList ≠ [] := by simpa using hne
  have hpoints : ∀ part ∈ r.parts.map String.toList, '.' ∉ part := by
    intro part hpart
    obtain ⟨p, hp, rfl⟩ := List.mem_map.1 hpart
    exact h p hp
  rw [Reference.ofDotted, Reference.identifier, String.toList_ofList,
    Text.splitDots_joinDots hmap hpoints, List.map_map]
  simp

/-- A name is found by what it is written as if and only if no part of it has a point. -/
theorem ofName_identifier_accepts_iff (hne : r.parts ≠ []) :
    (ofName r.identifier).accepts r = true ↔ ∀ part ∈ r.parts, '.' ∉ part.toList := by
  rw [ofName, accepts, beq_iff_eq]
  constructor
  · intro h part hpart hpoint
    have hmem := mem_normalized hpart hpoint
    rw [h] at hmem
    obtain ⟨p, hp, hcompared⟩ := exists_of_mem_normalized hmem
    obtain ⟨text, htext, rfl⟩ := List.mem_map.1 hp
    have hpoint' := Text.point_mem_compared.2 hpoint
    rw [← hcompared, Text.point_mem_compared, String.toList_ofList] at hpoint'
    exact Text.not_mem_of_mem_splitDots htext hpoint'
  · intro h
    rw [normalized, normalized, parts_ofDotted_identifier hne h]

end TablePattern

def Visit.heldName? : Visit → Option Reference
  | reference name => some name
  | expression (.call _ function _) => some function
  | _ => none

theorem Visit.Shaped.isNamed {v : Visit} {r : Reference} (h : v.Shaped)
    (hr : v.heldName? = some r) : r.IsNamed := by
  cases v
  case reference name =>
    cases hr
    exact h
  case expression e =>
    cases e <;> cases hr
    exact h
  all_goals cases hr

theorem Visit.reference?_eq_some {v : Visit} {r : Reference} :
    v.reference? = some r ↔ v = .reference r := by
  cases v <;> simp [reference?]

theorem TableUse.Report.mem_visits {uses : List TableUse} {visits : List Visit} {u : TableUse}
    (h : Report uses visits) (hu : u ∈ uses) : .reference u.table ∈ visits := by
  have hreported : u.table ∈ reported uses + Visit.unread visits :=
    Multiset.mem_add.2 (.inl (Multiset.mem_coe.2 (List.mem_map_of_mem hu)))
  rw [h.total] at hreported
  have hname := Multiset.mem_coe.1 (Multiset.mem_of_le h.le hreported)
  obtain ⟨v, hv, hr⟩ := List.mem_filterMap.1 hname
  rw [Visit.reference?_eq_some.1 hr] at hv
  exact hv

/-- A name that a tree holds, of a called function too, matches the name that it is written as if
and only if no part of it has a point. So a hit is found again by the table that it shows if and
only if no part of the name at the hit has a point. -/
theorem findTables_itself {source : String} {vs : List Statement} (h : parse source = .ok vs) :
    (∀ v ∈ Statements.visits vs, ∀ r, v.heldName? = some r →
      ((TablePattern.ofName r.identifier).accepts r = true ↔
        ∀ part ∈ r.parts, '.' ∉ part.toList)) ∧
    ∀ q, ∀ hit ∈ findTables q vs, ∃ r, .reference r ∈ Statements.visits vs ∧ hit.Shows r ∧
      (hit ∈ findTables ⟨.ofName hit.table, []⟩ vs ↔ ∀ part ∈ r.parts, '.' ∉ part.toList) := by
  have hiff : ∀ v ∈ Statements.visits vs, ∀ r, v.heldName? = some r →
      ((TablePattern.ofName r.identifier).accepts r = true ↔
        ∀ part ∈ r.parts, '.' ∉ part.toList) := by
    intro v hv r hr
    obtain ⟨-, -, hf, -⟩ := parse_sound h
    obtain ⟨part, hpart, -⟩ := (Statements.formed_visits hf v hv).shaped.isNamed hr
    exact TablePattern.ofName_identifier_accepts_iff (List.ne_nil_of_mem hpart)
  refine ⟨hiff, fun q hit hhit => ?_⟩
  obtain ⟨u, hu, -, rfl⟩ := mem_findTables.1 hhit
  have hmem := (Statements.report vs).mem_visits hu
  refine ⟨u.table, hmem, u.hit_shows, ?_⟩
  rw [← hiff _ hmem _ rfl, mem_findTables]
  constructor
  · rintro ⟨w, hw, hwants, he⟩
    have hposition : w.table.position = u.table.position := congrArg Hit.position he
    rw [(Statements.report vs).use_unique (parse_names_nodup h) hw hu hposition] at hwants
    exact (Bool.and_eq_true_iff.1 hwants).2
  · intro haccepts
    exact ⟨u, hu, Bool.and_eq_true_iff.2 ⟨rfl, haccepts⟩, rfl⟩

/-- A table of another database is found by a shorter name and found again by what the hit shows. -/
theorem findTables_itself_database : ∃ vs hit, parse "SELECT 1 FROM [X y]..Orders" = .ok vs ∧
    hit ∈ findTables ⟨.ofName "\"x y\".orders", []⟩ vs ∧
    hit ∈ findTables ⟨.ofName hit.table, []⟩ vs := by
  obtain ⟨q, hq⟩ : ∃ q, SearchQuery.mk (.ofName "\"x y\".orders") [] = q := ⟨_, rfl⟩
  obtain ⟨vs, hvs, h⟩ := exists_of_parse "SELECT 1 FROM [X y]..Orders"
    (fun vs => !(findTables q vs).isEmpty && (Statements.visits vs).all fun v =>
      v.reference?.all fun r => r.parts.all fun part => !part.toList.contains '.')
    (by subst hq; decide +kernel)
  simp only [Bool.and_eq_true, Bool.not_eq_true', List.isEmpty_eq_false_iff, List.all_eq_true,
    Option.all_eq_true] at h
  obtain ⟨hit, hhit⟩ := List.exists_mem_of_ne_nil _ h.1
  obtain ⟨r, hr, -, hiff⟩ := (findTables_itself hvs).2 q hit hhit
  rw [hq]
  refine ⟨vs, hit, hvs, hhit, hiff.2 fun part hpart => ?_⟩
  simpa using h.2 _ hr r rfl part hpart

/-- A name with a point inside its brackets does not find itself. An expression finds it, and the
search for the table that the hit shows finds nothing. -/
theorem findTables_itself_missed : ∃ vs p hit, parse "SELECT 1 FROM [a.b]" = .ok vs ∧
    (∃ r, .reference r ∈ Statements.visits vs ∧
      (TablePattern.ofName r.identifier).accepts r = false) ∧
    TablePattern.ofRegex? "a" = some p ∧ hit ∈ findTables ⟨p, []⟩ vs ∧
    findTables ⟨.ofName hit.table, []⟩ vs = [] := by
  obtain ⟨vs, hvs, h⟩ := exists_of_parse "SELECT 1 FROM [a.b]"
    (fun vs => ((Statements.visits vs).any fun v => v.reference?.any fun r =>
        !(TablePattern.ofName r.identifier).accepts r) &&
      (TablePattern.ofRegex? "a").any fun p => (findTables ⟨p, []⟩ vs).any fun hit =>
        (findTables ⟨.ofName hit.table, []⟩ vs).isEmpty) (by decide +kernel)
  simp only [Bool.and_eq_true, List.any_eq_true, Option.any_eq_true, Bool.not_eq_true',
    List.isEmpty_iff, Visit.reference?_eq_some] at h
  obtain ⟨⟨v, hv, r, rfl, hr⟩, p, hp, hit, hhit, hempty⟩ := h
  exact ⟨vs, p, hit, hvs, ⟨r, hv, hr⟩, hp, hhit, hempty⟩

end Transact
