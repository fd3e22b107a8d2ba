import Mathlib.Data.List.Chain
import Transact.Proofs.Grammar.Fixpoint
import Transact.Proofs.Rule.Gives
import Transact.Proofs.Rule.Onward

namespace Transact

def Token.isPoint (t : Token) : Bool := t.kind = .mark .dot

def Token.dottedText (t : Token) : String := if t.isPoint then "." else t.text

/-- Points and identifiers, each identifier at the start or directly behind a point. -/
structure IsDottedRun (run : List Token) : Prop where
  kinds : ∀ t ∈ run, t.kind = .mark .dot ∨ t.kind = .identifier
  alternate : run.IsChain fun t u => u.kind = .identifier → t.kind = .mark .dot

structure IsLongestRun (run tokens : List Token) : Prop where
  start : run <+: tokens
  isRun : IsDottedRun run
  longest : ∀ other, other <+: tokens → IsDottedRun other → other.length ≤ run.length

namespace IsDottedRun

variable {run other : List Token} {t : Token}

theorem nil : IsDottedRun [] := ⟨by simp, .nil⟩

theorem of_append (h : IsDottedRun (run ++ other)) : IsDottedRun run :=
  ⟨fun t ht => h.kinds t (List.mem_append_left _ ht), (List.isChain_append.1 h.alternate).1⟩

theorem concat_iff : IsDottedRun (run ++ [t]) ↔ IsDottedRun run ∧ (t.kind = .mark .dot ∨
    t.kind = .identifier ∧ ∀ last ∈ run.getLast?, last.kind = .mark .dot) := by
  constructor
  · intro h
    obtain ⟨-, -, hlast⟩ := List.isChain_append.1 h.alternate
    refine ⟨h.of_append, (h.kinds t (by simp)).imp_right fun ht => ⟨ht, fun last hl => ?_⟩⟩
    exact hlast last hl t rfl ht
  · rintro ⟨h, ht⟩
    refine ⟨fun u hu => ?_, List.isChain_append.2 ⟨h.alternate, .singleton t, ?_⟩⟩
    · obtain hu | hu := List.mem_append.1 hu
      · exact h.kinds u hu
      · obtain rfl := List.mem_singleton.1 hu
        exact ht.imp_right And.left
    · rintro last hl _ ⟨⟩ hid
      obtain hdot | ⟨-, hall⟩ := ht
      · cases hdot.symm.trans hid
      · exact hall last hl

end IsDottedRun

/-- A run that does not go on with the token behind it is the longest one. -/
theorem IsDottedRun.isLongestRun {run rest : List Token} (h : IsDottedRun run)
    (hrest : ∀ t ∈ rest.head?, ¬IsDottedRun (run ++ [t])) : IsLongestRun run (run ++ rest) := by
  refine ⟨List.prefix_append .., h, fun other ho hrun => ?_⟩
  obtain hle | ⟨more, rfl⟩ := List.prefix_or_prefix_of_prefix ho (List.prefix_append run rest)
  · exact hle.length_le
  · obtain ⟨behind, rfl⟩ := (List.prefix_append_right_inj run).1 ho
    cases more with
    | nil => simp
    | cons t more =>
        rw [← List.singleton_append, ← List.append_assoc] at hrun
        exact absurd hrun.of_append (hrest t rfl)

theorem IsLongestRun.eq {run other tokens : List Token} (h : IsLongestRun run tokens)
    (ho : IsLongestRun other tokens) : run = other := by
  have hle := ho.longest run h.start h.isRun
  have hge := h.longest other ho.start ho.isRun
  exact (List.prefix_of_prefix_length_le h.start ho.start hle).eq_of_length
    (Nat.le_antisymm hle hge)

/-- A stretch of tokens between points stands for a part of a name. -/
inductive StandsFor : List Token → String → Prop where
  | nothing : StandsFor [] ""
  | name (t : Token) (h : t.kind = .identifier) : StandsFor [t] t.text

inductive Stream.Takes : Stream → List Token → Stream → Prop where
  | nil (s : Stream) : Takes s [] s
  | cons {s t u : Stream} {ts : List Token} (h : s.advance = .ok t) (ht : Takes t ts u) :
    Takes s (s.current :: ts) u

namespace Stream

variable {s t : Stream} {run : List Token}

theorem exists_advance_of_fault (hf : s.fault = none) :
    ∃ t, s.advance = .ok t ∧ t.fault = none := by
  rw [advance]
  split
  · exact ⟨_, rfl, hf⟩
  · rename_i hfault
    cases hf.symm.trans hfault
  · exact ⟨_, rfl, rfl⟩

theorem Takes.exists_rest (h : s.Takes run t) (hk : ∀ x ∈ run, x.kind ≠ .eof) :
    ∃ rest, s.current :: s.upcoming = run ++ rest ∧ ∀ x ∈ rest.head?, x = t.current := by
  induction h with
  | nil s => exact ⟨s.current :: s.upcoming, rfl, by simp⟩
  | @cons s t u ts h ht ih =>
      obtain ⟨rest, hrest, hhead⟩ := ih fun x hx => hk x (List.mem_cons_of_mem _ hx)
      obtain ⟨x, xs, hup, rfl⟩ | ⟨hup, -, rfl⟩ := advance_cases h
      · exact ⟨rest, by rw [hup, List.cons_append, ← hrest], hhead⟩
      · cases ht with
        | nil => exact ⟨[], by rw [hup]; rfl, by simp⟩
        | cons => exact absurd rfl (hk (.eof s.current.place) (by simp))

end Stream

namespace Grammar

open Rule

variable {n : Nat} {s t : Stream} {p : Parts} {run : List Token}

def Parts.GoesOn (p : Parts) (t : Token) : Prop :=
  t.kind = .mark .dot ∨ t.kind = .identifier ∧ p.isOpen = true

theorem Parts.GoesOn.ne_eof {x : Token} (h : p.GoesOn x) : x.kind ≠ .eof := by
  obtain h | ⟨h, -⟩ := h <;> simp [h]

/-- The parts are those that a run is read as. -/
structure Parts.Spells (p : Parts) (run : List Token) : Prop where
  isRun : IsDottedRun run
  isOpen : p.isOpen = true ↔ ∀ last ∈ run.getLast?, last.kind = .mark .dot
  isNamed : p.isNamed = true ↔ ∃ t ∈ run, t.kind = .identifier
  length : p.all.length = run.countP Token.isPoint + 1
  text : Text.joinDots (p.all.map String.toList) = run.flatMap fun t => t.dottedText.toList
  -- An open part has no tokens so far: the stretch of it is begun by what comes next.
  stretches : ∃ closed, List.Forall₂ StandsFor closed p.parts ∧
    if p.isOpen then ∀ more, (run ++ more).splitOnP Token.isPoint =
      closed ++ more.splitOnP Token.isPoint
    else run.splitOnP Token.isPoint = closed

namespace Parts

theorem Spells.start : Parts.start.Spells [] where
  isRun := .nil
  isOpen := by simp [Parts.start]
  isNamed := by simp [Parts.start]
  length := rfl
  text := rfl
  stretches := ⟨[], .nil, fun _ => rfl⟩

theorem Spells.standsFor (h : p.Spells run) :
    List.Forall₂ StandsFor (run.splitOnP Token.isPoint) p.all := by
  obtain ⟨closed, hclosed, hsplit⟩ := h.stretches
  by_cases ho : p.isOpen = true
  · rw [if_pos ho] at hsplit
    have hall := hsplit []
    rw [List.append_nil] at hall
    rw [hall, all, if_pos ho]
    exact List.rel_append hclosed (.cons .nothing .nil)
  · rw [if_neg ho] at hsplit
    rwa [hsplit, all, if_neg ho]

theorem Spells.all_ne_nil (h : p.Spells run) : p.all ≠ [] := by
  intro hnil
  have hlength := h.length
  rw [hnil] at hlength
  cases hlength

theorem Spells.add_dot {x : Token} (h : p.Spells run) (hx : x.kind = .mark .dot) :
    (p.add x).Spells (run ++ [x]) := by
  have hpoint : x.isPoint = true := by simp [Token.isPoint, hx]
  have hadd : p.add x = ⟨p.all, true, p.isNamed⟩ := if_pos hx
  have hall : (p.add x).all = p.all ++ [""] := by rw [hadd]; rfl
  refine ⟨IsDottedRun.concat_iff.2 ⟨h.isRun, .inl hx⟩, ?_, ?_, ?_, ?_, ?_⟩
  · simp [hadd, hx]
  · simp [hadd, h.isNamed, hx]
  · simp [hall, h.length, hpoint]
  · rw [hall, List.map_append, List.flatMap_append, ← h.text]
    have hne : p.all.map String.toList ≠ [] := by simpa using h.all_ne_nil
    simp [Text.joinDots_concat hne, Token.dottedText, hpoint]
  · refine ⟨run.splitOnP Token.isPoint, ?_, ?_⟩
    · rw [hadd]
      exact h.standsFor
    · rw [hadd]
      intro more
      rw [List.append_assoc, List.singleton_append]
      exact List.splitOnP_append_cons run more hpoint

theorem Spells.add_name {x : Token} (h : p.Spells run) (hx : x.kind = .identifier)
    (ho : p.isOpen = true) : (p.add x).Spells (run ++ [x]) := by
  have hdot : x.kind ≠ .mark .dot := by simp [hx]
  have hpoint : x.isPoint = false := by simp [Token.isPoint, hx]
  have hadd : p.add x = ⟨p.parts ++ [x.text], false, true⟩ := if_neg hdot
  have hall : (p.add x).all = p.parts ++ [x.text] := by rw [hadd]; rfl
  have hold : p.all = p.parts ++ [""] := if_pos ho
  refine ⟨IsDottedRun.concat_iff.2 ⟨h.isRun, .inr ⟨hx, h.isOpen.1 ho⟩⟩, ?_, ?_, ?_, ?_, ?_⟩
  · simp [hadd, hx]
  · simp [hadd, hx]
  · have hlength := h.length
    simp only [hold, List.length_append, List.length_singleton] at hlength
    simp [hall, hlength, hpoint]
  · have htext := Text.joinDots_concat_append (p.parts.map String.toList) x.text.toList
    have hpast := h.text
    rw [hold, List.map_append] at hpast
    rw [hall, List.map_append, List.flatMap_append, ← hpast]
    simpa [Token.dottedText, hpoint] using htext
  · obtain ⟨closed, hclosed, hsplit⟩ := h.stretches
    rw [if_pos ho] at hsplit
    refine ⟨closed ++ [[x]], ?_, ?_⟩
    · rw [hadd]
      exact List.rel_append hclosed (.cons (.name x hx) .nil)
    · rw [hadd]
      change (run ++ [x]).splitOnP Token.isPoint = closed ++ [[x]]
      rw [hsplit]
      simp [List.splitOnP_cons_eq_if_modifyHead, hpoint]

theorem Spells.add {x : Token} (h : p.Spells run) (hx : p.GoesOn x) :
    (p.add x).Spells (run ++ [x]) := by
  obtain hx | ⟨hx, ho⟩ := hx
  · exact h.add_dot hx
  · exact h.add_name hx ho

theorem Spells.isLongestRun (h : p.Spells run) (ht : s.Takes run t) (hstop : ¬p.GoesOn t.current) :
    IsLongestRun run (s.current :: s.upcoming) := by
  have hnot : ∀ x ∈ run, x.kind ≠ .eof := by
    intro x hx
    obtain hk | hk := h.isRun.kinds x hx <;> simp [hk]
  obtain ⟨rest, hrest, hhead⟩ := ht.exists_rest hnot
  rw [hrest]
  refine h.isRun.isLongestRun fun x hx hrun => hstop ?_
  obtain rfl := hhead x hx
  obtain ⟨-, hk⟩ := IsDottedRun.concat_iff.1 hrun
  exact hk.imp_right fun hk => ⟨hk.1, h.isOpen.2 hk.2⟩

end Parts

theorem gives_loop_parts {q : Parts} (h : p.GoesOn s.current) :
    Gives (loop (Parts.step (n := n)) p) s q t ↔ s.size < n ∧
      ∃ u, s.advance = .ok u ∧ Gives (loop (Parts.step (n := n)) (p.add s.current)) u q t := by
  have hstep : (Parts.step p s.current.kind : Option (Token → Rule n Parts)) =
      some fun x => return p.add x := if_pos h
  rw [gives_loop]
  constructor
  · rintro (⟨-, hnone | heof, -⟩ | ⟨f, u, x, y, hf, -, hs, hu, hx, hq⟩)
    · cases hstep.symm.trans hnone
    · exact absurd heof h.ne_eof
    · cases hstep.symm.trans hf
      obtain ⟨-, rfl, rfl⟩ := gives_pure.1 hx
      exact ⟨hs, u, hu, hq⟩
  · rintro ⟨hs, u, hu, hq⟩
    exact .inr ⟨_, u, _, u, hstep, h.ne_eof, hs, hu, gives_pure.2 ⟨hq.size_lt, rfl, rfl⟩, hq⟩

/-- Without a lexical error the parts of a name are read up to a token that does not go on with
them. -/
theorem exists_gives_loop (hs : s.size < n) (hf : s.fault = none) (h : p.Spells run) :
    ∃ q more t, Gives (loop (Parts.step (n := n)) p) s q t ∧ s.Takes more t ∧
      q.Spells (run ++ more) ∧ ¬q.GoesOn t.current := by
  induction s using Stream.bySize generalizing p run with
  | step s ih =>
      by_cases hx : p.GoesOn s.current
      · obtain ⟨u, hu, hfu⟩ := s.exists_advance_of_fault hf
        have hlt := Stream.size_advance_lt hu hx.ne_eof
        obtain ⟨q, more, t, hq, ht, hspells, hstop⟩ :=
          ih u hlt (Nat.lt_trans hlt hs) hfu (h.add hx)
        refine ⟨q, s.current :: more, t, (gives_loop_parts hx).2 ⟨hs, u, hu, hq⟩, .cons hu ht,
          ?_, hstop⟩
        rwa [List.append_assoc, List.singleton_append] at hspells
      · refine ⟨p, [], s, gives_loop.2 (.inl ⟨hs, .inl (if_neg hx), rfl, rfl⟩), .nil s, ?_, hx⟩
        rwa [List.append_nil]

theorem gives_referenceFrom {origin : Token} {r : Reference} :
    (referenceFrom origin p : Rule n Reference).Gives s r t ↔
      ∃ q : Parts, Gives (loop (Parts.step (n := n)) p) s q t ∧ q.isNamed = true ∧
        r = ⟨origin, q.all⟩ := by
  refine (gives_bind (p := (loop Parts.step p : Rule n Parts))).trans ?_
  constructor
  · rintro ⟨q, u, hq, h⟩
    split at h
    · rename_i hn
      obtain ⟨-, rfl, rfl⟩ := gives_pure.1 h
      exact ⟨q, hq, hn, rfl⟩
    · exact absurd h not_gives_expected
  · rintro ⟨q, hq, hn, rfl⟩
    refine ⟨q, t, hq, ?_⟩
    rw [if_pos hn]
    exact gives_pure.2 ⟨Nat.lt_of_le_of_lt hq.size_le hq.size_lt, rfl, rfl⟩

/-- A name that an expression begins with is read as any other name, though its first token is taken
before the rest of it is read. -/
theorem gives_referenceFrom_advance {r : Reference} (hs : s.size < n)
    (hx : Parts.start.GoesOn s.current) :
    (∃ u, s.advance = .ok u ∧
      (referenceFrom s.current (Parts.start.add s.current) : Rule n Reference).Gives u r t) ↔
        (reference : Rule n Reference).Gives s r t := by
  rw [reference, gives_current_bind, gives_referenceFrom]
  constructor
  · rintro ⟨u, hu, h⟩
    obtain ⟨q, hq, hr⟩ := gives_referenceFrom.1 h
    exact ⟨q, (gives_loop_parts hx).2 ⟨hs, u, hu, hq⟩, hr⟩
  · rintro ⟨q, hq, hr⟩
    obtain ⟨-, u, hu, hq⟩ := (gives_loop_parts hx).1 hq
    exact ⟨u, hu, gives_referenceFrom.2 ⟨q, hq, hr⟩⟩

/-- The name at the start of a value is the value, or names the function that is called. -/
theorem gives_primary_of_name {R : Rules n} {e : Expression} {u : Stream} (hs : s.size < n)
    (hx : Parts.start.GoesOn s.current) :
    (primary R).Gives s e u ↔ ∃ r t, (reference : Rule n Reference).Gives s r t ∧
      if t.current.kind = .mark .leftParen then (call R r).Gives t e u
      else e = .reference r ∧ u = t := by
  have hprimary : (primary R).Gives s e u ↔ (take (named R)).Gives s e u := by
    rw [primary, gives_kind_bind]
    obtain hk | ⟨hk, -⟩ := hx <;> rw [hk] <;> rfl
  have htail {r : Reference} {t : Stream} (hr : (reference : Rule n Reference).Gives s r t) :
      Gives (do if (← kind) = .mark .leftParen then call R r else return .reference r) t e u ↔
        if t.current.kind = .mark .leftParen then (call R r).Gives t e u
        else e = .reference r ∧ u = t := by
    rw [gives_kind_bind]
    split
    · rfl
    · rw [gives_pure, eq_comm, @eq_comm _ t]
      exact and_iff_right (Nat.lt_of_le_of_lt hr.size_le hs)
  rw [hprimary, gives_take]
  constructor
  · rintro ⟨-, v, hv, -, h⟩
    obtain ⟨r, t, hr, h⟩ := gives_bind.1 h
    have hr := (gives_referenceFrom_advance hs hx).1 ⟨v, hv, hr⟩
    exact ⟨r, t, hr, (htail hr).1 h⟩
  · rintro ⟨r, t, hr, h⟩
    obtain ⟨v, hv, hfrom⟩ := (gives_referenceFrom_advance hs hx).2 hr
    exact ⟨hx.ne_eof, v, hv, Nat.lt_succ_of_lt hs, gives_bind.2 ⟨r, t, hfrom, (htail hr).2 h⟩⟩

theorem gives_reference {q : Parts} {r : Reference} {u : Stream}
    (hq : Gives (loop (Parts.step (n := n)) .start) s q t) :
    (reference : Rule n Reference).Gives s r u ↔
      q.isNamed = true ∧ r = ⟨s.current, q.all⟩ ∧ u = t := by
  rw [reference, gives_current_bind, gives_referenceFrom]
  constructor
  · rintro ⟨q', hq', hn, rfl⟩
    obtain ⟨rfl, rfl⟩ := hq.eq hq'
    exact ⟨hn, rfl, rfl⟩
  · rintro ⟨hn, rfl, rfl⟩
    exact ⟨q, hq, hn, rfl⟩

/-- A dotted name is read as the longest run of points and identifiers at the start of a stream
without a lexical error. It is read if and only if the run has an identifier, and then just the run
is taken: the name has one part more than the run has points, it is written as the run is, and its
parts are what the points of the run separate, in order and with the empty ones. A value that begins
with a point or an identifier begins with this name, and is no more than it where no parenthesis
follows. -/
theorem reference_longest (hs : s.size < n) (hf : s.fault = none) :
    ∃ run t, IsLongestRun run (s.current :: s.upcoming) ∧ s.Takes run t ∧
      ((∃ r u, (reference : Rule n Reference).Gives s r u) ↔ ∃ x ∈ run, x.kind = .identifier) ∧
      (∀ r u, (reference : Rule n Reference).Gives s r u →
        u = t ∧ r.parts.length = run.countP Token.isPoint + 1 ∧
        r.identifier = String.join (run.map Token.dottedText) ∧
        List.Forall₂ StandsFor (run.splitOnP Token.isPoint) r.parts) ∧
      (s.current.kind = .mark .dot ∨ s.current.kind = .identifier →
        ∀ (R : Rules n) (e : Expression) (u : Stream), (primary R).Gives s e u ↔
          ∃ r, (reference : Rule n Reference).Gives s r t ∧
            if t.current.kind = .mark .leftParen then (call R r).Gives t e u
            else e = .reference r ∧ u = t) := by
  obtain ⟨q, run, t, hq, ht, hspells, hstop⟩ := exists_gives_loop hs hf Parts.Spells.start
  rw [List.nil_append] at hspells
  refine ⟨run, t, hspells.isLongestRun ht hstop, ht, ?_, fun r u h => ?_, fun hx R e u => ?_⟩
  · rw [← hspells.isNamed]
    constructor
    · rintro ⟨r, u, h⟩
      exact ((gives_reference hq).1 h).1
    · exact fun h => ⟨_, _, (gives_reference hq).2 ⟨h, rfl, rfl⟩⟩
  · obtain ⟨-, rfl, rfl⟩ := (gives_reference hq).1 h
    refine ⟨rfl, hspells.length, ?_, hspells.standsFor⟩
    rw [Reference.identifier, ← String.toList_inj, String.toList_ofList, hspells.text,
      String.toList_join, List.flatMap_map]
  · have hgoes : Parts.start.GoesOn s.current := hx.imp_right fun hk => ⟨hk, rfl⟩
    rw [gives_primary_of_name hs hgoes]
    constructor
    · rintro ⟨r, v, hr, h⟩
      obtain ⟨-, -, rfl⟩ := (gives_reference hq).1 hr
      exact ⟨r, hr, h⟩
    · rintro ⟨r, hr, h⟩
      exact ⟨r, t, hr, h⟩

def gappedName : Stream :=
  ⟨⟨.mark .dot, ⟨1, 1, 1⟩, .none⟩,
    [⟨.identifier, ⟨1, 2, 2⟩, .text "a"⟩, ⟨.mark .dot, ⟨1, 3, 3⟩, .none⟩,
      ⟨.mark .dot, ⟨1, 4, 4⟩, .none⟩, ⟨.identifier, ⟨1, 5, 5⟩, .text "b"⟩,
      ⟨.mark .dot, ⟨1, 6, 6⟩, .none⟩, ⟨.keyword .FROM, ⟨1, 8, 8⟩, .text "FROM"⟩], none⟩

theorem reference_longest_gaps : gappedName.size < 8 ∧ gappedName.fault = none ∧
    ∃ r t, (reference : Rule 8 Reference).Gives gappedName r t ∧
      t.current.kind = .keyword .FROM ∧ r.parts = ["", "a", "", "b", ""] := by
  have hsize : gappedName.size < 8 := by decide
  obtain ⟨run, t, hrun, ht, hgives, hname, -⟩ := reference_longest (n := 8) hsize rfl
  have hlongest : IsLongestRun (gappedName.current :: gappedName.upcoming.dropLast)
      ((gappedName.current :: gappedName.upcoming.dropLast) ++
        [⟨.keyword .FROM, ⟨1, 8, 8⟩, .text "FROM"⟩]) := by
    refine IsDottedRun.isLongestRun ⟨by decide, by decide⟩ ?_
    rintro _ ⟨⟩ hmore
    obtain hk | ⟨hk, -⟩ := (IsDottedRun.concat_iff.1 hmore).2 <;> cases hk
  obtain rfl := hrun.eq hlongest
  obtain ⟨r, u, h⟩ := hgives.2 ⟨_, List.mem_cons_of_mem _ (List.mem_cons_self ..), rfl⟩
  obtain ⟨rfl, -, -, hparts⟩ := hname r u h
  refine ⟨hsize, rfl, r, u, h, ?_, ?_⟩
  · obtain ⟨rest, hrest, hhead⟩ := ht.exists_rest (by decide)
    change (gappedName.current :: gappedName.upcoming.dropLast) ++ [_] = _ at hrest
    rw [← hhead _ (by rw [← List.append_cancel_left hrest]; rfl)]
  · change List.Forall₂ StandsFor [[], [_], [], [_], []] r.parts at hparts
    generalize r.parts = parts at hparts
    obtain _ | ⟨h₁, _ | ⟨h₂, _ | ⟨h₃, _ | ⟨h₄, _ | ⟨h₅, _ | _⟩⟩⟩⟩⟩ := hparts
    cases h₁
    cases h₂
    cases h₃
    cases h₄
    cases h₅
    rfl

end Grammar

end Transact
