import Transact.Grammar.Name
import Transact.Proofs.Replay.Basic
import Transact.Proofs.Syntax.Bare

namespace Transact

theorem Token.text_of_word {t : Token} {k : Kind} {text : String} (h : t.word = (k, .text text)) :
    t.text = text := by
  have hv : t.value = .text text := congrArg Prod.snd h
  rw [Token.text, hv]

def Kind.endsName (k : Kind) : Bool := k ≠ .keyword .AS && k ≠ .identifier

namespace Reference

def continued (parts : List String) : List Word :=
  if parts = [] then [] else Word.mark .dot :: dotted parts

theorem dotted_eq (part : String) (parts : List String) :
    dotted (part :: parts) = partWords part ++ continued parts := by
  cases parts with
  | nil => simp [dotted, continued]
  | cons next parts => rfl

theorem bare_inj {r q : Reference} : r.bare = q.bare ↔ r.parts = q.parts := by simp [bare]

end Reference

namespace Grammar.Parts

open Reference (dotted continued)

variable {p : Parts} {parts : List String} {w : Word} {ws : List Word} {t : Token}

/-- Some of the parts are read, and the words of the others are still to come. -/
structure Awaits (p : Parts) (parts : List String) (ws : List Word) : Prop where
  split : ∃ ps, parts = p.parts ++ ps ∧
    if p.isOpen then ps ≠ [] ∧ ws = dotted ps else ws = continued ps
  named : ∀ part ∈ p.parts, part ≠ "" → p.isNamed = true

theorem Awaits.start (h : parts ≠ []) : Parts.start.Awaits parts (dotted parts) :=
  ⟨⟨parts, rfl, h, rfl⟩, by simp [Parts.start]⟩

theorem Awaits.add_dot {ps : List String} (hn : ∀ part ∈ p.parts, part ≠ "" → p.isNamed = true)
    (hs : parts = p.all ++ ps) (hps : ps ≠ []) (ht : t.kind = .mark .dot) :
    (p.add t).Awaits parts (dotted ps) := by
  rw [add, if_pos ht]
  refine ⟨⟨ps, hs, hps, rfl⟩, fun part hp hne => ?_⟩
  simp only [all] at hp
  split at hp
  · obtain hp | hp := List.mem_append.1 hp
    · exact hn part hp hne
    · exact absurd (List.mem_singleton.1 hp) hne
  · exact hn part hp hne

theorem Awaits.add (h : p.Awaits parts (w :: ws)) (hparts : ∀ part ∈ parts, Reference.IsPart part)
    (ht : t.word = w) :
    (t.kind = .mark .dot ∨ (t.kind = .identifier ∧ p.isOpen)) ∧ (p.add t).Awaits parts ws := by
  obtain ⟨ps, hs, hrest⟩ := h.split
  by_cases ho : p.isOpen = true
  · rw [if_pos ho] at hrest
    obtain ⟨hps, hws⟩ := hrest
    obtain ⟨part, ps, rfl⟩ := List.exists_cons_of_ne_nil hps
    rw [Reference.dotted_eq] at hws
    by_cases hpart : part = ""
    · rw [Reference.partWords, if_pos hpart, List.nil_append, continued] at hws
      split at hws
      · cases hws
      · rename_i hne
        obtain ⟨rfl, rfl⟩ := List.cons.inj hws
        have hk : t.kind = .mark .dot := congrArg Prod.fst ht
        refine ⟨.inl hk, Awaits.add_dot h.named ?_ hne hk⟩
        rw [all, if_pos ho, hs, hpart, List.append_assoc]
        rfl
    · rw [Reference.partWords, if_neg hpart, List.singleton_append] at hws
      obtain ⟨rfl, rfl⟩ := List.cons.inj hws
      obtain hempty | ⟨-, hid⟩ := hparts part (by simp [hs])
      · exact absurd hempty hpart
      · have hk : t.kind = .identifier := (congrArg Prod.fst ht).trans hid
        have hdot : t.kind ≠ .mark .dot := by simp [hk]
        refine ⟨.inr ⟨hk, ho⟩, ?_⟩
        rw [Parts.add, if_neg hdot, Token.text_of_word ht]
        exact ⟨⟨ps, by rw [hs, List.append_assoc]; rfl, rfl⟩, fun _ _ _ => rfl⟩
  · rw [if_neg ho, continued] at hrest
    split at hrest
    · cases hrest
    · rename_i hps
      obtain ⟨rfl, rfl⟩ := List.cons.inj hrest
      have hk : t.kind = .mark .dot := congrArg Prod.fst ht
      refine ⟨.inl hk, Awaits.add_dot h.named ?_ hps hk⟩
      rw [all, if_neg ho, hs]

theorem Awaits.all_eq (h : p.Awaits parts []) :
    p.all = parts ∧ (p.isOpen = true → parts.getLastD "" = "") := by
  obtain ⟨ps, hs, hrest⟩ := h.split
  by_cases ho : p.isOpen = true
  · rw [if_pos ho] at hrest
    obtain ⟨hps, hws⟩ := hrest
    obtain ⟨part, ps, rfl⟩ := List.exists_cons_of_ne_nil hps
    rw [Reference.dotted_eq, Reference.partWords, continued] at hws
    split at hws
    · rename_i hpart
      split at hws
      · rename_i hnil
        rw [hnil, hpart] at hs
        exact ⟨by rw [all, if_pos ho, hs], fun _ => by simp [hs]⟩
      · cases hws
    · cases hws
  · rw [if_neg ho, continued] at hrest
    split at hrest
    · rename_i hps
      rw [hps, List.append_nil] at hs
      exact ⟨by rw [all, if_neg ho, hs], fun h => absurd h ho⟩
    · cases hrest

end Grammar.Parts

namespace Rule.Ensures

open Grammar

variable {n : Nat} {s : Stream} {ws rest : List Word} {fault : Prop}

theorem loop_parts {r : Reference} {p : Parts} (hr : r.Formed)
    (hk : r.EndsBefore (Word.headKind rest)) (hp : p.Awaits r.parts ws)
    (h : s.Holds (ws ++ rest)) :
    Ensures (Rule.loop (Parts.step : Parts → Kind → Option (Token → Rule n Parts)) p) s
      (fun p t => p.Awaits r.parts [] ∧ t.Holds rest) fault := by
  induction ws generalizing p s with
  | nil =>
      refine loop_stop (if_neg ?_) ⟨hp, h⟩
      rw [h.kind]
      rintro (hdot | ⟨hid, ho⟩)
      · exact hk.1 hdot
      · exact hk.2 (hp.all_eq.2 ho) hid
  | cons w ws ih =>
      obtain ⟨hstep, hadd⟩ := hp.add hr.1 h.word_current
      obtain ⟨t, ht, hh⟩ := h.exists_advance
      exact loop_step (if_pos hstep) h.ne_eof ht (pure (ih hadd hh))

theorem holds_referenceFrom (origin : Token) {r : Reference} {p : Parts} (hr : r.Formed)
    (hk : r.EndsBefore (Word.headKind rest)) (hp : p.Awaits r.parts ws)
    (h : s.Holds (ws ++ rest)) :
    (Grammar.referenceFrom origin p : Rule n Reference).Ensures s
      (fun q t => q.bare = r.bare ∧ t.Holds rest) fault := by
  refine (loop_parts hr hk hp h).bind fun q t hq => ?_
  obtain ⟨hawaits, ht⟩ := hq
  have hall := hawaits.all_eq.1
  obtain ⟨part, hpart, hne⟩ := hr.2
  rw [← hall] at hpart
  have hnamed : q.isNamed = true := by
    refine hawaits.named part ?_ hne
    simp only [Parts.all] at hpart
    split at hpart
    · obtain hp | hp := List.mem_append.1 hpart
      · exact hp
      · exact absurd (List.mem_singleton.1 hp) hne
    · exact hpart
  rw [if_pos hnamed]
  exact pure ⟨Reference.bare_inj.2 hall, ht⟩

theorem holds_reference {r : Reference} (hr : r.Formed)
    (hk : r.EndsBefore (Word.headKind ws)) (h : s.Holds (r.words ++ ws)) :
    (Grammar.reference : Rule n Reference).Ensures s
      (fun q t => q.bare = r.bare ∧ t.Holds ws) fault :=
  current (holds_referenceFrom _ hr hk (.start hr.parts_ne_nil) h)

theorem replays_reference : (Grammar.reference : Rule n Reference).Replays
    (fun r k => r.Formed ∧ r.EndsBefore k) Reference.words (fun _ => True) Reference.bare :=
  fun _ _ _ ha h => (holds_reference ha.1 ha.2 h).imp fun _ _ hq => ⟨trivial, hq⟩

theorem holds_aliasName {allowString : Bool} {name : Option String}
    (hname : ∀ text, name = some text → IsAlias allowString text)
    (hk : name = none → (Word.headKind ws).endsName = true)
    (h : s.Holds (Word.aliased name ++ ws)) :
    (Grammar.aliasName allowString : Rule n (Option String)).Ensures s
      (fun found t => found = name ∧ t.Holds ws) fault := by
  cases name with
  | none =>
      obtain ⟨has, hid⟩ : s.current.kind ≠ .keyword .AS ∧ s.current.kind ≠ .identifier := by
        simpa [Kind.endsName, show s.current.kind = Word.headKind ws from h.kind] using hk rfl
      refine eat_miss has ?_
      refine kind ?_
      split
      · exact absurd ‹_› hid
      · exact pure ⟨rfl, h⟩
      · exact pure ⟨rfl, h⟩
  | some text =>
      refine holds_eat h rfl fun t ht => ?_
      obtain ⟨hn, hid⟩ | ⟨rfl, string, rfl⟩ := hname text rfl
      · rw [Text.words_name hn] at ht
        refine kind ?_
        rw [ht.kind.trans hid]
        refine (holds_advance ht).bind fun token u hu => pure ⟨?_, hu.2⟩
        rw [Token.text_of_word hu.1]
      · rw [Text.words_quote] at ht
        refine kind ?_
        rw [ht.kind]
        refine (holds_advance ht).bind fun token u hu => pure ⟨?_, hu.2⟩
        rw [Token.text_of_word hu.1]

end Rule.Ensures

namespace TableHint

theorem kind_spelling (h : TableHint) :
    Kind.ofWord h.spelling = .identifier ∨ Kind.ofWord h.spelling = .keyword .HOLDLOCK := by
  have hall : ∀ h ∈ all, Kind.ofWord h.spelling = .identifier ∨
      Kind.ofWord h.spelling = .keyword .HOLDLOCK := by decide +kernel
  exact hall h h.mem_all

theorem ofWord?_spelling (h : TableHint) : ofWord? h.spelling = some h := by
  have hall : ∀ h ∈ all, ofWord? h.spelling = some h := by decide +kernel
  exact hall h h.mem_all

end TableHint

namespace Rule.Ensures

open Grammar

variable {n : Nat} {s : Stream} {ws : List Word} {fault : Prop}

theorem replays_hint : (Grammar.hint : Rule n TableHint).Replays (fun _ _ => True)
    (fun found => [Word.name found.spelling]) (fun _ => True) id := by
  intro found ws s _ h
  refine current ?_
  have htext : s.current.text = found.spelling := Token.text_of_word h.word_current
  have hnamed : s.current.kind = .identifier ∨ s.current.kind = .keyword .HOLDLOCK := by
    rw [h.kind]
    exact found.kind_spelling
  simp only [hnamed, decide_true, if_true, htext, TableHint.ofWord?_spelling]
  exact (holds_advance h).bind fun _ t ht => pure ⟨trivial, rfl, ht.2⟩

theorem holds_hints {bare : Bool} {found : List TableHint}
    (hk : found = [] → Word.headKind ws ≠ .keyword .WITH ∧
      (bare = true → Word.headKind ws ≠ .mark .leftParen))
    (h : s.Holds (Word.hinted found ++ ws)) :
    (Grammar.hints bare : Rule n (List TableHint)).Ensures s
      (fun hints t => hints = found ∧ t.Holds ws) fault := by
  by_cases hf : found = []
  · obtain ⟨hwith, hparen⟩ := hk hf
    rw [Word.hinted, if_pos hf, List.nil_append] at h
    rw [← h.kind] at hwith hparen
    refine eat_miss hwith ?_
    refine kind ?_
    rw [if_neg (by simpa using hparen)]
    exact pure ⟨hf.symm, h⟩
  · rw [Word.hinted, if_neg hf, Word.enclosed, List.cons_append, List.cons_append,
      List.append_assoc, List.singleton_append] at h
    refine holds_eat h rfl fun t ht => ?_
    refine kind ?_
    refine (holds_expect ht rfl).bind fun _ u hu => ?_
    refine (holds_commaSeparated replays_hint hf (by nofun) (fun _ _ => ⟨trivial, trivial⟩) hu).bind
      fun hints v hv => ?_
    rw [List.map_id, List.map_id] at hv
    exact (holds_expect hv.2 rfl).bind fun _ w hw => pure ⟨hv.1, hw⟩

end Rule.Ensures

end Transact
