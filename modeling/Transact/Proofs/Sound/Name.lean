import Transact.Grammar.Name
import Transact.Proofs.Count.Stream
import Transact.Proofs.Syntax.Begin

namespace Transact

theorem Token.isName {t : Token} (h : t.word.IsLexical)
    (hk : t.kind = .identifier ∨ ∃ k, t.kind = .keyword k) :
    Lexeme.IsName t.text.toList ∧ t.word = Word.name t.text := by
  generalize hw : t.word = w at h
  cases h with
  | @name p hn =>
      have hv : t.value = .text (String.ofList p) := congrArg Prod.snd hw
      have htext : t.text = String.ofList p := by rw [text, hv]
      rw [htext, String.toList_ofList]
      exact ⟨hn, rfl⟩
  | @constant c h =>
      obtain ⟨type, value, hc⟩ := c.word_kind
      have hkind : t.kind = .constant type := congrArg Prod.fst (hw.trans hc)
      obtain hk | ⟨k, hk⟩ := hk <;> cases hkind.symm.trans hk
  | mark m =>
      have hkind : t.kind = .mark m := congrArg Prod.fst hw
      obtain hk | ⟨k, hk⟩ := hk <;> cases hkind.symm.trans hk

theorem Token.kind_eq {t : Token} (h : t.word.IsLexical)
    (hk : t.kind = .identifier ∨ ∃ k, t.kind = .keyword k) : Kind.ofWord t.text = t.kind :=
  (congrArg Prod.fst (t.isName h hk).2).symm

theorem Token.word_of_varchar {t : Token} (h : t.word.IsLexical)
    (hk : t.kind = .constant .varchar) : t.word = (.constant .varchar, .text t.text) := by
  generalize hw : t.word = w at h
  have hkind : w.1 = .constant .varchar := by rw [← hw]; exact hk
  cases h with
  | @name p hn =>
      obtain hn | ⟨k, hn⟩ := Kind.ofWord_cases (String.ofList p) <;>
        cases hn.symm.trans hkind
  | @constant c h =>
      cases c <;> cases hkind
      rename_i text
      have hv : t.value = .text text := congrArg Prod.snd hw
      rw [Token.text, hv]
      rfl
  | mark m => cases hkind

theorem Word.count_identifier {text : String} (h : Kind.ofWord text = .identifier) :
    count (name text) = {(Kind.identifier, Value.text (Text.lower text))} := by
  rw [name, h]
  rfl

theorem Word.count_name {a b : String} (h : Text.upper a = Text.upper b) :
    count (name a) = count (name b) := by
  have hkind : Kind.ofWord a = Kind.ofWord b := by
    simp only [Kind.ofWord, Keyword.ofWord?, h]
  have hlower : Text.lower a = Text.lower b := beq_iff_eq.1 (Text.sameWord_iff.2 h)
  obtain hk | ⟨k, hk⟩ := Kind.ofWord_cases b
  · rw [count_identifier hk, count_identifier (hkind.trans hk), hlower]
  · rw [name, name, hkind, hk]
    rfl

namespace Reference

theorem dotted_concat {parts : List String} (h : parts ≠ []) (part : String) :
    dotted (parts ++ [part]) = dotted parts ++ Word.mark .dot :: partWords part := by
  induction parts with
  | nil => exact absurd rfl h
  | cons first parts ih =>
      cases parts with
      | nil => rfl
      | cons next parts =>
          rw [List.cons_append, dotted_cons (by simp), ih (List.cons_ne_nil _ _),
            dotted_cons (List.cons_ne_nil _ _), List.append_assoc, List.cons_append]

theorem dotted_concat_name (parts : List String) {part : String} (hp : part ≠ "") :
    dotted (parts ++ [part]) = dotted (parts ++ [""]) ++ [Word.name part] := by
  by_cases h : parts = []
  · rw [h]
    simp [dotted, partWords, hp]
  · rw [dotted_concat h, dotted_concat h]
    simp [partWords, hp]

end Reference

namespace Grammar

open Rule

structure Parts.Reads (p : Parts) (s t : Stream) : Prop where
  isPart : ∀ part ∈ p.parts, Reference.IsPart part
  named : p.isNamed = true → ∃ part ∈ p.parts, part ≠ ""
  closed : p.isOpen = false → p.parts ≠ [] ∧ p.parts.getLastD "" ≠ ""
  words : s.words = Reference.dotted p.all ++ t.words
  spends : s.Spends t (Word.bag (Reference.dotted p.all))

namespace Parts

variable {p : Parts} {s t u : Stream}

theorem Reads.start (h : s.Spends s 0) : Parts.start.Reads s s where
  isPart := by simp [Parts.start]
  named := nofun
  closed := nofun
  words := rfl
  spends := h

theorem Reads.all_ne_nil (h : p.Reads s t) : p.all ≠ [] := by
  rw [all]
  split
  · simp
  · rename_i ho
    exact (h.closed (Bool.eq_false_iff.2 ho)).1

theorem Reads.add_dot (h : p.Reads s t) (hdot : t.current.kind = .mark .dot)
    (hu : t.advance = .ok u) : (p.add t.current).Reads s u := by
  have hne : t.current.kind ≠ .eof := by simp [hdot]
  have hword : t.current.word = Word.mark .dot := (h.spends.isLexical_current hne).eq_mark hdot
  have hall : (p.add t.current).all = p.all ++ [""] := by simp [Parts.add, hdot, all]
  have hdotted : Reference.dotted (p.all ++ [""]) =
      Reference.dotted p.all ++ [Word.mark .dot] := by
    rw [Reference.dotted_concat h.all_ne_nil]
    rfl
  refine ⟨?_, ?_, ?_, ?_, ?_⟩
  · simp only [Parts.add, hdot, if_true, all]
    split
    · simp only [List.mem_append, List.mem_singleton]
      rintro part (hp | rfl)
      · exact h.isPart part hp
      · exact .inl rfl
    · exact h.isPart
  · simp only [Parts.add, hdot, if_true, all]
    intro hn
    obtain ⟨part, hp, hpart⟩ := h.named hn
    split
    · exact ⟨part, List.mem_append_left _ hp, hpart⟩
    · exact ⟨part, hp, hpart⟩
  · simp [Parts.add, hdot]
  · rw [hall, hdotted, h.words, (h.spends.ends.advance hu hne).2.1, hword, List.append_assoc,
      List.singleton_append]
  · rw [hall, hdotted]
    exact (h.spends.step hne hu).cast (by rw [hword]; simp)

theorem Reads.add_name (h : p.Reads s t) (hid : t.current.kind = .identifier)
    (ho : p.isOpen = true) (hu : t.advance = .ok u) : (p.add t.current).Reads s u := by
  have hne : t.current.kind ≠ .eof := by simp [hid]
  have hdot : t.current.kind ≠ .mark .dot := by simp [hid]
  have hl := h.spends.isLexical_current hne
  obtain ⟨hname, hword⟩ := t.current.isName hl (.inl hid)
  have hempty := hname.ne_empty
  have hall : (p.add t.current).all = p.parts ++ [t.current.text] := by
    simp [Parts.add, hid, all]
  have hold : p.all = p.parts ++ [""] := by simp [all, ho]
  have hdotted := Reference.dotted_concat_name p.parts hempty
  refine ⟨?_, ?_, ?_, ?_, ?_⟩
  · simp only [Parts.add, hdot, if_false, List.mem_append, List.mem_singleton]
    rintro part (hp | rfl)
    · exact h.isPart part hp
    · exact .inr ⟨hname, (t.current.kind_eq hl (.inl hid)).trans hid⟩
  · simp only [Parts.add, hdot, if_false]
    exact fun _ => ⟨_, by simp, hempty⟩
  · simp [Parts.add, hdot, hempty]
  · rw [hall, hdotted, ← hold, h.words, (h.spends.ends.advance hu hne).2.1, hword,
      List.append_assoc, List.singleton_append]
  · rw [hall, hdotted, ← hold]
    exact (h.spends.step hne hu).cast (by rw [hword]; simp)

theorem Reads.add (h : p.Reads s t)
    (hk : t.current.kind = .mark .dot ∨ (t.current.kind = .identifier ∧ p.isOpen))
    (hu : t.advance = .ok u) : (p.add t.current).Reads s u := by
  obtain hdot | ⟨hid, ho⟩ := hk
  · exact h.add_dot hdot hu
  · exact h.add_name hid ho hu

end Parts

end Grammar

namespace Rule.Ensures

open Grammar

variable {n : Nat} {s t u : Stream} {m : Multiset Word} {p : Parts}

theorem referenceFrom (origin : Token) (h : p.Reads s t) :
    (Grammar.referenceFrom origin p : Rule n Reference).Ensures t (fun r u =>
      r.Formed ∧ s.words = r.words ++ u.words ∧ s.Spends u (Word.bag r.words) ∧
        r.EndsBefore u.current.kind) True := by
  -- `Parts.Reads` is the invariant of the loop.
  have hstep : ∀ (p : Parts) (t : Stream) (f : Token → Rule n Parts) (u : Stream), p.Reads s t →
      Parts.step p t.current.kind = some f → t.current.kind ≠ .eof → t.advance = .ok u →
      (f t.current).Ensures u (fun p u => p.Reads s u) True := by
    intro p t f u hp hf _ hu
    simp only [Parts.step] at hf
    split at hf
    · rename_i hcond
      cases hf
      exact pure (hp.add hcond hu)
    · cases hf
  refine (loop _ hstep h).bind fun q u hu => ?_
  obtain ⟨hq, hend⟩ := hu
  split
  · rename_i hn
    obtain ⟨part, hpart, hne⟩ := hq.named hn
    refine pure ⟨⟨fun part hp => ?_, part, ?_, hne⟩, hq.words, hq.spends, ?_⟩
    · simp only [Parts.all] at hp
      split at hp
      · obtain hp | hp := List.mem_append.1 hp
        · exact hq.isPart part hp
        · exact .inl (List.mem_singleton.1 hp)
      · exact hq.isPart part hp
    · simp only [Parts.all]
      split
      · exact List.mem_append_left _ hpart
      · exact hpart
    · obtain hend | hend := hend
      · simp only [Parts.step, ite_eq_right_iff, reduceCtorEq, imp_false, not_or, not_and] at hend
        refine ⟨hend.1, fun hempty hid => ?_⟩
        have hclosed := Bool.eq_false_iff.2 (hend.2 hid)
        refine (hq.closed hclosed).2 ?_
        simpa [Reference.objectName, Parts.all, hclosed] using hempty
      · rw [hend]
        exact ⟨by simp, by simp⟩
  · exact expected trivial

theorem accounts_reference : (Grammar.reference : Rule n Reference).Accounts (fun t r u =>
    r.Formed ∧ t.words = r.words ++ u.words ∧ r.EndsBefore u.current.kind) Reference.words := by
  intro s t m h
  refine current ?_
  refine (referenceFrom _ (.start h.refl)).imp fun r u hr => ?_
  exact ⟨⟨hr.1, hr.2.1, hr.2.2.2⟩, h.trans hr.2.2.1⟩

theorem accounts_aliasName (allowString : Bool) :
    (Grammar.aliasName allowString : Rule n (Option String)).Accounts
      (fun _ name _ => ∀ text, name = some text → IsAlias allowString text) Word.aliased := by
  intro s t m h
  refine (spend_eat (.keyword .AS) rfl h).bind fun explicit u hu => ?_
  have hu : s.Spends u m := by
    obtain ⟨-, hu⟩ | ⟨-, rfl, -⟩ := hu
    · exact hu.cast (by simp [Kind.word])
    · exact h
  have hnone : s.Spends u (m + Word.bag (Word.aliased none)) := hu.cast (by simp [Word.aliased])
  refine kind ?_
  split
  · rename_i hk
    have hne : u.current.kind ≠ .eof := by simp [hk]
    refine (spend_advance hne hu).bind fun token v hv => pure ?_
    obtain ⟨rfl, hv⟩ := hv
    have hl := hu.isLexical_current hne
    obtain ⟨hname, hword⟩ := Token.isName hl (.inl hk)
    refine ⟨?_, hv.cast ?_⟩
    · rintro _ ⟨⟩
      exact .inl ⟨hname, (Token.kind_eq hl (.inl hk)).trans hk⟩
    · rw [Word.aliased, Text.words_name hname, hword]
      simp
  · rename_i hk
    have hne : u.current.kind ≠ .eof := by simp [hk]
    split
    · rename_i hs
      refine (spend_advance hne hu).bind fun token v hv => pure ?_
      obtain ⟨rfl, hv⟩ := hv
      have hword := Token.word_of_varchar (hu.isLexical_current hne) hk
      refine ⟨?_, hv.cast ?_⟩
      · rintro _ ⟨⟩
        exact .inr ⟨(Bool.and_eq_true _ _ ▸ hs).2, _, rfl⟩
      · rw [Word.aliased, Text.words_quote, hword]
        simp
    · split
      · exact expected trivial
      · exact pure ⟨by simp, hnone⟩
  · split
    · exact expected trivial
    · exact pure ⟨by simp, hnone⟩

theorem accounts_hint : (Grammar.hint : Rule n TableHint).Accounts (fun _ _ _ => True)
    (fun found => [Word.name found.spelling]) := by
  intro s t m h
  refine current ?_
  dsimp only
  split
  · rename_i found hf
    split at hf
    · rename_i hk
      have hk : t.current.kind = .identifier ∨ ∃ k, t.current.kind = .keyword k :=
        (of_decide_eq_true hk).imp id fun hk => ⟨_, hk⟩
      have hne : t.current.kind ≠ .eof := by
        obtain hk | ⟨k, hk⟩ := hk <;> simp [hk]
      refine (spend_advance hne h).bind fun token u hu => pure ⟨trivial, hu.2.cast ?_⟩
      have hword := (Token.isName (h.isLexical_current hne) hk).2
      have hupper : ∀ h ∈ TableHint.all, Text.upper h.spelling = h.spelling := by decide +kernel
      have hspelling := TableHint.spelling_eq_of_ofWord? hf
      rw [hword, Word.count_name (show Text.upper t.current.text = Text.upper found.spelling by
        rw [hupper found found.mem_all, hspelling])]
      simp
    · cases hf
  · exact unexpected trivial

theorem accounts_hints (bare : Bool) : (Grammar.hints bare : Rule n (List TableHint)).Accounts
    (fun _ _ _ => True) Word.hinted := by
  intro s t m h
  refine (spend_eat (.keyword .WITH) rfl h).bind fun introduced u hu => ?_
  have hu : s.Spends u m := by
    obtain ⟨-, hu⟩ | ⟨-, rfl, -⟩ := hu
    · exact hu.cast (by simp [Kind.word])
    · exact h
  have hlist : (do
      let _ ← Rule.expect (.mark .leftParen)
      let found ← Rule.commaSeparated Grammar.hint
      let _ ← Rule.expect (.mark .rightParen)
      return found : Rule n (List TableHint)).Ensures u
        (fun found v => True ∧ s.Spends v (m + Word.bag (Word.hinted found))) True := by
    refine (spend_expect (.mark .leftParen) rfl hu).bind fun _ v hv => ?_
    refine (accounts_commaSeparated accounts_hint hv).bind fun found w hw => ?_
    obtain ⟨⟨hne, -⟩, hw⟩ := hw
    refine spend_close hw fun x hx => pure ⟨trivial, hx.cast ?_⟩
    rw [Word.hinted, if_neg hne, Word.bag_cons, Word.count_with, zero_add]
  refine kind ?_
  split
  · exact hlist
  · exact pure ⟨trivial, hu.cast (by simp [Word.hinted])⟩

end Rule.Ensures

end Transact
