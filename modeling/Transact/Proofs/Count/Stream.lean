import Mathlib.Tactic.Abel
import Transact.Proofs.Count.Basic
import Transact.Proofs.Rule.Ensures
import Transact.Proofs.Syntax.Formed

namespace Transact

namespace Stream

def words (s : Stream) : List Word :=
  if s.current.kind = .eof then [] else (s.current :: s.upcoming).map Token.word

structure Ends (s : Stream) : Prop where
  upcoming : ∀ t ∈ s.upcoming, t.kind ≠ .eof
  atEnd : s.current.kind = .eof → s.upcoming = [] ∧ s.fault = none

theorem words_of_eof {s : Stream} (h : s.current.kind = .eof) : s.words = [] := if_pos h

theorem headKind_words (s : Stream) : Word.headKind s.words = s.current.kind := by
  rw [words]
  split
  · rename_i h
    exact h.symm
  · rfl

theorem Ends.advance {s t : Stream} (h : s.Ends) (ht : s.advance = .ok t)
    (hk : s.current.kind ≠ .eof) :
    t.Ends ∧ s.words = s.current.word :: t.words ∧ t.fault = s.fault := by
  simp only [Stream.advance] at ht
  split at ht
  · rename_i fault u us hu
    cases ht
    have hne := h.upcoming
    rw [hu] at hne
    have hk' : u.kind ≠ .eof := hne u (by simp)
    refine ⟨⟨fun v hv => hne v (List.mem_cons_of_mem _ hv), fun he => absurd he hk'⟩, ?_, rfl⟩
    simp [words, hk, hk', hu]
  · cases ht
  · rename_i hu hf
    cases ht
    refine ⟨⟨by simp, fun _ => ⟨rfl, rfl⟩⟩, ?_, hf.symm⟩
    simp [words, hk, hu, Token.eof]

structure Spends (s t : Stream) (m : Multiset Word) : Prop where
  ends : t.Ends
  isLexical : ∀ w ∈ t.words, w.IsLexical
  fault : t.fault = s.fault
  bag : Word.bag s.words = m + Word.bag t.words

namespace Spends

variable {s t u : Stream} {m k : Multiset Word}

theorem cast (h : s.Spends t m) (he : m = k) : s.Spends t k := he ▸ h

theorem refl (h : s.Spends t m) : t.Spends t 0 where
  ends := h.ends
  isLexical := h.isLexical
  fault := rfl
  bag := (zero_add _).symm

theorem trans (h : s.Spends t m) (h' : t.Spends u k) : s.Spends u (m + k) where
  ends := h'.ends
  isLexical := h'.isLexical
  fault := h'.fault.trans h.fault
  bag := by rw [h.bag, h'.bag, add_assoc]

theorem isLexical_current (h : s.Spends t m) (hk : t.current.kind ≠ .eof) :
    t.current.word.IsLexical := by
  refine h.isLexical _ ?_
  simp [words, hk]

theorem step (h : s.Spends t m) (hk : t.current.kind ≠ .eof) (hu : t.advance = .ok u) :
    s.Spends u (m + Word.count t.current.word) := by
  obtain ⟨hends, hwords, hfault⟩ := h.ends.advance hu hk
  refine ⟨hends, fun w hw => h.isLexical w ?_, hfault.trans h.fault, ?_⟩
  · rw [hwords]
    exact List.mem_cons_of_mem _ hw
  · rw [h.bag, hwords, Word.bag_cons, add_assoc]

theorem step_fixed (kind : Kind) (hf : kind.isFixed = true) (h : s.Spends t m)
    (hk : t.current.kind = kind) (hu : t.advance = .ok u) :
    s.Spends u (m + Word.count kind.word) := by
  have hne : t.current.kind ≠ .eof := by
    rintro he
    rw [← hk, he] at hf
    cases hf
  have hl := h.isLexical_current hne
  have hcount := hl.count_eq (show t.current.kind.isFixed = true by rw [hk]; exact hf)
  rw [show t.current.word.1 = kind from hk] at hcount
  rw [← hcount]
  exact h.step hne hu

end Spends

end Stream

/-- A success takes the tokens that the words `W` of the value account for, and `P` holds of the
stream before them, the value and the stream behind them. -/
def Rule.Accounts {α : Type} {n : Nat} (p : Rule n α) (P : Stream → α → Stream → Prop)
    (W : α → List Word) : Prop :=
  ∀ ⦃s t : Stream⦄ ⦃m : Multiset Word⦄, s.Spends t m →
    p.Ensures t (fun v u => P t v u ∧ s.Spends u (m + Word.bag (W v))) True

theorem Rule.Accounts.imp {α : Type} {n : Nat} {p : Rule n α} {P Q : Stream → α → Stream → Prop}
    {W : α → List Word} (h : p.Accounts P W) (hq : ∀ t v u, P t v u → Q t v u) : p.Accounts Q W :=
  fun _ _ _ hs => (h hs).imp fun _ _ hv => ⟨hq _ _ _ hv.1, hv.2⟩

namespace Rule.Ensures

variable {α : Type} {n : Nat} {s t : Stream} {m : Multiset Word}

theorem spend_expect (kind : Kind) (hf : kind.isFixed = true) (h : s.Spends t m) :
    (Rule.expect kind : Rule n Token).Ensures t
      (fun _ u => s.Spends u (m + Word.count kind.word)) True :=
  expect (fun hk _ hu => h.step_fixed kind hf hk hu) (fun _ => trivial) fun _ _ => trivial

/-- Words between parentheses, and the rest `p` of a rule behind the second one. -/
theorem spend_close {ws : List Word} {p : Rule n α} {post : α → Stream → Prop}
    (h : s.Spends t (m + Word.count (Word.mark .leftParen) + Word.bag ws))
    (hp : ∀ u, s.Spends u (m + Word.bag (Word.enclosed ws)) → p.Ensures u post True) :
    (Rule.expect (.mark .rightParen) >>= fun _ => p).Ensures t post True := by
  refine (spend_expect (.mark .rightParen) rfl h).bind fun _ u hu => hp u (hu.cast ?_)
  rw [Word.bag_enclosed]
  simp only [Kind.word]
  abel

theorem spend_eat (kind : Kind) (hf : kind.isFixed = true) (h : s.Spends t m) :
    (Rule.eat kind : Rule n Bool).Ensures t
      (fun found u => (found = true ∧ s.Spends u (m + Word.count kind.word)) ∨
        (found = false ∧ u = t ∧ t.current.kind ≠ kind)) True :=
  eat (fun hk _ hu => .inl ⟨rfl, h.step_fixed kind hf hk hu⟩) (fun hk => .inr ⟨rfl, rfl, hk⟩)
    fun _ _ => trivial

theorem spend_advance (hk : t.current.kind ≠ .eof) (h : s.Spends t m) :
    (Rule.advance : Rule n Token).Ensures t
      (fun token u => token = t.current ∧ s.Spends u (m + Word.count t.current.word)) True :=
  advance (fun _ hu => ⟨rfl, h.step hk hu⟩) fun _ _ => trivial

theorem spend_advance_fixed (kind : Kind) (hf : kind.isFixed = true) (hk : t.current.kind = kind)
    (h : s.Spends t m) :
    (Rule.advance : Rule n Token).Ensures t
      (fun _ u => s.Spends u (m + Word.count kind.word)) True :=
  advance (fun _ hu => h.step_fixed kind hf hk hu) fun _ _ => trivial

theorem spend_take {f : Token → Rule n α} {post : α → Stream → Prop} (h : s.Spends t m)
    (hf : ∀ u, s.Spends u (m + Word.count t.current.word) → (f t.current).Ensures u post True) :
    (Rule.take f).Ensures t post True :=
  take (fun u hk hu => hf u (h.step hk hu)) (fun _ => trivial) fun _ _ => trivial

theorem accounts_commaSeparated {item : Rule n α} {P : α → Prop} {W : α → List Word}
    (hitem : item.Accounts (fun _ v _ => P v) W) :
    (Rule.commaSeparated item).Accounts (fun _ vs _ => vs ≠ [] ∧ ∀ v ∈ vs, P v)
      (fun vs => Word.listed (vs.map W)) := by
  intro s t m h
  refine (hitem h).bind fun first u hu => ?_
  refine imp (loop (fun vs u => (vs ≠ [] ∧ ∀ v ∈ vs, P v) ∧
    s.Spends u (m + Word.bag (Word.listed (vs.map W)))) ?_ ?_) fun _ _ hv => hv.1
  · rintro vs u f w ⟨⟨hne, hall⟩, hspent⟩ hstep hk hw
    split at hstep
    · rename_i hcomma
      cases hstep
      have hcomma := hspent.step_fixed (.mark .comma) rfl hcomma hw
      refine (hitem hcomma).bind fun v w hv => pure ⟨⟨by simp, ?_⟩, hv.2.cast ?_⟩
      · simp only [List.mem_append, List.mem_singleton]
        rintro x (hx | rfl)
        · exact hall x hx
        · exact hv.1
      · rw [List.map_append, List.map_singleton, Word.bag_listed_concat (by simpa using hne)]
        simp only [add_assoc]
        rfl
    · cases hstep
  · exact ⟨⟨by simp, by simpa using hu.1⟩, by simpa [Word.listed] using hu.2⟩

end Rule.Ensures

end Transact
