import Transact.Proofs.Count.Stream
import Transact.Proofs.Syntax.Begin

namespace Transact

namespace Stream

structure Holds (s : Stream) (ws : List Word) : Prop where
  ends : s.Ends
  fault : s.fault = none
  words : s.words = ws

def Stuck (s : Stream) : Prop := s.current.kind.beginsOperand = true

namespace Holds

variable {s t : Stream} {w : Word} {ws vs : List Word}

theorem cast (h : s.Holds ws) (he : ws = vs) : s.Holds vs := he ▸ h

theorem kind (h : s.Holds ws) : s.current.kind = Word.headKind ws := by
  rw [← h.words, headKind_words]

theorem ne_eof (h : s.Holds (w :: ws)) : s.current.kind ≠ .eof := by
  intro hk
  have hw := h.words
  rw [words_of_eof hk] at hw
  cases hw

theorem word_current (h : s.Holds (w :: ws)) : s.current.word = w := by
  have hw := h.words
  rw [Stream.words, if_neg h.ne_eof, List.map_cons] at hw
  exact (List.cons.inj hw).1

theorem advance (h : s.Holds (w :: ws)) (ht : s.advance = .ok t) : t.Holds ws := by
  obtain ⟨hends, hwords, hfault⟩ := h.ends.advance ht h.ne_eof
  refine ⟨hends, hfault.trans h.fault, ?_⟩
  rw [h.words] at hwords
  exact (List.cons.inj hwords).2.symm

theorem advance_ne_error (h : s.Holds (w :: ws)) {e : LexicalError} : s.advance ≠ .error e := by
  intro he
  simp only [Stream.advance] at he
  split at he
  · cases he
  · rename_i hf
    rw [h.fault] at hf
    cases hf
  · cases he

theorem exists_advance (h : s.Holds (w :: ws)) : ∃ t, s.advance = .ok t ∧ t.Holds ws := by
  cases ht : s.advance with
  | ok t => exact ⟨t, rfl, h.advance ht⟩
  | error e => exact absurd ht h.advance_ne_error

end Holds

theorem Stuck.ne {s : Stream} (h : s.Stuck) {k : Kind} (hk : k.beginsOperand = false) :
    s.current.kind ≠ k := by
  rintro rfl
  exact Bool.false_ne_true (hk.symm.trans h)

end Stream

theorem Word.listed_cons (ws : List Word) (wss : List (List Word)) :
    listed (ws :: wss) = ws ++ (wss.map (mark .comma :: ·)).flatten := by
  induction wss generalizing ws with
  | nil => simp [listed]
  | cons vs wss ih =>
      rw [listed, ih, List.map_cons, List.flatten_cons, List.cons_append]
      exact List.cons_ne_nil _ _

theorem Word.headKind_commas (wss : List (List Word)) (ws : List Word) :
    headKind ((wss.map (mark .comma :: ·)).flatten ++ ws) = .mark .comma ∨
      headKind ((wss.map (mark .comma :: ·)).flatten ++ ws) = headKind ws := by
  cases wss with
  | nil => exact .inr rfl
  | cons vs wss => exact .inl rfl

namespace Rule

variable {α β γ : Type} {n : Nat}

/-- On the words of a value that admits what follows them, the rule succeeds exactly if `C` holds of
the value, and it reads a value with the same image under `f`. -/
def Replays (p : Rule n α) (A : α → Kind → Prop) (W : α → List Word) (C : α → Prop)
    (f : α → β) : Prop :=
  ∀ ⦃v : α⦄ ⦃ws : List Word⦄ ⦃s : Stream⦄, A v (Word.headKind ws) → s.Holds (W v ++ ws) →
    p.Ensures s (fun u t => C v ∧ f u = f v ∧ t.Holds ws) (¬C v)

/-- The rule replays its values, but where `C` does not hold it may also get stuck. -/
def Sticks (p : Rule n α) (A : α → Kind → Prop) (W : α → List Word) (C : α → Prop)
    (f : α → β) : Prop :=
  ∀ ⦃v : α⦄ ⦃ws : List Word⦄ ⦃s : Stream⦄, A v (Word.headKind ws) → s.Holds (W v ++ ws) →
    p.Ensures s (fun u t => (C v ∧ f u = f v ∧ t.Holds ws) ∨ (¬C v ∧ t.Stuck)) (¬C v)

variable {A : α → Kind → Prop} {W : α → List Word} {C : α → Prop} {f : α → β}

theorem Replays.sticks {p : Rule n α} (h : p.Replays A W C f) : p.Sticks A W C f :=
  fun _ _ _ ha hs => (h ha hs).imp fun _ _ => .inl

namespace Ensures

variable {s : Stream} {fault c : Prop} {post : α → Stream → Prop} {w : Word} {ws : List Word}
variable {k : Kind}

theorem holds_expect (h : s.Holds (w :: ws)) (hk : w.1 = k) :
    (Rule.expect k : Rule n Token).Ensures s (fun _ t => t.Holds ws) fault :=
  expect (fun _ _ ht => h.advance ht) (fun hne => absurd (h.kind.trans hk) hne)
    fun _ he => absurd he h.advance_ne_error

theorem holds_eat {f : Bool → Rule n α} (h : s.Holds (w :: ws)) (hk : w.1 = k)
    (hf : ∀ t, t.Holds ws → (f true).Ensures t post fault) :
    (Rule.eat k >>= f).Ensures s post fault := by
  refine Ensures.bind (m := fun found t => found = true ∧ t.Holds ws) ?_ ?_
  · exact eat (fun _ _ ht => ⟨rfl, h.advance ht⟩) (fun hne => absurd (h.kind.trans hk) hne)
      fun _ he => absurd he h.advance_ne_error
  · rintro _ t ⟨rfl, ht⟩
    exact hf t ht

theorem eat_miss {f : Bool → Rule n α} (hk : s.current.kind ≠ k)
    (hf : (f false).Ensures s post fault) : (Rule.eat k >>= f).Ensures s post fault := by
  refine Ensures.bind (m := fun found t => found = false ∧ t = s) (Ensures.kind ?_) ?_
  · rw [if_neg hk]
    exact pure ⟨rfl, rfl⟩
  · rintro _ _ ⟨rfl, rfl⟩
    exact hf

theorem holds_advance (h : s.Holds (w :: ws)) :
    (Rule.advance : Rule n Token).Ensures s (fun token t => token.word = w ∧ t.Holds ws) fault :=
  advance (fun _ ht => ⟨h.word_current, h.advance ht⟩) fun _ he => absurd he h.advance_ne_error

theorem holds_take {f : Token → Rule n α} (h : s.Holds (w :: ws))
    (hf : ∀ t, t.Holds ws → (f s.current).Ensures t post fault) :
    (Rule.take f).Ensures s post fault :=
  take (fun t _ ht => hf t (h.advance ht)) (fun hk => absurd hk h.ne_eof)
    fun _ he => absurd he h.advance_ne_error

theorem holds_begin {f : Token → Rule n α} (h : s.Holds (w :: ws)) (hk : w.1 = k)
    (hf : ∀ t, t.Holds ws → (f s.current).Ensures t post fault) :
    (Rule.begin k f).Ensures s post fault := by
  refine Ensures.kind ?_
  rw [if_pos (h.kind.trans hk)]
  exact holds_take h hf

theorem expect_stuck {post : Token → Stream → Prop} (h : s.Stuck) (hk : k.beginsOperand = false)
    (hf : fault) : (Rule.expect k : Rule n Token).Ensures s post fault :=
  expect (fun he => absurd he (h.ne hk)) (fun _ => hf) fun _ _ => hf

/-- A part of a rule that succeeds exactly if `C` holds, where `C` follows from what the whole rule
succeeds with. -/
theorem follow {p : Rule n γ} {f : γ → Rule n α} {C : Prop} {post' : γ → Stream → Prop}
    (h : p.Ensures s (fun v t => C ∧ post' v t) (¬C)) (hc : c → C)
    (hf : ∀ v t, C → post' v t → (f v).Ensures t post (¬c)) :
    (p >>= f).Ensures s post (¬c) :=
  bind (h.mono (fun _ _ => id) (mt hc)) fun v t hv => hf v t hv.1 hv.2

theorem follow_stuck {p : Rule n γ} {f : γ → Rule n α} {C : Prop} {post' : γ → Stream → Prop}
    (h : p.Ensures s (fun v t => (C ∧ post' v t) ∨ (¬C ∧ t.Stuck)) (¬C)) (hc : c → C)
    (hf : ∀ v t, C → post' v t → (f v).Ensures t post (¬c))
    (hs : ∀ v t, ¬c → t.Stuck → (f v).Ensures t post (¬c)) :
    (p >>= f).Ensures s post (¬c) := by
  refine bind (h.mono (fun _ _ => id) (mt hc)) fun v t hv => ?_
  obtain ⟨hC, hv⟩ | ⟨hC, hv⟩ := hv
  · exact hf v t hC hv
  · exact hs v t (mt hc hC) hv

theorem follow_closed {p : Rule n γ} {f : γ → Rule n α} {C : Prop} {P : γ → Prop}
    (h : p.Ensures s (fun v t => (C ∧ P v ∧ t.Holds (Word.mark .rightParen :: ws)) ∨
      (¬C ∧ t.Stuck)) (¬C)) (hc : c → C)
    (hf : ∀ v t, C → P v → t.Holds ws → (f v).Ensures t post (¬c)) :
    (do let v ← p; let _ ← Rule.expect (.mark .rightParen); f v).Ensures s post (¬c) := by
  refine follow_stuck h hc (fun v t hC hv => ?_) fun v t hn hs => ?_
  · exact (holds_expect hv.2 rfl).bind fun _ u hu => hf v u hC hv.1 hu
  · exact (expect_stuck hs rfl hn).bind fun _ _ => False.elim

/-- Where the items `vs` are read behind `us`, or a rule got stuck on one of them. -/
def Lists (C : α → Prop) (f : α → β) (us vs : List α) (ws : List Word) (xs : List α)
    (t : Stream) : Prop :=
  ((∀ v ∈ vs, C v) ∧ xs.map f = us.map f ++ vs.map f ∧ t.Holds ws) ∨
    (¬(∀ v ∈ vs, C v) ∧ t.Stuck)

theorem lists_cons {p : Rule n (List α)} {us vs : List α} {u v : α} (hv : C v) (hu : f u = f v)
    (h : p.Ensures s (Lists C f (us ++ [u]) vs ws) (¬∀ x ∈ vs, C x)) :
    p.Ensures s (Lists C f us (v :: vs) ws) (¬∀ x ∈ v :: vs, C x) := by
  have hiff : (∀ x ∈ v :: vs, C x) ↔ ∀ x ∈ vs, C x := by simp [hv]
  refine h.mono ?_ (mt hiff.1)
  rintro xs t (⟨hall, hmap, hheld⟩ | ⟨hall, hstuck⟩)
  · refine .inl ⟨hiff.2 hall, ?_, hheld⟩
    rw [hmap, List.map_append, List.append_assoc, List.map_singleton, hu]
    rfl
  · exact .inr ⟨mt hiff.1 hall, hstuck⟩

theorem loop_commas {item : Rule n α} (hitem : item.Sticks A W C f) {vs us : List α}
    (hws : Word.headKind ws ≠ .mark .comma)
    (ha : ∀ v ∈ vs, A v (.mark .comma) ∧ A v (Word.headKind ws))
    (h : s.Holds (((vs.map W).map (Word.mark .comma :: ·)).flatten ++ ws)) :
    Ensures (Rule.loop (fun items k =>
      if k = .mark .comma then some fun _ => return items ++ [← item] else none) us) s
      (Lists C f us vs ws) (¬∀ v ∈ vs, C v) := by
  induction vs generalizing us s with
  | nil =>
      refine loop_stop (if_neg ?_) (.inl ⟨by simp, by simp, h⟩)
      rw [h.kind]
      exact hws
  | cons v vs ih =>
      rw [List.map_cons, List.map_cons, List.flatten_cons, List.cons_append, List.cons_append,
        List.append_assoc] at h
      obtain ⟨t, ht, hh⟩ := h.exists_advance
      have hnext := ha v (by simp)
      refine loop_step (if_pos h.kind) h.ne_eof ht (follow_stuck (hitem ?_ hh)
        (fun hc => hc v (by simp)) (fun u t' hv hu => ?_) fun u t' hv hu => ?_)
      · obtain hk | hk := Word.headKind_commas (vs.map W) ws <;> rw [hk]
        · exact hnext.1
        · exact hnext.2
      · exact pure (lists_cons hv hu.1 (ih (fun x hx => ha x (by simp [hx])) hu.2))
      · exact pure (loop_stop (if_neg (hu.ne rfl)) (.inr ⟨hv, hu⟩))

theorem sticks_commaSeparated {item : Rule n α} (hitem : item.Sticks A W C f) :
    (Rule.commaSeparated item).Sticks
      (fun vs k => vs ≠ [] ∧ k ≠ .mark .comma ∧ ∀ v ∈ vs, A v (.mark .comma) ∧ A v k)
      (fun vs => Word.listed (vs.map W)) (fun vs => ∀ v ∈ vs, C v) (List.map f) := by
  rintro vs ws s ⟨hne, hws, ha⟩ h
  obtain ⟨v, vs, rfl⟩ := List.exists_cons_of_ne_nil hne
  dsimp only at h ⊢
  rw [List.map_cons, Word.listed_cons, List.append_assoc] at h
  have hnext := ha v (by simp)
  refine follow_stuck (hitem ?_ h) (fun hc => hc v (by simp)) (fun u t hv hu => ?_)
    fun u t hv hu => ?_
  · obtain hk | hk := Word.headKind_commas (vs.map W) ws <;> rw [hk]
    · exact hnext.1
    · exact hnext.2
  · change Ensures _ t (Lists C f [] (v :: vs) ws) _
    exact lists_cons hv hu.1 (loop_commas hitem hws (fun x hx => ha x (by simp [hx])) hu.2)
  · exact loop_stop (if_neg (hu.ne rfl)) (.inr ⟨hv, hu⟩)

theorem holds_commaSeparated {item : Rule n α} (hitem : item.Replays A W (fun _ => True) f)
    {vs : List α} (hne : vs ≠ []) (hws : Word.headKind ws ≠ .mark .comma)
    (ha : ∀ v ∈ vs, A v (.mark .comma) ∧ A v (Word.headKind ws))
    (h : s.Holds (Word.listed (vs.map W) ++ ws)) :
    (Rule.commaSeparated item).Ensures s
      (fun us t => us.map f = vs.map f ∧ t.Holds ws) fault := by
  refine (sticks_commaSeparated hitem.sticks ⟨hne, hws, ha⟩ h).mono ?_
    fun hno => absurd (fun _ _ => trivial) hno
  rintro us t (⟨-, hus⟩ | ⟨hno, -⟩)
  · exact hus
  · exact absurd (fun _ _ => trivial) hno

end Ensures

end Rule

end Transact
