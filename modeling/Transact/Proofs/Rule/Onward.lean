import Transact.Proofs.Rule.Built

namespace Transact

def SyntaxError.found? : SyntaxError → Option Token
  | unexpected found => some found
  | expected _ found => some found
  | lexical _ => none

def ConstantType.holds : ConstantType → Value → Bool
  | .int, .int _ | .bigInt, .bigInt _ | .numeric, .numeric _ | .real, .real _ => true
  | .varchar, .text _ | .nvarchar, .text _ => true
  | _, _ => false

namespace Token

def IsValued (t : Token) : Prop := ∀ type, t.kind = .constant type → type.holds t.value = true

theorem isValued_eof (place : Place) : (eof place).IsValued := by
  intro type h
  cases h

theorem IsValued.exists_constant {t : Token} {type : ConstantType} (h : t.IsValued)
    (hk : t.kind = .constant type) : ∃ c, Constant.ofToken? t = some c := by
  obtain ⟨kind, place, value⟩ := t
  cases hk
  have hv := h type rfl
  cases type <;> cases value <;> first | exact ⟨_, rfl⟩ | cases hv

end Token

namespace Stream

inductive Reaches (s : Stream) : Stream → Prop where
  | refl : Reaches s s
  | advance {t u : Stream} (h : Reaches s t) (ha : t.advance = .ok u) : Reaches s u

inductive Onward (s : Stream) : Stream → Prop where
  | refl : Onward s s
  | advance {t u : Stream} (h : Onward s t) (ha : t.advance = .ok u) : Onward s u
  | fault {t : Stream} {e : LexicalError} (h : Onward s t) (ha : t.advance = .error e) :
      Onward s t.withoutFault

def IsValued (s : Stream) : Prop := ∀ t ∈ s.current :: s.upcoming, t.IsValued

variable {s t u : Stream}

theorem Reaches.trans (h : s.Reaches t) (h' : t.Reaches u) : s.Reaches u := by
  induction h' with
  | refl => exact h
  | advance _ ha ih => exact ih.advance ha

theorem Reaches.onward (h : s.Reaches t) : s.Onward t := by
  induction h with
  | refl => exact .refl
  | advance _ ha ih => exact ih.advance ha

theorem Onward.trans (h : s.Onward t) (h' : t.Onward u) : s.Onward u := by
  induction h' with
  | refl => exact h
  | advance _ ha ih => exact ih.advance ha
  | fault _ ha ih => exact ih.fault ha

/-- A stream moves to the token that comes next, or from the last one to the end of the input. -/
theorem advance_cases (h : s.advance = .ok t) :
    (∃ x xs, s.upcoming = x :: xs ∧ t = ⟨x, xs, s.fault⟩) ∨
      s.upcoming = [] ∧ s.fault = none ∧ t = ⟨.eof s.current.place, [], none⟩ := by
  simp only [Stream.advance] at h
  split at h
  · rename_i hup
    cases h
    exact .inl ⟨_, _, hup, rfl⟩
  · cases h
  · rename_i hup hfault
    cases h
    exact .inr ⟨hup, hfault, rfl⟩

theorem IsValued.advance (h : s.IsValued) (ha : s.advance = .ok t) : t.IsValued := by
  obtain ⟨x, xs, hup, rfl⟩ | ⟨-, -, rfl⟩ := advance_cases ha
  · intro y hy
    exact h y (List.mem_cons_of_mem _ (hup ▸ hy))
  · intro y hy
    rw [List.mem_singleton.1 hy]
    exact Token.isValued_eof _

theorem IsValued.reaches (h : s.IsValued) (hr : s.Reaches t) : t.IsValued := by
  induction hr with
  | refl => exact h
  | advance _ ha ih => exact ih.advance ha

end Stream

namespace Outcome

variable {α : Type} {j k : Nat} {s t : Stream}

def rest : Outcome α k → Stream
  | .ok _ rest _ => rest
  | .error _ rest => rest

theorem rest_weaken (h : j ≤ k) (o : Outcome α j) : (o.weaken h).rest = o.rest := by cases o <;> rfl

inductive ReachedFrom (s : Stream) : Outcome α k → Prop where
  | ok {v : α} {t : Stream} {le : t.size ≤ k} (h : s.Reaches t) : ReachedFrom s (.ok v t le)
  | blame {e : SyntaxError} {t : Stream} {found : Token} (h : s.Reaches t)
      (he : e.found? = some found) (hat : s.IsValued → found = t.current) :
      ReachedFrom s (.error e t)
  | lexical {e : LexicalError} {t : Stream} (h : s.Reaches t) (ha : t.advance = .error e) :
      ReachedFrom s (.error (.lexical e) t.withoutFault)

theorem ReachedFrom.weaken {o : Outcome α j} (h : o.ReachedFrom s) (hj : j ≤ k) :
    (o.weaken hj).ReachedFrom s := by
  cases h with
  | ok h => exact .ok h
  | blame h he hat => exact .blame h he hat
  | lexical h ha => exact .lexical h ha

theorem ReachedFrom.before {o : Outcome α k} (hs : s.Reaches t) (h : o.ReachedFrom t) :
    o.ReachedFrom s := by
  cases h with
  | ok h => exact .ok (hs.trans h)
  | blame h he hat => exact .blame (hs.trans h) he fun hv => hat (hv.reaches hs)
  | lexical h ha => exact .lexical (hs.trans h) ha

theorem ReachedFrom.onward {o : Outcome α k} (h : o.ReachedFrom s) : s.Onward o.rest := by
  cases h with
  | ok h => exact h.onward
  | blame h _ _ => exact h.onward
  | lexical h ha => exact h.onward.fault ha

end Outcome

namespace Grammar

variable {n : Nat} {s t : Stream}

theorem constant_eq_error {e : LexicalError} (ha : s.advance = .error e) (hs : s.size < n) :
    constant s hs = .error (.lexical e) s.withoutFault := by
  rw [constant, Rule.bind_eq, Rule.advance_eq_error ha]

theorem constant_eq_some {c : Constant} (ha : s.advance = .ok t)
    (hc : Constant.ofToken? s.current = some c) (hs : s.size < n) :
    constant s hs = .ok (.constant s.current c) t (Stream.size_advance_le ha) := by
  rw [constant, Rule.bind_eq, Rule.advance_eq_ok ha]
  simp only [hc]
  rfl

theorem constant_eq_none (ha : s.advance = .ok t) (hc : Constant.ofToken? s.current = none)
    (hs : s.size < n) : constant s hs = .error (.unexpected s.current) t := by
  rw [constant, Rule.bind_eq, Rule.advance_eq_ok ha]
  simp only [hc]
  rfl

end Grammar

namespace Rule

variable {α β : Type} {n : Nat}

def Reads (p : Rule n α) : Prop := ∀ s hs, (p s hs).ReachedFrom s

namespace Reads

theorem pure (v : α) : Reads (Pure.pure v : Rule n α) := fun _ _ => .ok .refl

theorem unexpected : Reads (Rule.unexpected : Rule n α) := fun _ _ => .blame .refl rfl fun _ => rfl

theorem expected (what : Expectation) : Reads (Rule.expected what : Rule n α) :=
  fun _ _ => .blame .refl rfl fun _ => rfl

theorem advance : Reads (Rule.advance : Rule n Token) := by
  intro s hs
  cases ha : s.advance with
  | ok t =>
      rw [advance_eq_ok ha]
      exact .ok (.advance .refl ha)
  | error e =>
      rw [advance_eq_error ha]
      exact .lexical .refl ha

theorem bind {p : Rule n α} {f : α → Rule n β} (hp : Reads p) (hf : ∀ v, Reads (f v)) :
    Reads (p >>= f) := by
  intro s hs
  have hreached := hp s hs
  rw [bind_eq]
  generalize p s hs = o at hreached ⊢
  cases hreached with
  | ok h => exact ((hf _ _ _).before h).weaken _
  | blame h he hat => exact .blame h he hat
  | lexical h ha => exact .lexical h ha

theorem literal : Reads (Grammar.literal : Rule n Expression) := by
  intro s hs
  rw [Grammar.literal, kind_bind_eq]
  cases hk : s.current.kind with
  | constant type =>
      change (Grammar.constant s hs).ReachedFrom s
      cases ha : s.advance with
      | error e =>
          rw [Grammar.constant_eq_error ha]
          exact .lexical .refl ha
      | ok t =>
          cases hc : Constant.ofToken? s.current with
          | some c =>
              rw [Grammar.constant_eq_some ha hc]
              exact .ok (.advance .refl ha)
          | none =>
              rw [Grammar.constant_eq_none ha hc]
              refine .blame (.advance .refl ha) rfl fun hv => ?_
              obtain ⟨c, hc'⟩ := (hv s.current (List.mem_cons_self ..)).exists_constant hk
              cases hc.symm.trans hc'
  | _ => exact unexpected s hs

theorem take {f : Token → Rule n α} (hf : ∀ t, Reads (f t)) : Reads (Rule.take f) := by
  intro s hs
  by_cases hk : s.current.kind = .eof
  · rw [Rule.take, dif_pos hk]
    exact unexpected s hs
  · cases ha : s.advance with
    | error e =>
        rw [take_eq_error hk ha]
        exact .lexical .refl ha
    | ok t =>
        rw [take_eq_ok hk ha]
        exact ((hf s.current t _).before (.advance .refl ha)).weaken _

end Reads

theorem Built.reads {p : Rule n α} (h : Built p) : Reads p := by
  induction h with
  | pure v => exact .pure v
  | current => exact fun _ _ => .ok .refl
  | advance => exact .advance
  | unexpected => exact .unexpected
  | expected what => exact .expected what
  | literal => exact .literal
  | bind _ _ ihp ihf => exact ihp.bind ihf
  | take _ ihf => exact .take ihf

/-- A built rule leaves a stream that lies onward, also when it fails. -/
theorem Built.onward {p : Rule n α} (h : Built p) (s : Stream) (hs : s.size < n) :
    s.Onward (p s hs).rest := (h.reads s hs).onward

end Rule

end Transact
