import Transact.Grammar.Rule

namespace Transact

/-- Induction on the number of tokens that are left. -/
theorem Stream.bySize {motive : Stream → Prop}
    (step : ∀ s, (∀ t : Stream, t.size < s.size → motive t) → motive s) (s : Stream) : motive s :=
  (measure Stream.size).wf.induction s step

namespace Rule

variable {α ω : Type} {n : Nat} {s t : Stream} {v : α} {e : LexicalError}

theorem ne_eof_of_operator {operator : Kind → Option ω} (heof : operator .eof = none) {op : ω}
    (h : operator s.current.kind = some op) : s.current.kind ≠ .eof := by
  intro hk
  rw [hk, heof] at h
  cases h

theorem advance_eq_ok (h : s.advance = .ok t) (hs : s.size < n) :
    advance s hs = .ok s.current t (Stream.size_advance_le h) := by
  simp only [advance]
  split
  · rename_i u hu
    cases h.symm.trans hu
    rfl
  · rename_i e he
    cases h.symm.trans he

theorem advance_eq_error (h : s.advance = .error e) (hs : s.size < n) :
    advance s hs = .error (.lexical e) s.withoutFault := by
  simp only [advance]
  split
  · rename_i u hu
    cases h.symm.trans hu
  · rename_i e' he
    cases h.symm.trans he
    rfl

theorem take_eq_ok {f : Token → Rule n α} (hk : s.current.kind ≠ .eof) (ht : s.advance = .ok t)
    (hs : s.size < n + 1) :
    take f s hs =
      (f s.current t (Nat.lt_of_lt_of_le (Stream.size_advance_lt ht hk)
        (Nat.le_of_lt_succ hs))).weaken
        (Nat.le_of_lt (Stream.size_advance_lt ht hk)) := by
  simp only [take, hk, dif_neg, not_false_eq_true]
  split
  · rename_i u hu
    cases ht.symm.trans hu
    rfl
  · rename_i e he
    cases ht.symm.trans he

theorem take_eq_error {f : Token → Rule n α} (hk : s.current.kind ≠ .eof)
    (he : s.advance = .error e) (hs : s.size < n + 1) :
    take f s hs = .error (.lexical e) s.withoutFault := by
  simp only [take, hk, dif_neg, not_false_eq_true]
  split
  · rename_i u hu
    cases he.symm.trans hu
  · rename_i e' he'
    cases he.symm.trans he'
    rfl

variable {step : α → Kind → Option (Token → Rule n α)} {f : Token → Rule n α}

theorem loop_eq_none (h : step v s.current.kind = none) (hs : s.size < n) :
    loop step v s hs = .ok v s (Nat.le_refl _) := by
  rw [loop]
  split
  · rfl
  · rename_i f hf
    cases h.symm.trans hf

theorem loop_eq_eof (h : s.current.kind = .eof) (hs : s.size < n) :
    loop step v s hs = .ok v s (Nat.le_refl _) := by
  rw [loop]
  split
  · rfl
  · rw [dif_pos h]

theorem loop_eq_error (h : step v s.current.kind = some f) (hk : s.current.kind ≠ .eof)
    (he : s.advance = .error e) (hs : s.size < n) :
    loop step v s hs = .error (.lexical e) s.withoutFault := by
  rw [loop]
  split
  · rename_i hn
    cases h.symm.trans hn
  · rw [dif_neg hk]
    split
    · rename_i e' he'
      cases he.symm.trans he'
      rfl
    · rename_i u hu
      cases he.symm.trans hu

theorem loop_eq_ok (h : step v s.current.kind = some f) (hk : s.current.kind ≠ .eof)
    (ht : s.advance = .ok t) (hs : s.size < n) :
    loop step v s hs =
      match f s.current t (Nat.lt_trans (Stream.size_advance_lt ht hk) hs) with
      | .error e rest => .error e rest
      | .ok w rest le =>
        have lt := Nat.lt_of_le_of_lt le (Stream.size_advance_lt ht hk)
        (loop step w rest (Nat.lt_trans lt hs)).weaken (Nat.le_of_lt lt) := by
  rw [loop]
  split
  · rename_i hn
    cases h.symm.trans hn
  · rename_i g hg
    cases h.symm.trans hg
    rw [dif_neg hk]
    split
    · rename_i e he
      cases ht.symm.trans he
    · rename_i u hu
      cases ht.symm.trans hu
      rfl

variable {operator : Kind → Option ω} {tier : ω → Nat} {operand : Rule n α}
variable {join : Token → α → ω → α → α} {min : Nat} {op : ω}

theorem climb_eq_stop
    (h : ∀ op, operator s.current.kind = some op → tier op < min ∨ s.current.kind = .eof)
    (hs : s.size < n) :
    climb operator tier operand join min v s hs = .ok v s (Nat.le_refl _) := by
  rw [climb]
  split
  · rfl
  · rename_i op ho
    rw [dif_pos (h op ho)]

theorem climb_eq_error (h : operator s.current.kind = some op) (hm : min ≤ tier op)
    (hk : s.current.kind ≠ .eof) (he : s.advance = .error e) (hs : s.size < n) :
    climb operator tier operand join min v s hs = .error (.lexical e) s.withoutFault := by
  rw [climb]
  split
  · rename_i hn
    cases h.symm.trans hn
  · rename_i op' ho
    cases h.symm.trans ho
    rw [dif_neg (by simp [hk, hm])]
    split
    · rename_i e' he'
      cases he.symm.trans he'
      rfl
    · rename_i u hu
      cases he.symm.trans hu

theorem climb_eq_ok (h : operator s.current.kind = some op) (hm : min ≤ tier op)
    (hk : s.current.kind ≠ .eof) (ht : s.advance = .ok t) (hs : s.size < n) :
    climb operator tier operand join min v s hs =
      have lt := Stream.size_advance_lt ht hk
      match operand t (Nat.lt_trans lt hs) with
      | .error e rest => .error e rest
      | .ok right u le =>
        have lt := Nat.lt_of_le_of_lt le lt
        match climb operator tier operand join (tier op + 1) right u (Nat.lt_trans lt hs) with
        | .error e rest => .error e rest
        | .ok right w le =>
          have lt := Nat.lt_of_le_of_lt le lt
          (climb operator tier operand join min (join s.current v op right) w
            (Nat.lt_trans lt hs)).weaken (Nat.le_of_lt lt) := by
  rw [climb]
  split
  · rename_i hn
    cases h.symm.trans hn
  · rename_i op' ho
    cases h.symm.trans ho
    rw [dif_neg (by simp [hk, hm])]
    split
    · rename_i e he
      cases ht.symm.trans he
    · rename_i u hu
      cases ht.symm.trans hu
      rfl

variable {stop : Kind → Bool} {item : Rule n α} {shrinks : Shrinks item} {items : List α}
variable {rest : Stream}

theorem many_eq_stop (h : stop s.current.kind = true) (hs : s.size < n) :
    many stop item shrinks items s hs = .ok items s (Nat.le_refl _) := by
  rw [many, if_pos h]

theorem many_eq_error {e : SyntaxError} {hs : s.size < n} (h : ¬stop s.current.kind = true)
    (hi : item s hs = .error e rest) :
    many stop item shrinks items s hs = .error e rest := by
  rw [many, if_neg h]
  split
  · rename_i e' rest' he
    cases hi.symm.trans he
    rfl
  · rename_i value rest' le he
    cases hi.symm.trans he

theorem many_eq_ok {hs : s.size < n} {le : rest.size ≤ s.size} (h : ¬stop s.current.kind = true)
    (hi : item s hs = .ok v rest le) :
    many stop item shrinks items s hs =
      (many stop item shrinks (items ++ [v]) rest
        (Nat.lt_trans (shrinks s hs v rest le hi) hs)).weaken le := by
  rw [many, if_neg h]
  split
  · rename_i e rest' he
    cases hi.symm.trans he
  · rename_i value rest' le' he
    cases hi.symm.trans he
    rfl

end Rule

end Transact
