import Transact.Grammar.Parse
import Transact.Proofs.Rule.Unfold

namespace Transact

namespace Rule

variable {α β ω : Type} {m n : Nat}

def restrict (h : m ≤ n) (p : Rule n α) : Rule m α := fun s hs => p s (Nat.lt_of_lt_of_le hs h)

variable (h : m ≤ n)

@[simp] theorem restrict_pure (v : α) : restrict h (pure v) = pure v := rfl

@[simp] theorem restrict_bind (p : Rule n α) (f : α → Rule n β) :
    restrict h (p >>= f) = restrict h p >>= fun v => restrict h (f v) := rfl

@[simp] theorem restrict_map (f : α → β) (p : Rule n α) :
    restrict h (f <$> p) = f <$> restrict h p := rfl

@[simp] theorem restrict_current : restrict h current = current := rfl

@[simp] theorem restrict_kind : restrict h kind = kind := rfl

@[simp] theorem restrict_fail (e : SyntaxError) : restrict h (fail e : Rule n α) = fail e := rfl

@[simp] theorem restrict_unexpected : restrict h (unexpected : Rule n α) = unexpected := rfl

@[simp] theorem restrict_expected (what : Expectation) :
    restrict h (expected what : Rule n α) = expected what := rfl

@[simp] theorem restrict_advance : restrict h advance = advance := rfl

@[simp] theorem restrict_take (f : Token → Rule n α) (h' : m + 1 ≤ n + 1) :
    restrict h' (take f) = take fun t => restrict (Nat.le_of_succ_le_succ h') (f t) := rfl

@[simp] theorem restrict_ite (c : Prop) [Decidable c] (p q : Rule n α) :
    restrict h (if c then p else q) = if c then restrict h p else restrict h q := by
  split <;> rfl

@[simp] theorem restrict_eat (k : Kind) : restrict h (eat k) = eat k := by simp [eat]

@[simp] theorem restrict_expect (k : Kind) : restrict h (expect k) = expect k := by simp [expect]

@[simp] theorem restrict_begin (k : Kind) (f : Token → Rule n α) (h' : m + 1 ≤ n + 1) :
    restrict h' (begin k f) =
      begin k fun t => restrict (Nat.le_of_succ_le_succ h') (f t) := by
  simp [begin]

theorem loop_restrict (step : α → Kind → Option (Token → Rule n α)) (v : α) (s : Stream)
    (hs : s.size < m) :
    loop step v s (Nat.lt_of_lt_of_le hs h) =
      loop (fun v k => (step v k).map fun f t => restrict h (f t)) v s hs := by
  cases hv : step v s.current.kind with
  | none => rw [loop_eq_none hv, loop_eq_none (by simp [hv])]
  | some f =>
      by_cases hk : s.current.kind = .eof
      · rw [loop_eq_eof hk, loop_eq_eof hk]
      · have hv' : (fun v k => (step v k).map fun f t => restrict h (f t)) v s.current.kind =
            some fun t => restrict h (f t) := by simp [hv]
        cases ha : s.advance with
        | error e => rw [loop_eq_error hv hk ha, loop_eq_error hv' hk ha]
        | ok t =>
            have lt := Stream.size_advance_lt ha hk
            rw [loop_eq_ok hv hk ha, loop_eq_ok hv' hk ha]
            simp only [restrict]
            cases f s.current t (Nat.lt_of_lt_of_le (Nat.lt_trans lt hs) h) with
            | error e rest => rfl
            | ok w rest le =>
                have lt := Nat.lt_of_le_of_lt le lt
                simp only [loop_restrict step w rest (Nat.lt_trans lt hs)]
termination_by s.size

@[simp] theorem restrict_loop (step : α → Kind → Option (Token → Rule n α)) (v : α) :
    restrict h (loop step v) =
      loop (fun v k => (step v k).map fun f t => restrict h (f t)) v :=
  funext fun s => funext fun hs => loop_restrict h step v s hs

@[simp] theorem restrict_commaSeparated (item : Rule n α) :
    restrict h (commaSeparated item) = commaSeparated (restrict h item) := by
  have hstep : (fun (items : List α) (k : Kind) =>
      (if k = Kind.mark .comma then
        some fun (_ : Token) => (do return items ++ [← item] : Rule n (List α))
      else none).map fun f t => restrict h (f t)) =
      fun items k => if k = Kind.mark .comma then
        some fun _ => do return items ++ [← restrict h item] else none := by
    funext items k
    split <;> rfl
  change (restrict h item >>= fun first => restrict h (loop _ [first])) = _
  simp only [restrict_loop, hstep]
  rfl

theorem climb_restrict (operator : Kind → Option ω) (tier : ω → Nat) (operand : Rule n α)
    (join : Token → α → ω → α → α) (min : Nat) (v : α) (s : Stream) (hs : s.size < m) :
    climb operator tier operand join min v s (Nat.lt_of_lt_of_le hs h) =
      climb operator tier (restrict h operand) join min v s hs := by
  cases ho : operator s.current.kind with
  | none => rw [climb_eq_stop (by simp [ho]), climb_eq_stop (by simp [ho])]
  | some op =>
      by_cases hstop : tier op < min ∨ s.current.kind = .eof
      · rw [climb_eq_stop (by simpa [ho] using hstop), climb_eq_stop (by simpa [ho] using hstop)]
      · obtain ⟨hm, hk⟩ := not_or.1 hstop
        have hm := Nat.le_of_not_lt hm
        cases ha : s.advance with
        | error e => rw [climb_eq_error ho hm hk ha, climb_eq_error ho hm hk ha]
        | ok t =>
            have lt := Stream.size_advance_lt ha hk
            rw [climb_eq_ok ho hm hk ha, climb_eq_ok ho hm hk ha]
            simp only [restrict]
            cases operand t (Nat.lt_of_lt_of_le (Nat.lt_trans lt hs) h) with
            | error e rest => rfl
            | ok right u le =>
                have lt := Nat.lt_of_le_of_lt le lt
                simp only [climb_restrict operator tier operand join _ right u (Nat.lt_trans lt hs)]
                cases climb operator tier (restrict h operand) join (tier op + 1) right u
                    (Nat.lt_trans lt hs) with
                | error e rest => rfl
                | ok right w le =>
                    have lt := Nat.lt_of_le_of_lt le lt
                    simp only [climb_restrict operator tier operand join _ _ w (Nat.lt_trans lt hs)]
termination_by s.size

@[simp] theorem restrict_climb (operator : Kind → Option ω) (tier : ω → Nat) (operand : Rule n α)
    (join : Token → α → ω → α → α) (min : Nat) (v : α) :
    restrict h (climb operator tier operand join min v) =
      climb operator tier (restrict h operand) join min v :=
  funext fun s => funext fun hs => climb_restrict h operator tier operand join min v s hs

theorem Shrinks.restrict {p : Rule n α} (hp : Shrinks p) : Shrinks (restrict h p) :=
  fun s hs => hp s (Nat.lt_of_lt_of_le hs h)

theorem many_restrict (stop : Kind → Bool) (item : Rule n α) (shrinks : Shrinks item)
    (items : List α) (s : Stream) (hs : s.size < m) :
    many stop item shrinks items s (Nat.lt_of_lt_of_le hs h) =
      many stop (restrict h item) (shrinks.restrict h) items s hs := by
  by_cases hstop : stop s.current.kind = true
  · rw [many_eq_stop hstop, many_eq_stop hstop]
  · cases hi : item s (Nat.lt_of_lt_of_le hs h) with
    | error e rest =>
        rw [many_eq_error hstop hi, many_eq_error hstop (show restrict h item s hs = _ from hi)]
    | ok value rest le =>
        have lt := shrinks _ _ _ _ _ hi
        rw [many_eq_ok hstop hi, many_eq_ok hstop (show restrict h item s hs = _ from hi),
          many_restrict stop item shrinks _ rest (Nat.lt_trans lt hs)]
termination_by s.size

@[simp] theorem restrict_many (stop : Kind → Bool) (item : Rule n α) (shrinks : Shrinks item)
    (items : List α) :
    restrict h (many stop item shrinks items) =
      many stop (restrict h item) (shrinks.restrict h) items :=
  funext fun s => funext fun hs => many_restrict h stop item shrinks items s hs

end Rule

end Transact
