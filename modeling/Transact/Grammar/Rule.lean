import Transact.Grammar.Stream

namespace Transact

/-- The outcome of a rule on a stream of size `k`. An error comes with the stream it leaves. -/
inductive Outcome (α : Type) (k : Nat) where
  | ok (value : α) (rest : Stream) (le : rest.size ≤ k)
  | error (error : SyntaxError) (rest : Stream)

namespace Outcome

variable {α : Type} {j k : Nat}

def weaken (h : j ≤ k) : Outcome α j → Outcome α k
  | ok value rest le => ok value rest (Nat.le_trans le h)
  | error e rest => error e rest

end Outcome

def Rule (n : Nat) (α : Type) : Type := (s : Stream) → s.size < n → Outcome α s.size

namespace Rule

variable {α β ω : Type} {n : Nat}

protected def pure (value : α) : Rule n α := fun s _ => .ok value s (Nat.le_refl _)

protected def bind (p : Rule n α) (f : α → Rule n β) : Rule n β := fun s h =>
  match p s h with
  | .ok value rest le => (f value rest (Nat.lt_of_le_of_lt le h)).weaken le
  | .error e rest => .error e rest

instance : Monad (Rule n) where
  pure := Rule.pure
  bind := Rule.bind

def current : Rule n Token := fun s _ => .ok s.current s (Nat.le_refl _)

def kind : Rule n Kind := fun s _ => .ok s.current.kind s (Nat.le_refl _)

def fail (e : SyntaxError) : Rule n α := fun s _ => .error e s

def unexpected : Rule n α := fun s _ => .error (.unexpected s.current) s

def expected (what : Expectation) : Rule n α := fun s _ => .error (.expected what s.current) s

def advance : Rule n Token := fun s _ =>
  match h : s.advance with
  | .ok rest => .ok s.current rest (Stream.size_advance_le h)
  | .error e => .error (.lexical e) s.withoutFault

/-- Takes the token at hand and goes on with rules for shorter streams. There is no token to take
at the end of the input. -/
def take (f : Token → Rule n α) : Rule (n + 1) α := fun s hs =>
  if hk : s.current.kind = .eof then unexpected s hs
  else
    match h : s.advance with
    | .ok rest =>
      have lt := Stream.size_advance_lt h hk
      (f s.current rest (Nat.lt_of_lt_of_le lt (Nat.le_of_lt_succ hs))).weaken (Nat.le_of_lt lt)
    | .error e => .error (.lexical e) s.withoutFault

def eat (k : Kind) : Rule n Bool := do
  if (← kind) = k then
    let _ ← advance
    return true
  else return false

def expect (k : Kind) : Rule n Token := do
  if (← kind) = k then advance else expected (.kind k)

def begin (k : Kind) (f : Token → Rule n α) : Rule (n + 1) α := do
  if (← kind) = k then take f else expected (.kind k)

/-- As long as the kind at hand gives a step, takes the token and changes the value by it. -/
def loop (step : α → Kind → Option (Token → Rule n α)) (value : α) (s : Stream)
    (hs : s.size < n) : Outcome α s.size :=
  match step value s.current.kind with
  | none => .ok value s (Nat.le_refl _)
  | some f =>
    if hk : s.current.kind = .eof then .ok value s (Nat.le_refl _)
    else
      match h : s.advance with
      | .error e => .error (.lexical e) s.withoutFault
      | .ok t =>
        have lt := Stream.size_advance_lt h hk
        match f s.current t (Nat.lt_trans lt hs) with
        | .error e rest => .error e rest
        | .ok value rest le =>
          have lt := Nat.lt_of_le_of_lt le lt
          (loop step value rest (Nat.lt_trans lt hs)).weaken (Nat.le_of_lt lt)
termination_by s.size

def commaSeparated (item : Rule n α) : Rule n (List α) := do
  let first ← item
  loop (fun items k =>
    if k = .mark .comma then some fun _ => return items ++ [← item] else none) [first]

/-- Folds the operators of tier `min` or tighter, with their right operands, onto `left`. The right
operand of an operator takes the tighter operators that follow it. -/
def climb (operator : Kind → Option ω) (tier : ω → Nat) (operand : Rule n α)
    (join : Token → α → ω → α → α) (min : Nat) (left : α) (s : Stream) (hs : s.size < n) :
    Outcome α s.size :=
  match operator s.current.kind with
  | none => .ok left s (Nat.le_refl _)
  | some op =>
    if hk : tier op < min ∨ s.current.kind = .eof then .ok left s (Nat.le_refl _)
    else
      match h : s.advance with
      | .error e => .error (.lexical e) s.withoutFault
      | .ok t =>
        have lt := Stream.size_advance_lt h fun he => hk (.inr he)
        match operand t (Nat.lt_trans lt hs) with
        | .error e rest => .error e rest
        | .ok right t le =>
          have lt := Nat.lt_of_le_of_lt le lt
          match climb operator tier operand join (tier op + 1) right t (Nat.lt_trans lt hs) with
          | .error e rest => .error e rest
          | .ok right t le =>
            have lt := Nat.lt_of_le_of_lt le lt
            (climb operator tier operand join min (join s.current left op right) t
              (Nat.lt_trans lt hs)).weaken (Nat.le_of_lt lt)
termination_by s.size

def Shrinks (p : Rule n α) : Prop :=
  ∀ s hs value rest le, p s hs = .ok value rest le → rest.size < s.size

theorem shrinks_take (f : Token → Rule n α) : Shrinks (take f) := by
  intro s hs value rest le h
  simp only [take] at h
  split at h
  · cases h
  · rename_i hk
    split at h
    · rename_i t ht
      have lt := Stream.size_advance_lt ht hk
      revert h
      cases f s.current t (Nat.lt_of_lt_of_le lt (Nat.le_of_lt_succ hs)) with
      | ok value rest hle =>
          intro h
          cases h
          exact Nat.lt_of_le_of_lt hle lt
      | error => intro h; cases h
    · cases h

theorem shrinks_unexpected : Shrinks (unexpected : Rule n α) := by
  intro s hs value rest le h
  cases h

def many (stop : Kind → Bool) (item : Rule n α) (shrinks : Shrinks item) (items : List α)
    (s : Stream) (hs : s.size < n) : Outcome (List α) s.size :=
  if stop s.current.kind then .ok items s (Nat.le_refl _)
  else
    match h : item s hs with
    | .error e rest => .error e rest
    | .ok value rest le =>
      have lt := shrinks s hs value rest le h
      (many stop item shrinks (items ++ [value]) rest (Nat.lt_trans lt hs)).weaken le
termination_by s.size

end Rule

end Transact
