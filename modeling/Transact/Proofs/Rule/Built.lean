import Transact.Grammar.Expression
import Transact.Proofs.Rule.Turns

namespace Transact

open Rule

def Grammar.literal {n : Nat} : Rule n Expression := do
  match ← kind with
  | .constant _ => constant
  | _ => unexpected

namespace Rule

class inductive Built : {n : Nat} → {α : Type} → Rule n α → Prop where
  | pure {n : Nat} {α : Type} (v : α) : Built (Pure.pure v : Rule n α)
  | current {n : Nat} : Built (Rule.current : Rule n Token)
  | advance {n : Nat} : Built (Rule.advance : Rule n Token)
  | unexpected {n : Nat} {α : Type} : Built (Rule.unexpected : Rule n α)
  | expected {n : Nat} {α : Type} (what : Expectation) : Built (Rule.expected what : Rule n α)
  | literal {n : Nat} : Built (Grammar.literal : Rule n Expression)
  | bind {n : Nat} {α β : Type} {p : Rule n α} {f : α → Rule n β} (hp : Built p)
      (hf : ∀ v, Built (f v)) : Built (p >>= f)
  | take {n : Nat} {α : Type} {f : Token → Rule n α} (hf : ∀ t, Built (f t)) : Built (Rule.take f)

namespace Built

variable {α β ω : Type} {n : Nat} {v : α}

attribute [instance] Built.pure Built.current Built.advance Built.unexpected Built.expected
  Built.literal

instance bindInstance {p : Rule n α} {f : α → Rule n β} [hp : Built p] [hf : ∀ v, Built (f v)] :
    Built (p >>= f) := .bind hp hf

instance takeInstance {f : Token → Rule n α} [hf : ∀ t, Built (f t)] : Built (Rule.take f) :=
  .take hf

instance kind : Built (Rule.kind : Rule n Kind) :=
  inferInstanceAs (Built (Rule.current >>= fun t => Pure.pure t.kind))

instance map {p : Rule n α} {f : α → β} [hp : Built p] : Built (f <$> p) :=
  hp.bind fun v => .pure (f v)

instance ite {c : Prop} [Decidable c] {p q : Rule n α} [Built p] [Built q] :
    Built (if c then p else q) := by
  split <;> infer_instance

/-- A rule that looks at the kind at hand. -/
theorem onKind {f : Kind → Rule n α} (h : ∀ k, Built (f k)) : Built (Rule.kind >>= f) :=
  kind.bind h

theorem onKindAgree {f : Kind → Rule n α} (h : ∀ k, ∃ p, Built p ∧ AgreeOn k (f k) p) :
    Built (Rule.kind >>= f) := by
  rw [kind_bind_congr fun k => (h k).choose_spec.2]
  exact onKind fun k => (h k).choose_spec.1

instance eat {k : Kind} : Built (Rule.eat k : Rule n Bool) := by
  unfold Rule.eat
  infer_instance

instance expect {k : Kind} : Built (Rule.expect k : Rule n Token) := by
  unfold Rule.expect
  infer_instance

instance begin {k : Kind} {f : Token → Rule n α} [∀ t, Built (f t)] : Built (Rule.begin k f) := by
  unfold Rule.begin
  infer_instance

/-- Turns are built if their bodies are. -/
theorem turns {body : α → Kind → Option (Rule n α)} {beyond : α → Rule n α}
    (hbody : ∀ v k p, body v k = some p → Built p) (hbeyond : ∀ v, Built (beyond v)) (k : Nat)
    (v : α) : Built (Rule.turns body beyond k v) := by
  induction k generalizing v with
  | zero => exact hbeyond v
  | succ k ih =>
      refine .onKind fun k => ?_
      cases hb : body v k with
      | none => exact .pure v
      | some p => exact (hbody v k p hb).bind ih

theorem winds {body : α → Kind → Option (Rule n α)} {whole : α → Rule n α}
    (h : Winds n body whole) (hbody : ∀ v k p, body v k = some p → Built p) (v : α) :
    Built (whole v) := by
  have hturns : Rule.turns body (fun _ => Rule.unexpected) n v = whole v :=
    h.turns_eq_whole (Nat.le_refl n)
  rw [← hturns]
  exact turns hbody (fun _ => .unexpected) n v

theorem loop {step : α → Kind → Option (Token → Rule n α)} (hend : ∀ v, step v .eof = none)
    (h : ∀ v k f t, step v k = some f → Built (f t)) (v : α) :
    Built (n := n) (Rule.loop step v) := by
  refine winds (winds_loop (fun _ _ => rfl) hend) (fun v k p hp => ?_) v
  obtain ⟨f, hf, rfl⟩ := Option.map_eq_some_iff.1 hp
  exact Built.advance.bind fun t => h v k f t hf

instance commaSeparated {item : Rule n α} [hitem : Built item] :
    Built (Rule.commaSeparated item) := by
  refine hitem.bind fun first => loop (fun _ => rfl) (fun items k f t hf => ?_) [first]
  split at hf
  · cases hf
    infer_instance
  · cases hf

instance many {stop : Kind → Bool} {item : Rule n α} {shrinks : Shrinks item} {items : List α}
    [hitem : Built item] : Built (n := n) (Rule.many stop item shrinks items) := by
  refine winds (winds_many shrinks) (fun items k p hp => ?_) items
  split at hp
  · cases hp
  · cases hp
    infer_instance

theorem climbTurns {operator : Kind → Option ω} {tier : ω → Nat} {operand : Rule n α}
    {join : Token → α → ω → α → α} {beyond : α → Rule n α} (hoperand : Built operand)
    (hbeyond : ∀ v, Built (beyond v)) (k min : Nat) (left : α) :
    Built (Rule.climbTurns operator tier operand join beyond k min left) := by
  induction k generalizing min left with
  | zero => exact hbeyond left
  | succ k ih =>
      refine turns (fun left kind p hp => ?_) hbeyond (k + 1) left
      obtain ⟨op, -, rfl⟩ := Option.map_eq_some_iff.1 hp
      refine Built.advance.bind fun token => hoperand.bind fun right => .bind ?_ fun _ => .pure _
      refine turns (fun right kind p hp => ?_) hbeyond (k + 1) right
      obtain ⟨next, -, rfl⟩ := Option.map_eq_some_iff.1 hp
      exact ih _ _

theorem climb {operator : Kind → Option ω} {tier : ω → Nat} {operand : Rule n α}
    {join : Token → α → ω → α → α} {min : Nat} {left : α} (hend : operator .eof = none)
    (hoperand : Built operand) :
    Built (n := n) (Rule.climb operator tier operand join min left) := by
  have h : Rule.climbTurns operator tier operand join (fun _ => Rule.unexpected) n min left =
      Rule.climb operator tier operand join min left :=
    funext fun _ => funext fun hs => climbTurns_eq hend hs hs
  rw [← h]
  exact climbTurns hoperand (fun _ => .unexpected) n min left

end Built

end Rule

end Transact
