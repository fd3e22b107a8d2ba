import Mathlib.Algebra.Order.Group.Multiset
import Transact.Proofs.Syntax.Words
import Transact.Proofs.Token.Lexical

namespace Transact

namespace Keyword

def isOptional : Keyword → Bool
  | AS | INTO | WITH | FROM | INNER | OUTER => true
  | _ => false

end Keyword

namespace Word

/-- A word as it is counted: a keyword by its kind, an identifier up to the case of ASCII letters,
and the two spellings of inequality as one. -/
def counted : Word → Option Word
  | (.keyword k, _) => if k.isOptional then none else some (.keyword k, .none)
  | (.identifier, .text text) => some (.identifier, .text (Text.lower text))
  | (.mark .eq, _) => none
  | (.mark .notEq, value) => some (.mark .ltGt, value)
  | w => some w

/-- The words of a text, as often as each of them is counted. -/
def bag (ws : List Word) : Multiset Word := ws.filterMap counted

def count (w : Word) : Multiset Word := w.counted.toList

@[simp] theorem bag_nil : bag [] = 0 := rfl

@[simp] theorem bag_cons (w : Word) (ws : List Word) : bag (w :: ws) = count w + bag ws := by
  rw [bag, bag, count, List.filterMap_cons]
  cases w.counted <;> rfl

@[simp] theorem bag_append (ws vs : List Word) : bag (ws ++ vs) = bag ws + bag vs := by
  rw [bag, List.filterMap_append, ← Multiset.coe_add]
  rfl

@[simp] theorem count_as : count (keyword .AS) = 0 := rfl

@[simp] theorem count_into : count (keyword .INTO) = 0 := rfl

@[simp] theorem count_with : count (keyword .WITH) = 0 := rfl

@[simp] theorem count_from : count (keyword .FROM) = 0 := rfl

@[simp] theorem count_inner : count (keyword .INNER) = 0 := rfl

@[simp] theorem count_outer : count (keyword .OUTER) = 0 := rfl

@[simp] theorem count_eq : count (mark .eq) = 0 := rfl

theorem bag_listed_concat {wss : List (List Word)} (h : wss ≠ []) (ws : List Word) :
    bag (listed (wss ++ [ws])) = bag (listed wss) + (count (mark .comma) + bag ws) := by
  induction wss with
  | nil => exact absurd rfl h
  | cons vs wss ih =>
      cases wss with
      | nil => simp [listed]
      | cons us wss =>
          have hs := ih (List.cons_ne_nil _ _)
          simp only [List.cons_append, listed, bag_append, bag_cons] at hs ⊢
          rw [hs]
          simp only [add_assoc]

@[simp] theorem bag_enclosed (ws : List Word) :
    bag (enclosed ws) = count (mark .leftParen) + (bag ws + count (mark .rightParen)) := by
  simp [enclosed]

end Word

namespace Kind

def isFixed : Kind → Bool
  | keyword _ | mark _ => true
  | _ => false

def word : Kind → Word
  | keyword k => Word.keyword k
  | mark m => Word.mark m
  | k => (k, .none)

theorem ofWord_ne_mark (text : String) (m : Mark) : ofWord text ≠ .mark m := by
  obtain h | ⟨k, h⟩ := ofWord_cases text <;> rw [h] <;> nofun

end Kind

namespace Word.IsLexical

variable {w : Word}

theorem ne_eof (h : w.IsLexical) : w.1 ≠ .eof := by
  cases h with
  | name h => exact Word.name_ne_eof _
  | constant h => obtain ⟨type, value, hc⟩ := Constant.word_kind _; rw [hc]; nofun
  | mark m => nofun

theorem eq_mark {m : Mark} (h : w.IsLexical) (hk : w.1 = .mark m) : w = Word.mark m := by
  cases h with
  | name h => exact absurd hk (Kind.ofWord_ne_mark _ m)
  | @constant c h =>
      obtain ⟨type, value, hc⟩ := c.word_kind
      rw [hc] at hk
      cases hk
  | mark m =>
      cases hk
      rfl

/-- A word of a fixed kind is counted as the word that the kind tells. -/
theorem count_eq (h : w.IsLexical) (hk : w.1.isFixed = true) : count w = count w.1.word := by
  obtain ⟨k, value⟩ := w
  cases k with
  | keyword k => rfl
  | mark m => rw [h.eq_mark rfl]; rfl
  | _ => cases hk

end Word.IsLexical

end Transact
