import Transact.Proofs.Syntax.Formed

namespace Transact

namespace Kind

def beginsOperand : Kind → Bool
  | .mark .plus | .mark .minus | .mark .tilde | .constant _ | .keyword .NULL | .identifier
  | .mark .dot | .keyword .COALESCE | .keyword .NULLIF | .keyword .LEFT | .keyword .RIGHT
  | .mark .leftParen => true
  | _ => false

def isSign : Kind → Bool
  | .mark .plus | .mark .minus | .mark .tilde => true
  | _ => false

end Kind

theorem Reference.dotted_cons {part : String} {parts : List String} (h : parts ≠ []) :
    dotted (part :: parts) = partWords part ++ Word.mark .dot :: dotted parts := by
  cases parts with
  | nil => exact absurd rfl h
  | cons next parts => rfl

theorem Reference.dotted_head {parts : List String} (hp : ∀ p ∈ parts, IsPart p)
    (hn : ∃ p ∈ parts, p ≠ "") :
    ∃ w ws, dotted parts = w :: ws ∧ (w.1 = .identifier ∨ w = Word.mark .dot) := by
  cases parts with
  | nil => simp at hn
  | cons part parts =>
      by_cases h : part = ""
      · cases parts with
        | nil => simp [h] at hn
        | cons next parts =>
            refine ⟨Word.mark .dot, dotted (next :: parts), ?_, .inr rfl⟩
            rw [dotted_cons (List.cons_ne_nil _ _), partWords, if_pos h, List.nil_append]
      · obtain hempty | ⟨-, hk⟩ := hp part (by simp)
        · exact absurd hempty h
        · cases parts with
          | nil => exact ⟨Word.name part, [], by rw [dotted, partWords, if_neg h], .inl hk⟩
          | cons next parts =>
              refine ⟨Word.name part, Word.mark .dot :: dotted (next :: parts), ?_, .inl hk⟩
              rw [dotted_cons (List.cons_ne_nil _ _), partWords, if_neg h, List.singleton_append]

theorem Reference.words_single {r : Reference} {part : String} (h : r.parts = [part])
    (hn : Lexeme.IsName part.toList) : r.words = [Word.name part] := by
  rw [words, h, dotted, partWords, if_neg hn.ne_empty]

theorem Reference.Formed.parts_ne_nil {r : Reference} (h : r.Formed) : r.parts ≠ [] := by
  obtain ⟨part, hp, -⟩ := h.2
  exact List.ne_nil_of_mem hp

theorem Reference.Formed.head {r : Reference} (h : r.Formed) :
    ∃ w ws, r.words = w :: ws ∧ (w.1 = .identifier ∨ w = Word.mark .dot) :=
  dotted_head h.1 h.2

theorem Reference.Formed.headKind {r : Reference} (h : r.Formed) (ws : List Word) :
    Word.headKind (r.words ++ ws) = .identifier ∨ Word.headKind (r.words ++ ws) = .mark .dot := by
  obtain ⟨w, vs, hw, hk | rfl⟩ := h.head
  · rw [hw]
    exact .inl hk
  · rw [hw]
    exact .inr rfl

theorem Reference.Formed.headKind_ne {r : Reference} (h : r.Formed) {k : Kind}
    (hid : k ≠ .identifier) (hdot : k ≠ .mark .dot) (ws : List Word) :
    Word.headKind (r.words ++ ws) ≠ k := by
  obtain hk | hk := h.headKind ws
  · rw [hk]
    exact hid.symm
  · rw [hk]
    exact hdot.symm

theorem Reference.NamesFunction.head {r : Reference} (h : r.NamesFunction) :
    ∃ w ws, r.words = w :: ws ∧
      (w.1 = .identifier ∨ w = Word.mark .dot ∨ w.1.isFunction = true) := by
  obtain h | ⟨p, hp, hn, hk⟩ := h
  · obtain ⟨w, ws, hw, hi | hd⟩ := h.head
    · exact ⟨w, ws, hw, .inl hi⟩
    · exact ⟨w, ws, hw, .inr (.inl hd)⟩
  · exact ⟨Word.name p, [], words_single hp hn, .inr (.inr hk)⟩

theorem Kind.beginsOperand_of_isFunction {k : Kind} (h : k.isFunction = true) :
    k.beginsOperand = true ∧ k.isSign = false := by
  rw [Kind.isFunction.eq_def] at h
  split at h
  · exact ⟨rfl, rfl⟩
  · exact ⟨rfl, rfl⟩
  · exact ⟨rfl, rfl⟩
  · exact ⟨rfl, rfl⟩
  · cases h

/-- A value begins with a sign exactly if it begins with a unary operator. -/
theorem Expression.Formed.head {e : Expression} (h : e.Formed) :
    ∃ w ws, e.words = w :: ws ∧ w.1.beginsOperand = true ∧
      (e.tier = 3 → e.isUnary = false → w.1.isSign = false) := by
  match e, h with
  | .unary _ operator _, _ =>
    refine ⟨_, _, rfl, ?_, fun _ hu => nomatch hu⟩
    cases operator <;> rfl
  | .grouped .., _ => exact ⟨_, _, rfl, rfl, fun _ _ => rfl⟩
  | .null _, _ => exact ⟨_, _, rfl, rfl, fun _ _ => rfl⟩
  | .constant _ value, _ =>
    obtain ⟨type, v, hv⟩ := value.word_kind
    exact ⟨_, _, rfl, by rw [hv]; rfl, fun _ _ => by rw [hv]; rfl⟩
  | .subquery .., _ => exact ⟨_, _, rfl, rfl, fun _ _ => rfl⟩
  | .reference name, h =>
    obtain ⟨w, ws, hw, hi | rfl⟩ := Reference.Formed.head h
    · exact ⟨w, ws, hw, by rw [hi]; rfl, fun _ _ => by rw [hi]; rfl⟩
    · exact ⟨_, ws, hw, rfl, fun _ _ => rfl⟩
  | .call _ function arguments, h =>
    obtain ⟨w, ws, hw, hk⟩ := Reference.NamesFunction.head h.1
    refine ⟨w, ws ++ Word.enclosed (Word.listed (Expressions.words arguments)), ?_, ?_⟩
    · rw [words, hw, List.cons_append]
    · obtain hi | rfl | hf := hk
      · exact ⟨by rw [hi]; rfl, fun _ _ => by rw [hi]; rfl⟩
      · exact ⟨rfl, fun _ _ => rfl⟩
      · have hb := Kind.beginsOperand_of_isFunction hf
        exact ⟨hb.1, fun _ _ => hb.2⟩
  | .binary _ left operator right, h =>
    obtain ⟨w, ws, hw, hb, -⟩ := Expression.Formed.head (e := left) h.1.1
    refine ⟨w, ws ++ Word.mark operator.mark :: right.words, ?_, hb, fun ht _ => ?_⟩
    · rw [words, hw, List.cons_append]
    · cases operator <;> cases ht

/-- A value without operators that begins with a parenthesis also ends with one. -/
theorem Expression.isParenthesized_of_headKind {e : Expression} (he : e.Formed) (ht : e.tier = 3)
    {ws : List Word} (h : Word.headKind (e.words ++ ws) = .mark .leftParen) :
    e.isParenthesized = true := by
  cases e with
  | unary _ operator _ => cases operator <;> cases h
  | grouped => rfl
  | null => cases h
  | constant _ value =>
      obtain ⟨type, v, hv⟩ := value.word_kind
      rw [words, hv] at h
      cases h
  | subquery => rfl
  | reference name => obtain hk | hk := Reference.Formed.headKind he ws <;> cases hk.symm.trans h
  | call _ function arguments =>
      obtain ⟨w, vs, hw, hk⟩ := he.1.head
      rw [words, hw] at h
      change w.1 = _ at h
      obtain hi | rfl | hf := hk
      · cases hi.symm.trans h
      · cases h
      · rw [h] at hf
        cases hf
  | binary _ _ operator _ => cases operator <;> cases ht

end Transact
