import Mathlib.Data.List.Nodup
import Transact.Proofs.Token.Name

namespace Transact

namespace Lexeme

theorem not_isBlank_of_isWordStart {c : Char} (h : isWordStart c = true) :
    Unicode.isBlank c = false := by
  simp only [isWordStart, Bool.or_eq_true, beq_iff_eq] at h
  obtain ((h | rfl) | rfl) | rfl := h
  · exact Unicode.not_isBlank_of_isAlphabetic h
  all_goals decide

theorem not_isDigit_of_isWordStart {c : Char} (h : isWordStart c = true) : c.isDigit = false := by
  simp only [isWordStart, Bool.or_eq_true, beq_iff_eq] at h
  obtain ((h | rfl) | rfl) | rfl := h
  · exact Unicode.not_isDigit_of_isAlphabetic h
  all_goals decide

theorem isName_of_isWordStart {c : Char} {cs : List Char} (hs : isWordStart c = true)
    (hp : ∀ x ∈ cs, isWordPart x = true) : IsName (c :: cs) :=
  .plain (not_isBlank_of_isWordStart hs) (not_isDigit_of_isWordStart hs) hs hp

end Lexeme

namespace Keyword

def rank (c : Char) : Nat := if c = '_' then 0 else c.toNat

/-- The spellings stand in alphabetical order. -/
theorem isChain_spelling : (all.map fun k => k.spelling.toList.map rank).IsChain (· < ·) := by
  decide +kernel

theorem spelling_injective {k l : Keyword} (h : k.spelling = l.spelling) : k = l := by
  have hp := isChain_spelling.pairwise
  have hn : (all.map fun k => k.spelling.toList.map rank).Nodup := by
    refine hp.imp ?_
    rintro a _ hlt rfl
    exact List.lt_irrefl a hlt
  exact List.inj_on_of_nodup_map hn k.mem_all l.mem_all (by rw [h])

theorem spelling_letters : ∀ k ∈ all, k.spelling.toList ≠ [] ∧
    k.spelling.toList.all (fun c => c.isUpper || c == '_') = true := by
  decide +kernel

theorem mem_spelling {k : Keyword} {c : Char} (hc : c ∈ k.spelling.toList) :
    65 ≤ c.toNat ∧ c.toNat ≤ 90 ∨ c = '_' := by
  have hall := List.all_eq_true.1 (spelling_letters k k.mem_all).2 c hc
  rw [Bool.or_eq_true, beq_iff_eq] at hall
  exact hall.imp_left fun hu => of_decide_eq_true hu

theorem upper_spelling (k : Keyword) : Text.upper k.spelling = k.spelling := by
  have h : k.spelling.toList.map Char.toUpper = k.spelling.toList := by
    refine List.map_congr_left (g := id) (fun c hc => ?_) |>.trans (List.map_id _)
    rw [← Char.toNat_inj, Text.toNat_toUpper]
    obtain hu | rfl := mem_spelling hc
    · rw [if_neg (by omega)]
      rfl
    · rfl
  rw [Text.upper, h, String.ofList_toList]

theorem upper_eq_spelling {k : Keyword} {text : String}
    (h : Text.sameWord text k.spelling = true) : Text.upper text = k.spelling :=
  (Text.sameWord_iff.1 h).trans k.upper_spelling

theorem ofWord?_eq_some {k : Keyword} {text : String} (h : Text.sameWord text k.spelling = true) :
    ofWord? text = some k := by
  simp only [ofWord?, upper_eq_spelling h]
  cases hf : all.find? fun w => w.spelling == k.spelling with
  | none => simpa using List.find?_eq_none.1 hf k k.mem_all
  | some l =>
      have hl := List.find?_some hf
      rw [spelling_injective (beq_iff_eq.1 hl)]

theorem isWordStart_of_toUpper {c : Char}
    (h : 65 ≤ c.toUpper.toNat ∧ c.toUpper.toNat ≤ 90 ∨ c.toUpper = '_') :
    Lexeme.isWordStart c = true := by
  rw [← Char.toNat_inj, Text.toNat_toUpper] at h
  by_cases hc : c = '_'
  · rw [hc]
    decide
  · have hne : c.toNat ≠ 95 := fun he => hc (Char.toNat_inj.1 he)
    have ha : c.isAlpha = true := by
      rw [Unicode.isAlpha_iff]
      change _ ∨ _ = 95 at h
      split at h <;> omega
    simp [Lexeme.isWordStart, Unicode.isAlphabetic_of_isAlpha c ha]

/-- What does not begin like a word is not reserved. -/
theorem ofWord?_eq_none {c : Char} {cs : List Char} (h : Lexeme.isWordStart c = false) :
    ofWord? (String.ofList (c :: cs)) = none := by
  cases hk : ofWord? (String.ofList (c :: cs)) with
  | none => rfl
  | some k =>
      have hs : k.spelling.toList = c.toUpper :: cs.map Char.toUpper := by
        rw [spelling_eq_of_ofWord? hk, Text.upper, String.toList_ofList, String.toList_ofList,
          List.map_cons]
      have hc := isWordStart_of_toUpper (c := c) (mem_spelling (k := k) (by simp [hs]))
      cases h.symm.trans hc

/-- A keyword is a plain word, whatever the case of its letters. -/
theorem isName_of_sameWord {k : Keyword} {text : String}
    (h : Text.sameWord text k.spelling = true) : Lexeme.IsName text.toList := by
  have hmap : text.toList.map Char.toUpper = k.spelling.toList := by
    rw [← upper_eq_spelling h, Text.upper, String.toList_ofList]
  have hstart : ∀ c ∈ text.toList, Lexeme.isWordStart c = true := fun c hc =>
    isWordStart_of_toUpper (mem_spelling (k := k) (hmap ▸ List.mem_map_of_mem hc))
  cases ht : text.toList with
  | nil =>
      rw [ht] at hmap
      exact absurd hmap.symm (spelling_letters k k.mem_all).1
  | cons c cs =>
      rw [ht] at hstart
      obtain ⟨hc, hcs⟩ := List.forall_mem_cons.1 hstart
      exact Lexeme.isName_of_isWordStart hc fun x hx => Lexeme.isWordPart_of_isWordStart (hcs x hx)

end Keyword

theorem Kind.ofWord_eq_identifier {word : String} (h : Keyword.ofWord? word = none) :
    ofWord word = .identifier := by rw [ofWord, h]

theorem Kind.ofWord_eq_keyword {word : String} {k : Keyword} (h : Keyword.ofWord? word = some k) :
    ofWord word = .keyword k := by rw [ofWord, h]

end Transact
