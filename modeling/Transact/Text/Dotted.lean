namespace Transact.Text

/-- The stretches between the points. There is always at least one. -/
def splitDots : List Char → List (List Char)
  | [] => [[]]
  | '.' :: rest => [] :: splitDots rest
  | c :: rest =>
    match splitDots rest with
    | part :: parts => (c :: part) :: parts
    | [] => [[c]]

def joinDots : List (List Char) → List Char
  | [] => []
  | [part] => part
  | part :: parts => part ++ '.' :: joinDots parts

theorem splitDots_ne_nil (text : List Char) : splitDots text ≠ [] := by
  fun_cases splitDots text <;> simp

theorem joinDots_cons {part : List Char} {parts : List (List Char)} (h : parts ≠ []) :
    joinDots (part :: parts) = part ++ '.' :: joinDots parts := by
  cases parts with
  | nil => exact absurd rfl h
  | cons => rfl

theorem joinDots_concat {parts : List (List Char)} (h : parts ≠ []) (part : List Char) :
    joinDots (parts ++ [part]) = joinDots parts ++ '.' :: part := by
  induction parts with
  | nil => exact absurd rfl h
  | cons first parts ih =>
      by_cases hnil : parts = []
      · rw [hnil]
        rfl
      · rw [List.cons_append, joinDots_cons (by simp), ih hnil, joinDots_cons hnil,
          List.append_assoc, List.cons_append]

/-- Text at the end goes on with the last part. -/
theorem joinDots_concat_append (parts : List (List Char)) (part : List Char) :
    joinDots (parts ++ [part]) = joinDots (parts ++ [[]]) ++ part := by
  by_cases h : parts = []
  · rw [h]
    rfl
  · rw [joinDots_concat h, joinDots_concat h, List.append_assoc]
    rfl

theorem splitDots_of_not_mem {part : List Char} (h : '.' ∉ part) : splitDots part = [part] := by
  induction part with
  | nil => rfl
  | cons c part ih =>
      obtain ⟨hc, hpart⟩ := List.ne_and_not_mem_of_not_mem_cons h
      rw [splitDots.eq_3 c part (Ne.symm hc), ih hpart]

theorem splitDots_append {part : List Char} (h : '.' ∉ part) (text : List Char) :
    splitDots (part ++ '.' :: text) = part :: splitDots text := by
  induction part with
  | nil => rfl
  | cons c part ih =>
      obtain ⟨hc, hpart⟩ := List.ne_and_not_mem_of_not_mem_cons h
      rw [List.cons_append, splitDots.eq_3 c _ (Ne.symm hc), ih hpart]

/-- Parts without points are what the points between them separate. -/
theorem splitDots_joinDots {parts : List (List Char)} (hne : parts ≠ [])
    (h : ∀ part ∈ parts, '.' ∉ part) : splitDots (joinDots parts) = parts := by
  induction parts with
  | nil => exact absurd rfl hne
  | cons part parts ih =>
      obtain ⟨hpart, hparts⟩ := List.forall_mem_cons.1 h
      by_cases hnil : parts = []
      · rw [hnil, joinDots, splitDots_of_not_mem hpart]
      · rw [joinDots_cons hnil, splitDots_append hpart, ih hnil hparts]

theorem not_mem_of_mem_splitDots {text part : List Char} (h : part ∈ splitDots text) :
    '.' ∉ part := by
  fun_induction splitDots text generalizing part with
  | case1 => simp_all
  | case2 rest ih =>
      rcases List.mem_cons.1 h with rfl | h
      · exact List.not_mem_nil
      · exact ih h
  | case3 c rest hc first parts hsplit ih =>
      rw [hsplit] at ih
      rcases List.mem_cons.1 h with rfl | h
      · exact List.not_mem_cons_of_ne_of_not_mem (Ne.symm hc) (ih (List.mem_cons_self ..))
      · exact ih (List.mem_cons_of_mem _ h)
  | case4 c rest hc hsplit ih => exact absurd hsplit (splitDots_ne_nil rest)

end Transact.Text
