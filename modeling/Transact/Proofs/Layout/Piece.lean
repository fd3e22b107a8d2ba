import Transact.Proofs.Layout.Prints

namespace Transact

inductive Piece where
  | blank
  | word (k : Keyword)
  /-- A plain word that is not reserved, or a hint. -/
  | name (text : String)
  | mark (m : Mark)

namespace Piece

def chars : Piece → List Char
  | blank => [' ']
  | word k => k.spelling.toList
  | name text => text.toList
  | mark m => m.spelling

def words : Piece → List Word
  | blank => []
  | word k => [Word.keyword k]
  | name text => [Word.name text]
  | mark m => [Word.mark m]

def isWritten : Piece → Bool
  | name text => Lexeme.isPlain text.toList
  | blank | word _ | mark _ => true

def endsBefore (c : Char) : Piece → Bool
  | blank => true
  | word _ | name _ => !Lexeme.isWordPart c && c != '\''
  | mark m => m.endsBefore c

def isFree : Piece → Bool
  | blank | mark .tilde | mark .comma | mark .leftParen | mark .rightParen | mark .semicolon => true
  | _ => false

def areSeparated (last : Piece → Bool) : List Piece → Bool
  | [] => true
  | [p] => p.isWritten && last p
  | p :: q :: rest =>
    p.isWritten && q.chars.head?.any (fun c => p.endsBefore c) && areSeparated last (q :: rest)

theorem endsBefore_of_isFree {p : Piece} (h : p.isFree = true) (c : Char) :
    p.endsBefore c = true := by
  rw [isFree.eq_def] at h
  split at h
  · rfl
  · simp [endsBefore, Mark.endsBefore, Mark.all, Mark.spelling]
  · simp [endsBefore, Mark.endsBefore, Mark.all, Mark.spelling]
  · simp [endsBefore, Mark.endsBefore, Mark.all, Mark.spelling]
  · simp [endsBefore, Mark.endsBefore, Mark.all, Mark.spelling]
  · simp [endsBefore, Mark.endsBefore, Mark.all, Mark.spelling]
  · cases h

variable {cs : List Char} {ws : List Word}

theorem reads {p : Piece} (hw : p.isWritten = true)
    (hp : ∀ c, cs.head? = some c → p.endsBefore c = true) (h : Reads cs ws) :
    Reads (p.chars ++ cs) (p.words ++ ws) := by
  cases p with
  | blank => exact .blank (by decide) h
  | mark m => exact .mark hp h
  | word k =>
      refine .keyword (fun c hc => ?_) h
      simpa [endsBefore] using hp c hc
  | name text =>
      have hr := Reads.name (Lexeme.isName_of_isPlain hw) (fun c hc => ?_) h
      · rwa [String.ofList_toList] at hr
      · simpa [endsBefore] using hp c hc

theorem reads_all {last : Piece → Bool} {ps : List Piece} (hs : areSeparated last ps = true)
    (hl : ∀ p, last p = true → ∀ c, cs.head? = some c → p.endsBefore c = true)
    (h : Reads cs ws) : Reads (ps.flatMap chars ++ cs) (ps.flatMap words ++ ws) := by
  fun_induction areSeparated last ps with
  | case1 => exact h
  | case2 p =>
      rw [Bool.and_eq_true] at hs
      simpa using reads hs.1 (hl p hs.2) h
  | case3 p q rest ih =>
      simp only [Bool.and_eq_true, Option.any_eq_true] at hs
      obtain ⟨⟨hw, c, hc, hp⟩, hs⟩ := hs
      have hq := ih hs
      rw [List.flatMap_cons, List.flatMap_cons (f := words), List.append_assoc, List.append_assoc]
      refine reads hw (fun d hd => ?_) hq
      rw [List.flatMap_cons, List.append_assoc, List.head?_append, hc] at hd
      cases hd
      exact hp

theorem opens {t : String} (ps : List Piece) (ht : t.toList = ps.flatMap chars)
    (hs : areSeparated isFree ps = true) : Doc.Opens (.text t) (ps.flatMap words) := by
  refine Doc.opens_text fun cs vs hr => ?_
  rw [ht]
  exact reads_all hs (fun p hp c _ => endsBefore_of_isFree hp c) hr

theorem prints {t : String} (ps : List Piece) (ht : t.toList = ps.flatMap chars)
    (hs : areSeparated (fun p => [' ', '\n', '(', ')', ',', ';'].all fun c => p.endsBefore c) ps =
      true) :
    Doc.Prints (.text t) (ps.flatMap words) := by
  refine Doc.prints_text fun cs vs hc hr => ?_
  rw [ht]
  exact reads_all hs (fun p hp c hcs => List.all_eq_true.1 hp c (hc c hcs)) hr

end Piece

end Transact
