namespace Transact.Text

def upper (word : String) : String := String.ofList (word.toList.map Char.toUpper)

def lower (word : String) : String := String.ofList (word.toList.map Char.toLower)

def sameWord (a b : String) : Bool := lower a == lower b

theorem sameWord_refl (a : String) : sameWord a a = true := by simp [sameWord]

theorem sameWord_comm (a b : String) : sameWord a b = sameWord b a := by
  simp only [sameWord]
  exact Bool.beq_comm

end Transact.Text
