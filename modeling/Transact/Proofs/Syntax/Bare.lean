import Transact.Proofs.Traversal.Rename

namespace Transact

def Reference.bare (r : Reference) : Reference := ⟨.nowhere, r.parts⟩

@[simps -fullyApplied] abbrev Renaming.bare : Renaming where
  column := Reference.bare
  table := Reference.bare
  inserted := Reference.bare
  changed _ := Reference.bare
  function := Reference.bare
  origin _ := .nowhere

end Transact
