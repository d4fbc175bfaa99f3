import WorkGraph.Store.Records

/-!
# Claims on messages

A message continues an execution at most once. Whoever creates the claim file of a message has it; the file is created
only if it is not there, and removed if nothing came of the claim.
-/

namespace WorkGraph.Store.Claims

def place (message : String) : Location :=
  .ofRecord .claims message ".claim"

/-- Claims a message for an execution; false if it was claimed before. -/
def claim (message execution : String) : Engine Bool := do
  Engine.entering .claimMessage
  if ((← get).storage.find? (place message)).isSome then return false
  writeFile (place message) (.map [("execution_id", .str execution), ("claimed_at", .str (← Engine.stamp))])
  return true

/-- Gives a claim up. -/
def release (message : String) : Engine Unit := do
  Engine.entering .releaseClaim
  modify fun w => { w with storage := w.storage.remove (place message) }

end WorkGraph.Store.Claims
