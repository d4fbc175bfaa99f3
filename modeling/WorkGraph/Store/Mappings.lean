import WorkGraph.Store.Records

/-!
# The store of button mappings

One file for each message, a list of rows that is only ever extended; the last row counts.
-/

namespace WorkGraph.Store.Mappings

def place (message : String) : Location :=
  .ofRecord .mappings message ".json"

/-- Adds a mapping to those of its message, numbered by its place. -/
def save (mapping : ButtonMapping) : Engine ButtonMapping := do
  Engine.entering .saveButtonMapping
  let rows ← readFile (place mapping.messageId) (.list [])
  let count ← Engine.ofExcept (rowCount rows)
  let stored := { mapping with id := count + 1 }
  writeFile (place mapping.messageId) (← Engine.ofExcept (appendRow rows stored.toValue))
  return stored

/-- The latest mapping of a message. -/
def find? (message : String) : Engine (Option ButtonMapping) := do
  Engine.entering .getButtonMapping
  let rows ← readFile (place message) (.list [])
  if !rows.truthy then return none
  let row ← Engine.ofExcept (lastRow rows)
  some <$> Engine.ofExcept (ButtonMapping.load (← Engine.stamp) row)

end WorkGraph.Store.Mappings
