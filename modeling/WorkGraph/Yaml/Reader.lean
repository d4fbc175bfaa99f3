import WorkGraph.Yaml.Data

/-!
# Reading settings

`Yaml.read` takes a text of settings apart into tokens, puts the tokens together to the nodes of a document, and finds
what the nodes stand for.
-/

namespace WorkGraph.Yaml

/-- The data that a text of settings writes. -/
def read (text : String) : Reading Data := do
  Data.ofDocument (← Document.ofTokens (Tokens.ofText text))

end WorkGraph.Yaml
