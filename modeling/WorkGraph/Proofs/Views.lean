import WorkGraph.Template
import WorkGraph.Proofs.Retold

/-!
# Two views of a context

Nodes look up paths in the running context, collaborators in its flat map. Both have the same nodes of each type, and the
same roots except one: without a click, the output of a node that is named like the click stands in the flat map where the
context has nothing (`root_flat`). What is read through a scope is read through its paths alone
(`Scope.ReadAlike.of_resolve`), so that the two views read alike just if that root is the same (`flat_reads_alike`).
-/

namespace WorkGraph

/-! ## Scopes that read alike -/

namespace Scope

variable {s t : Scope}

/-- Whether two scopes have the same roots, and the same nodes of each type. -/
structure Congruent (s t : Scope) : Prop where
  root : ∀ name, s.root name = t.root name
  nodesOfType : ∀ type, s.nodesOfType type = t.nodesOfType type

namespace Congruent

theorem firstField (h : s.Congruent t) (field : String) (nodes : List String) :
    s.firstField field nodes = t.firstField field nodes := by
  induction nodes with
  | nil => rfl
  | cons node rest ih => rw [Scope.firstField, Scope.firstField, h.root node, ih]

theorem parents (h : s.Congruent t) (type field : String) : s.parents type field = t.parents type field := by
  have hfirst : s.firstField field = t.firstField field := funext (h.firstField field)
  rw [Scope.parents, Scope.parents, h.nodesOfType type, hfirst]

/-- Roots and nodes of types are all that a path asks for. -/
theorem resolve (h : s.Congruent t) (path : List Char) : s.resolve path = t.resolve path := by
  have hroot : s.root = t.root := funext h.root
  have hparents : s.parents = t.parents := funext fun type => funext (h.parents type)
  rw [Scope.resolve, Scope.resolve, resolveTrimmed, resolveTrimmed, hroot, hparents]

end Congruent

/-- Whether all that can be read in two scopes is the same: paths, templates, expressions and whole documents. -/
structure ReadAlike (s t : Scope) : Prop where
  path : ∀ path, s.resolve path = t.resolve path
  template : ∀ v, Template.fill s v = Template.fill t v
  expression : ∀ v, Template.evaluate s v = Template.evaluate t v
  document : ∀ v, Template.fillAll s v = Template.fillAll t v

end Scope

namespace Template

variable {s t : Scope}

theorem fillText_congr (h : ∀ path, s.resolve path = t.resolve path) (template : String) :
    fillText s template = fillText t template := by
  have hpart : Part.fill s = Part.fill t := by
    funext part
    cases part with
    | verbatim c => rfl
    | slot path => rw [Part.fill, Part.fill, h path]
  rw [fillText, fillText, hpart]

theorem evaluate_congr (h : ∀ path, s.resolve path = t.resolve path) (v : Value) : evaluate s v = evaluate t v := by
  cases v with
  | str expression =>
    have hresolve : s.resolve = t.resolve := funext h
    rw [evaluate, evaluate, hresolve, fillText_congr h]
  | null | bool | num | list | map => rfl

mutual

theorem fillAll_congr (h : ∀ path, s.resolve path = t.resolve path) : ∀ v : Value, fillAll s v = fillAll t v
  | .str template => by rw [fillAll, fillAll, fillText_congr h]
  | .list items => by rw [fillAll, fillAll, fillItems_congr h items]
  | .map entries => by rw [fillAll, fillAll, fillEntries_congr h entries]
  | .null => by simp only [fillAll]
  | .bool _ => by simp only [fillAll]
  | .num _ => by simp only [fillAll]

theorem fillItems_congr (h : ∀ path, s.resolve path = t.resolve path) :
    ∀ items : List Value, fillItems s items = fillItems t items
  | [] => rfl
  | v :: rest => by rw [fillItems, fillItems, fillAll_congr h v, fillItems_congr h rest]

theorem fillEntries_congr (h : ∀ path, s.resolve path = t.resolve path) :
    ∀ (entries : List (String × Value)) (filled : Entries Value), fillEntries s entries filled = fillEntries t entries filled
  | [], _ => rfl
  | (key, v) :: rest, filled => by
    have hrest : fillEntries s rest = fillEntries t rest := funext (fillEntries_congr h rest)
    rw [fillEntries, fillEntries, fillText_congr h, fillAll_congr h v, hrest]

end

end Template

/-- Whatever is read, it is read through paths. -/
theorem Scope.ReadAlike.of_resolve {s t : Scope} (h : ∀ path, s.resolve path = t.resolve path) : s.ReadAlike t where
  path := h
  template v := by
    cases v with
    | str template => exact Template.fillText_congr h template
    | null | bool | num | list | map => rfl
  expression := Template.evaluate_congr h
  document := Template.fillAll_congr h

/-! ## The flat map of a context -/

namespace Context

variable (c : Context)

/-- The keys of the flat map are the reserved ones and, where these are free, those of the outputs. -/
theorem get?_flat_cases (key : String) :
    Entries.get? c.flat key =
      if key = "trigger_data" then some c.triggerData
      else if key = "_node_types" then some (.map (c.nodeTypes.map fun e => (e.1, .str e.2)))
      else if key = "button_data" then c.buttonData.or (c.outputs.get? key)
      else c.outputs.get? key := by
  by_cases hreserved : key ∈ reserved
  · simp only [reserved, List.mem_cons, List.not_mem_nil, or_false] at hreserved
    rw [flat, Entries.get?_foldl_setDefault]
    rcases hreserved with rfl | rfl | rfl
    · rfl
    · cases c.buttonData <;> rfl
    · cases c.buttonData <;> rfl
  · rw [c.get?_flat hreserved]
    simp only [reserved, List.mem_cons, List.not_mem_nil, or_false, not_or] at hreserved
    rw [if_neg hreserved.1, if_neg hreserved.2.2, if_neg hreserved.2.1]

/-- A root of the flat map is that of the context, but for an output in the place of the click. -/
theorem root_flat (name : String) :
    (Scope.flat c.flat).root name =
      if name = "button_data" ∧ c.buttonData = none then c.output name else (Scope.live c).root name := by
  show (Entries.get? c.flat name).getD .null = _
  rw [get?_flat_cases]
  by_cases htrigger : name = "trigger_data"
  · subst htrigger
    rfl
  by_cases htypes : name = "_node_types"
  · subst htypes
    rfl
  by_cases hbutton : name = "button_data"
  · subst hbutton
    cases hb : c.buttonData with
    | none => rfl
    | some data =>
      have hclick : ¬("button_data" = "button_data" ∧ some data = (none : Option Value)) := fun h => by cases h.2
      rw [if_neg hclick]
      show data = c.buttonData.getD .null
      rw [hb]
      rfl
  · rw [if_neg htrigger, if_neg htypes, if_neg hbutton, if_neg fun h => hbutton h.1, Scope.root, if_neg htrigger,
      if_neg hbutton, if_neg htypes]
    rfl

/-- The flat map tells the nodes of each type. -/
theorem nodesOfType_flat (type : String) :
    (Scope.flat c.flat).nodesOfType type = (Scope.live c).nodesOfType type := by
  have htypes : Value.field c.flat "_node_types" = .map (c.nodeTypes.map fun e => (e.1, .str e.2)) := by
    rw [Value.field, get?_flat_cases]
    rfl
  have hselect (types : Entries String) :
      ((types.map fun e => (e.1, Value.str e.2)).filter (·.2.str? == some type)).map (·.1) =
        (types.filter (·.2 == type)).map (·.1) := by
    simp [List.filter_map, Function.comp_def, Value.str?]
  unfold Scope.nodesOfType
  dsimp only
  rw [htypes, nodesOfType, ← hselect]
  cases c.nodeTypes <;> rfl

/-- The roots are the same if there was a click, or nothing takes its place. -/
theorem congruent_flat (h : c.buttonData ≠ none ∨ c.output "button_data" = .null) :
    (Scope.flat c.flat).Congruent (.live c) where
  root name := by
    rw [root_flat]
    split
    · next hn =>
      rw [hn.1, h.resolve_left (not_not_intro hn.2)]
      show Value.null = c.buttonData.getD .null
      rw [hn.2]
      rfl
    · rfl
  nodesOfType := c.nodesOfType_flat

/-- Without a click, the path of the click leads to the output that takes its place. -/
theorem resolve_button_flat (h : c.buttonData = none) :
    (Scope.flat c.flat).resolve "button_data".toList = .ok (c.output "button_data") := by
  have hroot : (Scope.flat c.flat).root "button_data" = c.output "button_data" := by
    rw [root_flat, if_pos ⟨rfl, h⟩]
  rw [Scope.resolve, strip_button, Scope.resolveTrimmed, if_neg (by decide), if_neg (by decide), split_button]
  show (if ((Scope.flat c.flat).root "button_data").isNull then _ else Path.walk _ []) = _
  rw [hroot, Path.walk_nil]
  cases c.output "button_data" <;> rfl

/-- The flat map of a context reads like the context on every path just if there was a click, or no node that is named
like the click has put out anything; and then all templates, expressions and documents read alike too. -/
theorem flat_reads_alike (c : Context) :
    ((∀ path, (Scope.flat c.flat).resolve path = (Scope.live c).resolve path) ↔
      c.buttonData ≠ none ∨ c.output "button_data" = .null) ∧
    ((Scope.flat c.flat).ReadAlike (.live c) ↔ c.buttonData ≠ none ∨ c.output "button_data" = .null) := by
  have hpaths (h : ∀ path, (Scope.flat c.flat).resolve path = (Scope.live c).resolve path) :
      c.buttonData ≠ none ∨ c.output "button_data" = .null := by
    refine Decidable.or_iff_not_imp_left.2 fun hclick => ?_
    have hnone : c.buttonData = none := Decidable.not_not.1 hclick
    have hbutton := h "button_data".toList
    rw [c.resolve_button_flat hnone, resolve_button, hnone] at hbutton
    exact Except.ok.inj hbutton
  have hshows (h : c.buttonData ≠ none ∨ c.output "button_data" = .null) (path : List Char) :
      (Scope.flat c.flat).resolve path = (Scope.live c).resolve path :=
    (c.congruent_flat h).resolve path
  exact ⟨⟨hpaths, hshows⟩, ⟨fun h => hpaths h.path, fun h => .of_resolve (hshows h)⟩⟩

end Context

end WorkGraph
