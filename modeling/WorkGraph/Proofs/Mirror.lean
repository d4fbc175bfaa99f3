import WorkGraph.Lookup
import WorkGraph.Proofs.Turn

/-!
# What rows tell of a context

`Mirrors c m` says that `m` is what the rows of a run tell of its context `c`. They tell nothing of outputs that are
null, nor of clicks. A turn leaves one row, and with it the mirror follows the context (`Mirrors.marked_row`,
`Mirrors.recorded_row`). Unless there was a click, every path that does not ask for the node types leads to the same
value (`Mirrors.resolve_eq`).
-/

namespace WorkGraph

/-! ## Maps -/

namespace Entries

variable {α : Type} {m : Entries α} {key : String}

/-- A new key goes to the end. -/
theorem set_of_not_has (h : m.has key = false) (value : α) : m.set key value = m ++ [(key, value)] := by
  induction m with
  | nil => rfl
  | cons e rest ih =>
    obtain ⟨k, v⟩ := e
    by_cases hk : k = key
    · simp [has, get?, hk] at h
    · rw [has, get?, if_neg hk] at h
      rw [set, if_neg hk, ih h, List.cons_append]

theorem has_set (m : Entries α) (key other : String) (value : α) :
    (m.set key value).has other = (other == key || m.has other) := by
  rw [has, get?_set]
  by_cases h : other = key <;> simp [has, h]

theorem has_of_mem {entry : String × α} (h : entry ∈ m) : m.has entry.1 = true :=
  mem_keys_iff_get?.1 (List.mem_map_of_mem h)

end Entries

namespace Context

variable {c m : Context} {node type : String} {v : Value}

/-! ## Outputs and completion -/

theorem output_set (c : Context) (node : String) (v : Value) (other : String) :
    Value.field (c.outputs.set node v) other = if other = node then v else c.output other := by
  rw [Value.field, Entries.get?_set, output, Value.field]
  split <;> rfl

theorem output_recorded (c : Context) (node type : String) (v : Value) (other : String) :
    (c.recorded node type v).output other = if other = node then v else c.output other := by
  rw [output, outputs_recorded, output_set]

@[simp] theorem output_markCompleted (c : Context) (node other : String) :
    (c.markCompleted node).output other = c.output other := by
  rw [output, outputs_markCompleted, output]

theorem hasOutput_recorded (c : Context) (node type : String) (v : Value) (other : String) :
    (c.recorded node type v).hasOutput other = (other == node || c.hasOutput other) := by
  rw [hasOutput, outputs_recorded, Entries.has_set, hasOutput]

@[simp] theorem hasOutput_markCompleted (c : Context) (node other : String) :
    (c.markCompleted node).hasOutput other = c.hasOutput other := by
  rw [hasOutput, outputs_markCompleted, hasOutput]

theorem output_of_not_has (h : c.hasOutput node = false) : c.output node = .null := by
  rw [hasOutput, Entries.has, Option.isSome_eq_false_iff, Option.isNone_iff_eq_none] at h
  rw [output, Value.field, h]
  rfl

/-- A node that counts as dispatched is not marked again. -/
theorem completed_recorded (h : c.isCompleted node = true) : (c.recorded node type v).completed = c.completed := by
  have hc : ({ c with outputs := c.outputs.set node v, nodeTypes := c.nodeTypes.set node type } : Context).isCompleted
      node = true := h
  rw [recorded, markCompleted, if_pos hc]

theorem isCompleted_self (c : Context) (node : String) : (c.markCompleted node).isCompleted node = true := by
  rw [isCompleted_markCompleted, beq_self_eq_true, Bool.true_or]

theorem completed_markCompleted (h : m.completed = c.completed) (node : String) :
    (m.markCompleted node).completed = (c.markCompleted node).completed := by
  unfold markCompleted isCompleted
  rw [h]
  split
  · exact h
  · rfl

/-- A click adds to an output that is there. -/
theorem hasOutput_spliced (h : c.outputs.get? node = some v) (fields : Entries Value) (data : Value) (other : String) :
    ((c.spliceButton node fields).setButtonData data).hasOutput other = c.hasOutput other := by
  simp only [setButtonData, spliceButton, hasOutput, Entries.has_set]
  by_cases ho : other = node
  · simp [ho, Entries.has, h]
  · simp [ho]

/-- A context that starts over with its own payload. -/
theorem start_triggerData (payload : Value) : start (start payload).triggerData = start payload := by
  cases payload <;> rfl

/-! ## The mirror -/

/-- Whether a context is what the rows of a run tell of the context of the run. -/
structure Mirrors (c m : Context) : Prop where
  triggerData : m.triggerData = c.triggerData
  completed : m.completed = c.completed
  nodeTypes : m.nodeTypes = c.nodeTypes.filter fun entry => !(c.output entry.1).isNull
  unclicked : m.buttonData = none
  /-- A click has added to an output that is a map, and it is a map still. -/
  outputs : ∀ node, m.output node = c.output node ∨
    c.buttonData ≠ none ∧ ∃ e e', c.output node = .map e ∧ m.output node = .map e'
  has : ∀ node, m.hasOutput node = true → c.hasOutput node = true
  typed : ∀ node, c.nodeTypes.has node = true → c.hasOutput node = true
  dispatched : ∀ node, c.hasOutput node = true → c.isCompleted node = true
  clicked : ∀ data, c.buttonData = some data → data.isNull = false

namespace Mirrors

theorem start (payload : Value) : Mirrors (.start payload) (.start payload) where
  triggerData := rfl
  completed := rfl
  nodeTypes := rfl
  unclicked := rfl
  outputs _ := .inl rfl
  has _ h := h
  typed _ h := h
  dispatched _ h := by cases h
  clicked _ h := by cases h

theorem marked (h : Mirrors c m) (node : String) : Mirrors (c.markCompleted node) (m.markCompleted node) where
  triggerData := by simpa using h.triggerData
  completed := completed_markCompleted h.completed node
  nodeTypes := by simpa using h.nodeTypes
  unclicked := by simpa using h.unclicked
  outputs := by simpa using h.outputs
  has := by simpa using h.has
  typed := by simpa using h.typed
  dispatched other ho := by
    rw [isCompleted_markCompleted, h.dispatched other (by simpa using ho), Bool.or_true]
  clicked := by simpa using h.clicked

/-- What is left of the node types when the output of a new node is there. -/
theorem nodeTypes_filter (h : Mirrors c m) (hn : c.hasOutput node = false) (type : String) (v : Value) :
    (c.nodeTypes.set node type).filter (fun entry => !((c.recorded node type v).output entry.1).isNull) =
      m.nodeTypes ++ if v.isNull then [] else [(node, type)] := by
  have hnew : c.nodeTypes.has node = false := by
    rw [← Bool.not_eq_true]
    intro ht
    rw [h.typed node ht] at hn
    cases hn
  have hold : c.nodeTypes.filter (fun entry => !((c.recorded node type v).output entry.1).isNull) = m.nodeTypes := by
    rw [h.nodeTypes]
    refine List.filter_congr fun entry he => ?_
    have hne : entry.1 ≠ node := by
      rintro rfl
      rw [Entries.has_of_mem he] at hnew
      cases hnew
    rw [output_recorded, if_neg hne]
  rw [Entries.set_of_not_has hnew, List.filter_append, hold]
  cases hv : v.isNull <;> simp [output_recorded, hv]

/-- An output that is null leaves no trace but the mark of its node. -/
theorem recorded_null (h : Mirrors c m) (hn : c.hasOutput node = false) (hc : c.isCompleted node = true)
    (type : String) : Mirrors (c.recorded node type .null) m where
  triggerData := by simpa using h.triggerData
  completed := by rw [completed_recorded hc, h.completed]
  nodeTypes := by rw [nodeTypes_recorded, h.nodeTypes_filter hn]; simp [Value.isNull]
  unclicked := h.unclicked
  outputs other := by
    rw [output_recorded, buttonData_recorded]
    by_cases ho : other = node
    · subst ho
      rw [if_pos rfl]
      refine .inl (output_of_not_has ?_)
      rw [← Bool.not_eq_true]
      intro hm
      rw [h.has other hm] at hn
      cases hn
    · rw [if_neg ho]
      exact h.outputs other
  has other ho := by rw [hasOutput_recorded, h.has other ho, Bool.or_true]
  typed other ho := by
    rw [nodeTypes_recorded, Entries.has_set, Bool.or_eq_true] at ho
    rw [hasOutput_recorded, Bool.or_eq_true]
    exact ho.imp_right (h.typed other)
  dispatched other ho := by
    rw [hasOutput_recorded, Bool.or_eq_true] at ho
    rw [isCompleted_recorded, Bool.or_eq_true]
    exact ho.imp_right (h.dispatched other)
  clicked := by simpa using h.clicked

theorem recorded (h : Mirrors c m) (hn : c.hasOutput node = false) (hc : c.isCompleted node = true) (type : String)
    (hv : v.isNull = false) : Mirrors (c.recorded node type v) (m.recorded node type v) where
  triggerData := by simpa using h.triggerData
  completed := by
    have hm : m.isCompleted node = true := by rw [isCompleted, h.completed]; exact hc
    rw [completed_recorded hc, completed_recorded hm, h.completed]
  nodeTypes := by
    have hm : m.nodeTypes.has node = false := by
      rw [← Bool.not_eq_true, h.nodeTypes]
      intro ht
      obtain ⟨entry, he, rfl⟩ := List.mem_map.1 (Entries.mem_keys_iff_get?.2 ht)
      rw [h.typed _ (Entries.has_of_mem (List.mem_filter.1 he |>.1))] at hn
      cases hn
    rw [nodeTypes_recorded, nodeTypes_recorded, h.nodeTypes_filter hn, Entries.set_of_not_has hm, hv]
    rfl
  unclicked := by simpa using h.unclicked
  outputs other := by
    rw [output_recorded, output_recorded, buttonData_recorded]
    by_cases ho : other = node
    · rw [if_pos ho, if_pos ho]
      exact .inl rfl
    · rw [if_neg ho, if_neg ho]
      exact h.outputs other
  has other ho := by
    rw [hasOutput_recorded, Bool.or_eq_true] at ho
    rw [hasOutput_recorded, Bool.or_eq_true]
    exact ho.imp_right (h.has other)
  typed other ho := by
    rw [nodeTypes_recorded, Entries.has_set, Bool.or_eq_true] at ho
    rw [hasOutput_recorded, Bool.or_eq_true]
    exact ho.imp_right (h.typed other)
  dispatched other ho := by
    rw [hasOutput_recorded, Bool.or_eq_true] at ho
    rw [isCompleted_recorded, Bool.or_eq_true]
    exact ho.imp_right (h.dispatched other)
  clicked := by simpa using h.clicked

/-- A click adds fields to a map, of which the rows tell nothing. -/
theorem spliced (h : Mirrors c m) {output fields : Entries Value} {data : Value}
    (ho : c.outputs.get? node = some (.map output)) (hd : data.isNull = false) :
    Mirrors ((c.spliceButton node fields).setButtonData data) m := by
  have hout : c.output node = .map output := by rw [Context.output, Value.field, ho]; rfl
  have hnew (other : String) : ((c.spliceButton node fields).setButtonData data).output other =
      if other = node then .map (output.merge fields) else c.output other := by
    simp only [setButtonData, spliceButton, hout]
    exact output_set c node _ other
  have hdata : ((c.spliceButton node fields).setButtonData data).buttonData = some data := by
    cases data <;> first | rfl | cases hd
  have hhas := hasOutput_spliced ho fields data
  refine
    { triggerData := h.triggerData, completed := h.completed, unclicked := h.unclicked
      nodeTypes := h.nodeTypes.trans (List.filter_congr fun entry _ => ?_)
      outputs := fun other => ?_
      has := fun other hm => by rw [hhas]; exact h.has other hm
      typed := fun other ht => by rw [hhas]; exact h.typed other ht
      dispatched := fun other hk => h.dispatched other (by rwa [hhas] at hk)
      clicked := fun d hdd => ?_ }
  · rw [hnew]
    split
    · next he => rw [he, hout]; rfl
    · rfl
  · rw [hnew, hdata]
    split
    · next he =>
      subst he
      refine .inr ⟨by simp, output.merge fields, ?_⟩
      rcases h.outputs other with hm | ⟨-, e, e', -, hm⟩
      · exact ⟨output, rfl, hm.trans hout⟩
      · exact ⟨e', rfl, hm⟩
    · exact (h.outputs other).imp_right fun hm => ⟨by simp, hm.2⟩
  · rw [hdata] at hdd
    exact Option.some.inj hdd ▸ hd

/-! ## Turns -/

variable (row : NodeLog)

/-- The row of a node without an output. -/
theorem marked_row (h : Mirrors c m) (hr : row.isRouting = false) (ho : row.outputData = .null) :
    ∃ m', m.replayLog row = .ok m' ∧ Mirrors (c.markCompleted row.nodeId) m' := by
  refine ⟨_, ?_, h.marked row.nodeId⟩
  simp [replayLog, hr, ho, Value.isNull]

/-- The row of a node with its output. -/
theorem recorded_row (h : Mirrors c m) (hr : row.isRouting = false) (hn : c.hasOutput row.nodeId = false) :
    ∃ m', m.replayLog row = .ok m' ∧
      Mirrors ((c.markCompleted row.nodeId).recorded row.nodeId row.nodeType row.outputData) m' := by
  have hmarked := h.marked row.nodeId
  have hn' : (c.markCompleted row.nodeId).hasOutput row.nodeId = false := by simpa using hn
  have hm : (m.markCompleted row.nodeId).hasOutput row.nodeId = false := by
    rw [← Bool.not_eq_true]
    intro hm
    rw [hmarked.has _ hm] at hn'
    cases hn'
  cases hv : row.outputData.isNull with
  | true =>
    have hnull : row.outputData = .null := by
      cases ho : row.outputData <;> rw [ho] at hv <;> first | rfl | cases hv
    refine ⟨_, ?_, hnull ▸ hmarked.recorded_null hn' (isCompleted_self c _) _⟩
    simp [replayLog, hr, hv]
  | false =>
    refine ⟨_, ?_, hmarked.recorded hn' (isCompleted_self c _) _ hv⟩
    simp [replayLog, hr, hv, hm, record_eq _ _ hm]

/-- The row of a node that failed, with what it produced all the same. -/
theorem kept_row (h : Mirrors c m) (hr : row.isRouting = false) {node : Node} (hid : row.nodeId = node.id)
    (ht : row.nodeType = node.type) (hn : c.hasOutput node.id = false) :
    ∃ m', m.replayLog row = .ok m' ∧ Mirrors ((c.markCompleted node.id).kept node row.outputData) m' := by
  unfold kept
  cases hv : row.outputData with
  | null => simpa [Value.isNull, hid] using h.marked_row row hr hv
  | bool | num | str | list | map =>
    simpa [Value.isNull, hn, hid, ht, hv] using h.recorded_row row hr (hid ▸ hn)

end Mirrors

/-! ## Paths -/

/-- The roots of paths that are no nodes. -/
def reserved : List String :=
  ["trigger_data", "button_data", "_node_types"]

/-- Whether a path keeps away from the node types: they are not its root, and where it asks for the nodes of a type,
none of them is named like a root that is no node. -/
def Plain (c : Context) (path : List Char) : Prop :=
  let path := Text.strip path
  if "parents.".toList.isPrefixOf path then
    ∀ node ∈ c.nodesOfType (String.ofList (Scope.cutAtPoint (path.drop "parents.".toList.length)).1), node ∉ reserved
  else ∀ rest, Path.splitChars path ≠ .ok (.key "_node_types" :: rest)

namespace Mirrors

theorem output_eq (h : Mirrors c m) (hb : c.buttonData = none) (node : String) : m.output node = c.output node :=
  (h.outputs node).resolve_right fun hc => hc.1 hb

theorem root_eq (h : Mirrors c m) (hb : c.buttonData = none) {name : String} (hn : name ≠ "_node_types") :
    (Scope.live m).root name = (Scope.live c).root name := by
  simp only [Scope.root, h.triggerData, h.unclicked, hb, if_neg hn, h.output_eq hb]

theorem nodesOfType_eq (h : Mirrors c m) (type : String) :
    m.nodesOfType type = (c.nodesOfType type).filter fun node => !(c.output node).isNull := by
  simp only [nodesOfType, h.nodeTypes, List.filter_map, List.filter_filter, Function.comp_def, Bool.and_comm]

/-- Nodes without an output have no fields. -/
theorem firstField_eq (h : Mirrors c m) (hb : c.buttonData = none) (field : String) :
    ∀ nodes : List String, (∀ node ∈ nodes, node ∉ reserved) →
      (Scope.live m).firstField field (nodes.filter fun node => !(c.output node).isNull) =
        (Scope.live c).firstField field nodes
  | [], _ => rfl
  | node :: rest, hn => by
    have ih := firstField_eq h hb field rest fun n hm => hn n (List.mem_cons_of_mem _ hm)
    have hroot : (Scope.live c).root node = c.output node := by
      have hr := hn node List.mem_cons_self
      simp only [reserved, List.mem_cons, List.not_mem_nil, or_false, not_or] at hr
      simp only [Scope.root, if_neg hr.1, if_neg hr.2.1, if_neg hr.2.2]
    have hne : node ≠ "_node_types" := by
      rintro rfl
      exact hn _ List.mem_cons_self (by decide)
    cases hv : (c.output node).isNull with
    | true =>
      have hnull : (Scope.live c).root node = .null := by
        rw [hroot]
        cases ho : c.output node <;> rw [ho] at hv <;> first | rfl | cases hv
      rw [List.filter_cons_of_neg (by simp [hv]), ih, Scope.firstField, hnull]
    | false =>
      rw [List.filter_cons_of_pos (by simp [hv]), Scope.firstField, Scope.firstField, h.root_eq hb hne, ih]

/-- Without a click, what is below a path is the same. -/
theorem resolve_eq (h : Mirrors c m) (hb : c.buttonData = none) {path : List Char} (hp : c.Plain path) :
    (Scope.live m).resolve path = (Scope.live c).resolve path := by
  unfold Plain at hp
  unfold Scope.resolve Scope.resolveTrimmed
  dsimp only at hp ⊢
  split
  · rfl
  · split
    · next hprefix =>
      rw [if_pos hprefix] at hp
      split
      · rfl
      · show (Scope.live m).firstField _ (m.nodesOfType _).reverse = (Scope.live c).firstField _ (c.nodesOfType _).reverse
        rw [h.nodesOfType_eq, ← List.filter_reverse]
        exact h.firstField_eq hb _ _ fun node hn => hp node (List.mem_reverse.1 hn)
    · next hprefix =>
      rw [if_neg hprefix] at hp
      cases hs : Path.splitChars (Text.strip path) with
      | error fault => rfl
      | ok tokens =>
        cases tokens with
        | nil => rfl
        | cons token rest =>
          cases token with
          | index i => rfl
          | key name =>
            have hne : name ≠ "_node_types" := by
              rintro rfl
              exact hp rest hs
            show (if ((Scope.live m).root name).isNull then _ else _) = if ((Scope.live c).root name).isNull then _ else _
            rw [h.root_eq hb hne]

end Mirrors

/-! ## The path of a click -/

theorem strip_button : Text.strip "button_data".toList = "button_data".toList := by decide

theorem split_button : Path.splitChars "button_data".toList = .ok [.key "button_data"] := rfl

theorem plain_button (c : Context) : c.Plain "button_data".toList := by
  unfold Plain
  rw [strip_button, if_neg (by decide), split_button]
  intro rest h
  simp at h

theorem resolve_button (c : Context) :
    (Scope.live c).resolve "button_data".toList = .ok (c.buttonData.getD .null) := by
  have hroot : (Scope.live c).root "button_data" = c.buttonData.getD .null := rfl
  rw [Scope.resolve, strip_button, Scope.resolveTrimmed, if_neg (by decide), if_neg (by decide), split_button]
  show (if ((Scope.live c).root "button_data").isNull then _ else Path.walk ((Scope.live c).root "button_data") []) = _
  rw [hroot, Path.walk_nil]
  cases c.buttonData.getD .null <;> rfl

/-- A click can be told from the context, but not from the rows. -/
theorem Mirrors.resolve_button_ne (h : Mirrors c m) (hb : c.buttonData ≠ none) :
    (Scope.live m).resolve "button_data".toList ≠ (Scope.live c).resolve "button_data".toList := by
  obtain ⟨data, hd⟩ := Option.ne_none_iff_exists'.1 hb
  rw [resolve_button, resolve_button, h.unclicked, hd]
  intro he
  have hnull := h.clicked data hd
  rw [← (Except.ok.inj he : Value.null = data)] at hnull
  cases hnull

/-- What entries tell, one entry later. -/
theorem replay_append {triggerData : Value} {logs : List NodeLog} {row : NodeLog}
    (h : replay triggerData logs = .ok c) : replay triggerData (logs ++ [row]) = c.replayLog row := by
  have h : logs.foldlM replayLog (start triggerData) = .ok c := h
  rw [replay, List.foldlM_append, h]
  show (c.replayLog row >>= fun c => pure c) = _
  cases c.replayLog row <;> rfl

end Context

end WorkGraph
