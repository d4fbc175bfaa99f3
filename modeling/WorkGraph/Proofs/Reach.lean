import WorkGraph.Proofs.Smooth

/-!
# The nodes behind selected links

The output of a node that succeeded selects links (`Selects`): a condition those of its result, a message with buttons
those of its button or of the buttons that were clicked, any other output all of them. `Reached` is the least set of
nodes that has the trigger node and is closed under selected links. A node is `Settled` if what is behind its selected
links has rows; more rows settle it still (`Settled.append`), as no node has two of them.
-/

namespace WorkGraph

/-! ## Selected links -/

/-- Whether an output selects a link of its node. -/
def Selects (tools : List Value) (clicked : Value → Prop) (node : Node) (output : Value) (link : Link) : Prop :=
  match node.nodeType?, output with
  | some .condition, .map entries =>
    link.outlet = some (if (Value.field entries "result").truthy then "true" else "false")
  | some .action, .map entries =>
    if tools.any (node.setting "tool_id").same then
      if (Value.field entries "button_id").truthy then link.outlet = some (Value.field entries "button_id").display
      else ∃ button, clicked button ∧ link.outlet = some button.display
    else True
  | _, _ => True

section Reach

variable (W : Workflow) (tools : List Value) (clicked : String → Value → Prop) (logs : List NodeLog)

/-- A selected link leads from a node that succeeded to another. -/
inductive Follows : String → String → Prop
  | intro {row : NodeLog} {node : Node} {link : Link} : row ∈ logs → row.isRouting = false → row.status = .success →
      W.node? row.nodeId = some node → link ∈ W.graph.links row.nodeId →
      Selects tools (clicked row.nodeId) node row.outputData link → Follows row.nodeId link.target

/-- The nodes behind the trigger node along selected links. -/
inductive Reached : String → Prop
  | trigger {node : Node} : W.triggerNode? = some node → Reached node.id
  | follow {source target : String} : Reached source → Follows W tools clicked logs source target → Reached target

/-- Whether there are rows for all that is behind the selected links of a node. -/
def Settled (source : String) : Prop :=
  ∀ target, Follows W tools clicked logs source target → target ∈ attempts logs

end Reach

section Monotone

variable {W : Workflow} {tools : List Value} {clicked clicked' : String → Value → Prop} {logs more : List NodeLog}
  {source target : String}

theorem Selects.mono {p q : Value → Prop} {node : Node} {output : Value} {link : Link}
    (h : Selects tools p node output link) (hpq : ∀ button, p button → q button) : Selects tools q node output link := by
  unfold Selects at h ⊢
  split at h
  · exact h
  · split at h
    · next ht =>
      rw [if_pos ht]
      split at h
      · next hb => rw [if_pos hb]; exact h
      · next hb =>
        rw [if_neg hb]
        obtain ⟨button, hp, hl⟩ := h
        exact ⟨button, hpq button hp, hl⟩
    · next ht => rw [if_neg ht]; trivial
  · trivial

theorem Follows.mono (h : Follows W tools clicked logs source target) (hl : ∀ row ∈ logs, row ∈ more)
    (hc : ∀ button, clicked source button → clicked' source button) : Follows W tools clicked' more source target := by
  obtain ⟨hr, hrouting, hs, hn, hlink, hsel⟩ := h
  exact .intro (hl _ hr) hrouting hs hn hlink (hsel.mono hc)

/-- More rows and more clicks reach no less. -/
theorem Reached.mono (h : Reached W tools clicked logs target) (hl : ∀ row ∈ logs, row ∈ more)
    (hc : ∀ node button, clicked node button → clicked' node button) : Reached W tools clicked' more target := by
  induction h with
  | trigger ht => exact .trigger ht
  | follow _ hf ih => exact .follow ih (hf.mono hl (hc _))

/-- Where the trigger node has a row and every node with a row is settled, all that is reached has rows. -/
theorem Reached.mem_attempts (h : Reached W tools clicked logs target)
    (ht : ∀ node, W.triggerNode? = some node → node.id ∈ attempts logs)
    (hs : ∀ node ∈ attempts logs, Settled W tools clicked logs node) : target ∈ attempts logs := by
  induction h with
  | trigger hn => exact ht _ hn
  | follow _ hf ih => exact hs _ ih _ hf

end Monotone

/-! ## Rows of their own -/

section Rows

variable {logs more : List NodeLog} {row other : NodeLog}

/-- A node has one row at most. -/
theorem eq_of_nodeId (hn : (attempts logs).Nodup) (hm : row ∈ logs) (ho : other ∈ logs) (hr : row.isRouting = false)
    (hro : other.isRouting = false) (hid : row.nodeId = other.nodeId) : row = other := by
  unfold attempts at hn
  have hm' : row ∈ logs.filter (!·.isRouting) := List.mem_filter.2 ⟨hm, by simp [hr]⟩
  have ho' : other ∈ logs.filter (!·.isRouting) := List.mem_filter.2 ⟨ho, by simp [hro]⟩
  generalize logs.filter (!·.isRouting) = rows at hn hm' ho'
  induction rows with
  | nil => cases hm'
  | cons first rest ih =>
    rw [List.map_cons, List.nodup_cons] at hn
    rcases List.mem_cons.1 hm' with rfl | hmr
    · rcases List.mem_cons.1 ho' with rfl | hor
      · rfl
      · exact absurd (hid ▸ List.mem_map_of_mem hor) hn.1
    · rcases List.mem_cons.1 ho' with rfl | hor
      · exact absurd (hid ▸ List.mem_map_of_mem hmr) hn.1
      · exact ih hn.2 hmr hor

variable {W : Workflow} {tools : List Value} {clicked : String → Value → Prop} {source target : String}

/-- What a node with a row leads to is not changed by the rows of others. -/
theorem Follows.of_append (h : Follows W tools clicked (logs ++ more) source target)
    (hn : (attempts (logs ++ more)).Nodup) (hs : source ∈ attempts logs) : Follows W tools clicked logs source target := by
  obtain ⟨hr, hrouting, hstatus, hnode, hlink, hsel⟩ := h
  refine .intro ((List.mem_append.1 hr).resolve_right fun hmore => ?_) hrouting hstatus hnode hlink hsel
  rw [attempts_append_logs, List.nodup_append] at hn
  exact hn.2.2 _ hs _ (mem_attempts hmore hrouting) rfl

theorem Settled.append (h : Settled W tools clicked logs source) (hn : (attempts (logs ++ more)).Nodup)
    (hs : source ∈ attempts logs) : Settled W tools clicked (logs ++ more) source := by
  intro target hf
  rw [attempts_append_logs]
  exact List.mem_append_left _ (h target (hf.of_append hn hs))

/-- A node is settled if what its one row selects has rows. -/
theorem settled_of_row (hn : (attempts logs).Nodup) (hm : row ∈ logs) (hr : row.isRouting = false) {node : Node}
    (hnode : W.node? row.nodeId = some node) (hs : row.status = .success → ∀ link ∈ W.graph.links row.nodeId,
      Selects tools (clicked row.nodeId) node row.outputData link → link.target ∈ attempts logs) :
    Settled W tools clicked logs row.nodeId := by
  intro target hf
  generalize hid : row.nodeId = source at hf
  obtain @⟨other, node', link, ho, hro, hstatus, hnode', hlink, hsel⟩ := hf
  obtain rfl := eq_of_nodeId hn hm ho hr hro hid
  obtain rfl := Option.some.inj (hnode.symm.trans hnode')
  exact hs hstatus link hlink hsel

end Rows

/-! ## Workflows that may be stored -/

namespace Graph

/-- Every link comes from an edge with both ends. -/
theorem exists_edge_of_mem_links {edges : List Edge} {vertex : String} {link : Link}
    (h : link ∈ (ofEdges edges).links vertex) :
    ∃ edge ∈ edges, endpoint? edge.source = some vertex ∧ endpoint? edge.target = some link.target ∧
      edge.outlet = link.outlet := by
  have hfold : ∀ (edges : List Edge) (g : Graph), link ∈ (edges.foldl addEdge g).links vertex →
      link ∈ g.links vertex ∨ ∃ edge ∈ edges, endpoint? edge.source = some vertex ∧
        endpoint? edge.target = some link.target ∧ edge.outlet = link.outlet := by
    intro edges
    induction edges with
    | nil => exact fun g hg => .inl hg
    | cons edge rest ih =>
      intro g hg
      rcases ih _ hg with hadd | ⟨e, he, hrest⟩
      · unfold addEdge at hadd
        split at hadd
        · next source target hs ht =>
          rw [links, Entries.get?_set] at hadd
          split at hadd
          · next hv =>
            subst hv
            rw [Option.getD_some, List.mem_append, List.mem_singleton] at hadd
            rcases hadd with hold | rfl
            · exact .inl hold
            · exact .inr ⟨edge, List.mem_cons_self, hs, ht, rfl⟩
          · exact .inl hadd
        · exact .inl hadd
      · exact .inr ⟨e, List.mem_cons_of_mem _ he, hrest⟩
  exact (hfold edges [] h).resolve_left (by simp [links])

end Graph

namespace Workflow

variable {W : Workflow}

/-- The ids of a workflow that may be stored are distinct. -/
theorem nodup_ids (h : W.validate = .ok ()) : (W.nodes.map Node.id).Nodup := by
  have hr := rejection?_of_validate h
  have hd : W.duplicateIds = [] := by
    unfold rejection? at hr
    split at hr
    · cases hr
    · split at hr
      · cases hr
      · next hd => simpa using hd
  rw [List.nodup_iff_count]
  intro id
  by_cases hm : id ∈ W.nodes.map Node.id
  · rw [← Nat.not_lt]
    intro hc
    have hin : id ∈ W.duplicateIds :=
      List.mem_eraseDups.2 (List.mem_filter.2 ⟨hm, by simpa using hc⟩)
    rw [hd] at hin
    cases hin
  · rw [List.count_eq_zero_of_not_mem hm]
    omega

/-- A node is found by its id. -/
theorem node?_of_mem (h : W.validate = .ok ()) {node : Node} (hn : node ∈ W.nodes) : W.node? node.id = some node := by
  have hids := nodup_ids h
  unfold node?
  generalize W.nodes = nodes at hn hids
  induction nodes with
  | nil => cases hn
  | cons first rest ih =>
    rw [List.map_cons, List.nodup_cons] at hids
    rcases List.mem_cons.1 hn with rfl | hn
    · simp
    · have hne : first.id ≠ node.id := fun he => hids.1 (he ▸ List.mem_map_of_mem hn)
      rw [List.find?_cons_of_neg (by simpa using hne)]
      exact ih hn hids.2

/-- The target of a link is a node. -/
theorem node?_of_mem_links (h : W.validate = .ok ()) {vertex : String} {link : Link}
    (hl : link ∈ W.graph.links vertex) : ∃ node ∈ W.nodes, node.id = link.target ∧ W.node? link.target = some node := by
  obtain ⟨edge, he, -, ht, -⟩ := Graph.exists_edge_of_mem_links hl
  have hr := rejection?_of_validate h
  have hd : W.danglingEnd? = none := by
    unfold rejection? at hr
    split at hr
    · cases hr
    · split at hr
      · cases hr
      · split at hr
        · cases hr
        · split at hr
          · cases hr
          · exact Option.map_eq_none_iff.1 hr
  have hin := List.find?_eq_none.1 hd link.target
    (List.mem_flatMap.2 ⟨edge, he, List.mem_filterMap.2 ⟨edge.target, by simp, ht⟩⟩)
  have hid : link.target ∈ W.nodes.map Node.id := by simpa using hin
  obtain ⟨node, hn, hnode⟩ := List.mem_map.1 hid
  exact ⟨node, hn, hnode, hnode ▸ node?_of_mem h hn⟩

end Workflow

/-! ## The nodes without rows -/

/-- The number of nodes that have no row. -/
def Workflow.pending (W : Workflow) (logs : List NodeLog) : Nat :=
  ((W.nodes.map Node.id).eraseDups.filter fun id => !(attempts logs).contains id).length

theorem countP_lt {α : Type} {l : List α} {p q : α → Bool} {a : α} (h : ∀ x ∈ l, p x = true → q x = true) (ha : a ∈ l)
    (hp : p a = false) (hq : q a = true) : l.countP p < l.countP q := by
  induction l with
  | nil => cases ha
  | cons x rest ih =>
    have hrest : rest.countP p ≤ rest.countP q := List.countP_mono_left fun y hy => h y (List.mem_cons_of_mem _ hy)
    rw [List.countP_cons, List.countP_cons]
    rcases List.mem_cons.1 ha with rfl | har
    · simp only [hp, hq, Bool.false_eq_true, if_false, if_true]
      omega
    · have hlt := ih (fun y hy => h y (List.mem_cons_of_mem _ hy)) har
      have hx := h x List.mem_cons_self
      cases hpx : p x with
      | true => simp only [hx hpx, if_true]; omega
      | false => simp only [Bool.false_eq_true, if_false]; omega

theorem Workflow.pending_append_le (W : Workflow) (logs more : List NodeLog) :
    W.pending (logs ++ more) ≤ W.pending logs := by
  unfold pending
  rw [← List.countP_eq_length_filter, ← List.countP_eq_length_filter]
  refine List.countP_mono_left fun id _ hid => ?_
  rw [attempts_append_logs] at hid
  simp only [List.contains_append, Bool.not_or, Bool.and_eq_true] at hid
  exact hid.1

/-- A new row is one node less that has none. -/
theorem Workflow.pending_lt {W : Workflow} {logs more : List NodeLog} {node : Node} (hn : node ∈ W.nodes)
    (hnew : node.id ∉ attempts logs) (hm : node.id ∈ attempts (logs ++ more)) :
    W.pending (logs ++ more) < W.pending logs := by
  unfold pending
  rw [← List.countP_eq_length_filter, ← List.countP_eq_length_filter]
  refine countP_lt (fun id _ hid => ?_) (List.mem_eraseDups.2 (List.mem_map_of_mem hn)) (by simpa using hm)
    (by simpa using hnew)
  rw [attempts_append_logs] at hid
  simp only [List.contains_append, Bool.not_or, Bool.and_eq_true] at hid
  exact hid.1

/-- A run may nest as many dispatches as there are nodes without rows. -/
theorem Run.pending_lt_depth (r : Run) (logs : List NodeLog) : r.workflow.pending logs < r.depth := by
  unfold depth Workflow.pending
  exact Nat.lt_succ_of_le (List.length_filter_le _ _)

end WorkGraph
