import WorkGraph.Proofs.Reach

/-!
# Following selected links

What the world and a run of an execution have to do with the nodes that are reached in it: `Surveyed`, `Explored`. A
dispatch reaches no other nodes, leaves a row of the node it is for, and settles every node that has run in it
(`Explored.within`); the same goes for the click that goes on behind a message (`Explored.buttonClick`).
-/

namespace WorkGraph

open Engine Running

/-- An execution of a workflow, the tools that send messages with buttons, and the buttons that were clicked on the
messages of its nodes. -/
structure Survey where
  execution : String
  workflow : Workflow
  tools : List Value
  clicked : String → Value → Prop

/-- Whether the titles of the nodes are texts, and the tools of actions are named by texts, if at all. -/
def Workflow.Regular (W : Workflow) : Prop :=
  ∀ node ∈ W.nodes, node.Titled ∧ (node.isOfType .action = true →
    node.setting "tool_id" = .null ∨ ∃ tool, node.setting "tool_id" = .str tool)

/-- Whether a mapping leads back to a node of the workflow whose message waits. -/
structure Waits (S : Survey) (logs : List NodeLog) (m : ButtonMapping) : Prop where
  workflow : m.workflowId = S.workflow.id
  row : ∃ row ∈ logs, row.isRouting = false ∧ row.status = .success ∧ row.nodeId = m.nodeId ∧
    Action.awaitsClick row.outputData = true
  node : ∃ node, S.workflow.node? m.nodeId = some node ∧ node.isOfType .action = true ∧
    S.tools.any (node.setting "tool_id").same = true

/-- What a world holds of an execution in which just the nodes behind selected links have run. -/
structure Surveyed (S : Survey) (w : World) (logs : List NodeLog) : Prop where
  steady : w.Steady
  heard : w.Heard
  record : ∃ x, HasRecord w.storage S.execution x ∧ x.id = S.execution
  fits : (Store.NodeLogs.place S.execution).Fits
  rows : HasLogs w.storage S.execution logs
  counted : Counted logs
  tools : w.config.buttonTools = S.tools
  clicks : ∀ node button, S.clicked node button ↔ button.truthy = true ∧ ⟨S.execution, node, button⟩ ∈ w.accepted
  attempted : ∀ a ∈ w.accepted, a.execution = S.execution → a.node ∈ attempts logs
  once : (attempts logs).Nodup
  reached : ∀ node ∈ attempts logs, Reached S.workflow S.tools S.clicked logs node
  waits : ∀ m, Continuation.Listed m w → m.executionId = S.execution → Waits S logs m

/-- A run that goes through the workflow in such a world. -/
structure Explored (S : Survey) (p : Progress) (logs : List NodeLog) : Prop where
  surveyed : Surveyed S p.world logs
  execution : p.run.execution = S.execution
  workflow : p.run.workflow = S.workflow
  graph : p.run.graph = S.workflow.graph
  known : ∀ node, p.run.context.isCompleted node = true ↔ node ∈ attempts logs
  dispatched : ∀ node, p.run.context.hasOutput node = true → p.run.context.isCompleted node = true

/-! ## What does not matter -/

variable {S : Survey} {w w' : World} {r : Run} {p q : Progress} {logs : List NodeLog}

/-- A file that is not for mappings does not matter to what mappings there are. -/
theorem Continuation.Listed.of_wrote_ne {m : ButtonMapping} {place : Location} {v : Value} (h : Listed m w')
    (hw : Wrote place v w w') (hne : ∀ message, (Store.Mappings.place message).path ≠ place.path) : Listed m w := by
  obtain ⟨message, rows, hread, hrow⟩ := h
  exact ⟨message, rows, (hw.read_ne (hne message)).symm.trans hread, hrow⟩

/-- A mapping was there before a node ran, or it is the one that the node has added. -/
theorem Continuation.Listed.of_worked {m : ButtonMapping} {origin : Origin} {workflow : String} (h : Listed m w')
    (hw : Worked origin workflow w w') :
    Listed m w ∨ m.executionId = origin.execution ∧ m.nodeId = origin.node ∧ m.workflowId = workflow ∧
      w'.storage ≠ w.storage := by
  by_cases hsame : w'.storage = w.storage
  · rw [Listed, hsame] at h
    exact .inl h
  · obtain ⟨mapping, he, hn, hwf, old, hread, hwrite⟩ := hw.storage.resolve_left hsame
    obtain ⟨message, rows, hrows, row, hrow, now, hload⟩ := h
    by_cases hpath : (Store.Mappings.place message).path = (Store.Mappings.place mapping.messageId).path
    · have hself : w'.storage.read (Store.Mappings.place mapping.messageId) (.list []) =
          .ok (.list (old ++ [mapping.toValue])) := Storage.read_write_self hwrite
      rw [← Storage.read_congr hpath, hrows] at hself
      obtain rfl := Value.list.inj (Except.ok.inj hself)
      rcases List.mem_append.1 hrow with hrow | hrow
      · exact .inl ⟨_, old, hread, row, hrow, now, hload⟩
      · rw [List.mem_singleton.1 hrow, ButtonMapping.load_toValue] at hload
        obtain rfl := Except.ok.inj hload
        exact .inr ⟨he, hn, hwf, hsame⟩
    · rw [Storage.read_write_ne hwrite hpath] at hrows
      exact .inl ⟨message, rows, hrows, row, hrow, now, hload⟩

theorem Waits.mono {more : List NodeLog} {m : ButtonMapping} (h : Waits S logs m) : Waits S (logs ++ more) m := by
  obtain ⟨row, hm, hrow⟩ := h.row
  exact ⟨h.workflow, ⟨row, List.mem_append_left _ hm, hrow⟩, h.node⟩

theorem Surveyed.quiet (h : Surveyed S w logs) (hq : Quiet w w') : Surveyed S w' logs where
  steady := hq.steady h.steady
  heard := hq.heard h.heard
  record := by
    obtain ⟨x, hx, hid⟩ := h.record
    exact ⟨x, hq.hasRecord hx, hid⟩
  fits := h.fits
  rows := hq.hasLogs h.rows
  counted := h.counted
  tools := by rw [hq.config]; exact h.tools
  clicks := by rw [hq.accepted]; exact h.clicks
  attempted := by rw [hq.accepted]; exact h.attempted
  once := h.once
  reached := h.reached
  waits m hm := h.waits m (by rw [Continuation.Listed, ← hq.storage]; exact hm)

namespace Explored

theorem quiet (h : Explored S ⟨w, r⟩ logs) (hq : Quiet w w') : Explored S ⟨w', r⟩ logs :=
  ⟨h.surveyed.quiet hq, h.execution, h.workflow, h.graph, h.known, h.dispatched⟩

/-- Another run of the same execution that knows as much. -/
theorem rerun {s : Run} (h : Explored S ⟨w, r⟩ logs) (he : s.execution = r.execution) (hw : s.workflow = r.workflow)
    (hg : s.graph = r.graph) (hc : s.context = r.context) : Explored S ⟨w, s⟩ logs :=
  ⟨h.surveyed, he.trans h.execution, hw.trans h.workflow, hg.trans h.graph, hc ▸ h.known, hc ▸ h.dispatched⟩

theorem smooth (hv : S.workflow.validate = .ok ()) (h : Explored S p logs) : Smooth p logs where
  audible := by
    obtain ⟨x, hx, -⟩ := h.surveyed.record
    rw [h.execution]
    exact ⟨h.surveyed.steady, h.surveyed.heard, x, hx⟩
  fits := h.execution ▸ h.surveyed.fits
  rows := h.execution ▸ h.surveyed.rows
  counted := h.surveyed.counted
  typed := h.workflow ▸ Workflow.typed_of_validate hv
  dispatched := h.dispatched

end Explored

/-! ## One turn -/

/-- Names are compared the same way from both sides. -/
theorem Value.same_str_right (v : Value) (s : String) : v.same (.str s) = (Value.str s).same v := by
  cases v <;> simp [Value.same, Value.isNull, Value.asNumber?, Bool.beq_comm]

theorem Node.isOfType_iff {node : Node} {type : NodeType} : node.isOfType type = true ↔ node.nodeType? = some type := by
  unfold isOfType nodeType?
  constructor
  · intro h
    rw [beq_iff_eq.1 h]
    exact NodeType.ofName?_name type
  · intro h
    have := List.find?_some h
    rw [beq_iff_eq] at this ⊢
    exact this.symm

/-- A tool for messages with buttons is one of those that the routers know. -/
theorem Workflow.Regular.tools_any {W : Workflow} (h : W.Regular) {node : Node} (hn : node ∈ W.nodes)
    (ha : node.isOfType .action = true) {config : Config} (hb : config.isButtonTool (node.setting "tool_id") = true) :
    config.buttonTools.any (node.setting "tool_id").same = true := by
  rw [Config.isButtonTool, Bool.and_eq_true] at hb
  rcases (h node hn).2 ha with hnull | ⟨tool, htool⟩
  · rw [hnull] at hb
    cases hb.1
  · rw [htool] at hb ⊢
    obtain ⟨v, hv, hs⟩ := List.any_eq_true.1 hb.2
    exact List.any_eq_true.2 ⟨v, hv, by rw [← Value.same_str_right]; exact hs⟩

/-- The routers can look up the tool of an action. -/
theorem Workflow.Regular.isKey {W : Workflow} (h : W.Regular) {node : Node} (hn : node ∈ W.nodes)
    (ha : node.isOfType .action = true) : (node.setting "tool_id").isKey = true := by
  rcases (h node hn).2 ha with hnull | ⟨tool, htool⟩
  · rw [hnull]; rfl
  · rw [htool]; rfl

section Turns

variable (hv : S.workflow.validate = .ok ()) (hreg : S.workflow.Regular)
variable {node : Node} {row : NodeLog} {result : Except Fault Value}

include hv hreg in
/-- The mappings of the execution after a turn. -/
theorem Explored.waits_turned (h : Explored S ⟨w, r⟩ logs) (hn : node ∈ S.workflow.nodes)
    (ht : Turn node logs row result w r w') (m : ButtonMapping) (hm : Continuation.Listed m w')
    (he : m.executionId = S.execution) : Waits S (logs ++ [row]) m := by
  obtain ⟨entry, w₁, w₂, hw, hrun, hw'⟩ := ht.ran
  have hn' : node ∈ r.workflow.nodes := h.workflow ▸ hn
  obtain ⟨hworked, hstorage⟩ := Dispatch.runNode_worked node (r.marked node) w₁
  rw [hrun] at hworked hstorage
  rcases (hm.of_wrote_ne hw' fun _ => (nodeLogs_ne_mappings _ _).symm).of_worked hworked with hm | ⟨-, hnode, hwf, hne⟩
  · exact (h.surveyed.waits m (hm.of_wrote_ne hw fun _ => (nodeLogs_ne_mappings _ _).symm) he).mono
  · rcases hstorage with hsame | ⟨output, rfl, htype, hbutton, hawaits⟩
    · exact absurd hsame hne
    · have ha := Node.isOfType_iff.2 htype
      refine ⟨hwf.trans (congrArg Workflow.id h.workflow), ⟨row, by simp, (h.smooth hv).isRouting_row hn' ht, ht.status,
        ht.nodeId.trans hnode.symm, by rw [ht.output]; exact hawaits⟩, node, ?_, ha, ?_⟩
      · rw [hnode]
        exact Workflow.node?_of_mem hv hn
      · rw [← h.surveyed.tools, ← hw.config]
        exact hreg.tools_any hn ha hbutton

include hv hreg in
/-- A node that is reached has run. -/
theorem Explored.turned (h : Explored S ⟨w, r⟩ logs) (hn : node ∈ S.workflow.nodes)
    (hnew : r.context.isCompleted node.id = false) (hreach : Reached S.workflow S.tools S.clicked logs node.id)
    (ht : Turn node logs row result w r w') :
    Explored S ⟨w', { r with context := r.context.turned node result }⟩ (logs ++ [row]) := by
  have hn' : node ∈ r.workflow.nodes := h.workflow ▸ hn
  have hsmooth := (h.smooth hv).turned ht
  have hattempts := (h.smooth hv).attempts_turned hn' ht
  have hwaits := h.waits_turned hv hreg hn ht
  obtain ⟨entry, w₁, w₂, hw, hrun, hw'⟩ := ht.ran
  have hworked := (Dispatch.runNode_worked node (r.marked node) w₁).1
  rw [hrun] at hworked
  have haccepted : w'.accepted = w.accepted := hw'.accepted.trans (hworked.accepted.trans hw.accepted)
  have hsub : ∀ n ∈ attempts logs, n ∈ attempts (logs ++ [row]) := by
    intro n hm
    rw [hattempts]
    exact List.mem_append_left _ hm
  have hknown : ∀ n, (r.context.turned node result).isCompleted n = true ↔ n ∈ attempts (logs ++ [row]) := by
    intro n
    rw [hattempts, List.mem_append, List.mem_singleton, ← h.known, Context.isCompleted_turned, Bool.or_eq_true,
      beq_iff_eq, or_comm]
  refine ⟨?_, h.execution, h.workflow, h.graph, hknown, hsmooth.dispatched⟩
  exact
    { steady := hsmooth.audible.steady
      heard := hsmooth.audible.heard
      record := by
        obtain ⟨x, hx, hid⟩ := h.surveyed.record
        exact ⟨x, hw'.hasRecord (hworked.hasRecord (hw.hasRecord hx)), hid⟩
      fits := h.surveyed.fits
      rows := h.execution ▸ hsmooth.rows
      counted := hsmooth.counted
      tools := by
        have hconfig : w'.config = w.config := hw'.config.trans (hworked.config.trans hw.config)
        rw [hconfig]
        exact h.surveyed.tools
      clicks := by rw [haccepted]; exact h.surveyed.clicks
      attempted := by
        rw [haccepted]
        exact fun a ha he => hsub _ (h.surveyed.attempted a ha he)
      once := by
        rw [hattempts, List.nodup_append]
        refine ⟨h.surveyed.once, by simp, fun a ha b hb => ?_⟩
        rw [List.mem_singleton.1 hb]
        rintro rfl
        rw [(h.known _).2 ha] at hnew
        cases hnew
      reached := by
        intro n hm
        rw [hattempts, List.mem_append, List.mem_singleton] at hm
        have hmono : ∀ row' ∈ logs, row' ∈ logs ++ [row] := fun _ => List.mem_append_left _
        rcases hm with hm | rfl
        · exact (h.surveyed.reached n hm).mono hmono fun _ _ => id
        · exact hreach.mono hmono fun _ _ => id
      waits := hwaits }

end Turns

/-! ## Where a dispatch leads -/

/-- More rows, all of whose nodes are settled; the targets have rows now. -/
def Leads (S : Survey) (logs : List NodeLog) (targets : String → Prop) (p : Progress) : Prop :=
  ∃ more, Explored S p (logs ++ more) ∧ (∀ target, targets target → target ∈ attempts (logs ++ more)) ∧
    ∀ node ∈ attempts more, Settled S.workflow S.tools S.clicked (logs ++ more) node

namespace Leads

variable {targets targets' : String → Prop}

theorem refl (h : Explored S p logs) (ht : ∀ target, targets target → target ∈ attempts logs) :
    Leads S logs targets p := by
  refine ⟨[], ?_, ?_, fun node hn => by cases hn⟩
  · rwa [List.append_nil]
  · rwa [List.append_nil]

theorem imp (h : Leads S logs targets p) (ht : ∀ target, targets' target → targets target) : Leads S logs targets' p := by
  obtain ⟨more, he, hmem, hs⟩ := h
  exact ⟨more, he, fun target h => hmem target (ht target h), hs⟩

theorem map (h : Leads S logs targets p) (hq : ∀ logs, Explored S p logs → Explored S q logs) :
    Leads S logs targets q := by
  obtain ⟨more, he, hrest⟩ := h
  exact ⟨more, hq _ he, hrest⟩

/-- What leads on from where something led. -/
theorem trans (h : Leads S logs targets p)
    (k : ∀ more, Explored S p (logs ++ more) → Leads S (logs ++ more) targets' q) :
    Leads S logs (fun target => targets target ∨ targets' target) q := by
  obtain ⟨more, he, ht, hs⟩ := h
  obtain ⟨more', he', ht', hs'⟩ := k more he
  refine ⟨more ++ more', by rwa [← List.append_assoc], fun target htarget => ?_, fun node hn => ?_⟩
  · rw [← List.append_assoc]
    rcases htarget with htarget | htarget
    · rw [attempts_append_logs]
      exact List.mem_append_left _ (ht target htarget)
    · exact ht' target htarget
  · rw [← List.append_assoc]
    rw [attempts_append_logs] at hn
    rcases List.mem_append.1 hn with hn | hn
    · refine (hs node hn).append he'.surveyed.once ?_
      rw [attempts_append_logs]
      exact List.mem_append_right _ hn
    · exact hs' node hn

end Leads

/-- Whether dispatches of nodes that are reached leave rows of theirs, where so many nodes are without one. -/
def Dispatches (S : Survey) (depth : Nat) (dispatch : Node → Running Unit) : Prop :=
  ∀ node w r logs, node ∈ S.workflow.nodes → Explored S ⟨w, r⟩ logs →
    Reached S.workflow S.tools S.clicked logs node.id → S.workflow.pending logs < depth →
    Leads S logs (· = node.id) (go (dispatch node) ⟨w, r⟩).2

section Links

variable {depth : Nat} {dispatch : Node → Running Unit} (hv : S.workflow.validate = .ok ())
  (hd : Dispatches S depth dispatch)

include hv hd

theorem Explored.followLink (h : Explored S ⟨w, r⟩ logs) {link : Link} {source : String}
    (hl : link ∈ S.workflow.graph.links source) (hreach : Reached S.workflow S.tools S.clicked logs link.target)
    (hp : S.workflow.pending logs < depth) :
    ∃ error q, go (Routing.followLink dispatch link) ⟨w, r⟩ = (.ok error, q) ∧ Leads S logs (· = link.target) q := by
  obtain ⟨target, hn, hid, hnode⟩ := Workflow.node?_of_mem_links hv hl
  have hlead := hd target w r logs hn h (hid ▸ hreach) hp
  unfold Routing.followLink
  rw [go_bind_ok (go_run w r), h.workflow, hnode]
  dsimp only
  rw [go_bind, go_faultOf]
  rcases hr : go (dispatch target) ⟨w, r⟩ with ⟨result, q⟩
  rw [hr] at hlead
  cases result with
  | ok _ => exact ⟨_, q, rfl, hlead.imp fun t ht => ht.trans hid.symm⟩
  | error _ => exact ⟨_, q, rfl, hlead.imp fun t ht => ht.trans hid.symm⟩

theorem Explored.follow {source : String} : ∀ (links : List Link) {w : World} {r : Run} {logs : List NodeLog},
    Explored S ⟨w, r⟩ logs → (∀ link ∈ links, link ∈ S.workflow.graph.links source) →
    (∀ link ∈ links, Reached S.workflow S.tools S.clicked logs link.target) → S.workflow.pending logs < depth →
    ∃ routing q, go (Routing.follow dispatch links) ⟨w, r⟩ = (.ok routing, q) ∧
      Leads S logs (fun target => ∃ link ∈ links, link.target = target) q
  | [], w, r, logs, h, _, _, _ => ⟨_, _, rfl, .refl h fun _ ⟨_, hl, _⟩ => by cases hl⟩
  | link :: rest, w, r, logs, h, hl, hreach, hp => by
    obtain ⟨error, ⟨w₁, r₁⟩, he, hlead⟩ :=
      h.followLink hv hd (hl link List.mem_cons_self) (hreach link List.mem_cons_self) hp
    -- the other links are followed from wherever the first one led
    have hrest : ∃ routing q, go (Routing.follow dispatch rest) ⟨w₁, r₁⟩ = (.ok routing, q) ∧
        ∀ more, Explored S ⟨w₁, r₁⟩ (logs ++ more) →
          Leads S (logs ++ more) (fun target => ∃ link ∈ rest, link.target = target) q := by
      have hfrom (more : List NodeLog) (hmore : Explored S ⟨w₁, r₁⟩ (logs ++ more)) :=
        Explored.follow rest hmore (fun l hm => hl l (List.mem_cons_of_mem _ hm))
          (fun l hm => (hreach l (List.mem_cons_of_mem _ hm)).mono (fun _ => List.mem_append_left _) fun _ _ => id)
          (Nat.lt_of_le_of_lt (S.workflow.pending_append_le logs more) hp)
      obtain ⟨more, hmore, -⟩ := hlead
      obtain ⟨routing, q, hgo, -⟩ := hfrom more hmore
      refine ⟨routing, q, hgo, fun more' hmore' => ?_⟩
      obtain ⟨routing', q', hgo', hlead'⟩ := hfrom more' hmore'
      rw [hgo, Prod.mk.injEq] at hgo'
      rw [hgo'.2]
      exact hlead'
    obtain ⟨routing, q, hgo, hlead'⟩ := hrest
    refine ⟨⟨true, error.or routing.error, false⟩, q, ?_, (hlead.trans hlead').imp ?_⟩
    · unfold Routing.follow
      rw [go_bind_ok he, go_bind_ok hgo]
      rfl
    · rintro target ⟨l, hm, rfl⟩
      rcases List.mem_cons.1 hm with rfl | hm
      · exact .inl rfl
      · exact .inr ⟨l, hm, rfl⟩

/-- Behind a click that names a button the links of its outlet are followed. -/
theorem Explored.buttonClick (h : Explored S ⟨w, r⟩ logs) {node : Node} {output : Entries Value}
    (ho : r.context.outputs.get? node.id = some (.map output))
    (hreach : ∀ link ∈ S.workflow.graph.links node.id, link.outlet = some (Value.field output "button_id").display →
      Reached S.workflow S.tools S.clicked logs link.target)
    (hp : S.workflow.pending logs < depth) :
    ∃ routing q, go (Routing.buttonClick dispatch node output (S.workflow.graph.links node.id)) ⟨w, r⟩ =
        (.ok routing, q) ∧
      Leads S logs (fun target => ∃ link ∈ S.workflow.graph.links node.id,
        link.outlet = some (Value.field output "button_id").display ∧ link.target = target) q := by
  unfold Routing.buttonClick
  dsimp only
  generalize (Value.field output "button_id").display = button at hreach ⊢
  have hmem (link : Link) : link ∈ Routing.ofOutlet (S.workflow.graph.links node.id) button ↔
      link ∈ S.workflow.graph.links node.id ∧ link.outlet = some button := by
    simp [Routing.ofOutlet]
  split
  · next hempty =>
    rw [List.isEmpty_iff] at hempty
    refine ⟨_, _, rfl, .refl h ?_⟩
    rintro _ ⟨link, hl, hb, -⟩
    have := (hmem link).2 ⟨hl, hb⟩
    rw [hempty] at this
    cases this
  · rw [go_bind_ok (go_context w r), go_bind_ok (go_setContext _ w r)]
    generalize hc : (r.context.spliceButton node.id _).setButtonData _ = c
    have hspliced : Explored S ⟨w, { r with context := c }⟩ logs := by
      refine ⟨h.surveyed, h.execution, h.workflow, h.graph, ?_, fun n hn => ?_⟩
      · rw [← hc]; exact h.known
      · rw [← hc] at hn ⊢
        exact h.dispatched n ((Context.hasOutput_spliced ho _ _ n).symm.trans hn)
    have hq : Quiet w (run (Engine.log .info "handlers.button_message" "button_click_routed"
      [("node_id", .str node.id), ("button_id", .str button)]) w).2 := hushed_log (by decide) w
    obtain ⟨routing, q, hgo, hlead⟩ := (hspliced.quiet hq).follow hv hd
      (Routing.ofOutlet (S.workflow.graph.links node.id) button) (fun link hl => ((hmem link).1 hl).1)
      (fun link hl => hreach link ((hmem link).1 hl).1 ((hmem link).1 hl).2) hp
    refine ⟨routing, q, hgo, hlead.imp ?_⟩
    rintro _ ⟨link, hl, hb, rfl⟩
    exact ⟨link, (hmem link).2 ⟨hl, hb⟩, rfl⟩

end Links

/-! ## Routing -/

namespace Router

variable {tools : List Value} {node : Node} {output : Value}

/-- The output of a message with buttons, if a node has sent one. -/
def messageOf (tools : List Value) (node : Node) (output : Value) : Option (Entries Value) :=
  if node.isOfType .action && tools.any (node.setting "tool_id").same then output.entries? else none

theorem buttonOutput?_eq (hk : node.isOfType .action = true → (node.setting "tool_id").isKey = true) :
    buttonOutput? tools node output = .ok (messageOf tools node output) := by
  unfold buttonOutput? messageOf
  cases ha : node.isOfType .action with
  | false => rfl
  | true =>
    dsimp only
    rw [hk ha]
    rfl

/-- Which router is chosen for a node whose tool can be looked up. -/
theorem choose_eq (hk : node.isOfType .action = true → (node.setting "tool_id").isKey = true) :
    choose tools node output = .ok (
      if node.isOfType .condition && output.entries?.any fun entries => (Value.field entries "result").isBool then
        some .condition
      else (messageOf tools node output).map fun entries =>
        if (Value.field entries "button_id").truthy then .buttonClick else .pendingSend) := by
  unfold choose all
  simp only [List.findM?, claims, buttonOutput?_eq hk]
  cases (node.isOfType .condition && output.entries?.any fun entries => (Value.field entries "result").isBool) with
  | true => rfl
  | false =>
    cases messageOf tools node output with
    | none => rfl
    | some entries =>
      show (match !(Value.field entries "button_id").truthy with
        | true => _
        | false => (match (Value.field entries "button_id").truthy with
          | true => _
          | false => _)) = Except.ok (some (if (Value.field entries "button_id").truthy then buttonClick else pendingSend))
      cases (Value.field entries "button_id").truthy <;> rfl

end Router

section Selection

variable {tools : List Value} {clicked : Value → Prop} {node : Node} {output : Value} {link : Link}

theorem selects_condition (h : node.isOfType .condition = true) (entries : Entries Value) :
    Selects tools clicked node (.map entries) link ↔
      link.outlet = some (if (Value.field entries "result").truthy then "true" else "false") := by
  unfold Selects
  rw [Node.isOfType_iff.1 h]

/-- A message with buttons is the output of an action. -/
theorem Router.eq_of_messageOf {entries : Entries Value} (h : Router.messageOf tools node output = some entries) :
    node.nodeType? = some .action ∧ tools.any (node.setting "tool_id").same = true ∧ output = .map entries := by
  unfold Router.messageOf at h
  split at h
  · next hcond =>
    rw [Bool.and_eq_true] at hcond
    refine ⟨Node.isOfType_iff.1 hcond.1, hcond.2, ?_⟩
    cases output <;> cases h
    rfl
  · cases h

theorem selects_message {entries : Entries Value} (h : Router.messageOf tools node output = some entries) :
    Selects tools clicked node output link ↔
      if (Value.field entries "button_id").truthy then link.outlet = some (Value.field entries "button_id").display
      else ∃ button, clicked button ∧ link.outlet = some button.display := by
  obtain ⟨ht, ha, rfl⟩ := Router.eq_of_messageOf h
  simp only [Selects, ht, ha, if_true]

theorem selects_other (hc : node.isOfType .condition = false) (h : Router.messageOf tools node output = none) :
    Selects tools clicked node output link := by
  unfold Selects
  split
  · next ht =>
    rw [Node.isOfType_iff.2 ht] at hc
    cases hc
  · next ht =>
    split
    · next ha =>
      rw [Router.messageOf, Node.isOfType_iff.2 ht, ha] at h
      cases h
    · trivial
  · trivial

end Selection

/-- A condition puts out its result. -/
theorem Condition.result_of_evaluate {config : Entries Value} {s : Scope} {node : String} {output : Value}
    (h : evaluate config s node = .ok output) :
    ∃ entries result, output = .map entries ∧ Value.field entries "result" = .bool result := by
  unfold evaluate at h
  dsimp only at h
  cases ho : operator node (Value.field config "operator") with
  | error fault => rw [ho] at h; cases h
  | ok op =>
    rw [ho] at h
    cases hf : Template.evaluate s ((config.get? "field").getD (.str "")) with
    | error fault => rw [hf] at h; cases h
    | ok field =>
      rw [hf] at h
      cases hr : op.holds field ((config.get? "value").getD (.str "")) with
      | error fault =>
        change (op.holds field ((config.get? "value").getD (.str "")) >>= _) = _ at h
        rw [hr] at h
        cases h
      | ok result =>
        change (op.holds field ((config.get? "value").getD (.str "")) >>= _) = _ at h
        rw [hr] at h
        exact ⟨_, result, (Except.ok.inj h).symm, rfl⟩

section Dispatch

variable {depth : Nat} {dispatch : Node → Running Unit} (hv : S.workflow.validate = .ok ()) (hreg : S.workflow.Regular)

include hv hreg in
/-- Routing a node that has succeeded leads along what its output selects. -/
theorem Explored.route (hd : Dispatches S depth dispatch) (h : Explored S ⟨w, r⟩ logs) {node : Node} {row : NodeLog}
    {output : Value} (hn : node ∈ S.workflow.nodes) (hm : row ∈ logs) (hr : row.isRouting = false)
    (hs : row.status = .success) (hid : row.nodeId = node.id) (hrow : row.outputData = output)
    (ho : r.context.outputs.get? node.id = some output)
    (hc : node.isOfType .condition = true →
      ∃ entries result, output = .map entries ∧ Value.field entries "result" = .bool result)
    (hun : ∀ button, ¬S.clicked node.id button) (hp : S.workflow.pending logs < depth) :
    Leads S logs (fun target => ∃ link ∈ S.workflow.graph.links node.id,
      Selects S.tools (S.clicked node.id) node output link ∧ link.target = target)
      (go (Dispatch.route dispatch node output) ⟨w, r⟩).2 := by
  have hreach (link : Link) (hl : link ∈ S.workflow.graph.links node.id)
      (hsel : Selects S.tools (S.clicked node.id) node output link) :
      Reached S.workflow S.tools S.clicked logs link.target := by
    have hstep : Follows S.workflow S.tools S.clicked logs row.nodeId link.target :=
      .intro hm hr hs (hid ▸ Workflow.node?_of_mem hv hn) (hid ▸ hl) (by rw [hid, hrow]; exact hsel)
    exact .follow (h.surveyed.reached _ (mem_attempts hm hr)) hstep
  -- whatever is followed, what is noted of it afterwards does not matter
  have hnote {act : Running Routing} {targets : String → Prop}
      (hact : ∃ routing q, go act ⟨w, r⟩ = (.ok routing, q) ∧ Leads S logs targets q) :
      Leads S logs targets (go (act >>= fun routing => modifyRun routing.noteIn) ⟨w, r⟩).2 := by
    obtain ⟨routing, ⟨w', r'⟩, hgo, hlead⟩ := hact
    rw [go_bind_ok hgo, go_modifyRun]
    refine hlead.map fun logs he => he.rerun ?_ ?_ ?_ ?_ <;>
      unfold Routing.noteIn <;> cases routing.error <;> cases routing.suspend <;> rfl
  unfold Dispatch.route
  rw [go_bind_ok (go_run w r), go_lift_bind (run_config w), h.surveyed.tools, Router.choose_eq (hreg.isKey hn), h.graph]
  rw [go_lift_bind (run_ofExcept _ w)]
  refine hnote ?_
  cases hcond : node.isOfType .condition with
  | true =>
    obtain ⟨entries, result, rfl, hresult⟩ := hc hcond
    have hany : ((Value.map entries).entries?.any fun entries => (Value.field entries "result").isBool) = true := by
      simp [Value.entries?, hresult, Value.isBool]
    rw [hany]
    show ∃ routing q, go (Routing.condition dispatch node entries (S.workflow.graph.links node.id)) ⟨w, r⟩ = _ ∧ _
    unfold Routing.condition
    dsimp only
    generalize hout : (if (Value.field entries "result").truthy then "true" else "false") = outlet
    have hsel (link : Link) : Selects S.tools (S.clicked node.id) node (.map entries) link ↔ link.outlet = some outlet := by
      rw [selects_condition hcond, hout]
    have hmem (link : Link) : link ∈ Routing.ofOutlet (S.workflow.graph.links node.id) outlet ↔
        link ∈ S.workflow.graph.links node.id ∧ link.outlet = some outlet := by
      simp [Routing.ofOutlet]
    obtain ⟨routing, ⟨w', r'⟩, hgo, hlead⟩ := h.follow hv hd (Routing.ofOutlet (S.workflow.graph.links node.id) outlet)
      (fun link hl => ((hmem link).1 hl).1)
      (fun link hl => hreach link ((hmem link).1 hl).1 ((hsel link).2 ((hmem link).1 hl).2)) hp
    have hlead : Leads S logs (fun target => ∃ link ∈ S.workflow.graph.links node.id,
        Selects S.tools (S.clicked node.id) node (.map entries) link ∧ link.target = target) ⟨w', r'⟩ := by
      refine hlead.imp ?_
      rintro _ ⟨link, hl, hs, rfl⟩
      exact ⟨link, (hmem link).2 ⟨hl, (hsel link).1 hs⟩, rfl⟩
    rw [go_bind_ok hgo]
    split
    · exact ⟨routing, _, rfl, hlead.map fun _ he => he.quiet (hushed_log (by decide) w')⟩
    · exact ⟨routing, _, rfl, hlead⟩
  | false =>
    rw [Bool.false_and, if_neg Bool.false_ne_true]
    cases hmsg : Router.messageOf S.tools node output with
    | none =>
      have hsel (link : Link) : Selects S.tools (S.clicked node.id) node output link := selects_other hcond hmsg
      show ∃ routing q, go (Routing.follow dispatch (S.workflow.graph.links node.id)) ⟨w, r⟩ = _ ∧ _
      obtain ⟨routing, q, hgo, hlead⟩ := h.follow hv hd (S.workflow.graph.links node.id) (fun _ => id)
        (fun link hl => hreach link hl (hsel link)) hp
      refine ⟨routing, q, hgo, hlead.imp ?_⟩
      rintro _ ⟨link, hl, -, rfl⟩
      exact ⟨link, hl, rfl⟩
    | some entries =>
      obtain ⟨-, -, rfl⟩ := Router.eq_of_messageOf hmsg
      cases ht : (Value.field entries "button_id").truthy with
      | true =>
        have hsel (link : Link) : Selects S.tools (S.clicked node.id) node (.map entries) link ↔
            link.outlet = some (Value.field entries "button_id").display := by
          rw [selects_message hmsg, if_pos ht]
        rw [Option.map_some, if_pos ht]
        show ∃ routing q, go (Routing.buttonClick dispatch node entries (S.workflow.graph.links node.id)) ⟨w, r⟩ = _ ∧ _
        obtain ⟨routing, q, hgo, hlead⟩ := h.buttonClick hv hd ho
          (fun link hl hb => hreach link hl ((hsel link).2 hb)) hp
        refine ⟨routing, q, hgo, hlead.imp ?_⟩
        rintro _ ⟨link, hl, hs, rfl⟩
        exact ⟨link, hl, (hsel link).1 hs, rfl⟩
      | false =>
        rw [Option.map_some, if_neg (by simp [ht])]
        show ∃ routing q, go (Routing.pendingSend node entries (S.workflow.graph.links node.id)) ⟨w, r⟩ = _ ∧ _
        have hrest : ∀ target, (∃ link ∈ S.workflow.graph.links node.id,
            Selects S.tools (S.clicked node.id) node (.map entries) link ∧ link.target = target) →
            target ∈ attempts logs := by
          rintro _ ⟨link, -, hs, -⟩
          rw [selects_message hmsg, if_neg (by simp [ht])] at hs
          obtain ⟨button, hb, -⟩ := hs
          exact absurd hb (hun button)
        unfold Routing.pendingSend
        split
        · exact ⟨_, _, rfl, .refl h hrest⟩
        · exact ⟨_, _, rfl, .refl (h.quiet (hushed_log (by decide) w)) hrest⟩

/-- A condition that has run put out its result. -/
theorem Turn.result_of_condition {node : Node} {row : NodeLog} {output : Value} (ht : Turn node logs row (.ok output) w r w')
    (hc : node.isOfType .condition = true) :
    ∃ entries result, output = .map entries ∧ Value.field entries "result" = .bool result := by
  obtain ⟨entry, w₁, w₂, -, hrun, -⟩ := ht.ran
  unfold Dispatch.runNode at hrun
  rw [Node.isOfType_iff.1 hc] at hrun
  dsimp only at hrun
  rw [run_ofExcept, Prod.mk.injEq] at hrun
  exact Condition.result_of_evaluate hrun.1

include hv hreg in
/-- A dispatch reaches only what is reached, and settles what it reaches. -/
theorem dispatches_within : ∀ depth, Dispatches S depth (Dispatch.within depth)
  | 0, _, _, _, _, _, _, _, hp => absurd hp (Nat.not_lt_zero _)
  | depth + 1, node, w, r, logs, hn, h, hreach, hp => by
    unfold Dispatch.within
    rw [go_bind_ok (go_modifyRun _ w r), go_bind_ok (go_run _ _)]
    have h : Explored S ⟨w, { r with entered := r.entered ++ [node.id] }⟩ logs := h.rerun rfl rfl rfl rfl
    dsimp only
    split
    · next hc =>
      refine .refl (h.quiet (hushed_log (by decide) w)) ?_
      rintro _ rfl
      exact (h.known _).1 hc
    · next hc =>
      rw [Bool.not_eq_true] at hc
      obtain ⟨row, result, w', hgo, ht⟩ := (h.smooth hv).perform (hreg node hn).1 hc
      have hturn := h.turned hv hreg hn hc hreach ht
      have hn' : node ∈ r.workflow.nodes := h.workflow ▸ hn
      have hrouting := (h.smooth hv).isRouting_row hn' ht
      have hmem : node.id ∈ attempts (logs ++ [row]) := by
        rw [(h.smooth hv).attempts_turned hn' ht]
        simp
      have hone : ∀ n ∈ attempts [row], n = row.nodeId := by
        intro n hm
        simpa [attempts, hrouting] using hm
      have hnode : S.workflow.node? row.nodeId = some node := by
        rw [ht.nodeId]
        exact Workflow.node?_of_mem hv hn
      cases result with
      | error fault =>
        rw [go_bind_error hgo]
        refine ⟨[row], hturn, fun target htarget => htarget ▸ hmem, fun n hm => ?_⟩
        rw [hone n hm]
        refine settled_of_row hturn.surveyed.once (List.mem_append_right _ List.mem_cons_self) hrouting hnode fun hs => ?_
        rw [ht.status] at hs
        cases hs
      | ok output =>
        rw [go_bind_ok hgo]
        have hun (button : Value) : ¬S.clicked node.id button := by
          intro hb
          have hin := h.surveyed.attempted _ ((h.surveyed.clicks _ _).1 hb).2 rfl
          rw [(h.known _).2 hin] at hc
          cases hc
        have hlt : S.workflow.pending (logs ++ [row]) < depth := by
          have hnew : node.id ∉ attempts logs := fun hin => by
            rw [(h.known _).2 hin] at hc
            cases hc
          have := Workflow.pending_lt hn hnew hmem
          omega
        obtain ⟨more, hmore, htargets, hsettled⟩ := hturn.route hv hreg (dispatches_within depth) hn
          (List.mem_append_right _ List.mem_cons_self) hrouting (by rw [ht.status]; rfl) ht.nodeId ht.output
          (by simp [Context.turned]) ht.result_of_condition hun hlt
        rw [List.append_assoc, List.singleton_append] at hmore htargets hsettled
        refine ⟨row :: more, hmore, ?_, fun n hm => ?_⟩
        · rintro _ rfl
          rw [← ht.nodeId]
          exact mem_attempts (List.mem_append_right _ List.mem_cons_self) hrouting
        · rw [← List.singleton_append, attempts_append_logs] at hm
          rcases List.mem_append.1 hm with hm | hm
          · rw [hone n hm]
            refine settled_of_row hmore.surveyed.once (List.mem_append_right _ List.mem_cons_self) hrouting hnode ?_
            rw [ht.nodeId, ht.output]
            exact fun _ link hl hsel => htargets _ ⟨link, hl, hsel, rfl⟩
          · exact hsettled n hm

end Dispatch

end WorkGraph
