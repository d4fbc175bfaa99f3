import WorkGraph.Proofs.Claimed

/-!
# Messages that a run sends

Whether a run comes to wait for a click is decided by how its nodes are routed; where the answer to a message goes is
decided when its node runs. Both go by the same rows: an invocation in which nothing is refused has a list of deeds, the
nodes that had their turn with their rows, such that the run waits if and only if one of them waits, and the mappings that
were added to the file of a message are those of the deeds that ask for an answer to it, in order (`Passed`,
`Dispatch.passes_within`). This is what is left of an invocation that was not interrupted, whether it was the first of its
execution or went on behind a click (`Invoked`, `Invocation.execute_invoked`, `Continuation.goOn_invoked`).
-/

namespace WorkGraph

open Engine Running

/-! ## What a node asks -/

/-- Where the answer to a message goes. -/
structure Address where
  message : String
  workflow : String
  execution : String
  node : String
  deriving DecidableEq, Repr

def ButtonMapping.address (m : ButtonMapping) : Address :=
  ⟨m.messageId, m.workflowId, m.executionId, m.nodeId⟩

/-- Whether the mapping is in the file of a message: two messages can have one file. -/
def Address.isFiled (message : String) (a : Address) : Bool :=
  (Store.Mappings.place a.message).path == (Store.Mappings.place message).path

/-- The message to which a node asks for an answer: it is a plain action whose tool sends messages with buttons, it declares
buttons, and its output tells of a message that was not answered yet. -/
def Node.asks? (config : Config) (node : Node) (output : Value) : Option String :=
  if node.isOfType .action && (node.setting "action_type").str? != some "conditional" &&
      config.isButtonTool (node.setting "tool_id") && Action.awaitsClick output then
    match ButtonMessage.declared node with
    | .ok (_ :: _) => output.entries?.map fun entries => (Value.field entries "message_id").display
    | _ => none
  else none

/-- Whether a node that has put out an output waits for a click. -/
def Node.waits (tools : List Value) (g : Graph) (node : Node) (output : Value) : Bool :=
  match Router.choose tools node output with
  | .ok router => Routing.suspends router output (g.links node.id)
  | .error _ => false

/-- A collaborator that was called has an id that is a text. -/
theorem Registry.str_of_call {role : Role} {id first second output : Value} {origin : Option Origin} {w w' : World}
    (h : run (Registry.call role id origin first second) w = (.ok output, w')) : ∃ name, id = .str name := by
  rw [run_call] at h
  cases id with
  | str name => exact ⟨name, rfl⟩
  | null | bool | num | list | map => cases h

section Asks

variable {config : Config} {node : Node} {output : Value} {message tool : String}
  (h : node.asks? config output = some message) (ht : node.setting "tool_id" = .str tool)

include h ht

/-- A node that asks for an answer sends messages with buttons. -/
theorem Node.messageOf_of_asks (entries : Entries Value) : node.isOfType .condition = false ∧
    Router.messageOf config.buttonTools node (.map entries) = some entries := by
  unfold asks? at h
  split at h
  · next hcond =>
    simp only [Bool.and_eq_true] at hcond
    obtain ⟨⟨⟨haction, -⟩, hbutton⟩, -⟩ := hcond
    have htool : config.buttonTools.any (node.setting "tool_id").same = true := by
      rw [Config.isButtonTool, Bool.and_eq_true, ht] at hbutton
      obtain ⟨v, hv, hs⟩ := List.any_eq_true.1 hbutton.2
      exact List.any_eq_true.2 ⟨v, hv, by rw [ht, ← Value.same_str_right]; exact hs⟩
    refine ⟨?_, ?_⟩
    · rw [isOfType, beq_iff_eq.1 haction]
      rfl
    · rw [Router.messageOf, haction, htool]
      rfl
  · cases h

/-- Whatever map it puts out, it waits for a click or routes the one that the map tells of. -/
theorem Node.choose_of_asks (entries : Entries Value) : Router.choose config.buttonTools node (.map entries) =
    .ok (some (if (Value.field entries "button_id").truthy then .buttonClick else .pendingSend)) := by
  obtain ⟨hcondition, hmessage⟩ := messageOf_of_asks h ht entries
  rw [Router.choose_eq fun _ => by rw [ht]; rfl, hcondition, Bool.false_and, if_neg Bool.false_ne_true, hmessage]
  rfl

theorem Node.claims_of_asks (entries : Entries Value) : Router.claims config.buttonTools node (.map entries) .buttonClick =
    .ok (Value.field entries "button_id").truthy := by
  unfold Router.claims
  rw [Router.buttonOutput?_eq fun _ => by rw [ht]; rfl, (messageOf_of_asks h ht entries).2]
  rfl

/-- A node that asks for an answer waits if it has links. -/
theorem Node.waits_of_asks {g : Graph} : node.waits config.buttonTools g output = !(g.links node.id).isEmpty := by
  obtain ⟨entries, rfl, hawaits⟩ : ∃ entries, output = .map entries ∧ Action.awaitsClick (.map entries) = true := by
    unfold asks? at h
    split at h
    · next hcond =>
      rw [Bool.and_eq_true] at hcond
      cases output with
      | map entries => exact ⟨entries, rfl, hcond.2⟩
      | null | bool | num | str | list => cases hcond.2
    · cases h
  rw [Action.awaitsClick, Bool.and_eq_true, Bool.not_eq_true'] at hawaits
  rw [waits, choose_of_asks h ht, hawaits.2]
  rfl

end Asks

/-! ## What is remembered -/

/-- A plain action keeps a mapping if it asks for an answer, and nothing else. -/
theorem Action.runPlain_sent {node : Node} {context : Context} {workflow execution : String} {w w' : World} {output : Value}
    (ha : node.isOfType .action = true) (hp : (node.setting "action_type").str? ≠ some "conditional")
    (h : Engine.run (runPlain node context workflow execution) w = (.ok output, w')) :
    match node.asks? w.config output with
    | none => w'.storage = w.storage
    | some message => (∃ tool, node.setting "tool_id" = .str tool) ∧
        ∃ m : ButtonMapping, m.address = ⟨message, workflow, execution, node.id⟩ ∧ Mapped m w.storage w'.storage := by
  unfold runPlain at h
  rw [run_bind_ok (run_config w)] at h
  dsimp only at h
  split at h
  · cases h
  · obtain ⟨inputs, u, hinputs, h⟩ := eq_ok_of_bind h
    obtain ⟨-, rfl⟩ := eq_ok_of_ofExcept hinputs
    obtain ⟨answer, u', hcall, h⟩ := eq_ok_of_bind h
    have hstorage := (Registry.call_worked .tool (node.setting "tool_id") ⟨execution, node.id⟩ workflow (.map inputs)
      (.map context.flat) u).2
    rw [hcall] at hstorage
    have hcond (value : Value) : (node.isOfType .action && (node.setting "action_type").str? != some "conditional" &&
        u.config.isButtonTool (node.setting "tool_id") && awaitsClick value) =
        (u.config.isButtonTool (node.setting "tool_id") && awaitsClick value) := by
      rw [ha, bne_iff_ne.2 hp]
      simp
    unfold Node.asks?
    split at h
    · next hb =>
      obtain ⟨found, u'', hkept, h⟩ := eq_ok_of_bind h
      obtain ⟨hvalue, rfl⟩ := Prod.mk.inj h
      obtain rfl := Except.ok.inj hvalue
      rw [hcond, if_pos hb]
      rw [Bool.and_eq_true] at hb
      cases answer with
      | map entries =>
        have hmessage : (Value.field entries "message_id").truthy = true := by
          rw [awaitsClick, Bool.and_eq_true] at hb
          exact hb.2.1
        rcases ButtonMessage.remember_sent node (.map entries) workflow execution u' with
          ⟨hq, hnone⟩ | ⟨⟨button, rest, hd⟩, m, rows, v, hid, he, hn, hw, hread, hres, hwrote⟩
        · rw [hkept] at hq hnone
          rw [hnone found rfl hmessage]
          exact hq.storage.trans hstorage
        · obtain ⟨-, rfl⟩ := Prod.mk.inj (hkept.symm.trans hres)
          rw [hd]
          refine ⟨Registry.str_of_call hcall, m, ?_, rows, hstorage ▸ hread, hstorage ▸ hwrote.storage⟩
          rw [ButtonMapping.address, hid, he, hn, hw]
          rfl
      | null | bool | num | str | list => cases hb.2
    · next hb =>
      obtain ⟨hvalue, rfl⟩ := Prod.mk.inj h
      obtain rfl := Except.ok.inj hvalue
      rw [hcond, if_neg hb]
      exact hstorage

/-- A node that has succeeded keeps a mapping if it asks for an answer, and nothing else. -/
theorem Dispatch.runNode_sent {node : Node} {r : Run} {w w' : World} {output : Value}
    (h : run (runNode node r) w = (.ok output, w')) :
    match node.asks? w.config output with
    | none => w'.storage = w.storage
    | some message => (∃ tool, node.setting "tool_id" = .str tool) ∧
        ∃ m : ButtonMapping, m.address = ⟨message, r.workflow.id, r.execution, node.id⟩ ∧ Mapped m w.storage w'.storage := by
  have hworked := runNode_worked node r w
  rw [h] at hworked
  by_cases ha : node.nodeType? = some .action
  · have haction := Node.isOfType_iff.2 ha
    unfold runNode at h
    rw [ha] at h
    dsimp only at h
    unfold Action.run at h
    split at h
    · next hc =>
      have hnone : node.asks? w.config output = none := by
        rw [Node.asks?, beq_iff_eq.1 hc]
        simp
      have hstorage := (Action.runConditional_worked node r.context r.execution r.workflow.id w).2
      rw [h] at hstorage
      rw [hnone]
      exact hstorage
    · next hc => exact Action.runPlain_sent haction (fun heq => hc (beq_iff_eq.2 heq)) h
  · have hnone : node.asks? w.config output = none := by
      have hno : node.isOfType .action = false := Bool.not_eq_true _ ▸ mt Node.isOfType_iff.1 ha
      rw [Node.asks?, hno]
      rfl
    rw [hnone]
    exact hworked.2.resolve_right fun ⟨_, _, ht, _⟩ => ha ht

/-! ## Mappings that are added -/

/-- Whether just the mappings with these addresses were added to the file of a message. -/
def Remembers (message : String) (added : List Address) (s t : Storage) : Prop :=
  ∃ ms : List ButtonMapping, ms.map ButtonMapping.address = added ∧
    (ms = [] ∧ t.read (Store.Mappings.place message) (.list []) = s.read (Store.Mappings.place message) (.list []) ∨
      ∃ rows, s.read (Store.Mappings.place message) (.list []) = .ok (.list rows) ∧
        t.read (Store.Mappings.place message) (.list []) = .ok (.list (rows ++ ms.map ButtonMapping.toValue)))

namespace Remembers

variable {message : String} {added more : List Address} {s t u : Storage}

theorem of_read
    (h : t.read (Store.Mappings.place message) (.list []) = s.read (Store.Mappings.place message) (.list [])) :
    Remembers message [] s t :=
  ⟨[], rfl, .inl ⟨rfl, h⟩⟩

theorem trans (h : Remembers message added s t) (k : Remembers message more t u) :
    Remembers message (added ++ more) s u := by
  obtain ⟨ms, rfl, hs⟩ := h
  obtain ⟨ns, rfl, ht⟩ := k
  refine ⟨ms ++ ns, List.map_append, ?_⟩
  rcases hs with ⟨rfl, hs⟩ | ⟨rows, hs, hr⟩
  · rw [hs] at ht
    exact ht
  · rcases ht with ⟨rfl, ht⟩ | ⟨rows', ht, hr'⟩
    · exact .inr ⟨rows, hs, by rw [ht, hr, List.append_nil]⟩
    · obtain rfl := Value.list.inj (Except.ok.inj (hr.symm.trans ht))
      exact .inr ⟨rows, hs, by rw [hr', List.append_assoc, List.map_append]⟩

/-- One mapping was added, to the file of its own message. -/
theorem of_mapped {m : ButtonMapping} (h : Mapped m s t) (message : String) :
    Remembers message ([m.address].filter (Address.isFiled message)) s t := by
  obtain ⟨rows, hread, hwrite⟩ := h
  cases hfiled : Address.isFiled message m.address with
  | true =>
    have hp : (Store.Mappings.place m.messageId).path = (Store.Mappings.place message).path := beq_iff_eq.1 hfiled
    rw [List.filter_cons_of_pos hfiled, List.filter_nil]
    refine ⟨[m], rfl, .inr ⟨rows, ?_, ?_⟩⟩ <;> rw [← Storage.read_congr hp]
    · exact hread
    · exact Storage.read_write_self hwrite
  | false =>
    have hp : (Store.Mappings.place m.messageId).path ≠ (Store.Mappings.place message).path := beq_eq_false_iff_ne.1 hfiled
    rw [List.filter_cons_of_neg (by rw [hfiled]; exact Bool.false_ne_true), List.filter_nil]
    exact of_read (Storage.read_write_ne hwrite hp.symm)

end Remembers

/-! ## Deeds -/

/-- A node that had its turn, and its row. -/
structure Deed where
  node : Node
  row : NodeLog

namespace Deed

/-- The message to which the node asks for an answer, if it has succeeded and asks for one. -/
def asks? (config : Config) (d : Deed) : Option String :=
  if d.row.status = .success then d.node.asks? config d.row.outputData else none

/-- Whether the node has succeeded and waits for a click. -/
def waits (tools : List Value) (g : Graph) (d : Deed) : Bool :=
  d.row.status == .success && d.node.waits tools g d.row.outputData

/-- Where the answer goes for which the node asks. -/
def address? (config : Config) (workflow execution : String) (d : Deed) : Option Address :=
  (d.asks? config).map fun message => ⟨message, workflow, execution, d.node.id⟩

/-- The addresses of deeds in the file of a message. -/
def addresses (config : Config) (workflow execution message : String) (ds : List Deed) : List Address :=
  (ds.filterMap (address? config workflow execution)).filter (Address.isFiled message)

variable {config : Config} {workflow execution message : String}

theorem addresses_append (ds es : List Deed) : addresses config workflow execution message (ds ++ es) =
    addresses config workflow execution message ds ++ addresses config workflow execution message es := by
  rw [addresses, List.filterMap_append, List.filter_append, addresses, addresses]

theorem mem_addresses {ds : List Deed} {a : Address} : a ∈ addresses config workflow execution message ds ↔
    (∃ d ∈ ds, d.asks? config = some a.message ∧ a = ⟨a.message, workflow, execution, d.node.id⟩) ∧
      Address.isFiled message a = true := by
  rw [addresses, List.mem_filter, List.mem_filterMap]
  refine and_congr_left' ⟨fun ⟨d, hd, ha⟩ => ?_, fun ⟨d, hd, ha, he⟩ => ⟨d, hd, ?_⟩⟩
  · obtain ⟨message', hm, rfl⟩ := Option.map_eq_some_iff.1 ha
    exact ⟨d, hd, hm, rfl⟩
  · rw [address?, ha, he]
    rfl

end Deed

/-- What a part of a run has done: the rows that it has left, the mappings that were added for them, and no claims. -/
structure Sent (logs : List NodeLog) (ds : List Deed) (p q : Progress) : Prop where
  fluent : Fluent q (logs ++ ds.map Deed.row)
  config : q.world.config = p.world.config
  execution : q.run.execution = p.run.execution
  workflow : q.run.workflow = p.run.workflow
  graph : q.run.graph = p.run.graph
  nodes : ∀ d ∈ ds, d.node ∈ p.run.workflow.nodes ∧ d.row.nodeId = d.node.id
  asked : ∀ d ∈ ds, ∀ message, d.asks? p.world.config = some message →
    ∀ g : Graph, d.waits p.world.config.buttonTools g = !(g.links d.node.id).isEmpty
  mappings : ∀ message, Remembers message
    (Deed.addresses p.world.config p.run.workflow.id p.run.execution message ds) p.world.storage q.world.storage
  claims : ∀ message, q.world.storage.find? (Store.Claims.place message) =
    p.world.storage.find? (Store.Claims.place message)

/-- The same, where the run waits if it did before or one of the nodes does. -/
structure Passed (logs : List NodeLog) (ds : List Deed) (p q : Progress) : Prop extends Sent logs ds p q where
  suspended : q.run.suspended =
    (p.run.suspended || ds.any (Deed.waits p.world.config.buttonTools p.run.graph))

section Sent

variable {logs : List NodeLog} {ds es : List Deed} {p q u : Progress} {w w' : World} {r s : Run}

theorem Sent.trans (h : Sent logs ds p q) (k : Sent (logs ++ ds.map Deed.row) es q u) : Sent logs (ds ++ es) p u where
  fluent := by
    rw [List.map_append, ← List.append_assoc]
    exact k.fluent
  config := k.config.trans h.config
  execution := k.execution.trans h.execution
  workflow := k.workflow.trans h.workflow
  graph := k.graph.trans h.graph
  nodes d hd := (List.mem_append.1 hd).elim (h.nodes d) fun hd => h.workflow ▸ k.nodes d hd
  asked d hd := (List.mem_append.1 hd).elim (h.asked d) fun hd => h.config ▸ k.asked d hd
  mappings message := by
    rw [Deed.addresses_append]
    refine (h.mappings message).trans ?_
    have hrest := k.mappings message
    rwa [h.config, h.workflow, h.execution] at hrest
  claims message := (k.claims message).trans (h.claims message)

/-- Nothing was done that leaves a row. -/
theorem Sent.of_fluent (h : Fluent ⟨w', s⟩ logs) (hq : Quiet w w') (he : s.execution = r.execution)
    (hw : s.workflow = r.workflow) (hg : s.graph = r.graph) : Sent logs [] ⟨w, r⟩ ⟨w', s⟩ where
  fluent := by rwa [List.map_nil, List.append_nil]
  config := hq.config
  execution := he
  workflow := hw
  graph := hg
  nodes d hd := by cases hd
  asked d hd := by cases hd
  mappings message := .of_read (by rw [hq.storage])
  claims message := by rw [hq.storage]

theorem Passed.trans (h : Passed logs ds p q) (k : Passed (logs ++ ds.map Deed.row) es q u) :
    Passed logs (ds ++ es) p u where
  toSent := h.toSent.trans k.toSent
  suspended := by rw [k.suspended, h.suspended, h.config, h.graph, List.any_append, Bool.or_assoc]

theorem Passed.of_fluent (h : Fluent ⟨w', s⟩ logs) (hq : Quiet w w') (he : s.execution = r.execution)
    (hw : s.workflow = r.workflow) (hg : s.graph = r.graph) (hs : s.suspended = r.suspended) :
    Passed logs [] ⟨w, r⟩ ⟨w', s⟩ where
  toSent := .of_fluent h hq he hw hg
  suspended := by rw [hs, List.any_nil, Bool.or_false]

theorem Passed.quiet (h : Fluent ⟨w, r⟩ logs) (hq : Quiet w w') : Passed logs [] ⟨w, r⟩ ⟨w', r⟩ :=
  .of_fluent (h.quiet hq) hq rfl rfl rfl rfl

theorem Passed.refl (h : Fluent p logs) : Passed logs [] p p :=
  .quiet h (.refl p.world)

end Sent

/-! ## A node has its turn -/

/-- A write of rows changes neither mappings nor claims. -/
theorem Remembers.of_wrote_logs {execution : String} {v : Value} {w w' : World}
    (h : Wrote (Store.NodeLogs.place execution) v w w') (message : String) :
    Remembers message [] w.storage w'.storage :=
  .of_read (h.read_ne (nodeLogs_ne_mappings execution message).symm)

/-- A deed that asks for an answer is one of a node that has succeeded and asks for it. -/
theorem Deed.eq_some_of_asks {config : Config} {d : Deed} {message : String} (h : d.asks? config = some message) :
    d.row.status = .success ∧ d.node.asks? config d.row.outputData = some message := by
  unfold asks? at h
  split at h
  · next hs => exact ⟨hs, h⟩
  · cases h

/-- What a node keeps goes by what its row tells. -/
theorem Turn.kept {node : Node} {logs : List NodeLog} {row : NodeLog} {result : Except Fault Value} {w w₁ w₂ w' : World}
    {r : Run} (ht : Turn node logs row result w r w')
    (hran : run (Dispatch.runNode node (r.marked node)) w₁ = (result, w₂)) :
    match Deed.asks? w₁.config ⟨node, row⟩ with
    | none => w₂.storage = w₁.storage
    | some message => (∃ tool, node.setting "tool_id" = .str tool) ∧
        ∃ m : ButtonMapping, m.address = ⟨message, r.workflow.id, r.execution, node.id⟩ ∧ Mapped m w₁.storage w₂.storage := by
  have hstatus := ht.status
  have houtput := ht.output
  cases result with
  | ok output =>
    have hsuccess : row.status = .success := hstatus
    have hasks : Deed.asks? w₁.config ⟨node, row⟩ = node.asks? w₁.config output := by
      rw [Deed.asks?, if_pos hsuccess, houtput]
    rw [hasks]
    exact Dispatch.runNode_sent (r := r.marked node) hran
  | error fault =>
    have hfailed : row.status = .failed := hstatus
    have hworked := (Dispatch.runNode_worked node (r.marked node) w₁).2
    rw [hran] at hworked
    rw [Deed.asks?, if_neg (by rw [hfailed]; decide)]
    exact hworked.resolve_right fun ⟨_, ho, _⟩ => by cases ho

/-- A node that had its turn has kept a mapping if it asks for an answer. -/
theorem Turn.sent {node : Node} {logs : List NodeLog} {row : NodeLog} {result : Except Fault Value} {w w' : World} {r : Run}
    (h : Fluent ⟨w, r⟩ logs) (hn : node ∈ r.workflow.nodes) (ht : Turn node logs row result w r w') :
    Sent logs [⟨node, row⟩] ⟨w, r⟩ ⟨w', { r with context := r.context.turned node result }⟩ := by
  obtain ⟨entry, w₁, w₂, hopened, hran, hclosed⟩ := ht.ran
  have hkept := ht.kept hran
  have hworked := (Dispatch.runNode_worked node (r.marked node) w₁).1
  rw [hran] at hworked
  rw [hopened.config] at hkept
  refine ⟨h.turned ht, hclosed.config.trans (hworked.config.trans hopened.config), rfl, rfl, rfl, fun d hd => ?_,
    fun d hd message hm g => ?_, fun message => ?_, fun message => ?_⟩
  · rw [List.mem_singleton.1 hd]
    exact ⟨hn, ht.nodeId⟩
  · obtain rfl := List.mem_singleton.1 hd
    dsimp only at hm
    rw [hm] at hkept
    obtain ⟨⟨tool, htool⟩, -⟩ := hkept
    obtain ⟨hstatus, hasks⟩ := Deed.eq_some_of_asks hm
    rw [Deed.waits, hstatus, Node.waits_of_asks hasks htool]
    rfl
  · have hran : Remembers message (Deed.addresses w.config r.workflow.id r.execution message [⟨node, row⟩]) w₁.storage
        w₂.storage := by
      rw [Deed.addresses, List.filterMap_cons, Deed.address?]
      cases hm : Deed.asks? w.config ⟨node, row⟩ with
      | none =>
        rw [hm] at hkept
        exact .of_read (by rw [hkept])
      | some asked =>
        rw [hm] at hkept
        obtain ⟨-, m, haddress, hmapped⟩ := hkept
        have hadded := Remembers.of_mapped hmapped message
        rw [haddress] at hadded
        exact hadded
    have hall := ((Remembers.of_wrote_logs hopened message).trans hran).trans (.of_wrote_logs hclosed message)
    rwa [List.nil_append, List.append_nil] at hall
  · have hclaim {u v : World} {value : Value} (hw : Wrote (Store.NodeLogs.place r.execution) value u v) :
        v.storage.find? (Store.Claims.place message) = u.storage.find? (Store.Claims.place message) :=
      hw.find?_ne (claims_ne_nodeLogs message r.execution).symm
    refine (hclaim hclosed).trans (Eq.trans ?_ (hclaim hopened))
    rcases hworked.storage with hs | ⟨m, -, -, -, rows, -, hw⟩
    · rw [hs]
    · exact Storage.find?_write_ne hw fun hp => by cases Location.folder_eq_of_path hp

/-! ## Dispatches -/

/-- Whether all that dispatches do is told by deeds, where nothing is refused. -/
def Passes (dispatch : Node → Running Unit) : Prop :=
  ∀ node p logs, node ∈ p.run.workflow.nodes → Fluent p logs → ∃ ds, Passed logs ds p (go (dispatch node) p).2

namespace Routing

variable {dispatch : Node → Running Unit} (h : Passes dispatch) {p : Progress} {logs : List NodeLog}

include h

theorem followLink_passed (link : Link) (hp : Fluent p logs) :
    ∃ error q ds, go (followLink dispatch link) p = (.ok error, q) ∧ Passed logs ds p q := by
  obtain ⟨w, r⟩ := p
  unfold followLink
  rw [go_bind_ok (go_run w r)]
  cases hn : r.workflow.node? link.target with
  | none => exact ⟨none, _, [], rfl, .refl hp⟩
  | some target =>
    obtain ⟨ds, hpassed⟩ := h target ⟨w, r⟩ logs (List.mem_of_find?_eq_some hn) hp
    dsimp only
    rw [go_bind, go_faultOf]
    rcases hgo : go (dispatch target) ⟨w, r⟩ with ⟨_ | _, q⟩ <;> rw [hgo] at hpassed
    · exact ⟨_, q, ds, rfl, hpassed⟩
    · exact ⟨_, q, ds, rfl, hpassed⟩

/-- Following links does not make a run wait by itself. -/
theorem follow_passed : ∀ (links : List Link) {p : Progress} {logs : List NodeLog}, Fluent p logs →
    ∃ routing q ds, go (follow dispatch links) p = (.ok routing, q) ∧ routing.suspend = false ∧ Passed logs ds p q
  | [], p, _, hp => ⟨nowhere, p, [], rfl, rfl, .refl hp⟩
  | link :: rest, p, logs, hp => by
    obtain ⟨error, q, ds, hlink, hfirst⟩ := followLink_passed h link hp
    obtain ⟨routing, u, es, hrest, -, hothers⟩ := follow_passed rest hfirst.fluent
    refine ⟨⟨true, error.or routing.error, false⟩, u, ds ++ es, ?_, rfl, hfirst.trans hothers⟩
    unfold follow
    rw [go_bind_ok hlink, go_bind_ok hrest]
    rfl

/-- A run comes to wait by the routing of a node whose message is pending. -/
theorem along_passed (router : Option Router) {node : Node} {output : Value} (links : List Link)
    (ho : p.run.context.outputs.get? node.id = some output) (hp : Fluent p logs) :
    ∃ routing q ds, go (along router dispatch node output links) p = (.ok routing, q) ∧
      routing.suspend = suspends router output links ∧ Passed logs ds p q := by
  cases router with
  | none => exact follow_passed h links hp
  | some router =>
    cases output with
    | null | bool | num | str | list => cases router <;> exact follow_passed h links hp
    | map output =>
      cases router with
      | condition =>
        show ∃ routing q ds, go (condition dispatch node output links) p = (.ok routing, q) ∧ routing.suspend = false ∧
          Passed logs ds p q
        unfold condition
        dsimp only
        generalize hoc : (if (Value.field output "result").truthy then "true" else "false") = outlet
        obtain ⟨routing, q, ds, hgo, hsuspend, hpassed⟩ := follow_passed h (ofOutlet links outlet) hp
        rw [go_bind_ok hgo]
        let warning : Engine Unit := Engine.log .warning "handlers.condition" "condition_branch_unconnected"
          [("node_id", .str node.id), ("branch", .str outlet), ("available_ports", outletList links)]
        have hwarning : Hushed warning := hushed_log (by decide)
        split
        · exact ⟨routing, _, _, rfl, hsuspend, hpassed.trans (.quiet hpassed.fluent (hwarning q.world))⟩
        · exact ⟨routing, q, ds, rfl, hsuspend, hpassed⟩
      | pendingSend =>
        show ∃ routing q ds, go (pendingSend node output links) p = (.ok routing, q) ∧ routing.suspend = !links.isEmpty ∧
          Passed logs ds p q
        unfold pendingSend
        cases links.isEmpty with
        | true => exact ⟨⟨true, none, false⟩, p, [], rfl, rfl, .refl hp⟩
        | false =>
          let report : Engine Unit := Engine.log .info "handlers.button_message" "execution_suspended"
            [("node_id", .str node.id), ("message_id", Value.field output "message_id"), ("ports", outletList links)]
          have hreport : Hushed report := hushed_log (by decide)
          exact ⟨⟨false, none, true⟩, ⟨(Engine.run report p.world).2, p.run⟩, [], rfl, rfl, .quiet hp (hreport p.world)⟩
      | buttonClick =>
        show ∃ routing q ds, go (buttonClick dispatch node output links) p = (.ok routing, q) ∧ routing.suspend = false ∧
          Passed logs ds p q
        cases hl : (ofOutlet links (Value.field output "button_id").display).isEmpty with
        | true =>
          refine ⟨nowhere, p, [], ?_, rfl, .refl hp⟩
          unfold buttonClick
          dsimp only
          rw [hl]
          rfl
        | false =>
          obtain ⟨w, r⟩ := p
          obtain ⟨w', hq, hrun⟩ := go_buttonClick node hl w r
          have hclicked : Passed logs [] ⟨w, r⟩ ⟨w', { r with context := clickedContext node output r.context }⟩ :=
            .of_fluent ((hp.spliced _ ho).quiet hq) hq rfl rfl rfl rfl
          obtain ⟨routing, q, ds, hgo, hsuspend, hpassed⟩ := follow_passed h _ hclicked.fluent
          exact ⟨routing, q, _, (hrun dispatch).trans hgo, hsuspend, hclicked.trans hpassed⟩

end Routing

/-- Whether a run waits is noted with the routing. -/
theorem Routing.suspended_noteIn (routing : Routing) (r : Run) :
    (routing.noteIn r).suspended = (r.suspended || routing.suspend) := by
  unfold noteIn
  cases routing.error <;> cases hs : routing.suspend <;> simp [Run.recordFailure]

theorem Sent.noteIn {logs : List NodeLog} {ds : List Deed} {p : Progress} {w : World} {r : Run} (routing : Routing)
    (h : Sent logs ds p ⟨w, r⟩) : Sent logs ds p ⟨w, routing.noteIn r⟩ := by
  have hnoted : Sent (logs ++ ds.map Deed.row) [] ⟨w, r⟩ ⟨w, routing.noteIn r⟩ := by
    refine .of_fluent (h.fluent.rerun ?_ ?_) (.refl w) ?_ ?_ ?_ <;> rw [routing.noteIn_eq]
  exact List.append_nil ds ▸ h.trans hnoted

namespace Dispatch

variable {p : Progress} {logs : List NodeLog} {node : Node}

/-- A node that has not run before leaves its deed, if it can leave a row at all. -/
theorem perform_sent (h : Fluent p logs) (hn : node ∈ p.run.workflow.nodes)
    (hnew : p.run.context.isCompleted node.id = false) :
    let out := go (perform node) p
    out.2.run.suspended = p.run.suspended ∧ ∃ ds, Sent logs ds p out.2 ∧ match out.1 with
      | .ok output => ∃ row : NodeLog, ds = [⟨node, row⟩] ∧ row.status = .success ∧ row.outputData = output
      | .error _ => ∀ d ∈ ds, d.row.status = .failed := by
  obtain ⟨w, r⟩ := p
  by_cases ht : node.Titled
  · obtain ⟨row, result, w', hgo, hturn⟩ := h.perform ht hnew
    rw [hgo]
    refine ⟨rfl, [⟨node, row⟩], hturn.sent h hn, ?_⟩
    have hstatus := hturn.status
    have houtput := hturn.output
    cases result with
    | ok output => exact ⟨row, rfl, hstatus, houtput⟩
    | error fault =>
      intro d hd
      rw [List.mem_singleton.1 hd]
      exact hstatus
  · obtain ⟨fault, w', hgo, hq, hfluent⟩ := h.untitled ht
    rw [hgo]
    exact ⟨rfl, [], .of_fluent hfluent hq rfl rfl rfl, fun d hd => by cases hd⟩

/-- After a node was routed, the run waits if it did before, if the node does, or if one of those after it does. -/
theorem route_sent {dispatch : Node → Running Unit} (h : Passes dispatch) {output : Value}
    (ho : p.run.context.outputs.get? node.id = some output) (hp : Fluent p logs) :
    let q := (go (route dispatch node output) p).2
    ∃ ds, Sent logs ds p q ∧ q.run.suspended = (p.run.suspended ||
      (node.waits p.world.config.buttonTools p.run.graph output ||
        ds.any (Deed.waits p.world.config.buttonTools p.run.graph))) := by
  obtain ⟨w, r⟩ := p
  unfold route
  rw [go_bind_ok (go_run w r), go_lift_bind (Engine.run_config w)]
  have hwaits : node.waits w.config.buttonTools r.graph output =
      match Router.choose w.config.buttonTools node output with
      | .ok router => Routing.suspends router output (r.graph.links node.id)
      | .error _ => false := rfl
  cases hchoose : Router.choose w.config.buttonTools node output with
  | error fault =>
    rw [hchoose] at hwaits
    rw [go_lift_bind_error (Engine.run_ofExcept _ w)]
    refine ⟨[], (Passed.refl hp).toSent, ?_⟩
    rw [hwaits, List.any_nil, Bool.or_false, Bool.or_false]
  | ok router =>
    rw [hchoose] at hwaits
    obtain ⟨routing, ⟨w', s⟩, ds, hgo, hsuspend, hpassed⟩ :=
      Routing.along_passed h router (r.graph.links node.id) ho hp
    rw [go_lift_bind (Engine.run_ofExcept _ w), go_bind_ok hgo, go_modifyRun]
    refine ⟨ds, hpassed.toSent.noteIn routing, ?_⟩
    rw [routing.suspended_noteIn, hpassed.suspended, hsuspend, hwaits, Bool.or_assoc, Bool.or_comm (ds.any _)]

/-- Whatever is dispatched, it is told by deeds. -/
theorem passes_within : ∀ depth, Passes (within depth)
  | 0, node, p, logs, _, hp => ⟨[], .refl hp⟩
  | depth + 1, node, ⟨w, r⟩, logs, hn, hp => by
    unfold within
    rw [go_bind_ok (go_modifyRun _ w r), go_bind_ok (go_run w _)]
    have hentered : Passed logs [] ⟨w, r⟩ ⟨w, { r with entered := r.entered ++ [node.id] }⟩ :=
      .of_fluent (hp.rerun rfl rfl) (.refl w) rfl rfl rfl rfl
    have hworkflow : node ∈ ({ r with entered := r.entered ++ [node.id] } : Run).workflow.nodes := hn
    generalize ({ r with entered := r.entered ++ [node.id] } : Run) = s at hentered hworkflow
    refine Exists.imp (fun ds (h : Passed _ ds ⟨w, s⟩ _) => hentered.trans h) ?_
    split
    · exact ⟨[], .quiet hentered.fluent (hushed_log (by decide) w)⟩
    · next hnew =>
      obtain ⟨hkept, ds, hsent, hdeeds⟩ := perform_sent hentered.fluent hworkflow (Bool.not_eq_true _ ▸ hnew)
      rw [go_bind]
      rcases hperform : go (perform node) ⟨w, s⟩ with ⟨fault | output, q⟩ <;> rw [hperform] at hkept hsent hdeeds
      · refine ⟨ds, hsent, ?_⟩
        have hnone : ds.any (Deed.waits w.config.buttonTools s.graph) = false := by
          rw [List.any_eq_false]
          intro d hd
          rw [Deed.waits, hdeeds d hd]
          exact Bool.false_ne_true
        rw [hkept, hnone, Bool.or_false]
      · obtain ⟨row, rfl, hsuccess, houtput⟩ := hdeeds
        obtain ⟨es, hrest, hsuspended⟩ := route_sent (passes_within depth) (output_of_perform hperform) hsent.fluent
        refine ⟨_, hsent.trans hrest, ?_⟩
        rw [hsuspended, hkept, hsent.config, hsent.graph, List.singleton_append, List.any_cons,
          Deed.waits, hsuccess, houtput]
        rfl

end Dispatch

theorem passes_dispatch : Passes dispatch := by
  intro node p logs hn hp
  obtain ⟨w, r⟩ := p
  unfold dispatch
  rw [go_bind_ok (go_run w r)]
  exact Dispatch.passes_within r.depth node ⟨w, r⟩ logs hn hp

/-! ## Invocations -/

/-- A record in the place of an id that was given out is one of that id. -/
theorem Orderly.id_of_hasRecord {k : Nat} {id : String} {x : Execution} {w : World} (h : Orderly w)
    (hx : HasRecord w.storage id x) (hid : Issued k id) : x.id = id := by
  rcases h.record_cases id hx with hnull | ⟨W, hW⟩ | ⟨y, hy, hissued, hp⟩
  · cases hnull
  · exact absurd (hW ▸ Execution.load_toValue "" x) (Execution.load_ne_of_missing rfl x)
  · rw [Execution.toValue_inj hy]
    exact Decidable.by_contra fun hne => hissued.path_ne hid hne _ _ hp

/-- What an invocation has come to that has worked on an execution: its deeds have left their rows and their mappings, and
the execution runs if one of them waits. -/
structure Invoked (W : Workflow) (x : Execution) (logs : List NodeLog) (ds : List Deed) (w w' : World) : Prop where
  record : HasRecord w'.storage x.id x
  rows : ∃ more, HasLogs w'.storage x.id (logs ++ ds.map Deed.row ++ more)
  nodes : ∀ d ∈ ds, d.node ∈ W.nodes ∧ d.row.nodeId = d.node.id
  asked : ∀ d ∈ ds, ∀ message, d.asks? w.config = some message →
    ∀ g : Graph, d.waits w.config.buttonTools g = !(g.links d.node.id).isEmpty
  mappings : ∀ message, Remembers message (Deed.addresses w.config W.id x.id message ds) w.storage w'.storage
  claims : ∀ message, w'.storage.find? (Store.Claims.place message) = w.storage.find? (Store.Claims.place message)
  running : x.status = .running ↔ ds.any (Deed.waits w.config.buttonTools W.graph) = true
  steady : w'.Steady

/-- An execution is left running if its run waits. -/
theorem Run.status_eq_running {r : Run} : r.status = .running ↔ r.suspended = true := by
  unfold status
  cases r.suspended <;> cases r.failed <;> simp

namespace Invocation

variable {p : Progress} {logs : List NodeLog}

/-- What is done from the trigger node on is told by deeds. -/
theorem settle_passed (W : Workflow) (h : Fluent p logs) : ∃ r w ds,
    Engine.run (settle W p.run fromTrigger) p.world = (.ok r, w) ∧ Passed logs ds p ⟨w, r⟩ := by
  obtain ⟨w, r⟩ := p
  have hpassed : ∃ ds, Passed logs ds ⟨w, r⟩ (go fromTrigger ⟨w, r⟩).2 := by
    cases ht : r.workflow.triggerNode? with
    | none =>
      unfold fromTrigger
      rw [go_bind_ok (go_run w r), ht]
      exact ⟨[], .refl h⟩
    | some node =>
      rw [go_fromTrigger ht]
      exact passes_dispatch node ⟨w, r⟩ logs (List.mem_of_find?_eq_some ht) h
  obtain ⟨ds, hpassed⟩ := hpassed
  obtain ⟨s, w', hrun, hq, hs⟩ := run_settle W r fromTrigger w
  refine ⟨s, w', ds, hrun, ?_⟩
  have hfluent := hpassed.fluent.quiet hq
  rw [← List.append_nil ds]
  rcases hs with rfl | ⟨message, rfl⟩
  · exact hpassed.trans (.quiet hpassed.fluent hq)
  · exact hpassed.trans (.of_fluent (hfluent.rerun rfl rfl) hq rfl rfl rfl rfl)

end Invocation

/-- Neither mappings nor claims were changed. -/
structure Unsent (w w' : World) : Prop where
  config : w'.config = w.config
  mappings : ∀ message, w'.storage.read (Store.Mappings.place message) (.list []) =
    w.storage.read (Store.Mappings.place message) (.list [])
  claims : ∀ message, w'.storage.find? (Store.Claims.place message) = w.storage.find? (Store.Claims.place message)

namespace Unsent

variable {u w w' : World}

theorem trans (h : Unsent u w) (k : Unsent w w') : Unsent u w' where
  config := k.config.trans h.config
  mappings message := (k.mappings message).trans (h.mappings message)
  claims message := (k.claims message).trans (h.claims message)

theorem of_quiet (h : Quiet w w') : Unsent w w' where
  config := h.config
  mappings message := by rw [h.storage]
  claims message := by rw [h.storage]

/-- A file was written that is none of a message. -/
theorem of_wrote {place : Location} {v : Value} (h : Wrote place v w w')
    (hm : ∀ message, (Store.Mappings.place message).path ≠ place.path)
    (hc : ∀ message, (Store.Claims.place message).path ≠ place.path) : Unsent w w' where
  config := h.config
  mappings message := h.read_ne (hm message)
  claims message := h.find?_ne (hc message)

theorem of_files {place : Location} (hconfig : w'.config = w.config)
    (h : ∀ other, other.path ≠ place.path → w'.storage.find? other = w.storage.find? other)
    (hm : ∀ message, (Store.Mappings.place message).path ≠ place.path)
    (hc : ∀ message, (Store.Claims.place message).path ≠ place.path) : Unsent w w' where
  config := hconfig
  mappings message := by rw [Storage.read, h _ (hm message), ← Storage.read]
  claims message := h _ (hc message)

end Unsent

/-- What has passed in a run is what an invocation has come to, once the outcome is written. -/
theorem Passed.finalized {W : Workflow} {x : Execution} {logs more : List NodeLog} {ds : List Deed} {p q : Progress}
    {t : Run} {v w : World} (h : Passed logs ds p q) (hp : Unsent w p.world) (hsuspended : p.run.suspended = false)
    (hW : p.run.workflow = W) (hg : p.run.graph = W.graph) (hq : Unsent q.world v)
    (hfluent : Fluent ⟨v, t⟩ (logs ++ ds.map Deed.row ++ more)) (ht : t.suspended = q.run.suspended)
    (he : t.execution = p.run.execution) (hx : HasRecord v.storage t.execution x) (hid : x.id = t.execution)
    (hf : (Store.Executions.place t.execution).Fits) (duration : Int) :
    ∃ w', Engine.run (Invocation.finalize t duration) v = (.ok t.answer, w') ∧
      Invoked W (x.ended t.status t.error duration v.clock.stamp) logs ds w w' := by
  obtain ⟨w', hr, hw⟩ := Invocation.finalize_done hx hfluent.audible.steady hfluent.audible.heard hf duration
  have hend : Unsent v w' := .of_wrote hw (fun _ => (executions_ne_mappings _ _).symm)
    fun message => (Apart.claims_ne message (by decide) _ _).symm
  have hafter := hq.trans hend
  have hy : (x.ended t.status t.error duration v.clock.stamp).id = t.execution := hid
  refine ⟨w', hr, ?_, ⟨more, ?_⟩, fun d hd => hW ▸ h.nodes d hd, fun d hd => ?_, fun message => ?_, fun message => ?_, ?_,
    hw.steady hfluent.audible.steady⟩
  · rw [hy]
    exact hw.read_self
  · rw [hy, HasLogs, hw.read_ne (executions_ne_nodeLogs _ _).symm]
    exact hfluent.rows
  · have hasked := h.asked d hd
    rwa [hp.config] at hasked
  · have hall := ((Remembers.of_read (hp.mappings message)).trans (h.mappings message)).trans
      (.of_read (hafter.mappings message))
    rwa [List.nil_append, List.append_nil, hp.config, hW, ← he, ← hy] at hall
  · exact (hafter.claims message).trans ((h.claims message).trans (hp.claims message))
  · show t.status = .running ↔ _
    rw [Run.status_eq_running, ht, h.suspended, hsuspended, Bool.false_or, hp.config, hg]

namespace Invocation

variable {w : World} {logs : List NodeLog}

/-- An execution that starts is left as its deeds say. -/
theorem execute_invoked (ho : Orderly w) (hs : w.Steady) (hh : w.Heard)
    (hf : (Store.Executions.place w.nextExecution).Fits) (hl : HasLogs w.storage w.nextExecution logs) (W : Workflow)
    (payload : Value) : ∃ x w' ds, x.id = w.nextExecution ∧ Engine.run (execute W payload) w = (.ok x.answer, w') ∧
      Invoked W x logs ds w w' := by
  obtain ⟨x, u, hid, hopen, hconfig, hfiles, hfluent, r, v, hsettle, hexecution, hrecord, hsteady, hheard, hrun⟩ :=
    execute_opened ho hs hh hf W payload
  obtain ⟨r', v', ds, hsettled, hpassed⟩ := settle_passed W (hfluent logs (hid ▸ hl))
  obtain ⟨hr, rfl⟩ := Prod.mk.inj (hsettled.symm.trans hsettle)
  obtain rfl := Except.ok.inj hr
  have hunsent : Unsent w u := .of_files hconfig hfiles (fun _ => (executions_ne_mappings _ _).symm)
    fun message => (Apart.claims_ne message (by decide) _ _).symm
  have hrows : Fluent ⟨v', r'⟩ (logs ++ ds.map Deed.row ++ []) := by
    rw [List.append_nil]
    exact hpassed.fluent
  obtain ⟨w', hfinal, hinvoked⟩ := hpassed.finalized (W := W) hunsent rfl rfl rfl (.of_quiet (.refl v')) hrows rfl
    hexecution (hexecution ▸ hrecord) hexecution.symm (hexecution ▸ hid ▸ hf) (v'.clock.since w.clock.reading).millis
  refine ⟨x.ended r'.status r'.error (v'.clock.since w.clock.reading).millis v'.clock.stamp, w', ds, hid,
    hrun.trans (hfinal.trans ?_), hinvoked⟩
  rw [Execution.answer, Run.answer, hexecution]
  rfl

/-- Where the log is no list, no node runs, and the run has failed. -/
theorem settle_barred {execution : String}
    (h : ∀ rows, w.storage.read (Store.NodeLogs.place execution) (.list []) ≠ .ok (.list rows)) (W : Workflow)
    (payload : Value) {r : Run} {v : World}
    (hr : Engine.run (settle W (.start execution W (.start payload)) fromTrigger) w = (.ok r, v)) : r.status = .failed := by
  let started : Run := .start execution W (.start payload)
  have hgo : ∃ fault q, go fromTrigger ⟨w, started⟩ = (.error fault, q) ∧ q.run.suspended = false := by
    unfold fromTrigger
    rw [go_bind_ok (go_run w started)]
    cases started.workflow.triggerNode? with
    | none => exact ⟨.rejected .nothingToStart, ⟨w, started⟩, rfl, rfl⟩
    | some node =>
      let entered : Run := { started with entered := [node.id] }
      obtain ⟨fault, w', hperform, -⟩ := @Dispatch.perform_barred node w entered fun _ => h
      refine ⟨fault, ⟨w', entered.marked node⟩, ?_, rfl⟩
      dsimp only
      unfold dispatch
      rw [go_bind_ok (go_run w started), Run.depth, Dispatch.within, go_bind_ok (go_modifyRun _ w started),
        go_bind_ok (go_run w _)]
      exact go_bind_error hperform
  obtain ⟨fault, q, hgo, hq⟩ := hgo
  obtain ⟨w', hsettle, -⟩ := run_settle_error W hgo
  obtain ⟨hr, -⟩ := Prod.mk.inj (hr.symm.trans hsettle)
  rw [Except.ok.inj hr, Run.status, Run.recordFailure, hq]
  rfl

/-- An execution that has started and not failed is left as its deeds say. -/
theorem execute_left (ho : Orderly w) (hs : w.Steady) (hh : w.Heard) (W : Workflow) (payload : Value) {x : Execution}
    (hx : HasRecord (Engine.run (execute W payload) w).2.storage w.nextExecution x) (hne : x.status ≠ .failed) :
    ∃ logs ds, HasLogs w.storage w.nextExecution logs ∧ x.id = w.nextExecution ∧
      Invoked W x logs ds w (Engine.run (execute W payload) w).2 := by
  by_cases hf : (Store.Executions.place w.nextExecution).Fits
  · rcases ho.logs_cases w.nextExecution with ⟨logs, hl, -⟩ | hno
    · obtain ⟨y, w', ds, hid, hrun, hinvoked⟩ := execute_invoked ho hs hh hf hl W payload
      rw [hrun] at hx ⊢
      obtain rfl := Execution.hasRecord_unique hx (hid ▸ hinvoked.record)
      exact ⟨logs, ds, hl, hid, hinvoked⟩
    · obtain ⟨y, u, hid, hopen, hconfig, hfiles, -, r, v, hsettle, hexecution, hrecord, hsteady, hheard, hrun⟩ :=
        execute_opened ho hs hh hf W payload
      have hbarred : ∀ rows, u.storage.read (Store.NodeLogs.place y.id) (.list []) ≠ .ok (.list rows) := by
        intro rows
        rw [Storage.read, hfiles _ (executions_ne_nodeLogs _ _).symm, ← Storage.read, hid]
        exact hno rows
      have hfailed := settle_barred hbarred W payload hsettle
      obtain ⟨w', hfinal, hw⟩ := finalize_done (hexecution ▸ hrecord) hsteady hheard (hexecution ▸ hid ▸ hf)
        (v.clock.since w.clock.reading).millis
      rw [hrun, hfinal, ← hid, ← hexecution] at hx
      rw [Execution.hasRecord_unique hx hw.read_self] at hne
      exact absurd hfailed hne
  · obtain ⟨-, ht⟩ := execute_refused hs hf W payload
    have ho' := lasting_orderly.abiding.executed W payload w ho
    have hid : x.id = w.nextExecution := ho'.id_of_hasRecord hx (issued_nextExecution w)
    have hissued := ho.issued_of_hasRecord (ht.kept x (hid ▸ hx) (by simp))
    exact absurd (hid ▸ hissued) (not_issued_nextExecution w)

end Invocation

namespace Continuation

variable {mapping : ButtonMapping} {button data : Value} {W : Workflow} {x : Execution} {node : Node} {context : Context}
  {w : World} {logs : List NodeLog}

/-- What is done behind a button is told by deeds. -/
theorem resume_passed (execution : String) (prior : Option String) (hs : w.Steady)
    (h : Fluent ⟨w, .resumed execution W context prior⟩ logs) {routing : Routing} {s : Run} {w' : World}
    (hr : Engine.run (Invocation.resume W execution node context prior) w = (.ok (routing, s), w')) :
    ∃ ds, Passed logs ds ⟨w, .resumed execution W context prior⟩ ⟨w', s⟩ := by
  unfold Invocation.resume at hr
  rw [run_bind_ok (run_entering_steady hs _), run_bind_ok (run_config w), ← Run.resumed] at hr
  have hcontext : (Run.resumed execution W context prior).context = context := Run.context_resumed _ _ _ _
  generalize Run.resumed execution W context prior = r at h hr hcontext
  cases hclaims : Router.claims w.config.buttonTools node (context.output node.id) .buttonClick with
  | error fault =>
    rw [hclaims, run_ofExcept_bind_error rfl] at hr
    cases hr
  | ok claimed =>
    rw [hclaims, run_ofExcept_bind rfl] at hr
    cases claimed with
    | false =>
      obtain ⟨hres, rfl⟩ := Prod.mk.inj hr
      obtain ⟨-, rfl⟩ := Prod.mk.inj (Except.ok.inj hres)
      exact ⟨[], .refl h⟩
    | true =>
      obtain ⟨entries, hmap, hget⟩ := Router.output_of_claims hclaims
      have ho : r.context.outputs.get? node.id = some (context.output node.id) := by rw [hcontext, hget, hmap]
      obtain ⟨routing', ⟨w₁, r₁⟩, ds, hgo, hsuspend, hpassed⟩ :=
        Routing.along_passed passes_dispatch (some .buttonClick) (p := ⟨w, r⟩) (r.graph.links node.id) ho h
      rw [Bool.not_true, if_neg Bool.false_ne_true, run_bind_ok (run_onRun r _ w), hgo] at hr
      obtain ⟨hres, rfl⟩ := Prod.mk.inj hr
      obtain ⟨rfl, rfl⟩ := Prod.mk.inj (Except.ok.inj hres)
      rw [hmap] at hsuspend
      replace hsuspend : routing'.suspend = false := hsuspend
      exact ⟨ds, hpassed.toSent.noteIn routing',
        by rw [routing'.suspended_noteIn, hsuspend, Bool.or_false, hpassed.suspended]⟩

/-- A click that was not routed changes neither mappings nor claims. -/
theorem noteUnrouted_unsent (h : Orderly w) (message : String) (x : Execution) (node : Node) (button : Value)
    (routing : Routing) (r : Run) : Unsent w (run (noteUnrouted message x node button routing r) w).2 := by
  unfold noteUnrouted
  split
  · exact .of_quiet (.refl w)
  · let details : Entries Value := [("message_id", .str message), ("button_id", button),
      ("available_handles", Routing.outletList (r.graph.links node.id))]
    have hrouted : Unsent w (run (Journal.routingFailed x.id node.id (unconnected button) details) w).2 := by
      rcases h.routingFailed_cases x.id node.id (unconnected button) details with
        ⟨logs, row, -, -, -, -, -, -, hp⟩ | ⟨fault, w', hr, hq⟩
      · exact hp.keeps (I := Unsent w)
          (fun hw => .of_wrote hw (fun _ => (nodeLogs_ne_mappings _ _).symm) fun _ => (claims_ne_nodeLogs _ _).symm) .of_quiet
      · rw [hr]
        exact .of_quiet hq
    rcases hr : run (Journal.routingFailed x.id node.id (unconnected button) details) w with ⟨_ | _, u⟩ <;>
      rw [hr] at hrouted
    · rw [run_bind_error hr]
      exact hrouted
    · rw [run_bind_ok hr]
      exact hrouted

/-- An execution that goes on is left as its deeds say. -/
theorem goOn_invoked (h : Forgetful w) (hs : w.Steady) (hh : w.Heard)
    (hr : Resumable mapping button data W x node context w) (hf : (Store.Executions.place x.id).Fits)
    (hb : Number.inRange x.durationMs = true) (hl : HasLogs w.storage x.id logs) {routing : Routing} {s : Run} {w₁ : World}
    (message : String) (start : Int)
    (hres : Engine.run (Invocation.resume W x.id node context x.errorMessage) (w.accepting x node button) =
      (.ok (routing, s), w₁)) :
    ∃ y w' ds, y.id = x.id ∧ run (goOn message W x node button context start) (w.accepting x node button) = (.ok y.answer, w') ∧
      Invoked W y logs ds w w' := by
  have hrecord : HasRecord (w.accepting x node button).storage x.id x := h.orderly.hasRecord_of_ready hr.toReady
  obtain ⟨r, ⟨htracks, -, hconfined⟩, -⟩ :=
    (stable_confined x.id (w.accepting x node button)).resumed x.errorMessage
      ⟨h.orderly.tracks_of_resumable hr, rfl, .refl _⟩
  rw [hres] at htracks hconfined
  obtain ⟨ds, hpassed⟩ := resume_passed (w := w.accepting x node button) x.id x.errorMessage hs
    (fluent_resumed h hs hh hr hf hl x.errorMessage) hres
  have hresumed : (Run.resumed x.id W context x.errorMessage).suspended = false ∧
      (Run.resumed x.id W context x.errorMessage).workflow = W ∧ (Run.resumed x.id W context x.errorMessage).graph = W.graph ∧
      (Run.resumed x.id W context x.errorMessage).execution = x.id := by
    obtain ⟨_, _, h⟩ := Run.resumed_eq x.id W context x.errorMessage
    rw [h]
    exact ⟨rfl, rfl, rfl, rfl⟩
  obtain ⟨hsuspended, hworkflow, hgraph, hid⟩ := hresumed
  have hexecution : s.execution = x.id := hpassed.execution.trans hid
  obtain ⟨t, w₂, others, hnoted, hwent, -⟩ := noteUnrouted_went hpassed.fluent hexecution message node button routing
  obtain ⟨more, hfluent, -⟩ := hwent.rows _ hpassed.fluent
  have hconfined₂ := hconfined.trans (noteUnrouted_confined htracks.orderly message x node button routing s)
  have hunsent := noteUnrouted_unsent htracks.orderly message x node button routing s
  rw [hnoted] at hconfined₂ hunsent
  have ht : t.execution = x.id := hwent.execution.trans hexecution
  obtain ⟨duration, hduration, -⟩ := run_totalDuration hb start w₂
  obtain ⟨w', hfinal, hinvoked⟩ := hpassed.finalized (W := W) (w := w) ⟨rfl, fun _ => rfl, fun _ => rfl⟩ hsuspended hworkflow
    hgraph hunsent
    hfluent (hwent.suspended.trans (Bool.or_false _)) (ht.trans hid.symm) (ht ▸ hconfined₂.hasRecord hrecord) ht.symm
    (ht ▸ hf) duration
  refine ⟨x.ended t.status t.error duration w₂.clock.stamp, w', ds, rfl, ?_, hinvoked⟩
  unfold goOn
  rw [run_bind_ok hres]
  dsimp only
  rw [run_bind_ok hnoted, run_bind_ok hduration, hfinal, Execution.answer, Run.answer, ht]
  rfl

end Continuation

end WorkGraph
