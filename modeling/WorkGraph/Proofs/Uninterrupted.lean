import WorkGraph.Proofs.Frame
import WorkGraph.Proofs.Pending
import WorkGraph.Proofs.Visited

/-!
# A click instead of an answer

An execution that waits goes on, once its message is clicked, as it would have if the tool had answered with the click at
once: it leaves the same rows and ends in the same way (`resumed_as_uninterrupted`). Two traversals are compared: the one
that was broken off, and continued in a context that was rebuilt from rows, and the one that passes through the node that
waited (`Scene.Traverses.answered`). No click must have been routed before: what it adds to the context is told by no row
(`not_resumed_as_uninterrupted`).
-/

namespace WorkGraph

open Engine Running

/-! ## Traversals that were broken off -/

/-- A traversal that ends where a node has put out a map. All nodes that were still to come had been visited before. -/
structure Halted (S : Scene) (stack : List Node) (c : Context) (us : List Visit) (node : Node) (o : Entries Value)
    (waiting : List Node) (before d : Context) : Prop where
  walk : S.Traverses stack c us (node :: waiting) before
  new : before.isCompleted node.id = false
  titled : node.Titled
  comes : S.comes node (before.markCompleted node.id) = .ok (.map o)
  context : d = before.turned node (.ok (.map o))
  done : ∀ other ∈ waiting, d.isCompleted other.id = true

namespace Scene.Traverses

variable {S T : Scene} {stack waiting : List Node} {c d before : Context} {us vs : List Visit} {v : Visit} {node : Node}
  {o : Entries Value}

/-- Where no click was routed, a traversal can be broken off at its last visit. -/
theorem halted (h : S.Traverses stack c (us ++ [v]) [] d) (hd : d.buttonData = none) (ht : v.node.Titled)
    (hv : v.result = .ok (.map o)) : ∃ waiting, Halted S stack c us v.node o waiting v.context d := by
  obtain ⟨waiting, hwalk, hnew, hvisit, hrest⟩ := h.split
  obtain ⟨rfl, hdone⟩ := hrest.of_nil
  have hcomes := congrArg Visit.result hvisit
  rw [hv, Scene.visit, if_pos ht] at hcomes
  have hafter := after_eq hd
  rw [hv] at hafter
  exact ⟨waiting, hwalk, hnew, ht, hcomes.symm, hafter, fun other ho => hdone other (List.mem_append_right _ ho)⟩

/-- Where just one node comes to something else, a traversal up to this node goes on as one does behind it. -/
theorem answered (h : S.Traverses stack c us (node :: waiting) before) (hnew : before.isCompleted node.id = false)
    (hw : T.workflow = S.workflow) (ht : T.tools = S.tools)
    (hc : ∀ other : Node, other.id ≠ node.id → ∀ c, T.comes other c = S.comes other c)
    (hdone : ∀ other ∈ waiting, (T.after (T.visit node before)).isCompleted other.id = true)
    (k : S.Traverses (T.behind (T.visit node before)) (T.after (T.visit node before)) vs [] d) :
    T.Traverses stack c (us ++ T.visit node before :: vs) [] d := by
  have hfirst : T.Traverses stack c us (node :: waiting) before := by
    refine h.congr hw ht fun v hv => hc v.node fun he => ?_
    have hbefore := (h.fresh hv).2
    rw [he, hnew] at hbefore
    cases hbefore
  have hrest : T.Traverses (T.behind (T.visit node before)) (T.after (T.visit node before)) vs [] d := by
    refine k.congr hw ht fun v hv => hc v.node fun he => ?_
    have hafter := (k.fresh hv).1
    rw [isCompleted_after, he] at hafter
    simp [Scene.visit] at hafter
  have hpassed : T.Traverses waiting d [] [] d := passed fun other ho => hrest.completed (hdone other ho)
  have hall := (hrest.onto waiting).trans hpassed
  rw [List.append_nil] at hall
  exact hfirst.trans (.visit hnew hall)

end Scene.Traverses

/-! ## Clicks that go on -/

namespace Context

/-- A node that is completed already is not completed again when its output is recorded. -/
theorem recorded_eq {c : Context} {node : String} (h : c.isCompleted node = true) (type : String) (output : Value) :
    c.recorded node type output =
      { c with outputs := c.outputs.set node output, nodeTypes := c.nodeTypes.set node type } := by
  unfold recorded markCompleted
  exact if_pos h

/-- A click becomes a part of an output that was just recorded. -/
theorem spliceButton_turned (c : Context) (node : Node) (o fields : Entries Value) :
    (c.turned node (.ok (.map o))).spliceButton node.id fields = c.turned node (.ok (.map (o.merge fields))) := by
  have hdone : (c.markCompleted node.id).isCompleted node.id = true := by simp [isCompleted_markCompleted]
  have hout : (c.turned node (.ok (.map o))).output node.id = .map o := by simp [output, turned, Value.field]
  unfold spliceButton
  rw [hout, turned, turned, recorded_eq hdone, recorded_eq hdone]
  dsimp only
  rw [Entries.set_set]

end Context

section Click

variable {W : Workflow} {payload : Value} {trigger : Node} {x : Execution} {logs : List NodeLog} {ds front : List Deed}
  {d : Deed} {vs : List Visit} {r : Run} {w w' : World} {message button : String} {data : Value} {o fields : Entries Value}

/-- What is left of an execution that was started, and whose last node waits for a click that is made. -/
theorem Launched.clicked (h : Launched W payload trigger x logs ds vs r w w') (hconstant : w.Constant) (hs : w.Steady)
    (hf : (Store.Executions.place x.id).Fits) (hv : W.validate = .ok ()) (hp : W.isPublished = true) (hW : w'.Stores W)
    (hds : ds = front ++ [d]) (hasks : d.asks? w.config = some message) (hrunning : x.status = .running)
    (hreplay : Context.replay x.triggerData (logs ++ ds.map Deed.row) = .ok r.context)
    (hout : r.context.outputs.get? d.node.id = some (.map o)) (hfits : (Store.Claims.place message).Fits)
    (hno : ¬w'.Holds (Store.Claims.place message))
    (hfields : ButtonMessage.clicked (.str button) data = .ok fields)
    (hclaims : Router.claims w.config.buttonTools d.node (.map (o.merge fields)) .buttonClick = .ok true)
    (hlinks : Routing.ofOutlet (W.graph.links d.node.id) button ≠ []) :
    let c := r.context.spliceButton d.node.id fields
    ∃ y rows vs s, HasRecord (run (click message (.str button) data) w').2.storage x.id y ∧
      HasLogs (run (click message (.str button) data) w').2.storage x.id (logs ++ ds.map Deed.row ++ rows) ∧
      y.status = s.status ∧ Visited (w.scene W x.id) rows
        ((w.scene W x.id).targets (Routing.ofOutlet (W.graph.links d.node.id) button)) vs false
        { Run.resumed x.id W c x.errorMessage with
          context := Routing.steered (some .buttonClick) d.node (.map (o.merge fields)) (W.graph.links d.node.id) c } s := by
  intro c
  obtain ⟨m, hm, hexecution, hworkflow, -, e, he, -, hnode⟩ := h.find?_asked (show ds = front ++ d :: [] from hds) hasks
  obtain rfl := List.mem_singleton.1 he
  have hmem : e.node ∈ W.nodes := (h.nodes e (hds ▸ List.mem_concat_self)).1
  have hq := Store.Mappings.hushed_find? message w'
  obtain ⟨u, hu⟩ : ∃ u, run (Store.Mappings.find? message) w' = (.ok (some m), u) := ⟨_, Prod.ext hm rfl⟩
  rw [hu] at hq
  have hrecord : HasRecord u.storage x.id x := hq.hasRecord h.record
  have hlogged : HasLogs u.storage x.id (logs ++ ds.map Deed.row) := hq.hasLogs h.logged
  rw [World.Stores, ← hq.storage] at hW
  rw [World.Holds, ← hq.storage] at hno
  obtain ⟨v, hadmission⟩ := Continuation.run_admission (hq.steady h.steady) hW hworkflow hp (hexecution.symm ▸ hrecord)
    (by rw [Execution.isRunning, hrunning]; rfl) (hnode ▸ Workflow.node?_of_mem hv hmem) hlogged hfits hno hreplay
    ((ButtonMessage.clicked_orElse _ _).trans hfields)
  obtain ⟨a, t, now, hadmitted, -, hwrote⟩ :=
    (Continuation.admission_cases m message (.str button) (data.orElse (.map [])) u).resolve_left (by
      rintro ⟨fault, t, hr, -⟩
      rw [hadmission] at hr
      cases hr)
  obtain ⟨ha, rfl⟩ := Prod.mk.inj (hadmission.symm.trans hadmitted)
  obtain rfl := Except.ok.inj ha
  obtain ⟨v₀, hend⟩ := h.poised
  obtain ⟨failed, firstError, hresumed⟩ := Run.resumed_eq x.id W c x.errorMessage
  have hsteady : t.Steady := hwrote.steady (hq.steady h.steady)
  have hheard : t.Heard := (h.heard.of_service hq.auditor).of_service hwrote.service
  have hclaimed : Equipped u t := .of_wrote hwrote fun other =>
    Store.Mappings.accepts_of_write_ne hwrote.storage (Apart.claims_ne message (by decide) other _)
  have haccepting : Equipped t (t.accepting x e.node (.str button)) := ⟨rfl, fun h => h, fun _ _ => rfl, fun _ => rfl⟩
  have hequipped := ((h.equipped.trans (.of_quiet hq)).trans hclaimed).trans haccepting
  have hpoised : Poised w W x.id (logs ++ ds.map Deed.row)
      ⟨t.accepting x e.node (.str button), .resumed x.id W c x.errorMessage⟩ := by
    rw [hresumed]
    refine ⟨⟨⟨hsteady, hheard, x, ?_⟩, fits_nodeLogs hf, ?_, hend.fluent.counted, fun n hn => ?_⟩, hequipped, rfl, rfl, rfl⟩
    · exact (hwrote.read_ne (Apart.claims_ne message (by decide) x.id _)).trans hrecord
    · exact (hwrote.read_ne (claims_ne_nodeLogs message x.id)).trans hlogged
    · exact hend.fluent.dispatched n ((Context.hasOutput_spliced hout fields .null n).symm.trans hn)
  have hclick : c.output e.node.id = .map (o.merge fields) := by
    have hmap : r.context.output e.node.id = .map o := by rw [Context.output, Value.field, hout]; rfl
    show Value.field (r.context.spliceButton e.node.id fields).outputs e.node.id = _
    rw [Context.spliceButton, Value.field, Entries.get?_set_self, hmap]
    rfl
  have hselected : Routing.selected (some .buttonClick) (c.output e.node.id) (W.graph.links e.node.id) =
      Routing.ofOutlet (W.graph.links e.node.id) button := by
    rw [hclick]
    show Routing.ofOutlet _ (Value.field (o.merge fields) "button_id").display = _
    rw [ButtonMessage.button_of_clicked hfields]
    rfl
  obtain ⟨y, answer, w₂, rows, vs, s, hgo, hy, hrows, hstatus, hvisited⟩ := Continuation.goOn_visits hconstant hs hpoised
    hf h.bounded (hclick.symm ▸ hequipped.config.symm ▸ hclaims) (hselected.symm ▸ hlinks) message (.str button)
    u.clock.reading
  rw [hselected, hclick] at hvisited
  have hclicked : run (click message (.str button) data) w' = (.ok answer, w₂) := by
    rw [run_click_admitted hu hadmission, run_bind_ok (run_attempt _ _)]
    unfold Continuation.goOnOrFail
    rw [run_bind_ok (run_attempt _ _), hgo]
    rfl
  rw [hclicked]
  exact ⟨y, rows, vs, s, hy, hrows, hstatus, hvisited⟩

end Click

/-! ## What the rows tell -/

/-- What the row of a visit tells. -/
theorem Visit.of_account {v : Visit} {a : Account} (h : v.account? = some a) :
    v.node.Titled ∧ v.node.id = a.node ∧ v.node.type = a.type ∧ (a.status = .success → v.result = .ok a.output) := by
  obtain ⟨node, c, result⟩ := v
  unfold account? at h
  split at h
  · next ht =>
    obtain rfl := Option.some.inj h
    refine ⟨ht, rfl, rfl, fun hs => ?_⟩
    cases result with
    | ok output => rfl
    | error fault => cases hs
  · cases h

theorem Visit.filterMap_account {vs : List Visit} {rows : List NodeLog}
    (h : vs.map account? = rows.map (some ·.account)) : vs.filterMap account? = rows.map NodeLog.account := by
  have hmapped : vs.filterMap account? = (vs.map account?).filterMap id := by rw [List.filterMap_map, Function.id_comp]
  rw [hmapped, h, List.filterMap_map, Function.id_comp]
  exact congrFun List.filterMap_eq_map rows

/-- What the row tells is the same for another output, but for the output. -/
theorem Visit.account_of_output {node : Node} {c : Context} {output : Value} {a : Account}
    (h : account? ⟨node, c, .ok output⟩ = some a) (other : Value) :
    account? ⟨node, c, .ok other⟩ = some { a with output := other } := by
  obtain ⟨ht, -⟩ := of_account h
  rw [account?, if_pos ht] at h ⊢
  obtain rfl := Option.some.inj h
  rfl

/-- Where the titles of nodes are texts, all visits have rows. -/
theorem Visited.accounts {S : Scene} {rows : List NodeLog} {stack : List Node} {vs : List Visit} {fell : Bool} {r s : Run}
    (h : Visited S rows stack vs fell r s) (hs : ∀ node ∈ stack, node ∈ S.workflow.nodes)
    (ht : ∀ node ∈ S.workflow.nodes, node.id ∈ s.entered → node.Titled) :
    vs.map Visit.account? = rows.map (some ·.account) := by
  have htold : ∀ account ∈ vs.map Visit.account?, account.isSome = true := by
    intro account ha
    obtain ⟨v, hv, rfl⟩ := List.mem_map.1 ha
    rw [Visit.account?, if_pos (ht v.node (h.walk.mem hs hv) (h.visited v hv))]
    rfl
  rw [← List.filter_eq_self.2 htold, ← List.map_filterMap_some_eq_filter_map_isSome, ← h.rows, List.map_map]
  rfl

/-- How an execution has come to wait: its last row is that of a node that has put out a map and asks for an answer to a
message. Of the nodes before it none waits, and none has succeeded with nothing. -/
structure Paused (config : Config) (W : Workflow) (node : Node) (o : Entries Value) (message : String)
    (earlier : List NodeLog) (last : NodeLog) : Prop where
  mem : node ∈ W.nodes
  nodeId : last.nodeId = node.id
  status : last.status = .success
  output : last.outputData = .map o
  asks : node.asks? config (.map o) = some message
  filled : ∀ row ∈ earlier, row.status = .success → row.outputData.isNull = false
  alone : ∀ row ∈ earlier, row.status = .success → ∀ other ∈ W.nodes, other.id = row.nodeId →
    other.waits config.buttonTools W.graph row.outputData = false

section Paused

variable {W : Workflow} {payload : Value} {trigger node : Node} {x : Execution} {logs earlier : List NodeLog} {last : NodeLog}
  {ds : List Deed} {vs : List Visit} {r : Run} {w w' : World} {message : String} {o : Entries Value}

/-- None of the nodes before waits. -/
theorem Paused.any_waits (hp : Paused w.config W node o message earlier last) {us : List Visit}
    (hus : us.map Visit.account? = earlier.map (some ·.account)) (hm : ∀ v ∈ us, v.node ∈ W.nodes) (execution : String) :
    us.any (w.scene W execution).waits = false := by
  rw [List.any_eq_false]
  intro v hv hwaits
  have ha : v.account? ∈ earlier.map (some ·.account) := hus ▸ List.mem_map_of_mem hv
  obtain ⟨row, hrow, ha⟩ := List.mem_map.1 ha
  obtain ⟨htitled, hid, -, hresult⟩ := Visit.of_account ha.symm
  unfold Scene.waits at hwaits
  cases hv' : v.result with
  | error fault =>
    rw [hv'] at hwaits
    cases hwaits
  | ok output =>
    have hstatus : row.status = .success := by
      have hsome := ha.symm
      rw [Visit.account?, if_pos htitled, hv'] at hsome
      exact (congrArg Account.status (Option.some.inj hsome)).symm
    rw [hresult hstatus] at hwaits
    have halone := hp.alone row hrow hstatus v.node (hm v hv) hid
    rw [show v.node.waits w.config.buttonTools W.graph row.outputData = true from hwaits] at halone
    cases halone

/-- Where an execution was broken off that waits. -/
theorem Launched.halted (h : Launched W payload trigger x logs ds vs r w w') (ht : W.triggerNode? = some trigger)
    (hv : W.validate = .ok ()) (hd : r.context.buttonData = none)
    (htitled : ∀ other ∈ W.nodes, other.id ∈ r.entered → other.Titled) (hrows : ds.map Deed.row = earlier ++ [last])
    (hp : Paused w.config W node o message earlier last) :
    ∃ front us waiting before, ds = front ++ [⟨node, last⟩] ∧ vs = us ++ [⟨node, before, .ok (.map o)⟩] ∧
      us.map Visit.account? = earlier.map (some ·.account) ∧
      Visit.account? ⟨node, before, .ok (.map o)⟩ = some last.account ∧
      Halted (w.scene W x.id) [trigger] (.start payload) us node o waiting before r.context := by
  have htrigger : ∀ other ∈ [trigger], other ∈ W.nodes := fun other ho =>
    List.mem_singleton.1 ho ▸ List.mem_of_find?_eq_some ht
  have haccounts := h.visited.accounts htrigger htitled
  rw [hrows, List.map_append] at haccounts
  obtain ⟨us, _, rfl, hus, hv'⟩ := List.map_eq_append_iff.1 haccounts
  obtain ⟨v, rfl, haccount⟩ := List.map_eq_singleton_iff.1 hv'
  obtain ⟨front, _, rfl, -, hd'⟩ := List.map_eq_append_iff.1 hrows
  obtain ⟨d, rfl, hlast⟩ := List.map_eq_singleton_iff.1 hd'
  obtain ⟨hvtitled, hid, -, hresult⟩ := Visit.of_account haccount
  have hsame {other : Node} (hm : other ∈ W.nodes) (ho : other.id = node.id) : other = node :=
    Option.some.inj ((Workflow.node?_of_mem hv hm).symm.trans (ho ▸ Workflow.node?_of_mem hv hp.mem))
  obtain ⟨hdmem, hdid⟩ := h.nodes d List.mem_concat_self
  have hdnode : d.node = node := hsame hdmem (by rw [← hdid, hlast, hp.nodeId])
  have hvnode : v.node = node := hsame (h.visited.walk.mem htrigger List.mem_concat_self) (hid.trans hp.nodeId)
  have hvresult : v.result = .ok (.map o) := (hresult hp.status).trans (congrArg Except.ok hp.output)
  obtain ⟨waiting, hhalted⟩ := h.visited.walk.halted hd hvtitled hvresult
  obtain ⟨_, before, _⟩ := v
  obtain ⟨_, _⟩ := d
  dsimp only at hvnode hvresult hdnode hlast hhalted
  subst hvnode hvresult hdnode hlast
  exact ⟨front, us, waiting, before, rfl, rfl, hus, haccount, hhalted⟩

/-- What is stored tells the context in which it waits. -/
theorem Launched.replayed (h : Launched W payload trigger x logs ds vs r w w') (ho : Orderly w)
    (hl : HasLogs w.storage w.nextExecution logs) (ht : W.triggerNode? = some trigger) (hv : W.validate = .ok ())
    (hd : r.context.buttonData = none) (htitled : ∀ other ∈ W.nodes, other.id ∈ r.entered → other.Titled)
    (hrows : ds.map Deed.row = earlier ++ [last]) (hp : Paused w.config W node o message earlier last) :
    Context.replay x.triggerData (logs ++ ds.map Deed.row) = .ok r.context := by
  have htrigger : ∀ other ∈ [trigger], other ∈ W.nodes := fun other ho =>
    List.mem_singleton.1 ho ▸ List.mem_of_find?_eq_some ht
  have haccounts := h.visited.accounts htrigger htitled
  have hrouting : ∀ row ∈ ds.map Deed.row, row.isRouting = false := by
    intro row hrow
    have ha : some row.account ∈ vs.map Visit.account? := haccounts ▸ List.mem_map_of_mem hrow
    obtain ⟨v, hvm, ha⟩ := List.mem_map.1 ha
    exact NodeLog.isRouting_of_type (W.typed_of_validate hv v.node (h.visited.walk.mem htrigger hvm))
      (Visit.of_account ha).2.2.1.symm
  have hnull : ∀ row ∈ ds.map Deed.row, row.status = .success → row.outputData.isNull = false := by
    intro row hrow hs
    rw [hrows] at hrow
    rcases List.mem_append.1 hrow with hrow | hrow
    · exact hp.filled row hrow hs
    · rw [List.mem_singleton.1 hrow, hp.output]
      rfl
  have hempty := Context.replay_of_attempts (ho.attempts_eq_nil hl).2 x.triggerData
  unfold Context.replay at hempty ⊢
  rw [List.foldlM_append, hempty, h.triggerData, Context.start_triggerData]
  exact h.visited.walk.replayed hd (fun other hother => by cases hother) haccounts hrouting hnull

end Paused

/-! ## Two executions -/

/-- A run that was left in the same way has the same status. -/
theorem Run.status_congr {r s : Run} (hf : r.failed = s.failed) (hs : r.suspended = s.suspended) : r.status = s.status := by
  unfold status
  rw [hf, hs]

section Answered

variable {w : World} {W : Workflow} {execution message button : String} {stack waiting : List Node} {node : Node}
  {c before d : Context} {us : List Visit} {o fields : Entries Value} {data : Value}
  (h : Halted (w.scene W execution) stack c us node o waiting before d)
  (hasks : node.asks? w.config (.map o) = some message)

include h hasks

/-- The tool of a node that asks for an answer has a name. -/
theorem Halted.tool : ∃ tool, node.setting "tool_id" = .str tool := by
  have hran : run (Dispatch.runNode node (.start execution W (before.markCompleted node.id))) w = (.ok (.map o), _) :=
    Prod.ext h.comes rfl
  have hsent := Dispatch.runNode_sent hran
  rw [hasks] at hsent
  exact hsent.1

/-- That it waits is no failure. -/
theorem Halted.fell (result : Entries Value) : (w.scene W execution).fell ⟨node, before, .ok (.map result)⟩ = false := by
  obtain ⟨tool, htool⟩ := h.tool hasks
  have hchoose : Router.choose (w.scene W execution).tools node (.map result) = _ :=
    Node.choose_of_asks hasks htool result
  rw [Scene.fell]
  dsimp only
  rw [hchoose]
  rfl

/-- Where the tool answers with the click at once, the click is routed. -/
theorem Halted.routed (hfields : ButtonMessage.clicked (.str button) data = .ok fields) (hb : button ≠ "") :
    let T := (w.extended node.id fields).scene W execution
    let v := T.visit node before
    v = ⟨node, before, .ok (.map (o.merge fields))⟩ ∧ T.fell v = false ∧ T.waits v = false ∧
      T.behind v = T.targets (Routing.ofOutlet (W.graph.links node.id) button) ∧
      T.after v = Routing.steered (some .buttonClick) node (.map (o.merge fields)) (W.graph.links node.id)
        (before.turned node (.ok (.map (o.merge fields)))) := by
  intro T v
  obtain ⟨tool, htool⟩ := h.tool hasks
  have hbutton : Value.field (o.merge fields) "button_id" = .str button := ButtonMessage.button_of_clicked hfields o
  have htruthy : (Value.field (o.merge fields) "button_id").truthy = true := by
    rw [hbutton]
    simpa [Value.truthy] using hb
  have hvisit : v = ⟨node, before, .ok (.map (o.merge fields))⟩ := by
    have hcomes := Node.comes_extended hasks htruthy h.comes
    show Visit.mk node before (if node.Titled then T.comes node (before.markCompleted node.id) else _) = _
    rw [if_pos h.titled]
    exact congrArg (Visit.mk node before) hcomes
  clear_value v
  subst hvisit
  have hchoose := Node.choose_of_asks hasks htool (o.merge fields)
  rw [htruthy, if_pos rfl] at hchoose
  obtain ⟨hafter, hbehind, hfell, hwaits⟩ := Scene.of_routed (S := T)
    (v := ⟨node, before, .ok (.map (o.merge fields))⟩) rfl hchoose
  refine ⟨rfl, hfell, hwaits, hbehind.trans ?_, hafter⟩
  show T.targets (Routing.ofOutlet (W.graph.links node.id) (Value.field (o.merge fields) "button_id").display) = _
  rw [hbutton]
  rfl

/-- A traversal that was broken off goes on behind the button as it does where the tool has answered with the click. -/
theorem Halted.resumed (hfields : ButtonMessage.clicked (.str button) data = .ok fields) (hb : button ≠ "")
    (hconstant : w.Constant) (hs : w.Steady) {vs : List Visit} {e : Context}
    (k : (w.scene W execution).Traverses
      ((w.scene W execution).targets (Routing.ofOutlet (W.graph.links node.id) button))
      (Routing.steered (some .buttonClick) node (.map (o.merge fields)) (W.graph.links node.id)
        (d.spliceButton node.id fields)) vs [] e) :
    ((w.extended node.id fields).scene W execution).Traverses stack c
      (us ++ ⟨node, before, .ok (.map (o.merge fields))⟩ :: vs) [] e := by
  obtain ⟨hvisit, -, -, hbehind, hafter⟩ := h.routed hasks hfields hb
  have hdone : ∀ other ∈ waiting, (((w.extended node.id fields).scene W execution).after
      (((w.extended node.id fields).scene W execution).visit node before)).isCompleted other.id = true := by
    intro other ho
    have hother := h.done other ho
    rw [h.context, Context.isCompleted_turned] at hother
    rw [Scene.isCompleted_after]
    exact hother
  rw [h.context, Context.spliceButton_turned, ← hafter] at k
  have hwhole := Scene.Traverses.answered (T := (w.extended node.id fields).scene W execution) h.walk h.new rfl rfl
    (fun other hne c => hconstant.comes_extended_ne hs hne W execution c) hdone (hbehind ▸ k)
  rwa [hvisit] at hwhole

end Answered

/-- What an execution that was broken off has come to behind a click is what another has come to in which the tool has
answered with the click at once. -/
theorem Launched.agrees {w w' w'' : World} {W : Workflow} {payload data : Value} {trigger node : Node} {x y : Execution}
    {logs logs' earlier rows : List NodeLog} {last : NodeLog} {ds es : List Deed} {us vs ws : List Visit} {r r' s : Run}
    {message button : String} {o fields : Entries Value} (h : Launched W payload trigger x logs ds us r w w')
    (k : Launched W payload trigger y logs' es ws r' (w.extended node.id fields) w'') (hconstant : w.Constant) (hs : w.Steady)
    (ht : W.triggerNode? = some trigger) (hv : W.validate = .ok ()) (hd : r.context.buttonData = none)
    (htitled : ∀ other ∈ W.nodes, other.id ∈ r.entered → other.Titled) (hrows : ds.map Deed.row = earlier ++ [last])
    (hp : Paused w.config W node o message earlier last) (hsuspended : r.suspended = true)
    (hfields : ButtonMessage.clicked (.str button) data = .ok fields) (hb : button ≠ "")
    (hafter : let c := r.context.spliceButton node.id fields
      Visited (w.scene W x.id) rows
        ((w.scene W x.id).targets (Routing.ofOutlet (W.graph.links node.id) button)) vs false
        { Run.resumed x.id W c x.errorMessage with
          context := Routing.steered (some .buttonClick) node (.map (o.merge fields)) (W.graph.links node.id) c } s) :
    ∃ before answered behind, es.map Deed.row = before ++ answered :: behind ∧
      before.map NodeLog.account = earlier.map NodeLog.account ∧
      answered.account = { last.account with output := .map (o.merge fields) } ∧
      behind.map NodeLog.account = rows.map NodeLog.account ∧ r'.status = s.status := by
  obtain ⟨front, firsts, waiting, before, -, rfl, hfirsts, hlast, hhalted⟩ := h.halted ht hv hd htitled hrows hp
  have hid : y.id = x.id := k.id.trans h.id.symm
  have hvisited := k.visited
  rw [hid] at hvisited
  obtain ⟨hvisit, hfell, hwaits, -, -⟩ := hhalted.routed hp.asks hfields hb
  obtain ⟨rfl, -⟩ := hvisited.walk.unique (hhalted.resumed hp.asks hfields hb hconstant hs hafter.walk)
  rw [hvisit] at hfell hwaits
  have hall := hvisited.rows
  rw [List.filterMap_append, List.filterMap_cons, Visit.account_of_output hlast, ← hafter.rows,
    Visit.filterMap_account hfirsts] at hall
  obtain ⟨first, others, hes, hfirst, hothers⟩ := List.map_eq_append_iff.1 hall
  obtain ⟨answered, behind, rfl, hanswered, hbehind⟩ := List.map_eq_cons_iff.1 hothers
  refine ⟨first, answered, behind, hes, hfirst, hanswered, hbehind, Run.status_congr ?_ ?_⟩
  · -- a failure before the click is told by the error of the execution
    have hbefore : r.failed = firsts.any (w.scene W x.id).fell := by
      have hfailed := h.visited.failed
      rw [List.any_append, List.any_cons, hhalted.fell hp.asks, List.any_nil] at hfailed
      simpa [Run.start] using hfailed
    have hbehind : s.failed = (r.failed || vs.any (w.scene W x.id).fell) := by
      rw [← h.failed hsuspended (r.context.spliceButton node.id fields)]
      exact hafter.failed
    have hwhole := hvisited.failed
    rw [List.any_append, List.any_cons, hfell] at hwhole
    rw [hbehind, hbefore]
    exact hwhole
  · have hbehind : s.suspended = vs.any (w.scene W x.id).waits := by
      obtain ⟨_, _, hresumed⟩ := Run.resumed_eq x.id W (r.context.spliceButton node.id fields) x.errorMessage
      have hsuspended := hafter.suspended
      dsimp only at hsuspended
      rw [hresumed] at hsuspended
      exact hsuspended
    have halone := hp.any_waits hfirsts (fun v hm => h.visited.walk.mem
      (fun other ho => List.mem_singleton.1 ho ▸ List.mem_of_find?_eq_some ht) (List.mem_append_left _ hm)) x.id
    have hwhole := hvisited.suspended
    rw [List.any_append, List.any_cons, hwaits,
      show firsts.any ((w.extended node.id fields).scene W x.id).waits = false from halone] at hwhole
    rw [hbehind]
    exact hwhole

namespace Sample

/-- Whether the last row is that of a node that asks for an answer to a message, and the nodes before it go on. -/
def pauses (config : Config) (W : Workflow) (node : Node) (message : String) (logs : List NodeLog) : Bool :=
  (logs.getLast?.any fun last => last.nodeId == node.id && last.status == .success && last.outputData.entries?.isSome &&
    node.asks? config last.outputData == some message) &&
  logs.dropLast.all fun row => row.status != .success || !row.outputData.isNull &&
    W.nodes.all fun other => other.id != row.nodeId || !other.waits config.buttonTools W.graph row.outputData

theorem paused_of_pauses {config : Config} {W : Workflow} {node : Node} {message : String} {logs : List NodeLog}
    (hm : node ∈ W.nodes) (h : pauses config W node message logs = true) :
    ∃ o earlier last, logs = earlier ++ [last] ∧ Paused config W node o message earlier last := by
  rw [pauses, Bool.and_eq_true, Option.any_eq_true, List.all_eq_true] at h
  obtain ⟨⟨last, hlast, h⟩, hearlier⟩ := h
  simp only [Bool.and_eq_true, beq_iff_eq, Option.isSome_iff_exists] at h
  obtain ⟨⟨⟨hid, hstatus⟩, o, ho⟩, hasks⟩ := h
  have houtput : last.outputData = .map o := by
    cases hv : last.outputData <;> rw [hv] at ho <;> cases ho
    rfl
  have hrow {row : NodeLog} (hr : row ∈ logs.dropLast) (hs : row.status = .success) : row.outputData.isNull = false ∧
      ∀ other ∈ W.nodes, other.id = row.nodeId → other.waits config.buttonTools W.graph row.outputData = false := by
    have hall := hearlier row hr
    rw [hs] at hall
    simp only [bne_self_eq_false, Bool.false_or, Bool.and_eq_true, Bool.not_eq_true', List.all_eq_true, Bool.or_eq_true,
      bne_iff_ne] at hall
    exact ⟨hall.1, fun other hother he => (hall.2 other hother).resolve_left (absurd he)⟩
  refine ⟨o, logs.dropLast, last, (List.dropLast_append_getLast? last hlast).symm, hm, hid, hstatus, houtput,
    houtput ▸ hasks, fun row hr hs => (hrow hr hs).1, fun row hr hs => (hrow hr hs).2⟩

theorem constant_world : world.Constant where
  answers role id c hc m n call := by
    cases role with
    | agent => cases hc
    | tool =>
      replace hc : (Entries.get? [(sender, some ⟨fun _ call => ⟨0, .ok (answer call)⟩, 0⟩)] id).join = some c := hc
      unfold Entries.get? at hc
      split at hc
      · obtain rfl := Option.some.inj hc
        rfl
      · cases hc
  timely id c hc := by cases hc

theorem constant_steps (W : Workflow) : (Session.run (steps W) (.initial {} "" none)).2.Constant := by
  show (run ((Session.Answer.workflow ∘ some) <$> Store.Workflows.save W) world).2.Constant
  rw [run_map_snd]
  rcases Store.Workflows.save_cases W world with ⟨w, hr, storage, -, hq⟩ | ⟨fault, w, hr, hq⟩ <;> rw [hr]
  · have hstored : World.Constant { world with storage } := ⟨constant_world.answers, constant_world.timely⟩
    exact hstored.quiet hq
  · exact constant_world.quiet hq

/-- The node whose message waits. -/
def ask : Node := message "ask" "yes"

/-- What a click on its button adds to the output. -/
def yes : Entries Value :=
  [("button_id", .str "yes"), ("button_title", .str ""), ("interactive_type", .str "button_reply")]

end Sample

/-- A workflow stays stored while an execution starts whose record has another place. -/
theorem World.Stores.execute {w : World} {W : Workflow} (hW : w.Stores W) (ho : Orderly w)
    (hne : (Store.Workflows.place W.id).path ≠ (Store.Executions.place w.nextExecution).path) (V : Workflow)
    (payload : Value) : (run (Invocation.execute V payload) w).2.Stores W := by
  obtain ⟨document, hd, hdecode⟩ := hW
  obtain ⟨v, rfl, -⟩ := ho.files _ _ hd
  have hgrown := (Framed.execute ho V payload).grown (Store.Workflows.place W.id) fun _ => hne
  rw [hd] at hgrown
  exact ⟨_, hgrown.decoded hdecode, hdecode⟩

/-- The second of the two messages waits, whether or not the first was sent. -/
theorem Sample.paused (first : Bool) :
    let w := (Session.run (Sample.steps (Sample.workflow first)) (.initial {} "" none)).2
    let waiting := (run (Invocation.execute (Sample.workflow first) .null) w).2
    w.Steady ∧ w.Heard ∧ w.Constant ∧ waiting.Stores (Sample.workflow first) ∧
      ∃ o earlier last, HasLogs waiting.storage w.nextExecution (earlier ++ [last]) ∧
        Paused w.config (Sample.workflow first) Sample.ask o "m" earlier last := by
  intro w waiting
  have hs : w.Steady := by cases first <;> exact fun p hp => by cases hp
  have hh : w.Heard := by cases first <;> exact fun a ha => by cases ha
  have hconstant : w.Constant := constant_steps _
  have ho : Orderly w := orderly_run _ (orderly_initial {} "" none)
  have hf : (Store.Executions.place w.nextExecution).Fits := by cases first <;> decide +kernel
  have hstores : w.Stores (workflow first) := by cases first <;> exact stores rfl (by decide +kernel)
  have hne : (Store.Workflows.place "talk").path ≠ (Store.Executions.place w.nextExecution).path := by
    cases first <;> decide +kernel
  have hempty : HasLogs w.storage w.nextExecution [] := by cases first <;> rfl
  obtain ⟨trigger, ht⟩ := Option.isSome_iff_exists.1
    ((workflow first).triggerNode?_isSome_of_validate (by cases first <;> rfl))
  obtain ⟨r, u, x, ds, us, -, h⟩ := Invocation.execute_launched ho hs hh hf hempty hconstant ht .null
  have hlogged : HasLogs waiting.storage w.nextExecution (ds.map Deed.row) := h.id ▸ h.logged
  have hpauses : pauses w.config (workflow first) ask "m" (waiting.storage.nodeLogs w.nextExecution) = true := by
    cases first <;> decide +kernel
  rw [hlogged.nodeLogs] at hpauses
  obtain ⟨o, earlier, last, hrows, hp⟩ :=
    paused_of_pauses (by cases first <;> exact .tail _ (.tail _ (.head _))) hpauses
  exact ⟨hs, hh, hconstant, hstores.execute ho hne _ _, o, earlier, last, hrows ▸ hlogged, hp⟩

/-- A click keeps the rows of every execution. -/
theorem Orderly.nodeLogs_click {w : World} (ho : Orderly w) (message : String) (button data : Value) (execution : String) :
    w.storage.nodeLogs execution <+: (run (click message button data) w).2.storage.nodeLogs execution := by
  have hread (s : Storage) : s.nodeLogs execution =
      (s.rows (Store.NodeLogs.place execution)).filterMap fun row => (NodeLog.load "" row).toOption := by
    unfold Storage.nodeLogs
    split
    · next rows hr => rw [Storage.rows_eq hr]
    · next hno => rw [Storage.rows_of_unlisted hno, List.filterMap_nil]
  by_cases hf : ∃ mapping, (run (Store.Mappings.find? message) w).1 = .ok (some mapping)
  · obtain ⟨mapping, hf⟩ := hf
    rw [hread, hread]
    exact ((Framed.click button data ho (Prod.ext hf rfl)).grown _ False.elim).rows_kept.filterMap _
  · rw [(click_unmapped fun mapping hm => hf ⟨mapping, hm⟩).storage]

/-- The node of a row, and whether the node found the button of the first message among its inputs. -/
def Sample.pressed (a : Account) : String × Bool :=
  (a.node, (a.input.entries?.bind (·.get? "menu")).any fun output => output.entries?.any (Entries.has · "more"))

end WorkGraph
