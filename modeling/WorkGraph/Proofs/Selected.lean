import WorkGraph.Proofs.Apart

/-!
# The nodes that run are the nodes that are reached

At the end of every step the nodes that have rows in an execution are those behind selected links, all of them settled
(`Charted`). A launch leaves it so (`launch_charted`), so does a click on one of its messages (`Charted.resume`), and
whatever else happens is apart from the execution; so it lasts (`lasting_charted`), and the nodes with rows are just those
that are reached (`attempts_iff_reached`).
-/

namespace WorkGraph

open Engine

/-! ## Outputs that are rebuilt -/

namespace Context

variable {c c' : Context} {logs : List NodeLog} {log : NodeLog} {node : String}

theorem get?_replayLog_of_ne (h : c.replayLog log = .ok c') (hn : log.isRouting = false → node ≠ log.nodeId) :
    c'.outputs.get? node = c.outputs.get? node := by
  unfold replayLog at h
  split at h
  · rw [← Except.ok.inj h]
  · next hr =>
    have hne := hn (by simpa using hr)
    dsimp only at h
    split at h
    · rw [← Except.ok.inj h, outputs_markCompleted]
    · next ho =>
      rw [Bool.or_eq_true, not_or, Bool.not_eq_true, Bool.not_eq_true] at ho
      rw [record_eq _ _ ho.2] at h
      rw [← Except.ok.inj h, outputs_recorded, Entries.get?_set_ne _ _ hne, outputs_markCompleted]

theorem get?_replayLog_self (h : c.replayLog log = .ok c') (hr : log.isRouting = false)
    (ho : log.outputData.isNull = false) (hc : c.outputs.get? log.nodeId = none) :
    c'.outputs.get? log.nodeId = some log.outputData := by
  have hhas : (c.markCompleted log.nodeId).hasOutput log.nodeId = false := by
    rw [hasOutput_markCompleted, hasOutput, Entries.has, hc]
    rfl
  unfold replayLog at h
  rw [hr, if_neg Bool.false_ne_true] at h
  dsimp only at h
  rw [ho, hhas, Bool.or_self, if_neg Bool.false_ne_true, record_eq _ _ hhas] at h
  rw [← Except.ok.inj h, outputs_recorded, Entries.get?_set_self]

/-- A node that no row tells of keeps its output. -/
theorem get?_foldlM_replayLog (h : logs.foldlM replayLog c = .ok c') (hn : node ∉ attempts logs) :
    c'.outputs.get? node = c.outputs.get? node := by
  induction logs generalizing c with
  | nil => rw [← Except.ok.inj h]
  | cons log rest ih =>
    rw [List.foldlM_cons] at h
    cases hl : c.replayLog log with
    | error fault => rw [hl] at h; cases h
    | ok c₁ =>
      rw [hl] at h
      have hrest : node ∉ attempts rest := fun hm => hn (by
        rw [← List.singleton_append, attempts_append_logs]
        exact List.mem_append_right _ hm)
      rw [ih h hrest]
      refine get?_replayLog_of_ne hl fun hr he => hn ?_
      rw [he]
      exact mem_attempts List.mem_cons_self hr

/-- A node has the output of its row, if that has one. -/
theorem get?_foldlM_of_mem (h : logs.foldlM replayLog c = .ok c') (hn : (attempts logs).Nodup) (hm : log ∈ logs)
    (hr : log.isRouting = false) (ho : log.outputData.isNull = false) (hc : c.outputs.get? log.nodeId = none) :
    c'.outputs.get? log.nodeId = some log.outputData := by
  induction logs generalizing c with
  | nil => cases hm
  | cons first rest ih =>
    rw [List.foldlM_cons] at h
    rw [← List.singleton_append, attempts_append_logs, List.nodup_append] at hn
    cases hl : c.replayLog first with
    | error fault => rw [hl] at h; cases h
    | ok c₁ =>
      rw [hl] at h
      rcases List.mem_cons.1 hm with rfl | hm
      · have hrest : log.nodeId ∉ attempts rest := fun hin =>
          hn.2.2 _ (mem_attempts List.mem_cons_self hr) _ hin rfl
        rw [get?_foldlM_replayLog h hrest]
        exact get?_replayLog_self hl hr ho hc
      · refine ih h hn.2.1 hm ?_
        rw [get?_replayLog_of_ne hl fun hfirst he => ?_]
        · exact hc
        · exact hn.2.2 _ (mem_attempts List.mem_cons_self hfirst) _ (mem_attempts hm hr) he.symm

end Context

/-! ## Executions in which all is settled -/

/-- What there is of an execution between the steps of a session. -/
structure Charted (S : Survey) (w : World) (logs : List NodeLog) : Prop where
  surveyed : Surveyed S w logs
  started : ∀ node, S.workflow.triggerNode? = some node → node.id ∈ attempts logs
  settled : ∀ node ∈ attempts logs, Settled S.workflow S.tools S.clicked logs node
  kept : ∀ document V, w.storage.find? (Store.Workflows.place S.workflow.id) = some document →
    Store.Workflows.decode document = .ok V → V = S.workflow

section Charted

variable {S : Survey} {w w' : World} {logs more : List NodeLog}

theorem attempts_of_routing (h : ∀ row ∈ logs, row.isRouting = true) : attempts logs = [] := by
  rw [attempts, List.filter_eq_nil_iff.2 fun row hr => by simp [h row hr]]
  rfl

/-- What is done apart from an execution leaves it as it is. -/
theorem Surveyed.apart (h : Surveyed S w logs) (ha : Apart S w w') :
    ∃ more, attempts more = [] ∧ Surveyed S w' (logs ++ more) := by
  obtain ⟨more, hl, hc, hr⟩ := ha.rows logs h.rows h.counted
  have hnil := attempts_of_routing hr
  have hsame : attempts (logs ++ more) = attempts logs := by rw [attempts_append_logs, hnil, List.append_nil]
  refine ⟨more, hnil, ha.steady h.steady, ha.heard h.heard, ?_, h.fits, hl, hc, ha.config ▸ h.tools, fun node button => ?_,
    fun a hm he => ?_, hsame ▸ h.once, fun node hn => ?_, fun m hm he => (h.waits m (ha.listed m he hm) he).mono⟩
  · obtain ⟨x, hx, hid⟩ := h.record
    obtain ⟨y, hy, hyid⟩ := ha.record x hx
    exact ⟨y, hy, hyid.trans hid⟩
  · rw [h.clicks node button, ha.accepted _ rfl]
  · rw [hsame]
    exact h.attempted a ((ha.accepted a he).1 hm) he
  · rw [hsame] at hn
    exact (h.reached node hn).mono (fun _ => List.mem_append_left _) fun _ _ => id

theorem Charted.apart (h : Charted S w logs) (ha : Apart S w w') : ∃ logs', Charted S w' logs' := by
  obtain ⟨more, hnil, hs⟩ := h.surveyed.apart ha
  have hsame : attempts (logs ++ more) = attempts logs := by rw [attempts_append_logs, hnil, List.append_nil]
  refine ⟨logs ++ more, hs, fun node hn => hsame ▸ h.started node hn, fun node hn => ?_, fun document V hd hV => ?_⟩
  · rw [hsame] at hn
    exact (h.settled node hn).append hs.once hn
  · exact h.kept document V (ha.kept document V hd hV) hV

/-- An execution that there is has an id that was given out. -/
theorem Surveyed.issued (h : Surveyed S w logs) (ho : Orderly w) : Issued w.issued S.execution := by
  obtain ⟨x, hx, hid⟩ := h.record
  rcases ho.record_cases S.execution hx with hnull | ⟨W, hW⟩ | ⟨y, hy, hi, -⟩
  · cases hnull
  · simp [Execution.toValue, Workflow.toValue] at hW
  · rw [← hid, Execution.toValue_inj hy]
    exact hi

end Charted

/-! ## Clicks -/

/-- The survey with one click more, if that names a button. -/
def Survey.click (S : Survey) (node : String) (button : Value) : Survey :=
  { S with clicked := fun n b => S.clicked n b ∨ b.truthy = true ∧ n = node ∧ b = button }

section Clicks

variable {S : Survey} {w : World} {logs : List NodeLog} {node : Node} {row : NodeLog} {button : Value}

/-- A click behind a node with a row was accepted. -/
theorem Surveyed.accepting (h : Surveyed S w logs) {x : Execution} (hx : x.id = S.execution)
    (hn : node.id ∈ attempts logs) (button : Value) :
    Surveyed (S.click node.id button) (w.accepting x node button) logs where
  steady := h.steady
  heard := h.heard
  record := h.record
  fits := h.fits
  rows := h.rows
  counted := h.counted
  tools := h.tools
  clicks n b := by
    rw [World.accepted_accepting, List.mem_append, List.mem_singleton, Acceptance.mk.injEq]
    show S.clicked n b ∨ _ ↔ _
    rw [h.clicks n b]
    constructor
    · rintro (⟨ht, hm⟩ | ⟨ht, hnode, hb⟩)
      · exact ⟨ht, .inl hm⟩
      · exact ⟨ht, .inr ⟨hx.symm, hnode, hb⟩⟩
    · rintro ⟨ht, hm | ⟨-, hnode, hb⟩⟩
      · exact .inl ⟨ht, hm⟩
      · exact .inr ⟨ht, hnode, hb⟩
  attempted a ha he := by
    rw [World.accepted_accepting, List.mem_append, List.mem_singleton] at ha
    rcases ha with ha | rfl
    · exact h.attempted a ha he
    · exact hn
  once := h.once
  reached n hm := (h.reached n hm).mono (fun _ => id) fun _ _ => .inl
  waits m hm he :=
    have hw := h.waits m hm he
    ⟨hw.workflow, hw.row, hw.node⟩

/-- A node is as settled as before, but for the click. -/
theorem Settled.click {n : String} (h : Settled S.workflow S.tools S.clicked logs n)
    (hc : n ≠ node.id ∨ button.truthy = false) :
    Settled S.workflow S.tools (S.click node.id button).clicked logs n := by
  refine fun target hf => h target (hf.mono (fun _ => id) fun b hb => hb.resolve_right ?_)
  rintro ⟨ht, hn, rfl⟩
  rcases hc with hc | hc
  · exact hc hn
  · rw [hc] at ht
    cases ht

variable (hv : S.workflow.validate = .ok ()) (hreg : S.workflow.Regular)

include hv hreg in
/-- What an invocation dispatches is as deep as it has to be. -/
theorem dispatches_dispatch (depth : Nat) : Dispatches S depth dispatch := by
  intro node w r logs hn h hreach _
  unfold dispatch
  rw [Running.go_bind_ok (Running.go_run w r)]
  exact dispatches_within hv hreg r.depth node w r logs hn h hreach (h.workflow ▸ r.pending_lt_depth logs)

/-- A node whose message waits, its row and what it has put out. -/
structure Asked (S : Survey) (logs : List NodeLog) (node : Node) (row : NodeLog) (output : Entries Value) : Prop where
  found : S.workflow.node? node.id = some node
  mem : row ∈ logs
  attempt : row.isRouting = false
  succeeded : row.status = .success
  nodeId : row.nodeId = node.id
  outputData : row.outputData = .map output
  waiting : (Value.field output "button_id").truthy = false
  message : ∀ fields, Router.messageOf S.tools node (.map fields) = some fields

/-- A mapping leads to such a node. -/
theorem Waits.asked {m : ButtonMapping} (h : Waits S logs m) (hn : S.workflow.node? m.nodeId = some node) :
    ∃ row output, Asked S logs node row output := by
  obtain ⟨row, hm, hr, hs, hid, ha⟩ := h.row
  obtain ⟨node', hn', htype, htool⟩ := h.node
  obtain rfl := Option.some.inj (hn.symm.trans hn')
  have hnode : node.id = m.nodeId := by simpa using List.find?_some hn
  cases ho : row.outputData with
  | map output =>
    rw [ho, Action.awaitsClick, Bool.and_eq_true, Bool.not_eq_true'] at ha
    exact ⟨row, output, hnode ▸ hn, hm, hr, hs, hid.trans hnode.symm, ho, ha.2, fun fields => by
      rw [Router.messageOf, htype, htool]; rfl⟩
  | null | bool | num | str | list => rw [ho] at ha; cases ha

namespace Asked

variable {output : Entries Value} {link : Link}

theorem mem_attempts (h : Asked S logs node row output) : node.id ∈ attempts logs :=
  h.nodeId ▸ WorkGraph.mem_attempts h.mem h.attempt

/-- It selects the links of the buttons that were clicked. -/
theorem selects (h : Asked S logs node row output) (clicked : Value → Prop) :
    Selects S.tools clicked node row.outputData link ↔ ∃ button, clicked button ∧ link.outlet = some button.display := by
  rw [h.outputData, selects_message (h.message output), if_neg (by rw [h.waiting]; exact Bool.false_ne_true)]

theorem follows (h : Asked S logs node row output) {clicked : String → Value → Prop}
    (hl : link ∈ S.workflow.graph.links node.id) (hc : clicked node.id button) (ho : link.outlet = some button.display) :
    Follows S.workflow S.tools clicked logs node.id link.target := by
  have hsel := (h.selects (clicked node.id)).2 ⟨button, hc, ho⟩
  rw [← h.nodeId] at hl hsel ⊢
  exact .intro h.mem h.attempt h.succeeded (h.nodeId ▸ h.found) hl hsel

theorem click (h : Asked S logs node row output) (n : String) (button : Value) : Asked (S.click n button) logs node row output :=
  ⟨h.found, h.mem, h.attempt, h.succeeded, h.nodeId, h.outputData, h.waiting, h.message⟩

end Asked

theorem ButtonMessage.button_of_clicked {button data : Value} {fields : Entries Value} (h : clicked button data = .ok fields)
    (output : Entries Value) : Value.field (output.merge fields) "button_id" = button := by
  unfold clicked at h
  split at h
  · obtain rfl := Except.ok.inj h
    have htype : "button_id" ≠ "interactive_type" := by decide
    have htitle : "button_id" ≠ "button_title" := by decide
    rw [Value.field, Entries.merge, List.foldl_cons, List.foldl_cons, List.foldl_cons, List.foldl_nil,
      Entries.get?_set_ne _ _ htype, Entries.get?_set_ne _ _ htitle, Entries.get?_set_self]
    rfl
  · cases h

/-- What a run knows that goes on behind a click. -/
theorem Surveyed.explored {x : Execution} {rebuilt : Context} {output : Entries Value} (h : Surveyed S w logs)
    (ha : Asked S logs node row output) (hx : x.id = S.execution)
    (hreplay : Context.replay x.triggerData logs = .ok rebuilt) (fields : Entries Value) :
    (rebuilt.spliceButton node.id fields).outputs.get? node.id = some (.map (output.merge fields)) ∧
      Explored S ⟨w, .start x.id S.workflow (rebuilt.spliceButton node.id fields)⟩ logs := by
  have hget : rebuilt.outputs.get? node.id = some (.map output) := by
    rw [← ha.nodeId, ← ha.outputData]
    exact Context.get?_foldlM_of_mem hreplay h.once ha.mem ha.attempt (by rw [ha.outputData]; rfl) rfl
  have hout : rebuilt.output node.id = .map output := by rw [Context.output, Value.field, hget]; rfl
  refine ⟨?_, h, hx, rfl, rfl, fun n => ?_, fun n hn => ?_⟩
  · rw [Context.spliceButton, hout]
    exact Entries.get?_set_self _ _ _
  · refine (Context.isCompleted_foldlM_replayLog hreplay n).trans ⟨fun hn => hn.resolve_left ?_, .inr⟩
    exact Bool.false_ne_true
  · have hn : rebuilt.hasOutput n = true := (Context.hasOutput_spliced hget fields .null n).symm.trans hn
    exact (Context.isCompleted_of_replay hreplay hn : rebuilt.isCompleted n = true)

include hv hreg in
/-- What is behind the links of a button that was clicked is settled. -/
theorem Charted.clicked {r : Run} {output fields : Entries Value} (h : Charted S w logs)
    (ha : Asked S logs node row output) {u : World} (hu : Explored (S.click node.id button) ⟨u, r⟩ logs)
    (ho : r.context.outputs.get? node.id = some (.map fields)) (hb : Value.field fields "button_id" = button)
    (ht : button.truthy = true) :
    ∃ more, Surveyed (S.click node.id button)
        (Running.go (Routing.along (some .buttonClick) dispatch node (.map fields) (r.graph.links node.id)) ⟨u, r⟩).2.world
        (logs ++ more) ∧
      ∀ n ∈ attempts (logs ++ more), Settled S.workflow S.tools (S.click node.id button).clicked (logs ++ more) n := by
  have hclicked : (S.click node.id button).clicked node.id button := .inr ⟨ht, rfl, rfl⟩
  have hv : (S.click node.id button).workflow.validate = .ok () := hv
  obtain ⟨routing, q, hgo, more, hmore, htargets, hsettled⟩ := hu.buttonClick hv
    (dispatches_dispatch hv hreg (S.workflow.pending logs + 1)) ho
    (fun link hl hlink => .follow (hu.surveyed.reached _ ha.mem_attempts) (ha.follows hl hclicked (hb ▸ hlink)))
    (Nat.lt_succ_self _)
  have hgo : Running.go (Routing.along (some .buttonClick) dispatch node (.map fields) (r.graph.links node.id)) ⟨u, r⟩ =
      (.ok routing, q) := by
    rw [hu.graph]
    exact hgo
  rw [hgo]
  refine ⟨more, hmore.surveyed, fun n hn => ?_⟩
  rw [attempts_append_logs] at hn
  rcases List.mem_append.1 hn with hn | hn
  · by_cases hne : n = node.id
    · subst hne
      rw [← ha.nodeId]
      refine settled_of_row hmore.surveyed.once (List.mem_append_left _ ha.mem) ha.attempt (ha.nodeId ▸ ha.found)
        fun _ link hl hsel => ?_
      rw [ha.nodeId] at hl hsel
      obtain ⟨b, hc | ⟨-, -, rfl⟩, hlink⟩ := (ha.selects _).1 hsel
      · rw [attempts_append_logs]
        exact List.mem_append_left _ (h.settled _ hn _ (ha.follows hl hc hlink))
      · exact htargets _ ⟨link, hl, hb ▸ hlink, rfl⟩
    · exact ((h.settled n hn).click (.inl hne)).append hmore.surveyed.once hn
  · exact hsettled n hn

include hv hreg in
/-- What goes on behind a click leaves all settled. -/
theorem Charted.resumed {x : Execution} {rebuilt : Context} {output fields : Entries Value} {data : Value}
    (h : Charted S w logs) (ha : Asked S logs node row output) (hx : x.id = S.execution)
    (hreplay : Context.replay x.triggerData logs = .ok rebuilt) (hf : ButtonMessage.clicked button data = .ok fields) :
    ∃ more, Surveyed (S.click node.id button) (run (Invocation.resume S.workflow x.id node
        (rebuilt.spliceButton node.id fields) x.errorMessage) (w.accepting x node button)).2 (logs ++ more) ∧
      ∀ n ∈ attempts (logs ++ more), Settled S.workflow S.tools (S.click node.id button).clicked (logs ++ more) n := by
  have hu := h.surveyed.accepting hx ha.mem_attempts button
  have hb := ButtonMessage.button_of_clicked hf output
  obtain ⟨hget, hexplored⟩ := hu.explored (ha.click node.id button) hx hreplay fields
  have hout : (rebuilt.spliceButton node.id fields).output node.id = .map (output.merge fields) := by
    rw [Context.output, Value.field, hget]
    rfl
  unfold Invocation.resume
  rw [run_bind_ok (run_entering_steady hu.steady _)]
  dsimp only
  generalize hs : (x.errorMessage.filter (· != "")).elim _ _ = s
  have hexplored : Explored (S.click node.id button) ⟨w.accepting x node button, s⟩ logs := by
    refine hexplored.rerun ?_ ?_ ?_ ?_ <;> rw [← hs] <;> cases x.errorMessage.filter (· != "") <;> rfl
  have hcontext : s.context.outputs.get? node.id = some (.map (output.merge fields)) := by
    rw [← hs, ← hget]
    cases x.errorMessage.filter (· != "") <;> rfl
  have hclaims : Router.claims (w.accepting x node button).config.buttonTools node
      ((rebuilt.spliceButton node.id fields).output node.id) .buttonClick = .ok button.truthy := by
    rw [hout, hu.tools, Router.claims, Router.buttonOutput?_eq (hreg.isKey (List.mem_of_find?_eq_some ha.found))]
    show (Except.ok ((Router.messageOf S.tools node (.map (output.merge fields))).any _) : Except Fault Bool) = _
    rw [ha.message, Option.any_some, hb]
  rw [run_bind_ok (run_config _), hclaims, run_ofExcept_bind rfl]
  cases ht : button.truthy with
  | false =>
    refine ⟨[], ?_, fun n hn => ?_⟩
    · rw [List.append_nil]
      exact hu
    · rw [List.append_nil] at hn ⊢
      exact (h.settled n hn).click (.inr ht)
  | true =>
    obtain ⟨more, hmore, hsettled⟩ := h.clicked hv hreg ha hexplored hcontext hb ht
    refine ⟨more, ?_, hsettled⟩
    rw [Bool.not_true, if_neg Bool.false_ne_true, run_bind_ok (run_onRun s _ _), hout]
    dsimp only
    rcases hr : Running.go (Routing.along (some .buttonClick) dispatch node (.map (output.merge fields))
      (s.graph.links node.id)) ⟨w.accepting x node button, s⟩ with ⟨result, q⟩
    rw [hr] at hmore
    cases result <;> exact hmore

include hv hreg in
/-- A click on a message of an execution was accepted, and its run went on. -/
theorem Charted.resume {mapping : ButtonMapping} {data : Value} {workflow : Workflow} {x : Execution} {context : Context}
    (h : Charted S w logs) (ho : Orderly w)
    (hr : Continuation.Resumable mapping button data workflow x node context w) (hx : x.id = S.execution) :
    ∃ logs', Charted (S.click node.id button)
      (run (Invocation.resume workflow x.id node context x.errorMessage) (w.accepting x node button)).2 logs' := by
  have hwaits := h.surveyed.waits mapping hr.listed ((ho.id_of_ready hr.toReady).2.symm.trans hx)
  obtain ⟨document, hd, hdecode⟩ := hr.saved
  rw [hwaits.workflow] at hd
  obtain rfl : workflow = S.workflow := h.kept document workflow hd hdecode
  obtain ⟨row, output, ha⟩ := hwaits.asked hr.found
  obtain ⟨rebuilt, fields, hreplay, hf, rfl⟩ := hr.restored logs (hx ▸ h.surveyed.rows)
  obtain ⟨more, hmore, hsettled⟩ := h.resumed hv hreg ha hx hreplay hf
  obtain ⟨r, -, hunedited⟩ := (stable_unedited S.workflow.id w).resume x.errorMessage
    ⟨ho.tracks_of_resumable hr, .of_storage rfl⟩
  refine ⟨logs ++ more, hmore, fun n hn => ?_, hsettled, fun document V hd hV => ?_⟩
  · rw [attempts_append_logs]
    exact List.mem_append_left _ (h.started n hn)
  · exact h.kept document V (hunedited document V hd hV) hV

end Clicks

/-! ## Launches -/

/-- The survey of the next execution. -/
def Survey.next (W : Workflow) (w : World) : Survey :=
  { execution := w.nextExecution, workflow := W, tools := w.config.buttonTools
    clicked := fun node button => button.truthy = true ∧ ⟨w.nextExecution, node, button⟩ ∈ w.accepted }

section Launch

variable {W : Workflow} {payload : Value} {w : World} {logs : List NodeLog}

/-- What there is of an execution once it has its record. -/
theorem Orderly.surveyed {x : Execution} {w' : World} (h : Orderly w) (hs : w.Steady) (hh : w.Heard)
    (hl : HasLogs w.storage w.nextExecution logs) (hx : x.id = w.nextExecution)
    (hw : Wrote (Store.Executions.place w.nextExecution) x.toValue { w with issued := w.issued + 1 } w') :
    Surveyed (.next W w) w' logs := by
  obtain ⟨hc, ha⟩ := h.attempts_eq_nil hl
  have haccepted : w'.accepted = w.accepted := hw.accepted
  exact
    { steady := hw.steady hs
      heard := hw.heard hh
      record := ⟨x, hw.read_self, hx⟩
      fits := fits_nodeLogs hw.fits
      rows := by
        rw [HasLogs, hw.read_ne (executions_ne_nodeLogs _ _).symm]
        exact hl
      counted := hc
      tools := congrArg Config.buttonTools hw.config
      clicks := fun node button => by rw [haccepted]; exact .rfl
      attempted := fun a hm he => by
        rw [haccepted] at hm
        have hi := h.accepted a hm
        rw [he] at hi
        exact absurd hi (not_issued_nextExecution w)
      once := by rw [ha]; exact List.nodup_nil
      reached := fun node hn => by rw [ha] at hn; cases hn
      waits := fun m hm he => by
        obtain ⟨message, rows, hrows, row, hrow, now, hload⟩ :=
          hm.of_wrote_ne hw fun _ => (executions_ne_mappings _ _).symm
        obtain ⟨ms, rfl, hms⟩ := h.mappings_of_read hrows
        obtain ⟨m', hm', rfl⟩ := List.mem_map.1 hrow
        rw [ButtonMapping.load_toValue] at hload
        obtain rfl := Except.ok.inj hload
        have hi := hms _ hm'
        rw [he] at hi
        exact absurd hi (not_issued_nextExecution w) }

/-- Once an execution was launched, all that has run in it is settled. -/
theorem launch_charted (hv : W.validate = .ok ()) (hreg : W.Regular) (ho : Orderly w) (hs : w.Steady) (hh : w.Heard)
    (hfits : (Store.Executions.place w.nextExecution).Fits) (hl : HasLogs w.storage w.nextExecution logs)
    (hkept : ∀ document V, w.storage.find? (Store.Workflows.place W.id) = some document →
      Store.Workflows.decode document = .ok V → V = W) :
    ∃ S logs', S.execution = w.nextExecution ∧ S.workflow = W ∧
      Charted S (run (Invocation.launch W payload) w).2 logs' := by
  rcases Journal.startExecution_cases W.id (Context.start payload).triggerData w with
    ⟨session, w', hr, hw⟩ | ⟨hno, -⟩
  · have hsurveyed : Surveyed (.next W w) w' logs := ho.surveyed hs hh hl rfl hw
    have ha := (ho.attempts_eq_nil hl).2
    obtain ⟨u, hq, hlaunch⟩ := Invocation.run_launch hr
    obtain ⟨t, w'', hsettle, hq', -⟩ := Invocation.run_settle W (.start w.nextExecution W (.start payload))
      Invocation.fromTrigger u
    have ht := (startExecution_tracks W payload (Context.start payload).triggerData ho).2 _ (by rw [hr])
    rw [hr] at ht
    have hunedited : Unedited W.id w w' := by
      refine .wrote (w := w) hw.storage fun _ => Workflow.load_execution_ne _
    obtain ⟨r, -, hunedited⟩ := (stable_unedited W.id w).launch hr ⟨ht, hunedited⟩
    have hexplored : Explored (.next W w) ⟨u, .start w.nextExecution W (.start payload)⟩ logs := by
      refine ⟨hsurveyed.quiet hq, rfl, rfl, rfl, fun node => ?_, fun node hn => ?_⟩
      · rw [ha]
        exact ⟨fun hn => absurd hn Bool.false_ne_true, fun hn => absurd hn List.not_mem_nil⟩
      · exact absurd hn Bool.false_ne_true
    obtain ⟨first, hfirst⟩ := Option.isSome_iff_exists.1 (Workflow.triggerNode?_isSome_of_validate hv)
    have hn : first ∈ W.nodes := List.mem_of_find?_eq_some hfirst
    have hdispatches : Dispatches (.next W w) (W.pending logs + 1) dispatch := dispatches_dispatch hv hreg _
    have hlead := hdispatches first u _ logs hn hexplored (.trigger hfirst) (Nat.lt_succ_self _)
    have hgo : Running.go Invocation.fromTrigger ⟨u, .start w.nextExecution W (.start payload)⟩ =
        Running.go (dispatch first) ⟨u, .start w.nextExecution W (.start payload)⟩ := by
      unfold Invocation.fromTrigger
      rw [Running.go_bind_ok (Running.go_run _ _)]
      rw [show (Run.start w.nextExecution W (.start payload)).workflow.triggerNode? = some first from hfirst]
    rw [hgo] at hq'
    rw [hlaunch] at hunedited ⊢
    change Unedited W.id w (run (Invocation.settle W (.start w.nextExecution W (.start payload)) _) u).2 at hunedited
    show ∃ S logs', _ ∧ _ ∧ Charted S (run (Invocation.settle W (.start w.nextExecution W (.start payload)) _) u).2 logs'
    rw [hsettle] at hunedited ⊢
    obtain ⟨more, hmore, htrigger, hsettled⟩ := hlead
    refine ⟨.next W w, logs ++ more, rfl, rfl, hmore.surveyed.quiet hq', fun node hn => ?_, fun node hn => ?_,
      fun document V hd hV => hkept document V (hunedited document V hd hV) hV⟩
    · obtain rfl := Option.some.inj (hfirst.symm.trans hn)
      exact htrigger _ rfl
    · rw [attempts_append_logs, ha, List.nil_append] at hn
      exact hsettled node hn
  · exact absurd ⟨hs, hh, hfits⟩ hno

end Launch

/-! ## Sessions -/

/-- The storage is in order, and all that has run in an execution of a workflow is settled. -/
def Tidy (execution : String) (W : Workflow) (w : World) : Prop :=
  Orderly w ∧ ∃ S logs, S.execution = execution ∧ S.workflow = W ∧ Charted S w logs

section Sessions

variable {execution : String} {W : Workflow} {w w' : World}

theorem Tidy.apart (h : Tidy execution W w) (ho : Orderly w')
    (ha : ∀ S : Survey, S.execution = execution → S.workflow = W → Issued w.issued S.execution → Apart S w w') :
    Tidy execution W w' := by
  obtain ⟨horderly, S, logs, he, hW, hc⟩ := h
  obtain ⟨logs', hc'⟩ := hc.apart (ha S he hW (hc.surveyed.issued horderly))
  exact ⟨ho, S, logs', he, hW, hc'⟩

theorem lasting_tidy (hv : W.validate = .ok ()) (hreg : W.Regular) (execution : String) : Lasting (Tidy execution W) where
  idle h hi := h.apart (h.1.idle hi) fun _ _ _ _ => .of_idle hi
  claimed h hw := h.apart (lasting_orderly.claimed h.1 hw) fun _ _ _ _ => .claimed hw
  released message _ h := h.apart (h.1.released message) fun _ _ _ _ => .released message
  launch V payload w h := h.apart (lasting_orderly.launch V payload w h.1) fun _ _ _ hi => .launch h.1 hi V payload
  resume {_ button _ _ x node _ _} h hr := by
    by_cases hx : x.id = execution
    · obtain ⟨ho, S, logs, he, rfl, hc⟩ := h
      obtain ⟨logs', hc'⟩ := hc.resume hv hreg ho hr (hx.trans he.symm)
      exact ⟨lasting_orderly.resume ho hr, S.click node.id button, logs', he, rfl, hc'⟩
    · exact h.apart (lasting_orderly.resume h.1 hr) fun S he _ hi => .resume h.1 hi (he ▸ hx) hr
  routed id node message details w h :=
    h.apart (orderly_routingFailed id node message details w h.1) fun _ _ _ _ => .routed h.1 id node message details
  finish id status error duration _ w h :=
    h.apart (orderly_finishExecution id status error duration w h.1) fun _ _ _ _ => .finish h.1 id status error duration

/-- Whether a step edits no workflow of some id, injects no fault and leaves the audit service open. The ids of other
workflows have no slash, which could lead to the files of executions. -/
def Session.Step.Spares (id : String) : Session.Step → Prop
  | .saveWorkflow V => '/' ∉ V.id.toList ∧ (Store.Workflows.place id).path ≠ (Store.Workflows.place V.id).path
  | .setWorkflowStatus other _ => '/' ∉ other.toList ∧ (Store.Workflows.place id).path ≠ (Store.Workflows.place other).path
  | .inject _ | .closeAudit => False
  | _ => True

theorem tidy_save {V : Workflow} {id : String} (hid : '/' ∉ id.toList)
    (hp : (Store.Workflows.place V.id).path = (Store.Workflows.place id).path)
    (hne : (Store.Workflows.place W.id).path ≠ (Store.Workflows.place id).path) :
    Keeps (Tidy execution W) (Store.Workflows.save V) := by
  intro w h
  refine h.apart (orderly_saveWorkflow V w h.1) fun S _ hW _ => ?_
  subst hW
  rcases Store.Workflows.save_cases V w with ⟨w', hr, hw⟩ | ⟨fault, w', hr, hq⟩
  · rw [hr]
    exact .saved hid hp hne hw
  · rw [hr]
    exact .of_quiet hq

theorem tidy_setStatus (hv : W.validate = .ok ()) (hreg : W.Regular) {id : String} (status : WorkflowStatus)
    (hid : '/' ∉ id.toList) (hne : (Store.Workflows.place W.id).path ≠ (Store.Workflows.place id).path) :
    Keeps (Tidy execution W) (Store.Workflows.setStatus id status) := by
  have h := lasting_tidy hv hreg execution
  refine keeps_bind (h.hushed (hushed_entering _)) fun _ w hw => ?_
  refine h.after_hushed (Store.Workflows.hushed_find? id) hw fun found u hf hq => ?_
  have hu := h.quiet hw hq
  cases found with
  | none => exact hu
  | some V =>
    obtain ⟨document, hd, hV⟩ := Store.Workflows.eq_some_of_find? hf
    have hp : (Store.Workflows.place V.id).path = (Store.Workflows.place id).path := hw.1.path_of_found hd hV
    have hsave : Keeps (Tidy execution W) (Store.Workflows.save { V with status }) := tidy_save hid hp hne
    exact keeps_map some hsave u hu

/-- A step that spares a workflow leaves all settled that has run in its executions. -/
theorem tidy_perform (hv : W.validate = .ok ()) (hreg : W.Regular) {step : Session.Step} (hs : step.Spares W.id) :
    Keeps (Tidy execution W) (Session.perform step) := by
  cases step with
  | saveWorkflow V => exact keeps_map _ (tidy_save hs.1 rfl hs.2)
  | setWorkflowStatus id status => exact keeps_map _ (tidy_setStatus hv hreg status hs.1 hs.2)
  | inject failpoint => exact hs.elim
  | closeAudit => exact hs.elim
  | execute | executeStored | trigger | click | register | unregister | advance | forget =>
    exact (lasting_tidy hv hreg execution).perform rfl

theorem tidy_run (hv : W.validate = .ok ()) (hreg : W.Regular) (steps : List Session.Step)
    (hs : ∀ step ∈ steps, step.Spares W.id) {w : World} (h : Tidy execution W w) :
    Tidy execution W (Session.run steps w).2 := by
  induction steps generalizing w with
  | nil => exact h
  | cons step rest ih =>
    exact ih (fun s hm => hs s (List.mem_cons_of_mem _ hm)) (tidy_perform hv hreg (hs step List.mem_cons_self) w h)

/-- The nodes with rows are those that are reached. -/
theorem Charted.attempts_iff {S : Survey} {logs : List NodeLog} (h : Charted S w logs) (node : String) :
    node ∈ attempts logs ↔ Reached S.workflow S.tools S.clicked logs node :=
  ⟨h.surveyed.reached node, fun hn => hn.mem_attempts h.started h.settled⟩

/-- Whether a workflow is stored in its place. -/
def World.Stores (w : World) (W : Workflow) : Prop :=
  ∃ document, w.storage.find? (Store.Workflows.place W.id) = some document ∧ Store.Workflows.decode document = .ok W

/-- What is stored is found. -/
theorem World.Stores.run_find? (hW : w.Stores W) (hs : w.Steady) :
    run (Store.Workflows.find? W.id) w = (.ok (some W), w) := by
  obtain ⟨document, hd, hdecode⟩ := hW
  unfold Store.Workflows.find?
  rw [run_bind_ok (run_entering_steady hs _), run_get_bind, hd]
  dsimp only
  rw [hdecode]
  rfl

/-- A stored workflow that is published is executed under its id as it is. -/
theorem run_executeStored (hs : w.Steady) (hW : w.Stores W) (hp : W.isPublished = true) (payload : Value) :
    run (Invocation.executeStored W.id payload) w = run (Invocation.execute W payload) w := by
  unfold Invocation.executeStored
  rw [run_bind_ok (hW.run_find? hs), Option.filter_some_pos hp]

/-- All is settled that has run in an execution that was just started. -/
theorem execute_tidy {logs : List NodeLog} (hv : W.validate = .ok ()) (hreg : W.Regular) (ho : Orderly w)
    (hW : w.Stores W) (hs : w.Steady) (hh : w.Heard) (hf : (Store.Executions.place w.nextExecution).Fits)
    (hl : HasLogs w.storage w.nextExecution logs) (payload : Value) :
    Tidy w.nextExecution W (run (Invocation.execute W payload) w).2 := by
  have h := lasting_tidy hv hreg w.nextExecution
  obtain ⟨document, hd, hdecode⟩ := hW
  have hlaunch : Tidy w.nextExecution W (run (Invocation.launch W payload) w).2 := by
    refine ⟨lasting_orderly.launch W payload w ho, launch_charted hv hreg ho hs hh hf hl fun other V ho hV => ?_⟩
    obtain rfl := Option.some.inj (hd.symm.trans ho)
    exact Except.ok.inj (hV.symm.trans hdecode)
  unfold Invocation.execute
  rw [run_bind_ok (run_entering_steady hs _), run_bind_ok (run_reading w)]
  rcases hr : run (Invocation.launch W payload) w with ⟨result, u⟩
  rw [hr] at hlaunch
  cases result with
  | error fault => rw [run_bind_error hr]; exact hlaunch
  | ok r =>
    rw [run_bind_ok hr]
    exact keeps_bind (h.hushed (hushed_since _)) (fun _ => h.finalize _ (Span.inRange_bounded _)) u hlaunch

/-- In a session in which a workflow that may be stored is executed and not edited, no fault is injected and the audit
service gives answers that can be read, just the nodes behind selected links have rows in the execution. The buttons that
count are those that were clicked and name one, as no router claims a click of an empty button. -/
theorem attempts_iff_reached (config : Config) (root : String) (auditor : Option Auditor)
    (before after : List Session.Step) (step : Session.Step) (payload : Value) (hv : W.validate = .ok ())
    (hreg : W.Regular) (hp : W.isPublished = true) :
    let w := (Session.run before (.initial config root auditor)).2
    let w' := (Session.run (step :: after) w).2
    w.Stores W → w.Steady → w.Heard → (Store.Executions.place w.nextExecution).Fits →
    (∃ logs, HasLogs w.storage w.nextExecution logs) →
    step = .execute W payload ∨ step = .executeStored W.id payload → (∀ s ∈ after, s.Spares W.id) →
    ∀ node, node ∈ attempts (w'.storage.nodeLogs w.nextExecution) ↔
      Reached W w'.config.buttonTools
        (fun node button => button.truthy = true ∧ ⟨w.nextExecution, node, button⟩ ∈ w'.accepted)
        (w'.storage.nodeLogs w.nextExecution) node := by
  intro w w' hW hs hh hf ⟨logs, hl⟩ hstep hafter node
  have ho : Orderly w := orderly_run before (orderly_initial config root auditor)
  have htidy : Tidy w.nextExecution W (run (Session.perform step) w).2 := by
    have hexecute := execute_tidy hv hreg ho hW hs hh hf hl payload
    rcases hstep with rfl | rfl
    · exact (run_map_snd _ _ _).symm ▸ hexecute
    · have hstored := run_executeStored hs hW hp payload
      rw [← hstored] at hexecute
      exact (run_map_snd _ _ _).symm ▸ hexecute
  obtain ⟨-, S, logs', he, rfl, hc⟩ := tidy_run hv hreg after hafter htidy
  change Charted S w' logs' at hc
  have hrows := hc.surveyed.rows.nodeLogs
  rw [he] at hrows
  rw [hrows, hc.surveyed.tools, hc.attempts_iff]
  constructor
  · exact fun h => h.mono (fun _ => id) fun n b hb => he ▸ (hc.surveyed.clicks n b).1 hb
  · exact fun h => h.mono (fun _ => id) fun n b hb => (hc.surveyed.clicks n b).2 (he ▸ hb)

end Sessions

namespace Sample

/-- The tool is registered, and a workflow that sends messages is stored. -/
def steps (W : Workflow) : List Session.Step :=
  [.register .tool sender (some ⟨fun _ call => ⟨0, .ok (answer call)⟩, 0⟩), .saveWorkflow W]

theorem stores {W : Workflow} (hload : Workflow.load W.toValue = .ok W)
    (hsave : (run (Store.Workflows.save W) world).1.isOk = true) :
    (Session.run (steps W) (.initial {} "" none)).2.Stores W := by
  show (run ((Session.Answer.workflow ∘ some) <$> Store.Workflows.save W) world).2.Stores W
  rw [run_map_snd]
  rcases Store.Workflows.save_cases W world with ⟨w, hr, hw⟩ | ⟨fault, w, hr, -⟩
  · rw [hr]
    exact ⟨_, hw.find?_self, hload⟩
  · rw [hr] at hsave
    cases hsave

theorem regular_workflow : (workflow false).Regular := by
  intro node hn
  simp only [workflow, List.mem_cons, List.not_mem_nil, or_false] at hn
  rcases hn with rfl | rfl | rfl | rfl
  · exact ⟨by decide, fun _ => .inl rfl⟩
  · exact ⟨by decide, fun _ => .inr ⟨_, rfl⟩⟩
  · exact ⟨by decide, fun _ => .inr ⟨_, rfl⟩⟩
  · exact ⟨by decide, fun _ => .inl rfl⟩

end Sample

/-- A message whose button was clicked, and what is behind that. -/
theorem attempts_sample :
    let w := (Session.run (Sample.steps (Sample.workflow false)) (.initial {} "" none)).2
    let w' := (Session.run [.execute (Sample.workflow false) .null, .click "m" (.str "yes") .null] w).2
    w.Stores (Sample.workflow false) ∧ attempts (w'.storage.nodeLogs w.nextExecution) = ["start", "ask", "end"] ∧
      ∀ node, node ∈ attempts (w'.storage.nodeLogs w.nextExecution) ↔
        Reached (Sample.workflow false) w'.config.buttonTools
          (fun node button => button.truthy = true ∧ ⟨w.nextExecution, node, button⟩ ∈ w'.accepted)
          (w'.storage.nodeLogs w.nextExecution) node := by
  have hstores : (Session.run (Sample.steps (Sample.workflow false)) (.initial {} "" none)).2.Stores
      (Sample.workflow false) := Sample.stores rfl (by decide +kernel)
  refine ⟨hstores, by decide +kernel, ?_⟩
  exact attempts_iff_reached {} "" none (Sample.steps (Sample.workflow false)) [.click "m" (.str "yes") .null]
    (.execute (Sample.workflow false) .null) .null rfl Sample.regular_workflow rfl hstores (fun p hp => by cases hp)
    (fun a ha => by cases ha) (by decide +kernel) ⟨[], rfl⟩ (.inl rfl)
    fun s hs => by rw [List.mem_singleton.1 hs]; trivial

/-! ## Clicks that lead nowhere -/

/-- Whether just the nodes behind the links of the clicks that were accepted have rows, in the execution that the steps
after some others begin. -/
def Session.Exact (auditor : Option Auditor) (before after : List Session.Step) (W : Workflow) : Prop :=
  let w := (Session.run before (.initial {} "" auditor)).2
  let w' := (Session.run after w).2
  ∀ node, node ∈ attempts (w'.storage.nodeLogs w.nextExecution) ↔
    Reached W w'.config.buttonTools (fun node button => ⟨w.nextExecution, node, button⟩ ∈ w'.accepted)
      (w'.storage.nodeLogs w.nextExecution) node

/-- A row that succeeded leads on if all outputs like its own do. -/
theorem Reached.follow_of_any {W : Workflow} {tools : List Value} {clicked : String → Value → Prop} {logs : List NodeLog}
    {source : String} {node : Node} {link : Link} (h : Reached W tools clicked logs source) (like : Value → Bool)
    (hrow : logs.any (fun row => row.nodeId == source && !row.isRouting && row.status == .success && like row.outputData))
    (hn : W.node? source = some node) (hl : link ∈ W.graph.links source)
    (hsel : ∀ output, like output = true → Selects tools (clicked source) node output link) :
    Reached W tools clicked logs link.target := by
  obtain ⟨row, hm, hrow⟩ := List.any_eq_true.1 hrow
  simp only [Bool.and_eq_true, Bool.not_eq_true', beq_iff_eq] at hrow
  obtain ⟨⟨⟨rfl, hr⟩, hs⟩, hlike⟩ := hrow
  exact h.follow (.intro hm hr hs hn hl (hsel _ hlike))

namespace Sample

/-- A message that waits for a click of a button without a name. -/
def nameless : Workflow :=
  { workflow false with edges := [⟨some "start", some "ask", none⟩, ⟨some "ask", some "end", some ""⟩] }

/-- An audit service that is not reached. -/
def auditor : Auditor :=
  { url := "", answers := fun _ => .unreachable, asked := 0, enabled := true, closed := false }

/-- The output of a message that waits. -/
def waits (output : Value) : Bool :=
  output.entries?.any fun entries => !(Value.field entries "button_id").truthy

section Clicked

variable {W : Workflow} {w w' : World} (button : String)

/-- Whether there are rows of the trigger node and of a message that waits, and the button of that was clicked. -/
def asked (w w' : World) (button : String) : Bool :=
  let logs := w'.storage.nodeLogs w.nextExecution
  logs.any (fun row => row.nodeId == "start" && !row.isRouting && row.status == .success && true) &&
    logs.any (fun row => row.nodeId == "ask" && !row.isRouting && row.status == .success && waits row.outputData) &&
    w'.config.buttonTools.any (Value.str sender).same &&
    w'.accepted.any fun a => a.execution == w.nextExecution && a.node == "ask" && a.button.str? == some button

/-- What is behind the button is reached. -/
theorem reached_end (ht : W.triggerNode? = some (node "start" "trigger" []))
    (hs : W.node? "start" = some (node "start" "trigger" [])) (ha : W.node? "ask" = some (message "ask" "yes"))
    (hstart : ⟨"ask", none⟩ ∈ W.graph.links "start") (hask : ⟨"end", some button⟩ ∈ W.graph.links "ask")
    (hrun : asked w w' button = true) :
    Reached W w'.config.buttonTools (fun node button => ⟨w.nextExecution, node, button⟩ ∈ w'.accepted)
      (w'.storage.nodeLogs w.nextExecution) "end" := by
  rw [asked, Bool.and_eq_true, Bool.and_eq_true, Bool.and_eq_true] at hrun
  obtain ⟨⟨⟨hfirst, hsecond⟩, htool⟩, hclick⟩ := hrun
  have hasked : Reached W w'.config.buttonTools (fun node button => ⟨w.nextExecution, node, button⟩ ∈ w'.accepted)
      (w'.storage.nodeLogs w.nextExecution) "ask" :=
    (Reached.trigger ht).follow_of_any (fun _ => true) hfirst hs hstart fun _ _ => trivial
  refine hasked.follow_of_any waits hsecond ha hask fun output ho => ?_
  obtain ⟨⟨execution, asked, value⟩, hm, hclick⟩ := List.any_eq_true.1 hclick
  simp only [Bool.and_eq_true, beq_iff_eq] at hclick
  obtain ⟨⟨rfl, rfl⟩, hvalue⟩ := hclick
  cases value with
  | str text =>
    obtain rfl := Option.some.inj hvalue
    cases output with
    | map entries =>
      have hno : (Value.field entries "button_id").truthy = false := by
        simpa [waits, Value.entries?] using ho
      have hmessage : Router.messageOf w'.config.buttonTools (message "ask" "yes") (.map entries) = some entries := by
        show (if w'.config.buttonTools.any (Value.str sender).same then some entries else none) = _
        rw [if_pos htool]
      rw [selects_message hmessage, hno, if_neg Bool.false_ne_true]
      exact ⟨_, hm, rfl⟩
    | null | bool | num | str | list => cases ho
  | null | bool | num | list | map => cases hvalue

end Clicked
end Sample

/-- A button without a name leads nowhere though its click is accepted, nor does a click that the engine does not go on
from; and nothing runs where the audit service cannot be asked. -/
theorem not_exact : Sample.nameless.validate = .ok () ∧ Sample.nameless.Regular ∧
    (Session.run (Sample.steps Sample.nameless) (.initial {} "" none)).2.Stores Sample.nameless ∧
    ¬Session.Exact none (Sample.steps Sample.nameless)
      [.execute Sample.nameless .null, .click "m" (.str "") .null] Sample.nameless ∧
    ¬Session.Exact none (Sample.steps (Sample.workflow false)) [.execute (Sample.workflow false) .null,
      .inject ⟨.resume, "boom", 1⟩, .click "m" (.str "yes") .null] (Sample.workflow false) ∧
    ¬Session.Exact (some Sample.auditor) (.closeAudit :: Sample.steps (Sample.workflow false))
      [.execute (Sample.workflow false) .null] (Sample.workflow false) := by
  refine ⟨rfl, Sample.regular_workflow, Sample.stores rfl (by decide +kernel), fun h => ?_, fun h => ?_, fun h => ?_⟩ <;>
    unfold Session.Exact at h
  · exact absurd ((h "end").2
      (Sample.reached_end "" rfl rfl rfl (by decide +kernel) (by decide +kernel) (by decide +kernel))) (by decide +kernel)
  · exact absurd ((h "end").2
      (Sample.reached_end "yes" rfl rfl rfl (by decide +kernel) (by decide +kernel) (by decide +kernel))) (by decide +kernel)
  · have hstart : (Sample.workflow false).triggerNode? = some (Sample.node "start" "trigger" []) := rfl
    exact absurd ((h "start").2 (.trigger hstart)) (by decide +kernel)

end WorkGraph
