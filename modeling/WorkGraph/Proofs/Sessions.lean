import WorkGraph.Proofs.Course
import WorkGraph.Session

/-!
# What every step of a session keeps

A step that saves no workflow and injects no fault changes the world in few ways: an execution starts or ends, it gets a
row for a click that led nowhere, a message is claimed or given up, and a run goes on behind a click that was admitted
(`Continuation.admission`, `Resumable`). What all of these keep (`Lasting`), the whole step keeps: `Lasting.perform`. Where an
execution must not end at any time, it is whole invocations that keep something (`Abiding`, `Abiding.perform`). What saved
workflows and injected faults do not break either, every session keeps (`Enduring`, `Enduring.run`).
-/

namespace WorkGraph

namespace Engine

variable {α β : Type}

/-- Whatever comes of a computation, it keeps a property of the world. -/
def Keeps (I : World → Prop) (act : Engine α) : Prop :=
  ∀ w, I w → I (run act w).2

variable {I : World → Prop}

theorem keeps_attempt {act : Engine α} (h : Keeps I act) : Keeps I (attempt act) :=
  h

/-- What is returned does not matter to the world. -/
theorem run_map_snd (f : α → β) (act : Engine α) (w : World) : (run (f <$> act) w).2 = (run act w).2 := by
  have hmap : run (f <$> act) w = run (act >>= fun a => pure (f a)) w := rfl
  rw [hmap, run_bind]
  rcases run act w with ⟨result, w'⟩
  cases result <;> rfl

theorem keeps_map {act : Engine α} (f : α → β) (h : Keeps I act) : Keeps I (f <$> act) := by
  intro w hw
  rw [run_map_snd]
  exact h w hw

theorem keeps_bind {act : Engine α} {next : α → Engine β} (h : Keeps I act) (k : ∀ a, Keeps I (next a)) :
    Keeps I (act >>= next) := by
  intro w hw
  have hw' := h w hw
  rw [run_bind]
  rcases hr : run act w with ⟨result, w'⟩
  rw [hr] at hw'
  cases result with
  | ok a => exact k a w' hw'
  | error fault => exact hw'

end Engine

open Engine

/-! ## Runs that start and runs that go on -/

/-- What a click claims is a map, in the context. -/
theorem Router.output_of_claims {tools : List Value} {node : Node} {c : Context}
    (h : claims tools node (c.output node.id) .buttonClick = .ok true) :
    ∃ entries, c.output node.id = .map entries ∧ c.outputs.get? node.id = some (.map entries) := by
  unfold claims at h
  cases hb : buttonOutput? tools node (c.output node.id) with
  | error fault => rw [hb] at h; cases h
  | ok found =>
    rw [hb] at h
    have hany : (found.any fun entries => (Value.field entries "button_id").truthy) = true := Except.ok.inj h
    obtain ⟨entries, rfl, -⟩ := Option.any_eq_true _ _ |>.1 hany
    have hentries : (c.output node.id).entries? = some entries := by
      unfold buttonOutput? at hb
      split at hb
      · cases Except.ok.inj hb
      · dsimp only at hb
        split at hb
        · cases hb
        · have := Except.ok.inj hb
          split at this
          · exact this
          · cases this
    have hmap : c.output node.id = .map entries := by
      cases hv : c.output node.id <;> rw [hv] at hentries <;> cases hentries
      rfl
    refine ⟨entries, hmap, ?_⟩
    unfold Context.output Value.field at hmap
    cases hg : c.outputs.get? node.id with
    | none => rw [hg] at hmap; cases hmap
    | some v => rw [hg] at hmap; exact congrArg some hmap

/-- What every move keeps, the run that was launched has at its end. -/
theorem Guided.launched {I : Progress → Prop} {J : Node → Value → Progress → Prop} {workflow : Workflow} {payload : Value}
    {x : Execution} {w w' : World} (h : Guided I J)
    (hr : run (Journal.startExecution workflow.id (Context.start payload).triggerData) w = (.ok x, w'))
    (hp : I ⟨w', .start x.id workflow (.start payload)⟩) :
    ∃ r u, run (Invocation.launch workflow payload) w = (.ok r, u) ∧ I ⟨u, r⟩ := by
  obtain ⟨u, hq, hl⟩ := Invocation.run_launch hr
  have hend := h.fromTrigger _ (h.quiet hp hq)
  obtain ⟨s, w'', hs, hq', hsame⟩ := Invocation.run_settle workflow (.start x.id workflow (.start payload))
    Invocation.fromTrigger u
  refine ⟨s, w'', hl.trans hs, ?_⟩
  rcases hsame with rfl | ⟨message, rfl⟩
  · exact h.quiet hend hq'
  · exact h.noted true _ _ (h.quiet hend hq')

namespace Stable

variable {J : Progress → Prop} {workflow : Workflow} {w : World}

theorem launched (h : Stable J) {payload : Value} {x : Execution} {w' : World}
    (hr : run (Journal.startExecution workflow.id (Context.start payload).triggerData) w = (.ok x, w'))
    (hp : J ⟨w', .start x.id workflow (.start payload)⟩) :
    ∃ r u, run (Invocation.launch workflow payload) w = (.ok r, u) ∧ J ⟨u, r⟩ :=
  h.guided.launched hr hp

/-- What every move keeps is there at the end of a run that was launched. -/
theorem launch (h : Stable J) {payload : Value} {x : Execution} {w' : World}
    (hr : run (Journal.startExecution workflow.id (Context.start payload).triggerData) w = (.ok x, w'))
    (hp : J ⟨w', .start x.id workflow (.start payload)⟩) :
    ∃ r, J ⟨(run (Invocation.launch workflow payload) w).2, r⟩ := by
  obtain ⟨r, u, hl, hJ⟩ := h.launched hr hp
  exact ⟨r, by rw [hl]; exact hJ⟩

/-- What every move keeps, the run that went on has at its end. -/
theorem resumed (h : Stable J) {execution : String} {node : Node} {context : Context} (prior : Option String)
    (hp : J ⟨w, .start execution workflow context⟩) :
    ∃ r, J ⟨(run (Invocation.resume workflow execution node context prior) w).2, r⟩ ∧
      ∀ routing s, (run (Invocation.resume workflow execution node context prior) w).1 = .ok (routing, s) → s = r := by
  unfold Invocation.resume
  obtain ⟨u, hq, he⟩ := entering_cases .resume w
  rcases he with he | ⟨-, fault, he⟩
  · rw [run_bind_ok he]
    dsimp only
    generalize hs : (prior.filter (· != "")).elim _ _ = s
    have hu : J ⟨u, s⟩ := by
      have hu := h.quiet hp hq
      cases hf : prior.filter (· != "") with
      | none => rw [hf] at hs; exact hs ▸ hu
      | some message => rw [hf] at hs; exact hs ▸ h.noted true _ _ hu
    have hcontext : s.context = context := by
      cases hf : prior.filter (· != "") <;> rw [hf] at hs <;> rw [← hs] <;> rfl
    rw [run_bind_ok (run_config u)]
    cases hc : Router.claims u.config.buttonTools node (context.output node.id) .buttonClick with
    | error fault =>
      rw [run_ofExcept_bind_error rfl]
      exact ⟨s, hu, fun routing r hr => by cases hr⟩
    | ok claimed =>
      rw [run_ofExcept_bind rfl]
      cases claimed with
      | false => exact ⟨s, hu, fun routing r hr => (Prod.mk.inj (Except.ok.inj hr)).2.symm⟩
      | true =>
        obtain ⟨entries, hmap, hget⟩ := Router.output_of_claims hc
        have ho : s.context.outputs.get? node.id = some (context.output node.id) := by rw [hcontext, hget, hmap]
        have hafter := h.along (fun hn hp => h.dispatch_node hn hp) (some .buttonClick) (s.graph.links node.id) ho hu
        rw [Bool.not_true, if_neg Bool.false_ne_true, run_bind_ok (run_onRun s _ u)]
        dsimp only
        rcases hr : Running.go (Routing.along (some .buttonClick) dispatch node (context.output node.id)
          (s.graph.links node.id)) ⟨u, s⟩ with ⟨result, q⟩
        rw [hr] at hafter
        cases result with
        | error fault => exact ⟨_, hafter, fun routing r hr => by cases hr⟩
        | ok routing =>
          exact ⟨_, h.noteIn routing q hafter, fun _ r hr => (Prod.mk.inj (Except.ok.inj hr)).2.symm⟩
  · rw [run_bind_error he]
    exact ⟨_, h.quiet hp hq, fun routing r hr => by cases hr⟩

/-- What every move keeps is there at the end of a run that went on. -/
theorem resume (h : Stable J) {execution : String} {node : Node} {context : Context} (prior : Option String)
    (hp : J ⟨w, .start execution workflow context⟩) :
    ∃ r, J ⟨(run (Invocation.resume workflow execution node context prior) w).2, r⟩ := by
  obtain ⟨r, hr, -⟩ := h.resumed prior hp
  exact ⟨r, hr⟩

end Stable

/-! ## What is read before a run goes on -/

namespace Store

variable {w w' : World}

/-- A mapping that is found was loaded from a row of its file. -/
theorem Mappings.eq_some_of_find? {message : String} {m : ButtonMapping}
    (h : run (Mappings.find? message) w = (.ok (some m), w')) :
    ∃ rows, w.storage.read (Mappings.place message) (.list []) = .ok (.list rows) ∧
      ∃ row ∈ rows, ∃ now, ButtonMapping.load now row = .ok m := by
  unfold Mappings.find? at h
  obtain ⟨_, u, he, h⟩ := eq_ok_of_bind h
  have hq := hushed_entering .getButtonMapping w
  rw [he] at hq
  obtain ⟨v, u', hv, h⟩ := eq_ok_of_bind h
  rw [run_readFile, hq.storage, Prod.mk.injEq] at hv
  obtain ⟨hv, rfl⟩ := hv
  split at h
  · cases h
  · next ht =>
    obtain ⟨row, u₁, hrow, h⟩ := eq_ok_of_bind h
    obtain ⟨now, u₂, -, h⟩ := eq_ok_of_bind h
    obtain ⟨m', hm, hsome⟩ := eq_ok_of_map h
    obtain rfl := Option.some.inj hsome
    have hload := (eq_ok_of_ofExcept hm).1
    have hlast := (eq_ok_of_ofExcept hrow).1
    cases v with
    | list rows =>
      refine ⟨rows, hv, row, ?_, now, hload⟩
      cases hl : rows.getLast? with
      | none =>
        rw [List.getLast?_eq_none_iff.1 hl] at ht
        exact absurd rfl ht
      | some last =>
        rw [lastRow, hl, Option.getD_some] at hlast
        rw [← Except.ok.inj hlast]
        exact List.mem_of_getLast? hl
    | str s =>
      -- a letter is no record
      exfalso
      rw [lastRow] at hlast
      cases hc : s.toList.getLast? with
      | none => rw [hc] at hlast; rw [← Except.ok.inj hlast] at hload; cases hload
      | some c => rw [hc] at hlast; rw [← Except.ok.inj hlast] at hload; cases hload
    | null | bool | num | map => cases hlast

/-- A workflow that is found was decoded from its file. -/
theorem Workflows.eq_some_of_find? {id : String} {W : Workflow} (h : run (Workflows.find? id) w = (.ok (some W), w')) :
    ∃ document, w.storage.find? (Workflows.place id) = some document ∧ Workflows.decode document = .ok W := by
  unfold Workflows.find? at h
  obtain ⟨_, u, he, h⟩ := eq_ok_of_bind h
  have hq := hushed_entering .getWorkflow w
  rw [he] at hq
  rw [run_get_bind, hq.storage] at h
  cases hd : w.storage.find? (Workflows.place id) with
  | none => rw [hd] at h; cases h
  | some document =>
    rw [hd] at h
    obtain ⟨V, hV, hsome⟩ := eq_ok_of_map h
    obtain rfl := Option.some.inj hsome
    exact ⟨document, rfl, (eq_ok_of_ofExcept hV).1⟩

/-- A workflow is saved, or nothing is written. -/
theorem Workflows.save_cases (V : Workflow) (w : World) :
    (∃ w', run (Workflows.save V) w = (.ok V, w') ∧ Wrote (Workflows.place V.id) V.toValue w w') ∨
      ∃ fault w', run (Workflows.save V) w = (.error fault, w') ∧ Quiet w w' := by
  unfold Workflows.save
  obtain ⟨u, hq, he⟩ := entering_cases .saveWorkflow w
  rcases he with he | ⟨-, fault, he⟩
  · rw [run_bind_ok he]
    cases V.validate with
    | error fault =>
      rw [run_ofExcept_bind_error rfl]
      exact .inr ⟨fault, u, rfl, hq⟩
    | ok _ =>
      rw [run_ofExcept_bind rfl]
      have hp := (Posted.writeFile (Workflows.place V.id) V.toValue u).returning V
      rcases hr : run _ u with ⟨result, w'⟩
      rw [hr] at hp
      cases hp with
      | done hw => exact .inl ⟨w', rfl, hw.before hq⟩
      | unheard hn _ => exact absurd trivial hn
      | lost _ hq' => exact .inr ⟨_, w', rfl, hq.trans hq'⟩
  · rw [run_bind_error he]
    exact .inr ⟨fault, u, rfl, hq⟩

/-- A message is claimed where its claim file was not there. -/
theorem Claims.claim_cases (message execution : String) (w : World) :
    (∃ w', run (Claims.claim message execution) w = (.ok true, w') ∧ w.storage.find? (Claims.place message) = none ∧
      ∃ now, Wrote (Claims.place message) (.map [("execution_id", .str execution), ("claimed_at", .str now)]) w w') ∨
    ∃ result w', run (Claims.claim message execution) w = (result, w') ∧ result ≠ .ok true ∧ Quiet w w' := by
  unfold Claims.claim
  obtain ⟨u, hq, he⟩ := entering_cases .claimMessage w
  rcases he with he | ⟨-, fault, he⟩
  · rw [run_bind_ok he, run_get_bind, hq.storage]
    cases hf : w.storage.find? (Claims.place message) with
    | some document => exact .inr ⟨_, u, rfl, by simp, hq⟩
    | none =>
      rw [Option.isSome_none, if_neg Bool.false_ne_true, run_bind_ok (run_stamp u)]
      have hp := (Posted.writeFile (Claims.place message)
        (.map [("execution_id", .str execution), ("claimed_at", .str u.clock.stamp)]) u).returning true
      rcases hr : run _ u with ⟨result, w'⟩
      rw [hr] at hp
      cases hp with
      | done hw => exact .inl ⟨w', rfl, rfl, _, hw.before hq⟩
      | unheard hn _ => exact absurd trivial hn
      | lost _ hq' => exact .inr ⟨_, w', rfl, by simp, hq.trans hq'⟩
  · rw [run_bind_error he]
    exact .inr ⟨_, u, rfl, by simp, hq⟩

end Store

/-- The world after a click was accepted behind a node of an execution. -/
def World.accepting (w : World) (x : Execution) (node : Node) (button : Value) : World :=
  { w with trace := w.trace ++ [.event
      { component := "continuation", level := .info, message := "continuation_started"
        fields := [("execution_id", .str x.id), ("node_id", .str node.id), ("button_id", button)], exception := false }] }

@[simp] theorem World.accepted_accepting (w : World) (x : Execution) (node : Node) (button : Value) :
    (w.accepting x node button).accepted = w.accepted ++ [⟨x.id, node.id, button⟩] := by
  simp [accepting, accepted, Effect.acceptance?, Value.field, Entries.get?]

@[simp] theorem World.calls_accepting (w : World) (x : Execution) (node : Node) (button : Value) :
    (w.accepting x node button).calls = w.calls := by
  simp [accepting, calls, Effect.call?]

namespace Continuation

/-- Whether a mapping can be read from a row of a file. -/
def Listed (mapping : ButtonMapping) (w : World) : Prop :=
  ∃ message rows, w.storage.read (Store.Mappings.place message) (.list []) = .ok (.list rows) ∧
    ∃ row ∈ rows, ∃ now, ButtonMapping.load now row = .ok mapping

/-- What is read for a click before its message is claimed. -/
structure Ready (mapping : ButtonMapping) (workflow : Workflow) (x : Execution) (node : Node) (w : World) : Prop where
  listed : Listed mapping w
  saved : ∃ document, w.storage.find? (Store.Workflows.place mapping.workflowId) = some document ∧
    Store.Workflows.decode document = .ok workflow
  published : workflow.isPublished = true
  recorded : ∃ v now, w.storage.read (Store.Executions.place mapping.executionId) .null = .ok v ∧
    Execution.load now v = .ok x
  running : x.isRunning = true
  found : workflow.node? mapping.nodeId = some node

/-- What is read for a click before the run goes on. -/
structure Resumable (mapping : ButtonMapping) (button data : Value) (workflow : Workflow) (x : Execution) (node : Node)
    (context : Context) (w : World) : Prop extends Ready mapping workflow x node w where
  logged : ∃ v rows now logs, w.storage.read (Store.NodeLogs.place x.id) (.list []) = .ok v ∧ v.members = .ok rows ∧
    rows.mapM (NodeLog.load now) = .ok logs
  restored : ∀ logs, HasLogs w.storage x.id logs → ∃ rebuilt fields, Context.replay x.triggerData logs = .ok rebuilt ∧
    ButtonMessage.clicked button data = .ok fields ∧ context = rebuilt.spliceButton node.id fields

variable {mapping : ButtonMapping} {workflow : Workflow} {x : Execution} {node : Node} {w w' : World}

theorem Ready.of_storage (h : Ready mapping workflow x node w) (hs : w'.storage = w.storage) :
    Ready mapping workflow x node w' where
  listed := by rw [Listed, hs]; exact h.listed
  saved := by rw [hs]; exact h.saved
  published := h.published
  recorded := by rw [hs]; exact h.recorded
  running := h.running
  found := h.found

/-- A claim changes none of it, as it is not made where there is a file. -/
theorem Ready.claimed {message : String} {v : Value} (h : Ready mapping workflow x node w)
    (hnone : w.storage.find? (Store.Claims.place message) = none) (hw : Wrote (Store.Claims.place message) v w w') :
    Ready mapping workflow x node w' where
  listed := by
    obtain ⟨message', rows, hrows, hrest⟩ := h.listed
    refine ⟨message', rows, ?_, hrest⟩
    rw [hw.read_ne fun hp => by cases Location.folder_eq_of_path hp]
    exact hrows
  saved := by
    obtain ⟨document, hd, hdecode⟩ := h.saved
    refine ⟨document, ?_, hdecode⟩
    rw [hw.find?_ne fun hp => ?_]
    · exact hd
    · rw [Storage.find?, hp] at hd
      rw [Storage.find?, hd] at hnone
      cases hnone
  published := h.published
  recorded := by
    obtain ⟨u, now, hu, hload⟩ := h.recorded
    refine ⟨u, now, ?_, hload⟩
    rw [hw.read_ne fun hp => by cases Location.folder_eq_of_path hp]
    exact hu
  running := h.running
  found := h.found

/-- A mapping that is found is there. -/
theorem listed_of_find? {message : String} (h : run (Store.Mappings.find? message) w = (.ok (some mapping), w'))
    (hq : Quiet w w') : Listed mapping w' := by
  obtain ⟨rows, hrows, hrest⟩ := Store.Mappings.eq_some_of_find? h
  exact ⟨message, rows, by rw [hq.storage]; exact hrows, hrest⟩

theorem hushed_workflowOf (mapping : ButtonMapping) : Hushed (workflowOf mapping) := by
  refine hushed_bind (Store.Workflows.hushed_find? _) fun found => ?_
  split
  · exact hushed_pure _
  · exact hushed_throw _

theorem eq_ok_of_workflowOf (h : run (workflowOf mapping) w = (.ok workflow, w')) :
    workflow.isPublished = true ∧ ∃ document,
      w.storage.find? (Store.Workflows.place mapping.workflowId) = some document ∧
      Store.Workflows.decode document = .ok workflow := by
  unfold workflowOf at h
  obtain ⟨found, u, hf, h⟩ := eq_ok_of_bind h
  cases found with
  | none => cases h
  | some V =>
    rw [Option.filter] at h
    split at h
    · next V' hV =>
      split at hV
      · next hp =>
        obtain rfl := Option.some.inj hV
        obtain rfl := Except.ok.inj (Prod.mk.inj h).1
        exact ⟨hp, Store.Workflows.eq_some_of_find? hf⟩
      · cases hV
    · cases h

theorem hushed_executionOf (mapping : ButtonMapping) : Hushed (executionOf mapping) := by
  refine hushed_bind (Store.Executions.hushed_find? _) fun found => ?_
  split
  · exact hushed_throw _
  · split
    · exact hushed_pure _
    · exact hushed_throw _

theorem eq_ok_of_executionOf (h : run (executionOf mapping) w = (.ok x, w')) :
    x.isRunning = true ∧ ∃ v now, w.storage.read (Store.Executions.place mapping.executionId) .null = .ok v ∧
      Execution.load now v = .ok x := by
  unfold executionOf at h
  obtain ⟨found, u, hf, h⟩ := eq_ok_of_bind h
  cases found with
  | none => cases h
  | some y =>
    dsimp only at h
    split at h
    · next hr =>
      obtain rfl := Except.ok.inj (Prod.mk.inj h).1
      exact ⟨hr, Store.Executions.eq_some_of_find? hf⟩
    · cases h

theorem hushed_warnOfButton (mapping : ButtonMapping) (execution : Execution) (button : Value) :
    Hushed (warnOfButton mapping execution button) := by
  unfold warnOfButton
  exact hushed_ite (hushed_log (by decide)) (hushed_pure _)

theorem hushed_totalDuration (execution : Execution) (start : Int) : Hushed (totalDuration execution start) := by
  refine hushed_bind (hushed_since _) fun span => ?_
  split
  · exact hushed_pure _
  · exact hushed_throw _

/-- Whatever time was spent on an execution, it can be added to. -/
theorem inRange_of_totalDuration {start duration : Int} (h : run (totalDuration x start) w = (.ok duration, w')) :
    Number.inRange duration = true := by
  unfold totalDuration at h
  obtain ⟨span, u, -, h⟩ := eq_ok_of_bind h
  cases hd : span.after? x.durationMs with
  | none =>
    rw [hd] at h
    cases h
  | some total =>
    rw [hd] at h
    obtain rfl := Except.ok.inj (Prod.mk.inj h).1
    obtain ⟨_, -, rfl⟩ := Option.map_eq_some_iff.1 hd
    exact Span.inRange_bounded _

theorem hushed_restore (x : Execution) (node : Node) (button data : Value) : Hushed (restore x node button data) :=
  hushed_bind (Store.NodeLogs.hushed_all _) fun _ => hushed_bind (hushed_ofExcept _) fun _ =>
    hushed_bind (hushed_ofExcept _) fun _ => hushed_pure _

/-- What is restored was loaded from the log. -/
theorem logged_of_restore {button data : Value} {context : Context}
    (h : run (restore x node button data) w = (.ok context, w')) :
    ∃ v rows now logs, w.storage.read (Store.NodeLogs.place x.id) (.list []) = .ok v ∧ v.members = .ok rows ∧
      rows.mapM (NodeLog.load now) = .ok logs := by
  unfold restore at h
  obtain ⟨logs, u, hall, -⟩ := eq_ok_of_bind h
  unfold Store.NodeLogs.all at hall
  obtain ⟨_, u₁, he, hall⟩ := eq_ok_of_bind hall
  have hq := hushed_entering .getNodeLogs w
  rw [he] at hq
  obtain ⟨v, u₂, hv, hall⟩ := eq_ok_of_bind hall
  rw [Store.run_readFile, hq.storage, Prod.mk.injEq] at hv
  obtain ⟨now, u₃, -, hall⟩ := eq_ok_of_bind hall
  obtain ⟨rows, u₄, hrows, hall⟩ := eq_ok_of_bind hall
  exact ⟨v, rows, now, logs, hv.1, (eq_ok_of_ofExcept hrows).1, (eq_ok_of_ofExcept hall).1⟩

/-- What is restored is what the log tells, with the fields of the click. -/
theorem eq_ok_of_restore {button data : Value} {context : Context} {logs : List NodeLog}
    (h : run (restore x node button data) w = (.ok context, w')) (hl : HasLogs w.storage x.id logs) :
    ∃ rebuilt fields, Context.replay x.triggerData logs = .ok rebuilt ∧ ButtonMessage.clicked button data = .ok fields ∧
      context = rebuilt.spliceButton node.id fields := by
  unfold restore at h
  obtain ⟨logs', u, hall, h⟩ := eq_ok_of_bind h
  obtain ⟨rebuilt, u₁, hc, h⟩ := eq_ok_of_bind h
  obtain ⟨fields, u₂, hf, h⟩ := eq_ok_of_bind h
  obtain rfl := Except.ok.inj (Prod.mk.inj h).1
  obtain ⟨w'', -, ha | ⟨-, fault, ha⟩⟩ := Store.NodeLogs.all_cases hl
  · rw [hall, Prod.mk.injEq] at ha
    obtain rfl := Except.ok.inj ha.1
    exact ⟨rebuilt, fields, (eq_ok_of_ofExcept hc).1, (eq_ok_of_ofExcept hf).1, rfl⟩
  · rw [hall] at ha
    cases ha

end Continuation

/-! ## What does not go by claims -/

/-- Nothing was written or said. The time, the collaborators and what the process remembers may be others. -/
structure Idle (w w' : World) : Prop where
  config : w'.config = w.config
  issued : w'.issued = w.issued
  storage : w'.storage = w.storage
  steady : w.Steady → w'.Steady
  auditor : w'.auditor.map Auditor.service = w.auditor.map Auditor.service
  calls : w'.calls = w.calls
  accepted : w'.accepted = w.accepted

theorem Quiet.idle {w w' : World} (h : Quiet w w') : Idle w w' :=
  ⟨h.config, h.issued, h.storage, h.steady, h.auditor, h.calls, h.accepted⟩

namespace Continuation

/-- What a click goes on with once it is admitted. -/
structure Admission where
  start : Int
  workflow : Workflow
  execution : Execution
  node : Node
  context : Context

/-- Everything that is done for a click before it is routed. -/
def admission (mapping : ButtonMapping) (message : String) (button data : Value) : Engine Admission := do
  let start ← Engine.reading
  let workflow ← workflowOf mapping
  let execution ← executionOf mapping
  match workflow.node? mapping.nodeId with
  | none => stall .nodeMissing execution.id mapping.nodeId
  | some node =>
    warnOfButton mapping execution button
    if !(← Store.Claims.claim message execution.id) then
      stall (.alreadyClaimed message) execution.id mapping.nodeId
    let context ← restoreOrRelease message execution node button data
    Engine.log .info "continuation" "continuation_started"
      [("execution_id", .str execution.id), ("node_id", .str node.id), ("button_id", button)]
    return { start, workflow, execution, node, context }

/-- A click goes on if it is admitted. -/
theorem proceed_eq (mapping : ButtonMapping) (message : String) (button data : Value) :
    proceed mapping message button data = admission mapping message button data >>= fun a =>
      goOnOrFail message a.workflow a.execution a.node button a.context a.start := by
  unfold proceed admission
  simp only [bind_assoc]
  congr; funext start; congr; funext workflow; congr; funext execution
  cases workflow.node? mapping.nodeId with
  | none => rfl
  | some node =>
    simp only [bind_assoc]
    congr; funext _; congr; funext claimed
    cases claimed <;> simp [bind_assoc]

end Continuation

/-- A property of the world that goes by nothing that a click does before it is admitted. -/
structure Heedless (I : World → Prop) : Prop where
  quiet : ∀ {w w' : World}, I w → Quiet w w' → I w'
  claimed : ∀ {message execution now : String} {w w' : World}, I w →
    Wrote (Store.Claims.place message) (.map [("execution_id", .str execution), ("claimed_at", .str now)]) w w' → I w'
  released : ∀ (message : String) {w : World}, I w →
    I { w with storage := w.storage.remove (Store.Claims.place message) }

namespace Heedless

variable {I : World → Prop} (h : Heedless I)

include h

theorem hushed {α : Type} {act : Engine α} (ha : Hushed act) : Keeps I act :=
  fun w hw => h.quiet hw (ha w)

/-- What comes behind a hushed computation may know what that returned. -/
theorem after_hushed {α β : Type} {act : Engine α} {next : α → Engine β} {w : World} (ha : Hushed act) (hw : I w)
    (k : ∀ a u, run act w = (.ok a, u) → Quiet w u → I (run (next a) u).2) : I (run (act >>= next) w).2 := by
  have hq := ha w
  rcases hr : run act w with ⟨result, u⟩
  rw [hr] at hq
  cases result with
  | ok a => rw [run_bind_ok hr]; exact k a u hr hq
  | error fault => rw [run_bind_error hr]; exact h.quiet hw hq

theorem release (message : String) : Keeps I (Store.Claims.release message) :=
  keeps_bind (h.hushed (hushed_entering _)) fun _ _ hw => h.released message hw

/-- A context is restored, or else the message is given up and nothing is returned. -/
theorem restoreOrRelease (message : String) (x : Execution) (node : Node) (button data : Value) {w : World} (hw : I w) :
    let p := run (Continuation.restoreOrRelease message x node button data) w
    I p.2 ∧ ∀ context, p.1 = .ok context → run (Continuation.restore x node button data) w = (.ok context, p.2) := by
  unfold Continuation.restoreOrRelease
  rw [run_bind_ok (run_attempt _ w)]
  have hq := Continuation.hushed_restore x node button data w
  rcases hr : run (Continuation.restore x node button data) w with ⟨result, u⟩
  rw [hr] at hq
  cases result with
  | ok context => exact ⟨h.quiet hw hq, fun c hc => by obtain rfl := Except.ok.inj hc; rfl⟩
  | error fault =>
    have hrel := h.release message u (h.quiet hw hq)
    dsimp only
    rcases hrun : run (Store.Claims.release message) u with ⟨result, u'⟩
    rw [hrun] at hrel
    cases result with
    | error fault => rw [run_bind_error hrun]; exact ⟨hrel, fun c hc => by cases hc⟩
    | ok _ => rw [run_bind_ok hrun]; exact ⟨hrel, fun c hc => by cases hc⟩

/-- A click is admitted with what was read for it, or it is not admitted. -/
theorem admission {mapping : ButtonMapping} (message : String) (button data : Value) {w : World} (hw : I w)
    (hm : Continuation.Listed mapping w) :
    (∃ fault u, run (Continuation.admission mapping message button data) w = (.error fault, u) ∧ I u) ∨
    ∃ a u, run (Continuation.admission mapping message button data) w = (.ok a, u.accepting a.execution a.node button) ∧
      a.start = w.clock.reading ∧ I u ∧
      Continuation.Resumable mapping button data a.workflow a.execution a.node a.context u := by
  -- a computation that ends in a fault where something still holds is no admission
  have stopped {act : Engine Continuation.Admission} {u : World} (hr : ∃ fault, (run act u).1 = .error fault)
      (hi : I (run act u).2) : ∃ fault u', run act u = (.error fault, u') ∧ I u' := by
    obtain ⟨fault, hf⟩ := hr
    exact ⟨fault, _, Prod.ext hf rfl, hi⟩
  unfold Continuation.admission
  rw [run_bind_ok (run_reading w)]
  have hq₁ := Continuation.hushed_workflowOf mapping w
  rcases hworkflow : run (Continuation.workflowOf mapping) w with ⟨fault | workflow, w₁⟩ <;> rw [hworkflow] at hq₁
  · rw [run_bind_error hworkflow]
    exact .inl ⟨fault, w₁, rfl, h.quiet hw hq₁⟩
  rw [run_bind_ok hworkflow]
  obtain ⟨hpublished, hsaved⟩ := Continuation.eq_ok_of_workflowOf hworkflow
  have hq₂ := Continuation.hushed_executionOf mapping w₁
  rcases hx : run (Continuation.executionOf mapping) w₁ with ⟨fault | x, w₂⟩ <;> rw [hx] at hq₂
  · rw [run_bind_error hx]
    exact .inl ⟨fault, w₂, rfl, h.quiet hw (hq₁.trans hq₂)⟩
  rw [run_bind_ok hx]
  obtain ⟨hrunning, hrecorded⟩ := Continuation.eq_ok_of_executionOf hx
  rw [hq₁.storage] at hrecorded
  have hw₂ := h.quiet hw (hq₁.trans hq₂)
  split
  · exact .inl ⟨_, w₂, rfl, hw₂⟩
  · next node hnode =>
    have hready : Continuation.Ready mapping workflow x node w := ⟨hm, hsaved, hpublished, hrecorded, hrunning, hnode⟩
    have hq₃ := Continuation.hushed_warnOfButton mapping x button w₂
    rcases hwarn : run (Continuation.warnOfButton mapping x button) w₂ with ⟨fault | _, w₃⟩ <;> rw [hwarn] at hq₃
    · rw [run_bind_error hwarn]
      exact .inl ⟨fault, w₃, rfl, h.quiet hw₂ hq₃⟩
    rw [run_bind_ok hwarn]
    have hw₃ := h.quiet hw₂ hq₃
    have hready := hready.of_storage (hq₁.trans (hq₂.trans hq₃)).storage
    rcases Store.Claims.claim_cases message x.id w₃ with ⟨w₄, hclaim, hnone, now, hwrote⟩ |
      ⟨result, w₄, hclaim, hne, hq₄⟩
    · rw [run_bind_ok hclaim]
      dsimp only
      rw [Bool.not_true, if_neg Bool.false_ne_true]
      obtain ⟨hi, hrestore⟩ := h.restoreOrRelease message x node button data (h.claimed hw₃ hwrote)
      rcases hr : run (Continuation.restoreOrRelease message x node button data) w₄ with ⟨fault | context, w₅⟩ <;>
        rw [hr] at hi hrestore
      · rw [run_bind_error hr]
        exact .inl ⟨fault, w₅, rfl, hi⟩
      have hrestore := hrestore context rfl
      have hq₅ := Continuation.hushed_restore x node button data w₄
      rw [hrestore] at hq₅
      rw [run_bind_ok hr]
      exact .inr ⟨⟨w.clock.reading, workflow, x, node, context⟩, w₅, rfl, rfl, hi,
        { (hready.claimed hnone hwrote).of_storage hq₅.storage with
          logged := by
            rw [hq₅.storage]
            exact Continuation.logged_of_restore hrestore
          restored := fun logs hl => by
            rw [HasLogs, hq₅.storage] at hl
            exact Continuation.eq_ok_of_restore hrestore hl }⟩
    · cases result with
      | error fault =>
        rw [run_bind_error hclaim]
        exact .inl ⟨fault, w₄, rfl, h.quiet hw₃ hq₄⟩
      | ok claimed =>
        rw [run_bind_ok hclaim]
        have hfalse : claimed = false := by cases claimed <;> simp at hne ⊢
        rw [hfalse]
        exact .inl ⟨_, w₄, rfl, h.quiet hw₃ hq₄⟩

end Heedless

/-! ## What abides -/

/-- A property of the world that whole invocations keep, and the other changes in a session too. -/
structure Abiding (I : World → Prop) : Prop where
  idle : ∀ {w w' : World}, I w → Idle w w' → I w'
  claimed : ∀ {message execution now : String} {w w' : World}, I w →
    Wrote (Store.Claims.place message) (.map [("execution_id", .str execution), ("claimed_at", .str now)]) w w' → I w'
  released : ∀ (message : String) {w : World}, I w →
    I { w with storage := w.storage.remove (Store.Claims.place message) }
  executed : ∀ (workflow : Workflow) (payload : Value), Keeps I (Invocation.execute workflow payload)
  continued : ∀ {mapping : ButtonMapping} (message : String) {button data : Value} {workflow : Workflow} {x : Execution}
    {node : Node} {context : Context} (start : Int) {w : World}, I w →
    Continuation.Resumable mapping button data workflow x node context w →
    I (run (Continuation.goOnOrFail message workflow x node button context start) (w.accepting x node button)).2
  routed : ∀ (execution node message : String) (details : Entries Value),
    Keeps I (Journal.routingFailed execution node message details)

namespace Abiding

variable {I : World → Prop} (h : Abiding I)

include h

theorem heedless : Heedless I where
  quiet hw hq := h.idle hw hq.idle
  claimed := h.claimed
  released := h.released

theorem hushed {α : Type} {act : Engine α} (ha : Hushed act) : Keeps I act :=
  h.heedless.hushed ha

theorem executeStored (id : String) (payload : Value) : Keeps I (Invocation.executeStored id payload) := by
  refine keeps_bind (h.hushed (Store.Workflows.hushed_find? _)) fun found => ?_
  split
  · exact h.executed _ _
  · exact keeps_bind (h.hushed (hushed_log (by decide))) fun _ => h.hushed (hushed_pure _)

theorem fire (trigger payload : Value) : Keeps I (Trigger.fire trigger payload) := by
  have hone (workflow : Workflow) (payload : Value) :
      Keeps I (Trigger.runOne Invocation.execute trigger payload workflow) := by
    refine keeps_bind (keeps_attempt (h.executed workflow payload)) fun result => ?_
    split
    · exact h.hushed (hushed_pure _)
    · exact keeps_bind (h.hushed (hushed_log (by decide))) fun _ => h.hushed (hushed_pure _)
    · exact keeps_bind (h.hushed (hushed_logFault _ _)) fun _ => h.hushed (hushed_pure _)
  have hall (payload : Value) : ∀ workflows, Keeps I (Trigger.runAll Invocation.execute trigger payload workflows) := by
    intro workflows
    induction workflows with
    | nil => exact h.hushed (hushed_pure _)
    | cons workflow rest ih =>
      exact keeps_bind (hone workflow payload) fun _ => keeps_bind ih fun _ => h.hushed (hushed_pure _)
  exact keeps_bind (h.hushed (Store.Workflows.hushed_byTrigger _)) fun _ =>
    keeps_bind (h.hushed (hushed_log (by decide))) fun _ => hall _ _

theorem proceed {mapping : ButtonMapping} (message : String) (button data : Value) {w : World} (hw : I w)
    (hm : Continuation.Listed mapping w) : I (run (Continuation.proceed mapping message button data) w).2 := by
  rw [Continuation.proceed_eq]
  rcases h.heedless.admission message button data hw hm with ⟨fault, u, ha, hi⟩ | ⟨a, u, ha, -, hi, hr⟩
  · rw [run_bind_error ha]
    exact hi
  · rw [run_bind_ok ha]
    exact h.continued message a.start hi hr

theorem refuse (mapping : ButtonMapping) (message : String) (button : Value) (fault : Fault) :
    Keeps I (Continuation.refuse mapping message button fault) := by
  unfold Continuation.refuse
  dsimp only
  split
  · exact keeps_bind (h.routed _ _ _ _) fun _ => h.hushed (hushed_pure _)
  · exact keeps_bind (h.hushed (hushed_logFault _ _)) fun _ => keeps_bind (h.routed _ _ _ _) fun _ =>
      h.hushed (hushed_pure _)

theorem click (message : String) (button data : Value) : Keeps I (WorkGraph.click message button data) := by
  intro w hw
  unfold WorkGraph.click
  refine h.heedless.after_hushed (Store.Mappings.hushed_find? _) hw fun found u hf hq => ?_
  have hu := h.heedless.quiet hw hq
  cases found with
  | none => exact keeps_bind (h.hushed (hushed_log (by decide))) (fun _ => h.hushed (hushed_pure _)) u hu
  | some mapping =>
    have hp := h.proceed message button (data.orElse (.map [])) hu (Continuation.listed_of_find? hf hq)
    dsimp only
    rw [run_bind_ok (run_attempt _ u)]
    rcases hr : run (Continuation.proceed mapping message button (data.orElse (.map []))) u with ⟨result, u'⟩
    rw [hr] at hp
    cases result with
    | ok answer => exact hp
    | error fault => exact keeps_bind (h.refuse _ _ _ _) (fun _ => h.hushed (hushed_pure _)) u' hp

end Abiding

/-- Whether a step saves no workflow, injects no fault and leaves the audit service open. -/
def Session.Step.isMild : Session.Step → Bool
  | .saveWorkflow _ | .setWorkflowStatus _ _ | .inject _ | .closeAudit => false
  | _ => true

/-- What abides, abides through every mild step. -/
theorem Abiding.perform {I : World → Prop} (h : Abiding I) {step : Session.Step} (hs : step.isMild = true) :
    Keeps I (Session.perform step) := by
  cases step with
  | execute workflow payload => exact keeps_map _ (h.executed workflow payload)
  | executeStored workflow payload => exact keeps_map _ (h.executeStored workflow payload)
  | trigger trigger payload => exact keeps_map _ (h.fire trigger payload)
  | click message button data => exact keeps_map _ (h.click message button data)
  | register role name collaborator =>
    cases role <;> exact fun w hw => h.idle hw ⟨rfl, rfl, rfl, id, rfl, rfl, rfl⟩
  | unregister role name => cases role <;> exact fun w hw => h.idle hw ⟨rfl, rfl, rfl, id, rfl, rfl, rfl⟩
  | advance ticks => exact fun w hw => h.idle hw ⟨rfl, rfl, rfl, id, rfl, rfl, rfl⟩
  | forget => exact fun w hw => h.idle hw ⟨rfl, rfl, rfl, id, rfl, rfl, rfl⟩
  | saveWorkflow workflow => cases hs
  | setWorkflowStatus workflow status => cases hs
  | inject failpoint => cases hs
  | closeAudit => cases hs

/-! ## What lasts -/

/-- A property of the world that no change in a session breaks. -/
structure Lasting (I : World → Prop) : Prop where
  idle : ∀ {w w' : World}, I w → Idle w w' → I w'
  claimed : ∀ {message execution now : String} {w w' : World}, I w →
    Wrote (Store.Claims.place message) (.map [("execution_id", .str execution), ("claimed_at", .str now)]) w w' → I w'
  released : ∀ (message : String) {w : World}, I w →
    I { w with storage := w.storage.remove (Store.Claims.place message) }
  launch : ∀ (workflow : Workflow) (payload : Value), Keeps I (Invocation.launch workflow payload)
  resume : ∀ {mapping : ButtonMapping} {button data : Value} {workflow : Workflow} {x : Execution} {node : Node}
    {context : Context} {w : World}, I w → Continuation.Resumable mapping button data workflow x node context w →
    I (run (Invocation.resume workflow x.id node context x.errorMessage) (w.accepting x node button)).2
  routed : ∀ (execution node message : String) (details : Entries Value),
    Keeps I (Journal.routingFailed execution node message details)
  finish : ∀ (id : String) (status : RunStatus) (error : Option String) (duration : Int), Number.inRange duration = true →
    Keeps I (Journal.finishExecution id status (Value.ofText? error) duration)

namespace Lasting

variable {I : World → Prop} (h : Lasting I)

include h

theorem heedless : Heedless I where
  quiet hw hq := h.idle hw hq.idle
  claimed := h.claimed
  released := h.released

theorem quiet {w w' : World} (hw : I w) (hq : Quiet w w') : I w' :=
  h.heedless.quiet hw hq

theorem hushed {α : Type} {act : Engine α} (ha : Hushed act) : Keeps I act :=
  h.heedless.hushed ha

theorem after_hushed {α β : Type} {act : Engine α} {next : α → Engine β} {w : World} (ha : Hushed act) (hw : I w)
    (k : ∀ a u, run act w = (.ok a, u) → Quiet w u → I (run (next a) u).2) : I (run (act >>= next) w).2 :=
  h.heedless.after_hushed ha hw k

theorem finalize (r : Run) {duration : Int} (hd : Number.inRange duration = true) :
    Keeps I (Invocation.finalize r duration) := by
  refine keeps_bind (h.hushed (hushed_entering _)) fun _ => ?_
  have hf (status : RunStatus) (error : Option String) (answer : Option String) : Keeps I (do
      let _ ← Journal.finishExecution r.execution status (Value.ofText? error) duration
      return answer) :=
    keeps_bind (h.finish _ _ _ _ hd) fun _ => h.hushed (hushed_pure _)
  dsimp only
  split
  · split
    · exact hf .running none _
    · exact hf .running (some r.firstError) _
  · split
    · exact hf .failed (some r.firstError) _
    · exact hf .success none _

theorem noteUnrouted (message : String) (x : Execution) (node : Node) (button : Value) (routing : Routing) (r : Run) :
    Keeps I (Continuation.noteUnrouted message x node button routing r) := by
  unfold Continuation.noteUnrouted
  split
  · exact h.hushed (hushed_pure _)
  · exact keeps_bind (h.routed _ _ _ _) fun _ => h.hushed (hushed_pure _)

theorem goOn (message : String) {workflow : Workflow} {x : Execution} {node : Node} (button : Value) {context : Context}
    (start : Int) {w : World} (hr : I (run (Invocation.resume workflow x.id node context x.errorMessage) w).2) :
    I (run (Continuation.goOn message workflow x node button context start) w).2 := by
  unfold Continuation.goOn
  rcases hres : run (Invocation.resume workflow x.id node context x.errorMessage) w with ⟨result, u⟩
  rw [hres] at hr
  cases result with
  | error fault => rw [run_bind_error hres]; exact hr
  | ok found =>
    rw [run_bind_ok hres]
    refine keeps_bind (h.noteUnrouted _ _ _ _ _ _) (fun r v hv => ?_) u hr
    exact h.after_hushed (Continuation.hushed_totalDuration _ _) hv fun duration v' hd hq =>
      h.finalize r (Continuation.inRange_of_totalDuration hd) v' (h.quiet hv hq)

theorem goOnOrFail (message : String) {workflow : Workflow} {x : Execution} {node : Node} (button : Value)
    {context : Context} (start : Int) {w : World}
    (hr : I (run (Invocation.resume workflow x.id node context x.errorMessage) w).2) :
    I (run (Continuation.goOnOrFail message workflow x node button context start) w).2 := by
  have hg := h.goOn message button start hr
  unfold Continuation.goOnOrFail
  rw [run_bind_ok (run_attempt _ w)]
  rcases hrun : run (Continuation.goOn message workflow x node button context start) w with ⟨result, u⟩
  rw [hrun] at hg
  cases result with
  | ok answer => exact hg
  | error fault =>
    refine h.after_hushed (Continuation.hushed_totalDuration _ _) hg fun duration v hd hq => ?_
    refine keeps_bind (h.hushed (hushed_logFault _ _)) (fun _ => ?_) v (h.quiet hg hq)
    exact keeps_bind (h.finish x.id .failed (some _) duration (Continuation.inRange_of_totalDuration hd)) fun _ =>
      h.hushed (hushed_throw _)

/-- What lasts, whole invocations keep. -/
theorem abiding : Abiding I where
  idle := h.idle
  claimed := h.claimed
  released := h.released
  executed workflow payload := keeps_bind (h.hushed (hushed_entering _)) fun _ => keeps_bind (h.hushed hushed_reading)
    fun _ => keeps_bind (h.launch workflow payload) fun _ => keeps_bind (h.hushed (hushed_since _)) fun _ =>
      h.finalize _ (Span.inRange_bounded _)
  continued message _ _ _ _ _ _ start _ hw hr := h.goOnOrFail message _ start (h.resume hw hr)
  routed := h.routed

/-- What lasts, lasts through every mild step. -/
theorem perform {step : Session.Step} (hs : step.isMild = true) : Keeps I (Session.perform step) :=
  h.abiding.perform hs

end Lasting

/-! ## What endures -/

/-- A property of the world that no step of a session breaks. -/
structure Enduring (I : World → Prop) : Prop extends Lasting I where
  saved : ∀ W, Keeps I (Store.Workflows.save W)
  closed : Keeps I Audit.close
  armed : ∀ (failpoint : Failpoint) {w : World}, I w → I { w with failpoints := failpoint :: w.failpoints }

namespace Enduring

variable {I : World → Prop} (h : Enduring I)

include h

theorem setStatus (id : String) (status : WorkflowStatus) : Keeps I (Store.Workflows.setStatus id status) := by
  refine keeps_bind (h.hushed (hushed_entering _)) fun _ =>
    keeps_bind (h.hushed (Store.Workflows.hushed_find? _)) fun found => ?_
  split
  · exact h.hushed (hushed_pure _)
  · exact keeps_map some (h.saved _)

theorem perform (step : Session.Step) : Keeps I (Session.perform step) := by
  cases step with
  | saveWorkflow W => exact keeps_map _ (h.saved W)
  | setWorkflowStatus id status => exact keeps_map _ (h.setStatus id status)
  | inject failpoint => exact fun w hw => h.armed failpoint hw
  | closeAudit => exact fun w hw => h.closed w hw
  | execute | executeStored | trigger | click | register | unregister | advance | forget =>
    exact h.toLasting.perform rfl

/-- What endures, endures through every session. -/
theorem run (steps : List Session.Step) {w : World} (hw : I w) : I (Session.run steps w).2 := by
  induction steps generalizing w with
  | nil => exact hw
  | cons step rest ih => exact ih (h.perform step w hw)

end Enduring

end WorkGraph
