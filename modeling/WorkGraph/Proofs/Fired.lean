import WorkGraph.Proofs.FirstError
import WorkGraph.Proofs.Published

/-!
# Where a fired trigger starts

The first row of an execution that tells of a node (`Storage.firstRow?`) is there to stay: a node that is performed adds a
row behind it, and nothing else that is done for an execution touches it (`hosting_firstRow`). An execution that starts has
no such row yet, and its workflow's first trigger node is the first to be performed, so that the row is of this node
(`Invocation.execute_started`). A trigger selects a workflow by all of its trigger nodes, though. Where these are one, it is
the one that declares the trigger (`fired_first`); where they are several, another one may (`not_always_declared`).
-/

namespace WorkGraph

open Engine Running

/-! ## What a trigger node declares -/

/-- The id that a trigger node declares, on the node or else in its configuration. -/
def Node.declared (node : Node) : Value :=
  (Value.ofText? node.triggerType).orElse (node.setting "trigger_type")

/-- Whether a trigger node declares a trigger. -/
def Node.declares (node : Node) (trigger : Value) : Bool :=
  node.isOfType .trigger && node.declared.truthy && node.declared.same trigger

/-- A trigger selects the workflows of which some trigger node declares it. -/
theorem Workflow.any_triggerIds (W : Workflow) (trigger : Value) :
    W.triggerIds.any (·.same trigger) = W.nodes.any (·.declares trigger) := by
  unfold triggerIds
  rw [List.any_filterMap, List.any_filter]
  refine congrArg W.nodes.any (funext fun node => ?_)
  unfold Node.declares Node.declared
  dsimp only
  cases node.isOfType .trigger with
  | false => rfl
  | true => cases ((Value.ofText? node.triggerType).orElse (node.setting "trigger_type")).truthy <;> rfl

/-- A workflow starts with a trigger node. -/
theorem Workflow.isOfType_of_triggerNode? {W : Workflow} {first : Node} (h : W.triggerNode? = some first) :
    first.isOfType .trigger = true :=
  List.find?_some (p := fun node : Node => node.isOfType .trigger) h

/-- A workflow that a trigger selects has a node to start with, which declares the trigger if no other node could. -/
theorem Workflow.exists_triggerNode? {W : Workflow} {trigger : Value} (h : W.nodes.any (·.declares trigger) = true) :
    ∃ first, W.triggerNode? = some first ∧
      ((∀ node ∈ W.nodes, node.isOfType .trigger = true → node = first) → first.declares trigger = true) := by
  obtain ⟨node, hn, hd⟩ := List.any_eq_true.1 h
  have ht : node.isOfType .trigger = true := (Bool.and_eq_true_iff.1 (Bool.and_eq_true_iff.1 hd).1).1
  have hsome : W.triggerNode?.isSome = true := by
    rw [triggerNode?, List.find?_isSome]
    exact ⟨node, hn, ht⟩
  obtain ⟨first, hfirst⟩ := Option.isSome_iff_exists.1 hsome
  exact ⟨first, hfirst, fun hone => hone node hn ht ▸ hd⟩

/-- The workflows that a trigger means have a node that declares it. -/
theorem Storage.Chosen.declared {s : Storage} {trigger : Value} {workflows : List Workflow} {W : Workflow}
    (h : s.Chosen trigger workflows) (hm : W ∈ workflows) : W.nodes.any (·.declares trigger) = true := by
  obtain ⟨names, all, -, -, -, rfl⟩ := h
  rw [← W.any_triggerIds]
  exact (Bool.and_eq_true_iff.1 (List.mem_filter.1 hm).2).2

/-! ## The first row of an execution -/

/-- The first row of an execution that tells of a node; a click that led nowhere tells of none. -/
def Storage.firstRow? (s : Storage) (execution : String) : Option NodeLog :=
  (s.attempted execution).head?

namespace Storage

variable {s t : Storage} {execution : String} {logs : List NodeLog} {row : NodeLog}

theorem firstRow?_congr (h : t.read (Store.NodeLogs.place execution) (.list []) =
    s.read (Store.NodeLogs.place execution) (.list [])) : t.firstRow? execution = s.firstRow? execution := by
  rw [firstRow?, Spared.attempted_congr h, firstRow?]

theorem firstRow?_of_unlisted (h : ∀ rows, s.read (Store.NodeLogs.place execution) (.list []) ≠ .ok (.list rows)) :
    s.firstRow? execution = none := by
  unfold firstRow? attempted nodeLogs
  split
  · next rows hrows => exact absurd hrows (h rows)
  · rfl

/-- A row that comes last is the first if there was none. -/
theorem firstRow?_append (h : HasLogs s execution logs) (k : HasLogs t execution (logs ++ [row])) :
    t.firstRow? execution = (s.firstRow? execution).or (if row.isRouting then none else some row) := by
  rw [firstRow?, attempted, k.nodeLogs, List.filter_append, List.head?_append, firstRow?, attempted, h.nodeLogs]
  cases hr : row.isRouting <;> simp [hr]

end Storage

/-- An execution that has not started has none. -/
theorem Orderly.firstRow?_nextExecution {w : World} (h : Orderly w) : w.storage.firstRow? w.nextExecution = none := by
  rcases h.logs_cases w.nextExecution with ⟨logs, hl, -⟩ | hno
  · have hnone : logs.filter (!·.isRouting) = [] := List.map_eq_nil_iff.1 (h.attempts_eq_nil hl).2
    rw [Storage.firstRow?, Storage.attempted, hl.nodeLogs, hnone]
    rfl
  · exact Storage.firstRow?_of_unlisted hno

/-! ## What is done behind it -/

namespace Dispatch

variable {node : Node} {p q : Progress} {output : Value}

/-- A node that is performed adds a row of its own, if any. -/
theorem firstRow?_perform (node : Node) (h : Tracks p) : ∃ found : Option NodeLog,
    (go (perform node) p).2.world.storage.firstRow? p.run.execution =
      (p.world.storage.firstRow? p.run.execution).or found ∧
    ∀ row ∈ found, row.nodeId = node.id ∧ row.nodeType = node.type := by
  rcases h.orderly.logs_cases p.run.execution with ⟨logs, hl, hc, -⟩ | hno
  · rcases @gained_perform node logs p hl hc with hsame | ⟨row, hid, ht, hrow⟩
    · refine ⟨none, ?_, nofun⟩
      rw [Option.or_none]
      exact Storage.firstRow?_congr (by rw [Storage.read, hsame, Storage.read])
    · have hl' : HasLogs (go (perform node) p).2.world.storage p.run.execution (logs ++ [row]) := by
        rw [HasLogs, Storage.read, hrow]
        rfl
      refine ⟨_, Storage.firstRow?_append hl hl', fun found hfound => ?_⟩
      split at hfound
      · cases hfound
      · obtain rfl := Option.some.inj hfound
        exact ⟨hid, ht⟩
  · obtain ⟨w, r⟩ := p
    obtain ⟨fault, w', hb, hq⟩ := @perform_barred node w r fun _ => hno
    refine ⟨none, ?_, nofun⟩
    rw [hb, Option.or_none]
    exact congrArg (Storage.firstRow? · r.execution) hq.storage

/-- A node that has succeeded has its row. -/
theorem exists_row_of_perform (h : Tracks p) (hr : go (perform node) p = (.ok output, q)) :
    ∃ logs row, HasLogs q.world.storage p.run.execution (logs ++ [row]) ∧ row.nodeType = node.type := by
  rcases h.orderly.logs_cases p.run.execution with ⟨logs, hl, hc, -⟩ | hno
  · have hp := @perform_cases node logs p hl hc
    rw [hr] at hp
    generalize hout : ((.ok output, q) : Except Fault Value × Progress) = out at hp
    cases hp with
    | untitled | unopened | refused => cases hout
    | succeeded he _ _ _ hposted =>
      obtain ⟨rfl, rfl⟩ := Prod.mk.inj hout
      cases hposted with
      | done hw => exact ⟨logs, _, hw.hasLogs, by rw [he]; rfl⟩
    | @failed result =>
      cases result <;> cases hout
  · obtain ⟨w, r⟩ := p
    obtain ⟨fault, w', hb, -⟩ := @perform_barred node w r fun _ => hno
    rw [hb] at hr
    cases hr

end Dispatch

/-- What follows the run of an execution leaves its first row as it is. -/
theorem closing_firstRow (execution : String) (found : Option NodeLog) :
    Closing execution fun w => Orderly w ∧ w.storage.firstRow? execution = found where
  quiet h hq := ⟨h.1.quiet hq, by rw [hq.storage]; exact h.2⟩
  routed node text details w h := by
    refine ⟨orderly_routingFailed execution node text details w h.1, ?_⟩
    rcases h.1.routingFailed_cases execution node text details with
      ⟨logs, row, hl, -, -, -, hrouting, -, hposted⟩ | ⟨fault, w', hr, hq⟩
    · have hwrote {w' : World}
          (hw : Wrote (Store.NodeLogs.place execution) (.list ((logs ++ [row]).map NodeLog.toValue)) w w') :
          w'.storage.firstRow? execution = found := by
        rw [Storage.firstRow?_append hl hw.hasLogs, if_pos hrouting, Option.or_none, h.2]
      exact hposted.keeps (I := fun u => u.storage.firstRow? execution = found) hwrote fun hq => hq.storage ▸ h.2
    · rw [hr, hq.storage]
      exact h.2
  finish status error duration w h := by
    refine ⟨orderly_finishExecution execution status error duration w h.1, ?_⟩
    rcases h.1.finish_cases execution status error duration with ⟨x, hx, -, -⟩ | ⟨fault, w', hr, hq⟩
    · refine (Journal.finishExecution_posted hx status error duration).keeps
        (I := fun u => u.storage.firstRow? execution = found) (fun hw => ?_) fun hq => hq.storage ▸ h.2
      rw [Storage.firstRow?_congr (hw.read_ne (executions_ne_nodeLogs _ _).symm), h.2]
    · rw [hr, hq.storage]
      exact h.2

/-- The first row of an execution stays, whatever else is done for it. -/
theorem hosting_firstRow (execution : String) (W : Workflow) (row : NodeLog) :
    Hosting execution W fun w => w.storage.firstRow? execution = some row where
  quiet h hq := by rw [hq.storage]; exact h
  performed p node ht hid _ _ h := by
    obtain ⟨found, hfound, -⟩ := Dispatch.firstRow?_perform node ht
    rw [hid] at hfound
    rw [hfound, h, Option.some_or]
  routed node text details w ho h := ((closing_firstRow execution (some row)).routed node text details w ⟨ho, h⟩).2
  finish status error duration w ho h := ((closing_firstRow execution (some row)).finish status error duration w ⟨ho, h⟩).2

/-- Nor does anything that follows the run change of which workflow it is. -/
theorem closing_workflowId (execution workflow : String) :
    Closing execution fun w => Orderly w ∧ ∀ x, HasRecord w.storage execution x → x.workflowId = workflow where
  quiet h hq := ⟨h.1.quiet hq, by rw [hq.storage]; exact h.2⟩
  routed node text details w h :=
    ⟨orderly_routingFailed execution node text details w h.1,
      fun x hx => h.2 x (((Confined.routed h.1 execution node text details).record execution).symm.trans hx)⟩
  finish status error duration w h := by
    refine ⟨orderly_finishExecution execution status error duration w h.1, ?_⟩
    rcases h.1.finish_cases execution status error duration with ⟨x, hx, -, -⟩ | ⟨fault, w', hr, hq⟩
    · refine (Journal.finishExecution_posted hx status error duration).keeps
        (I := fun u => ∀ y, HasRecord u.storage execution y → y.workflowId = workflow) (fun hw y hy => ?_)
        fun hq => hq.storage ▸ h.2
      rw [Execution.hasRecord_unique hy hw.read_self]
      exact h.2 x hx
    · rw [hr, hq.storage]
      exact h.2

/-! ## Runs from the trigger node -/

/-- Whether an execution begins with a node: no other node is in its first row. -/
def Storage.Begins (s : Storage) (execution : String) (first : Node) : Prop :=
  ∀ row ∈ s.firstRow? execution, row.nodeId = first.id ∧ row.nodeType = first.type

/-- How an execution has started for a workflow: it begins with a node, and has a row of it if nothing was refused. -/
structure Execution.Started (x : Execution) (W : Workflow) (first : Node) (kept : Prop) (s : Storage) : Prop where
  workflow : x.workflowId = W.id
  begins : s.Begins x.id first
  row : kept → first.Titled → (∃ logs, HasLogs s x.id logs) → (s.firstRow? x.id).isSome = true

/-- What is left of it depends on the log alone. -/
theorem Execution.Started.congr {x : Execution} {W : Workflow} {first : Node} {kept : Prop} {s t : Storage}
    (h : x.Started W first kept s) (hs : t.find? (Store.NodeLogs.place x.id) = s.find? (Store.NodeLogs.place x.id)) :
    x.Started W first kept t := by
  have hread : t.read (Store.NodeLogs.place x.id) (.list []) = s.read (Store.NodeLogs.place x.id) (.list []) := by
    rw [Storage.read, hs, Storage.read]
  refine ⟨h.workflow, ?_, ?_⟩
  · rw [Storage.Begins, Storage.firstRow?_congr hread]
    exact h.begins
  · rw [Storage.firstRow?_congr hread]
    rintro hk ht ⟨logs, hl⟩
    exact h.row hk ht ⟨logs, hread.symm.trans hl⟩

/-- The first node that is performed for an execution is in its first row, which is there if the node has succeeded or if
nothing is refused to the run. -/
theorem Dispatch.perform_begins {p : Progress} {first : Node} (h : Tracks p) (ht : first.isOfType .trigger = true)
    (hnew : p.run.context.isCompleted first.id = false) (hnone : p.world.storage.firstRow? p.run.execution = none) :
    let went := go (perform first) p
    went.2.world.storage.Begins p.run.execution first ∧
      ((∃ output, went.1 = .ok output) ∨ (first.Titled ∧ ∃ logs, Fluent p logs) →
        (went.2.world.storage.firstRow? p.run.execution).isSome = true) := by
  have hrow {s : Storage} {logs : List NodeLog} {row : NodeLog} (hl : HasLogs s p.run.execution (logs ++ [row]))
      (htype : row.nodeType = first.type) : (s.firstRow? p.run.execution).isSome = true := by
    have hrouting : row.isRouting = false := by
      rw [NodeLog.isRouting, htype, beq_iff_eq.1 ht]
      rfl
    rw [Storage.firstRow?, Storage.attempted, hl.nodeLogs, List.filter_append, List.head?_append]
    simp [hrouting]
  obtain ⟨found, hfound, hof⟩ := firstRow?_perform first h
  rw [hnone, Option.none_or] at hfound
  refine ⟨fun row hm => hof row (hfound ▸ hm), ?_⟩
  rintro (⟨output, hok⟩ | ⟨htitled, logs, hfluent⟩)
  · obtain ⟨logs, row, hl, htype⟩ := exists_row_of_perform h (Prod.ext hok rfl)
    exact hrow hl htype
  · obtain ⟨row, result, w', hgo, hturn⟩ := hfluent.perform htitled hnew
    obtain ⟨entry, w₁, w₂, -, -, hw⟩ := hturn.ran
    rw [hgo]
    exact hrow hw.hasLogs hturn.nodeType

namespace Invocation

/-- A run begins with its trigger node. -/
theorem fromTrigger_begins {p : Progress} {first : Node} (h : Tracks p)
    (hfirst : p.run.workflow.triggerNode? = some first) (hnew : p.run.context.isCompleted first.id = false)
    (hnone : p.world.storage.firstRow? p.run.execution = none) :
    let s := (go fromTrigger p).2.world.storage
    s.Begins p.run.execution first ∧
      (first.Titled → (∃ logs, Fluent p logs) → (s.firstRow? p.run.execution).isSome = true) := by
  obtain ⟨w, r⟩ := p
  dsimp only at hfirst hnew hnone ⊢
  have hn : first ∈ r.workflow.nodes := List.mem_of_find?_eq_some hfirst
  have hdispatch : go (dispatch first) ⟨w, r⟩ = go (Dispatch.within r.depth first) ⟨w, r⟩ := by
    unfold dispatch
    rw [go_bind_ok (go_run w r)]
  rw [go_fromTrigger hfirst, hdispatch, Run.depth, Dispatch.go_within hnew]
  have htracks := stable_tracks.entered first h
  obtain ⟨hbegins, hsome⟩ := Dispatch.perform_begins htracks (Workflow.isOfType_of_triggerNode? hfirst) hnew hnone
  rcases hr : go (Dispatch.perform first) ⟨w, { r with entered := r.entered ++ [first.id] }⟩ with ⟨result, q⟩
  rw [hr] at hbegins hsome
  dsimp only at hbegins hsome
  cases result with
  | error fault =>
    rw [go_bind_error hr]
    exact ⟨hbegins, fun htitled ⟨logs, hfluent⟩ => hsome (.inr ⟨htitled, logs, hfluent.rerun rfl rfl⟩)⟩
  | ok output =>
    rw [go_bind_ok hr]
    obtain ⟨row, hrow⟩ := Option.isSome_iff_exists.1 (hsome (.inl ⟨output, rfl⟩))
    -- from here on the row is there, and every dispatch leaves it there
    have hstable := (hosting_firstRow r.execution r.workflow row).stable
    have hafter := stable_tracks.performed _ first hn (by simp) hnew htracks
    obtain ⟨c, hc⟩ := Dispatch.run_perform first ⟨w, { r with entered := r.entered ++ [first.id] }⟩
    rw [hr] at hafter hc
    obtain ⟨-, hroute⟩ := @Guided.route _ _ _ hstable.guided (fun hn hp => hstable.guided.within _ hn hp) first output q
      ⟨⟨⟨hafter, by rw [hc], by rw [hc]⟩, hrow⟩, Dispatch.output_of_perform hr⟩
    refine ⟨fun other hm => hbegins other ?_, fun _ _ => by rw [hroute]; rfl⟩
    rw [hrow]
    rwa [hroute] at hm

section Execute

variable {w : World} {W : Workflow} {payload : Value} {first : Node}

/-- An execution that starts begins with the trigger node of its workflow. -/
theorem launch_begins (payload : Value) (ho : Orderly w) (hfirst : W.triggerNode? = some first) :
    (∃ fault u, Engine.run (launch W payload) w = (.error fault, u) ∧ u.storage = w.storage) ∨
    ∃ r u, Engine.run (launch W payload) w = (.ok r, u) ∧ r.execution = w.nextExecution ∧ Orderly u ∧
      (∀ x, HasRecord u.storage w.nextExecution x → x.workflowId = W.id) ∧ u.storage.Begins w.nextExecution first ∧
      (w.Steady → w.Heard → first.Titled → (∃ logs, HasLogs w.storage w.nextExecution logs) →
        (u.storage.firstRow? w.nextExecution).isSome = true) := by
  have htracks := (startExecution_tracks W payload (Context.start payload).triggerData ho).2
  rcases Journal.startExecution_cases W.id (Context.start payload).triggerData w with
    ⟨session, w₁, hr, hw⟩ | ⟨-, fault, w₁, hr, hq⟩
  · rw [hr] at htracks
    replace htracks : Tracks ⟨w₁, .start w.nextExecution W (.start payload)⟩ := htracks _ rfl
    obtain ⟨r, v, hlaunch, htracks', hexecution, hconfined⟩ :=
      (stable_confined w.nextExecution w₁).launched hr ⟨htracks, rfl, .refl w₁⟩
    obtain ⟨u, hq, hl⟩ := run_launch hr
    obtain ⟨s, v', hsettle, hqv, -⟩ := run_settle W (.start w.nextExecution W (.start payload)) fromTrigger u
    obtain ⟨-, rfl⟩ := Prod.mk.inj ((hl.trans hsettle).symm.trans hlaunch)
    have hnone : u.storage.firstRow? w.nextExecution = none := by
      rw [hq.storage, Storage.firstRow?_congr (hw.read_ne (executions_ne_nodeLogs _ _).symm)]
      exact ho.firstRow?_nextExecution
    obtain ⟨hbegins, hsome⟩ := fromTrigger_begins (stable_tracks.quiet htracks hq) hfirst rfl hnone
    rw [← hqv.storage] at hbegins hsome
    refine .inr ⟨r, v', hlaunch, hexecution, htracks'.orderly, fun x hx => ?_, hbegins,
      fun hs hh htitled ⟨logs, hl⟩ => hsome htitled ⟨logs, (fluent_begun ho hs hh rfl hw hl).quiet hq⟩⟩
    rw [Execution.hasRecord_unique ((hconfined.record _).symm.trans hx) hw.read_self]
    rfl
  · refine .inl ⟨fault, w₁, ?_, hq.storage⟩
    unfold launch
    exact Engine.run_bind_error hr

/-- The execution of a workflow begins with its trigger node. -/
theorem execute_started (ho : Orderly w) (hfirst : W.triggerNode? = some first) {x : Execution}
    (hid : x.id = w.nextExecution) (hx : HasRecord (Engine.run (execute W payload) w).2.storage x.id x) :
    x.Started W first (w.Steady ∧ w.Heard) (Engine.run (execute W payload) w).2.storage := by
  have hunstarted {u : World} (hs : u.storage = w.storage) : ¬HasRecord u.storage x.id x := by
    rw [hs]
    exact fun hx => ho.ne_nextExecution hx hid
  have hlisted : (∃ logs, HasLogs (Engine.run (execute W payload) w).2.storage x.id logs) →
      ∃ logs, HasLogs w.storage w.nextExecution logs := by
    rintro ⟨logs, hl⟩
    rcases ho.logs_cases w.nextExecution with ⟨before, hbefore, -⟩ | hno
    · exact ⟨before, hbefore⟩
    · have hgrown := (Framed.execute ho W payload).grown (Store.NodeLogs.place w.nextExecution) fun _ =>
        (executions_ne_nodeLogs _ _).symm
      exact absurd (hid ▸ hl) (hgrown.unlisted hno _)
  obtain ⟨u, hq, he | ⟨-, fault, he⟩⟩ := entering_cases .execute w
  · have hexecute : Engine.run (execute W payload) w =
        Engine.run (launch W payload >>= fun r => Engine.since u.clock.reading >>= fun d => finalize r d.millis) u := by
      unfold execute
      rw [Engine.run_bind_ok he, Engine.run_bind_ok (run_reading u)]
    rw [hexecute] at hx hlisted ⊢
    rcases launch_begins payload (ho.quiet hq) hfirst with
      ⟨fault, v, hl, hs⟩ | ⟨r, v, hl, hexecution, hv, hworkflow, hbegins, hsome⟩
    · rw [Engine.run_bind_error hl] at hx
      exact absurd hx (hunstarted (hs.trans hq.storage))
    · rw [hq.nextExecution] at hexecution hworkflow hbegins hsome
      rw [hq.storage] at hsome
      have hsame : x.id = r.execution := hid.trans hexecution.symm
      rw [Engine.run_bind_ok hl, Engine.run_bind_ok (run_since _ v)] at hx hlisted ⊢
      rw [hsame] at hlisted
      rw [← hexecution] at hworkflow hbegins hsome hlisted
      -- what is done for the execution behind its run leaves all of this as it is
      obtain ⟨-, hfound⟩ := (closing_firstRow r.execution _).finalize (v.clock.since u.clock.reading).millis v ⟨hv, rfl⟩
      obtain ⟨-, hrecorded⟩ :=
        (closing_workflowId r.execution W.id).finalize (v.clock.since u.clock.reading).millis v ⟨hv, hworkflow⟩
      refine ⟨hrecorded x (hsame ▸ hx), ?_, ?_⟩ <;> rw [hsame]
      · exact fun row hm => hbegins row (hfound ▸ hm)
      · intro hk htitled hl
        rw [hfound]
        exact hsome (hq.steady hk.1) (hq.heard hk.2) htitled (hlisted hl)
  · unfold execute at hx
    rw [Engine.run_bind_error he] at hx
    exact absurd hx (hunstarted hq.storage)

/-- Where nothing is refused before an execution, nothing is behind it. -/
theorem execute_undisturbed (ho : Orderly w) (hk : w.Steady ∧ w.Heard) (W : Workflow) (payload : Value) :
    (Engine.run (execute W payload) w).2.Steady ∧ (Engine.run (execute W payload) w).2.Heard := by
  rcases execute_cases ho (.inr hk) W payload with
    ⟨fault, u, hr, hs, ha, -⟩ | ⟨w₀, session, w₁, u, r, duration, hq, hw, -, -, hconfined, hend⟩
  · rw [hr]
    exact ⟨hs hk.1, hk.2.of_service ha⟩
  · have hsteady : u.Steady := hconfined.steady (hw.steady (hq.steady hk.1))
    have hheard : u.Heard := (hw.heard (hq.heard hk.2)).of_service hconfined.service
    exact hend.keeps (I := fun v => v.Steady ∧ v.Heard) (fun hw => ⟨hw.steady hsteady, hw.heard hheard⟩)
      fun hq => ⟨hq.steady hsteady, hq.heard hheard⟩

end Execute

end Invocation

/-! ## Fired triggers -/

/-- What a series of runs has put on record has started for one of the workflows, with its first trigger node. -/
theorem Trigger.Series.started {payload : Value} {workflows : List Workflow}
    {outcomes : List (Except Fault (Option String))} {w w' : World}
    (h : Series Invocation.execute payload workflows outcomes w w') (ho : Orderly w)
    (hfirst : ∀ W ∈ workflows, ∃ first, W.triggerNode? = some first) {x : Execution}
    (hx : HasRecord w'.storage x.id x) (hnew : ¬Issued w.issued x.id) :
    ∃ W ∈ workflows, ∃ first, W.triggerNode? = some first ∧ x.Started W first (w.Steady ∧ w.Heard) w'.storage := by
  let I (v : World) : Prop := Orderly v ∧ (w.Steady ∧ w.Heard → v.Steady ∧ v.Heard) ∧
    ∀ x : Execution, HasRecord v.storage x.id x → ¬Issued w.issued x.id →
      ∃ W ∈ workflows, ∃ first, W.triggerNode? = some first ∧ x.Started W first (w.Steady ∧ w.Heard) v.storage
  suffices hend : I w' from hend.2.2 x hx hnew
  refine h.keeps (I := I) (fun {u v} hu hq => ?_) (fun W hW v hv => ?_)
    ⟨ho, id, fun x hx hnew => absurd (ho.issued_of_hasRecord hx) hnew⟩
  · exact ⟨hu.1.quiet hq, fun hk => ⟨hq.steady (hu.2.1 hk).1, hq.heard (hu.2.1 hk).2⟩, by rw [hq.storage]; exact hu.2.2⟩
  · obtain ⟨hv, hkept, hstarted⟩ := hv
    have hv' := lasting_orderly.abiding.executed W payload v hv
    refine ⟨hv', fun hk => Invocation.execute_undisturbed hv (hkept hk) W payload, fun x hx hnew => ?_⟩
    by_cases hid : x.id = v.nextExecution
    · obtain ⟨first, hfirst⟩ := hfirst W hW
      obtain ⟨hworkflow, hbegins, hrow⟩ := Invocation.execute_started hv hfirst hid hx
      exact ⟨W, hW, first, hfirst, hworkflow, hbegins, fun hk => hrow (hkept hk)⟩
    · -- nothing is changed of an execution that an earlier run has started
      obtain ⟨hrecord, hlogs⟩ := ((Framed.execute hv W payload).frame hv (issued_nextExecution v)).others x.id
        (hv'.issued_of_hasRecord hx) hid
      rw [HasRecord, Storage.read, hrecord] at hx
      obtain ⟨V, hV, first, hfirst, hx⟩ := hstarted x hx hnew
      exact ⟨V, hV, first, hfirst, hx.congr hlogs⟩

/-- A trigger keeps order. -/
theorem orderly_fire (trigger payload : Value) : Keeps Orderly (Trigger.fire trigger payload) := by
  intro w h
  have hperform := enduring_orderly.perform (.trigger trigger payload) w h
  rwa [Session.perform, run_map_snd] at hperform

/-- In every session, whatever faults show, an execution that a trigger starts is one of a published workflow of which some
trigger node declares the trigger, and its first row is of the first trigger node of this workflow; unless something is
refused to it, there is such a row. If the workflow has one trigger node only, this is the node that declares the trigger. -/
theorem fired_first (config : Config) (root : String) (auditor : Option Auditor) (steps : List Session.Step)
    (trigger payload : Value) {x : Execution} :
    let w := (Session.run steps (.initial config root auditor)).2
    let w' := (run (Trigger.fire trigger payload) w).2
    HasRecord w'.storage x.id x → ¬Issued w.issued x.id → ∃ W first, w.Publishes W ∧
      W.nodes.any (·.declares trigger) = true ∧ W.triggerNode? = some first ∧ first.isOfType .trigger = true ∧
      x.Started W first (w.Steady ∧ w.Heard) w'.storage ∧
      ((∀ node ∈ W.nodes, node.isOfType .trigger = true → node = first) → first.declares trigger = true) := by
  intro w w' hx hnew
  have ho : Orderly w := orderly_run steps (orderly_initial config root auditor)
  have hn : w.storage.files.keys.Nodup := nodup_keys_run steps (orderly_initial config root auditor) List.nodup_nil
  rcases hb : run (Store.Workflows.byTrigger trigger) w with ⟨fault | workflows, u⟩
  · have hq := Store.Workflows.hushed_byTrigger trigger w
    have hw' : w' = u := by
      show (run (Trigger.fanOut Invocation.execute trigger payload) w).2 = u
      unfold Trigger.fanOut
      rw [run_bind_error hb]
    rw [hb] at hq
    rw [hw', hq.storage] at hx
    exact absurd (ho.issued_of_hasRecord hx) hnew
  · have hchosen := Store.Workflows.chosen_of_byTrigger hn hb
    obtain ⟨outcomes, v, hrun, hseries⟩ := Trigger.fanOut_series Invocation.execute payload hb
    have hw' : w' = v := congrArg Prod.snd hrun
    rw [hw'] at hx ⊢
    obtain ⟨W, hW, first, hfirst, hstarted⟩ := hseries.started ho
      (fun W hW => (Workflow.exists_triggerNode? (hchosen.declared hW)).imp fun _ h => h.1) hx hnew
    obtain ⟨first', hfirst', hone⟩ := Workflow.exists_triggerNode? (hchosen.declared hW)
    obtain rfl := Option.some.inj (hfirst'.symm.trans hfirst)
    exact ⟨W, first', hchosen.publishes ho hW, hchosen.declared hW, hfirst,
      Workflow.isOfType_of_triggerNode? hfirst, hstarted, hone⟩

namespace Sample

/-- A day comes for which one workflow waits. -/
def dayComes : List Session.Step := [.saveWorkflow (daily "first" .published)]

/-- A workflow with two trigger nodes, of which the second waits for the hour. -/
def twofold : Workflow :=
  { id := "two", title := none, status := .published
    nodes := [node "day" "trigger" [("trigger_type", .str "daily")], node "hour" "trigger" [("trigger_type", .str "hourly")]]
    edges := [] }

/-- The first execution of a new world was not there before. -/
theorem not_issued_execution {w : World} (h : w.nextExecution = execution) : ¬Issued w.issued execution :=
  h ▸ not_issued_nextExecution w

end Sample

/-- The execution of the one workflow that waits for the day begins with its one trigger node. -/
theorem fired_first_sample :
    let w := (Session.run Sample.dayComes (.initial {} "" none)).2
    let w' := (run (Trigger.fire (.str "daily") .null) w).2
    ∃ (x : Execution) (row : NodeLog) (first : Node), HasRecord w'.storage x.id x ∧ ¬Issued w.issued x.id ∧
      w'.storage.firstRow? x.id = some row ∧
      row.nodeId = first.id ∧ row.nodeType = first.type ∧ first.declares (.str "daily") = true := by
  have hall : let w := (Session.run Sample.dayComes (.initial {} "" none)).2
      let w' := (run (Trigger.fire (.str "daily") .null) w).2
      w.nextExecution = Sample.execution ∧
      (w'.storage.execution? Sample.execution).map (fun x => (x.id, x.workflowId)) = some (Sample.execution, "first") ∧
      (w'.storage.firstRow? Sample.execution).isSome = true ∧
      ((w.storage.find? (Store.Workflows.place "first")).bind fun d =>
        (Store.Workflows.decode d).toOption).map (·.nodes.length) = some 1 := by
    decide +kernel
  intro w w'
  obtain ⟨hnext, hrecord, hrow, hone⟩ := hall
  have ho : Orderly w := orderly_run Sample.dayComes (orderly_initial {} "" none)
  obtain ⟨x, hx, hid⟩ := Option.map_eq_some_iff.1 hrecord
  obtain ⟨hid, hworkflow⟩ := Prod.mk.inj hid
  obtain ⟨row, hrow⟩ := Option.isSome_iff_exists.1 hrow
  have hx : HasRecord w'.storage x.id x := hid ▸ ((orderly_fire _ _ w ho).hasRecord_iff _ _).2 hx
  have hnew : ¬Issued w.issued x.id := hid ▸ Sample.not_issued_execution hnext
  obtain ⟨W, first, ⟨⟨document, hd, hW⟩, -⟩, -, hfirst, -, hstarted, hdeclares⟩ :=
    fired_first {} "" none Sample.dayComes (.str "daily") .null hx hnew
  rw [← hid] at hrow
  obtain ⟨hnode, htype⟩ := hstarted.begins row hrow
  refine ⟨x, row, first, hx, hnew, hrow, hnode, htype, hdeclares fun node hn _ => ?_⟩
  -- the workflow that is stored has one node only
  rw [← hworkflow, hstarted.workflow, hd, Option.bind_some, hW] at hone
  obtain ⟨only, honly⟩ := List.length_eq_one_iff.1 (Option.some.inj hone)
  have hfirst := List.mem_of_find?_eq_some hfirst
  rw [honly, List.mem_singleton] at hn hfirst
  rw [hn, hfirst]

/-- The hour comes: the workflow that waits for it starts with the node that waits for the day. -/
theorem not_always_declared :
    let w := (Session.run [.saveWorkflow Sample.twofold] (.initial {} "" none)).2
    let w' := (run (Trigger.fire (.str "hourly") .null) w).2
    Sample.twofold.validate = .ok () ∧ ∃ x row, HasRecord w'.storage x.id x ∧ ¬Issued w.issued x.id ∧
      x.workflowId = Sample.twofold.id ∧ w'.storage.firstRow? x.id = some row ∧
      ∀ node ∈ Sample.twofold.nodes, node.id = row.nodeId → node.declares (.str "hourly") = false := by
  have hall : let w := (Session.run [.saveWorkflow Sample.twofold] (.initial {} "" none)).2
      let w' := (run (Trigger.fire (.str "hourly") .null) w).2
      w.nextExecution = Sample.execution ∧
      (w'.storage.execution? Sample.execution).map (fun x => (x.id, x.workflowId)) = some (Sample.execution, "two") ∧
      (w'.storage.firstRow? Sample.execution).map NodeLog.nodeId = some "day" := by
    decide +kernel
  intro w w'
  obtain ⟨hnext, hrecord, hrow⟩ := hall
  have ho : Orderly w := orderly_run [.saveWorkflow Sample.twofold] (orderly_initial {} "" none)
  obtain ⟨x, hx, hid⟩ := Option.map_eq_some_iff.1 hrecord
  obtain ⟨hid, hworkflow⟩ := Prod.mk.inj hid
  obtain ⟨row, hrow, hnode⟩ := Option.map_eq_some_iff.1 hrow
  refine ⟨rfl, x, row, hid ▸ ((orderly_fire _ _ w ho).hasRecord_iff _ _).2 hx, hid ▸ Sample.not_issued_execution hnext,
    hworkflow, hid ▸ hrow, ?_⟩
  rw [hnode]
  decide

end WorkGraph
