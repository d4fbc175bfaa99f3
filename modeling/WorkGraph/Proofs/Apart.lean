import WorkGraph.Proofs.Explore

/-!
# What is done apart from an execution

Most of what is done in a session leaves an execution as it is: no node of it runs, no mapping is added and no click is
accepted for it, and its workflow is not edited (`Apart`). So it is with every move of another run (`stable_apart`), with
every launch (`Apart.launch`), with what goes on behind the clicks of others (`Apart.resume`), and with whatever is
written at the end of an execution (`Apart.finish`) or for a click that led nowhere (`Apart.routed`).
-/

namespace WorkGraph

open Engine

/-! ## Files that hold no workflow -/

namespace Workflow

theorem load_list_ne (rows : List Value) (V : Workflow) : load (.list rows) ≠ .ok V := by
  intro h
  cases h

/-- The status of an execution is none of a workflow. -/
theorem load_execution_ne (x : Execution) (V : Workflow) : load x.toValue ≠ .ok V := by
  intro h
  obtain ⟨id, workflowId, status, triggerData, errorMessage, durationMs, startedAt, historySession, completedAt⟩ := x
  cases status <;> cases h

theorem load_claim_ne (execution now : String) (V : Workflow) :
    load (.map [("execution_id", .str execution), ("claimed_at", .str now)]) ≠ .ok V := by
  intro h
  cases h

/-- A workflow is read back with its id. -/
theorem id_of_load {V W : Workflow} (h : load W.toValue = .ok V) : V.id = W.id := by
  simp only [load, toValue, Checked.record, read, Checked.required_cons_self, Checked.text_str, Checked.under_ok,
    Checked.map_ok] at h
  generalize Checked.optional _ "title" _ _ = title at h
  generalize Checked.optional _ "status" _ _ = status at h
  generalize Checked.optional _ "nodes" _ _ = nodes at h
  generalize Checked.optional _ "edges" _ _ = edges at h
  cases title <;> cases status <;> cases nodes <;> cases edges <;> cases h
  rfl

end Workflow

/-- What is found of a workflow was saved in its place. -/
theorem Orderly.path_of_found {w : World} (h : Orderly w) {id : String} {document : Document} {V : Workflow}
    (hd : w.storage.find? (Store.Workflows.place id) = some document) (hV : Store.Workflows.decode document = .ok V) :
    (Store.Workflows.place V.id).path = (Store.Workflows.place id).path := by
  obtain ⟨v, rfl, hv⟩ := h.files _ _ hd
  replace hV : Workflow.load v = .ok V := hV
  generalize (Store.Workflows.place id).path = path at hv ⊢
  cases hv with
  | workflow W => rw [Workflow.id_of_load hV]
  | record => exact absurd hV (Workflow.load_execution_ne _ V)
  | logs => exact absurd hV (Workflow.load_list_ne _ V)
  | mappings => exact absurd hV (Workflow.load_list_ne _ V)
  | claim => exact absurd hV (Workflow.load_claim_ne _ _ V)

/-! ## Workflows that are not edited -/

/-- What is found of a workflow was there before. -/
def Unedited (id : String) (w w' : World) : Prop :=
  ∀ document V, w'.storage.find? (Store.Workflows.place id) = some document → Store.Workflows.decode document = .ok V →
    w.storage.find? (Store.Workflows.place id) = some document

/-- What a node does to the world: its log is written, a collaborator works, and the rest does not last. -/
theorem Tracks.perform_induction {R : World → World → Prop} {p : Progress} (h : Tracks p) (node : Node)
    (trans : ∀ {u v w}, R u v → R v w → R u w) (quiet : ∀ {w w'}, Quiet w w' → R w w')
    (logged : ∀ {w w'} {rows : List NodeLog},
      Wrote (Store.NodeLogs.place p.run.execution) (.list (rows.map NodeLog.toValue)) w w' → R w w')
    (worked : ∀ {w w'}, Worked ⟨p.run.execution, node.id⟩ p.run.workflow.id w w' → R w w') :
    R p.world (Running.go (Dispatch.perform node) p).2.world := by
  rcases h.orderly.logs_cases p.run.execution with ⟨logs, hl, hc, -, -⟩ | hno
  · have hran {w w' : World} {result : Except Fault Value}
        (hr : run (Dispatch.runNode node (p.run.marked node)) w = (result, w')) : R w w' := by
      have hworked := (Dispatch.runNode_worked node (p.run.marked node) w).1
      rw [hr] at hworked
      exact worked hworked
    have hposted {α : Type} {a : α} {heard : Prop} {w w' : World} {rows : List NodeLog} {result : Except Fault α}
        (hp : Posted (Store.NodeLogs.place p.run.execution) (.list (rows.map NodeLog.toValue)) a heard w (result, w')) :
        R w w' :=
      hp.keeps (I := R w) logged quiet
    have hp := @Dispatch.perform_cases node logs p hl hc
    generalize Running.go (Dispatch.perform node) p = out at hp
    cases hp with
    | untitled _ hq => exact quiet hq
    | unopened _ hclosed => exact hposted hclosed
    | refused _ _ hw hr => exact trans (logged hw) (hran hr)
    | succeeded _ _ hw hr hclosed => exact trans (logged hw) (trans (hran hr) (hposted hclosed))
    | failed _ hw hr hclosed => exact trans (logged hw) (trans (hran hr) (hposted hclosed))
  · obtain ⟨w, r⟩ := p
    obtain ⟨fault, w', hb, hq⟩ := @Dispatch.perform_barred node w r fun _ => hno
    rw [hb]
    exact quiet hq

namespace Unedited

variable {id : String} {u w w' : World} {place : Location} {v : Value}

theorem of_storage (h : w'.storage = w.storage) : Unedited id w w' := by
  intro document V hd _
  rw [← h]
  exact hd

theorem trans (h : Unedited id u w) (k : Unedited id w w') : Unedited id u w' :=
  fun document V hd hV => h document V (k document V hd hV) hV

/-- A write of what is no workflow, or to another place. -/
theorem wrote (h : w.storage.write place v = .ok w'.storage)
    (hv : (Store.Workflows.place id).path = place.path → ∀ V, Workflow.load v ≠ .ok V) : Unedited id w w' := by
  intro document V hd hV
  by_cases hp : (Store.Workflows.place id).path = place.path
  · have hself := Storage.find?_write_self h
    rw [Storage.find?, ← hp, ← Storage.find?, hd] at hself
    obtain rfl := Option.some.inj hself
    exact absurd hV (hv hp V)
  · rw [← Storage.find?_write_ne h hp]
    exact hd

theorem worked {origin : Origin} {workflow : String} (h : Worked origin workflow w w') : Unedited id w w' := by
  rcases h.storage with hs | ⟨m, -, -, -, rows, -, hwrite⟩
  · exact .of_storage hs
  · exact wrote hwrite fun _ => Workflow.load_list_ne (rows ++ [m.toValue])

end Unedited

/-- No move of a run edits a workflow. -/
theorem stable_unedited (id : String) (w : World) : Stable fun p => Tracks p ∧ Unedited id w p.world where
  quiet h hq := ⟨stable_tracks.quiet h.1 hq, h.2.trans (.of_storage hq.storage)⟩
  noted failed firstError suspended h := ⟨stable_tracks.noted failed firstError suspended h.1, h.2⟩
  entered node h := ⟨stable_tracks.entered node h.1, h.2⟩
  clicked button title data ho hd h := ⟨stable_tracks.clicked button title data ho hd h.1, h.2⟩
  performed p node hn he hnew h :=
    ⟨stable_tracks.performed p node hn he hnew h.1, h.2.trans (h.1.perform_induction node .trans
      (fun hq => .of_storage hq.storage) (fun {_ _ rows} hw => .wrote hw.storage fun _ => Workflow.load_list_ne (rows.map NodeLog.toValue))
      .worked)⟩

/-! ## The frame of an execution -/

/-- No node of an execution has run. Its record may have been ended, and clicks that led nowhere may have left rows. -/
structure Apart (S : Survey) (w w' : World) : Prop where
  config : w'.config = w.config
  steady : w.Steady → w'.Steady
  heard : w.Heard → w'.Heard
  record : ∀ x, HasRecord w.storage S.execution x → ∃ y, HasRecord w'.storage S.execution y ∧ y.id = x.id
  rows : ∀ logs, HasLogs w.storage S.execution logs → Counted logs → ∃ more,
    HasLogs w'.storage S.execution (logs ++ more) ∧ Counted (logs ++ more) ∧ ∀ row ∈ more, row.isRouting = true
  listed : ∀ m, m.executionId = S.execution → Continuation.Listed m w' → Continuation.Listed m w
  accepted : ∀ a, a.execution = S.execution → (a ∈ w'.accepted ↔ a ∈ w.accepted)
  kept : Unedited S.workflow.id w w'

namespace Apart

variable {S : Survey} {u w w' : World} {place : Location} {v : Value}

theorem refl (w : World) : Apart S w w where
  config := rfl
  steady := id
  heard := id
  record x hx := ⟨x, hx, rfl⟩
  rows logs hl hc := ⟨[], by rwa [List.append_nil], by rwa [List.append_nil], fun row hr => by cases hr⟩
  listed _ _ hm := hm
  accepted _ _ := .rfl
  kept := .of_storage rfl

theorem trans (h : Apart S u w) (k : Apart S w w') : Apart S u w' where
  config := k.config.trans h.config
  steady := k.steady ∘ h.steady
  heard := k.heard ∘ h.heard
  record x hx := by
    obtain ⟨y, hy, hid⟩ := h.record x hx
    obtain ⟨z, hz, hid'⟩ := k.record y hy
    exact ⟨z, hz, hid'.trans hid⟩
  rows logs hl hc := by
    obtain ⟨more, hl, hc, hr⟩ := h.rows logs hl hc
    obtain ⟨more', hl', hc', hr'⟩ := k.rows _ hl hc
    rw [List.append_assoc] at hl' hc'
    exact ⟨more ++ more', hl', hc', fun row hrow => (List.mem_append.1 hrow).elim (hr row) (hr' row)⟩
  listed m he hm := h.listed m he (k.listed m he hm)
  accepted a ha := (k.accepted a ha).trans (h.accepted a ha)
  kept := h.kept.trans k.kept

theorem of_storage (hc : w'.config = w.config) (hs : w.Steady → w'.Steady) (hh : w.Heard → w'.Heard)
    (hst : w'.storage = w.storage) (ha : ∀ a, a.execution = S.execution → (a ∈ w'.accepted ↔ a ∈ w.accepted)) :
    Apart S w w' where
  config := hc
  steady := hs
  heard := hh
  record := by rw [hst]; exact (refl w).record
  rows := by rw [hst]; exact (refl w).rows
  listed m _ hm := by
    rw [Continuation.Listed, hst] at hm
    exact hm
  accepted := ha
  kept := .of_storage hst

theorem of_idle (h : Idle w w') : Apart S w w' :=
  .of_storage h.config h.steady (·.of_service h.auditor) h.storage fun _ _ => by rw [h.accepted]

theorem of_quiet (h : Quiet w w') : Apart S w w' :=
  .of_idle h.idle

/-- A write to a file that holds no workflow. -/
theorem wrote (h : Wrote place v w w')
    (hx : ∀ x, HasRecord w.storage S.execution x → ∃ y, HasRecord w'.storage S.execution y ∧ y.id = x.id)
    (hl : ∀ logs, HasLogs w.storage S.execution logs → Counted logs → ∃ more,
      HasLogs w'.storage S.execution (logs ++ more) ∧ Counted (logs ++ more) ∧ ∀ row ∈ more, row.isRouting = true)
    (hm : ∀ m, m.executionId = S.execution → Continuation.Listed m w' → Continuation.Listed m w)
    (hv : (Store.Workflows.place S.workflow.id).path = place.path → ∀ V, Workflow.load v ≠ .ok V) :
    Apart S w w' where
  config := h.config
  steady := h.steady
  heard := h.heard
  record := hx
  rows := hl
  listed := hm
  accepted a _ := by rw [h.accepted]
  kept := .wrote h.storage hv

/-- A record is as it was. -/
theorem record_of_eq (h : w'.storage.read (Store.Executions.place S.execution) .null =
      w.storage.read (Store.Executions.place S.execution) .null) (x : Execution)
    (hx : HasRecord w.storage S.execution x) : ∃ y, HasRecord w'.storage S.execution y ∧ y.id = x.id :=
  ⟨x, h.trans hx, rfl⟩

/-- A log is as it was. -/
theorem rows_of_eq (h : w'.storage.read (Store.NodeLogs.place S.execution) (.list []) =
      w.storage.read (Store.NodeLogs.place S.execution) (.list [])) (logs : List NodeLog)
    (hl : HasLogs w.storage S.execution logs) (hc : Counted logs) : ∃ more,
      HasLogs w'.storage S.execution (logs ++ more) ∧ Counted (logs ++ more) ∧ ∀ row ∈ more, row.isRouting = true :=
  ⟨[], by rw [List.append_nil]; exact h.trans hl, by rwa [List.append_nil], fun row hr => by cases hr⟩

/-- A record was written that is not another one of the execution. -/
theorem recorded {other : String} {x : Execution} (h : Wrote (Store.Executions.place other) x.toValue w w')
    (hx : (Store.Executions.place S.execution).path = (Store.Executions.place other).path →
      ∀ y, HasRecord w.storage S.execution y → x.id = y.id) : Apart S w w' := by
  refine .wrote h (fun y hy => ?_) (rows_of_eq (h.read_ne (executions_ne_nodeLogs _ _).symm))
    (fun _ _ hm => hm.of_wrote_ne h fun _ => (executions_ne_mappings _ _).symm) fun _ => Workflow.load_execution_ne x
  by_cases hp : (Store.Executions.place S.execution).path = (Store.Executions.place other).path
  · refine ⟨x, ?_, hx hp y hy⟩
    rw [HasRecord, Storage.read_congr hp]
    exact h.read_self
  · exact record_of_eq (h.read_ne hp) y hy

/-- A log was written that is not of the execution, or is its log with a row of a click. -/
theorem logged {other : String} {rows : List NodeLog}
    (h : Wrote (Store.NodeLogs.place other) (.list (rows.map NodeLog.toValue)) w w')
    (hl : (Store.NodeLogs.place S.execution).path = (Store.NodeLogs.place other).path →
      ∀ logs, HasLogs w.storage S.execution logs → Counted logs →
        ∃ row, rows = logs ++ [row] ∧ row.isRouting = true ∧ row.id = (logs.length + 1 : Int)) : Apart S w w' := by
  refine .wrote h (record_of_eq (h.read_ne (executions_ne_nodeLogs _ _))) (fun logs hlogs hc => ?_)
    (fun _ _ hm => hm.of_wrote_ne h fun _ => (nodeLogs_ne_mappings _ _).symm) fun _ => Workflow.load_list_ne _
  by_cases hp : (Store.NodeLogs.place S.execution).path = (Store.NodeLogs.place other).path
  · obtain ⟨row, rfl, hr, hid⟩ := hl hp logs hlogs hc
    refine ⟨[row], ?_, hc.append hid, fun r hm => by rw [List.mem_singleton.1 hm]; exact hr⟩
    rw [HasLogs, Storage.read_congr hp]
    exact h.read_self
  · exact rows_of_eq (h.read_ne hp) logs hlogs hc

/-- A node of another execution has run. -/
theorem worked {origin : Origin} {workflow : String} (h : Worked origin workflow w w')
    (hne : origin.execution ≠ S.execution) : Apart S w w' := by
  have hread {folder : Folder} (id extension : String) (default : Value) (hf : folder ≠ .mappings) :
      w'.storage.read (.ofRecord folder id extension) default = w.storage.read (.ofRecord folder id extension) default :=
    h.read_ne fun _ hp => hf (Location.folder_eq_of_path hp)
  refine ⟨h.config, h.steady, (·.of_service h.service), record_of_eq (hread _ _ _ (by decide)),
    rows_of_eq (hread _ _ _ (by decide)), fun m he hm => (hm.of_worked h).resolve_right fun hnew =>
      hne (hnew.1.symm.trans he), fun _ _ => by rw [h.accepted], .worked h⟩

/-! ## Other executions -/

theorem posted {α : Type} {a : α} {heard : Prop} {result : Except Fault α}
    (hw : ∀ {w'}, Wrote place v w w' → Apart S w w') (h : Posted place v a heard w (result, w')) : Apart S w w' := by
  cases h with
  | done h => exact hw h
  | unheard _ h => exact hw h
  | lost _ h => exact .of_quiet h

/-- A node of another execution was performed. -/
theorem performed {k : Nat} {p : Progress} (hi : Issued k S.execution) (h : Tracks p)
    (hne : p.run.execution ≠ S.execution) (node : Node) :
    Apart S p.world (Running.go (Dispatch.perform node) p).2.world :=
  h.perform_induction node .trans .of_quiet
    (fun hw => .logged hw fun hp => absurd hp (hi.path_ne h.issued hne.symm _ _)) (.worked · hne)

end Apart

/-- No move of a run of another execution matters. -/
theorem stable_apart {S : Survey} {k : Nat} (hi : Issued k S.execution) (w : World) :
    Stable fun p => Tracks p ∧ p.run.execution ≠ S.execution ∧ Apart S w p.world where
  quiet h hq := ⟨stable_tracks.quiet h.1 hq, h.2.1, h.2.2.trans (.of_quiet hq)⟩
  noted failed firstError suspended h := ⟨stable_tracks.noted failed firstError suspended h.1, h.2⟩
  entered node h := ⟨stable_tracks.entered node h.1, h.2⟩
  clicked button title data ho hd h := ⟨stable_tracks.clicked button title data ho hd h.1, h.2⟩
  performed p node hn he hnew h := by
    obtain ⟨c, hc⟩ := Dispatch.run_perform node p
    refine ⟨stable_tracks.performed p node hn he hnew h.1, ?_, h.2.2.trans (.performed hi h.1 h.2.1 node)⟩
    rw [hc]
    exact h.2.1

namespace Apart

variable {S : Survey} {k : Nat} {w : World}

/-- Another execution was launched. -/
theorem launch (h : Orderly w) (hi : Issued w.issued S.execution) (workflow : Workflow) (payload : Value) :
    Apart S w (run (Invocation.launch workflow payload) w).2 := by
  have hne : w.nextExecution ≠ S.execution := fun he => not_issued_nextExecution w (he ▸ hi)
  have hup : Apart S w { w with issued := w.issued + 1 } := .of_storage rfl id id rfl fun _ _ => .rfl
  rcases Journal.startExecution_cases workflow.id (Context.start payload).triggerData w with
    ⟨session, w', hr, hw⟩ | ⟨-, fault, w', hr, hq⟩
  · have ht := (startExecution_tracks workflow payload (Context.start payload).triggerData h).2 _ (by rw [hr])
    rw [hr] at ht
    have hstart : Apart S w w' := hup.trans (.recorded hw fun hp => absurd hp (hi.path_ne (issued_nextExecution w) hne.symm _ _))
    obtain ⟨r, -, -, hend⟩ := (stable_apart hi w).launch hr ⟨ht, hne, hstart⟩
    exact hend
  · unfold Invocation.launch
    rw [run_bind_error hr]
    exact hup.trans (.of_quiet hq)

/-- A click was accepted for another execution, and its run went on. -/
theorem resume {mapping : ButtonMapping} {button data : Value} {workflow : Workflow} {x : Execution} {node : Node}
    {context : Context} (h : Orderly w) (hi : Issued k S.execution) (hne : x.id ≠ S.execution)
    (hr : Continuation.Resumable mapping button data workflow x node context w) :
    Apart S w (run (Invocation.resume workflow x.id node context x.errorMessage) (w.accepting x node button)).2 := by
  have hstart : Apart S w (w.accepting x node button) := by
    refine .of_storage rfl id id rfl fun a ha => ?_
    rw [World.accepted_accepting, List.mem_append, List.mem_singleton]
    refine ⟨fun hm => hm.resolve_right ?_, .inl⟩
    rintro rfl
    exact hne ha
  obtain ⟨r, -, -, hend⟩ := (stable_apart hi w).resume x.errorMessage ⟨h.tracks_of_resumable hr, hne, hstart⟩
  exact hend

/-- The end of an execution was written to its record. -/
theorem finish (h : Orderly w) (id : String) (status : RunStatus) (error : Option String) (duration : Int) :
    Apart S w (run (Journal.finishExecution id status (Value.ofText? error) duration) w).2 := by
  rcases h.finish_cases id status error duration with ⟨x, hx, -, -⟩ | ⟨fault, w', hr, hq⟩
  · refine .posted (fun hw => .recorded hw fun hp y hy => ?_) (Journal.finishExecution_posted hx status error duration)
    rw [HasRecord, Storage.read_congr hp] at hy
    have hxy : x = y := Execution.toValue_inj (Except.ok.inj (hx.symm.trans hy))
    rw [← hxy]
    rfl
  · rw [hr]
    exact .of_quiet hq

/-- A row was written for a click that led nowhere. -/
theorem routed (h : Orderly w) (execution node message : String) (details : Entries Value) :
    Apart S w (run (Journal.routingFailed execution node message details) w).2 := by
  rcases h.routingFailed_cases execution node message details with
    ⟨logs, row, hl, -, -, -, hrouting, hid, hposted⟩ | ⟨fault, w', hr, hq⟩
  · refine .posted (fun hw => .logged hw fun hp other ho _ => ?_) hposted
    rw [HasLogs, Storage.read_congr hp] at ho
    obtain rfl := HasLogs.unique hl ho
    exact ⟨row, rfl, hrouting, hid⟩
  · rw [hr]
    exact .of_quiet hq

theorem claims_ne (message : String) {folder : Folder} (hne : folder ≠ .claims) (id extension : String) :
    (Location.ofRecord folder id extension).path ≠ (Store.Claims.place message).path :=
  fun hp => hne (Location.folder_eq_of_path hp)

/-- A message was claimed. -/
theorem claimed {w' : World} {message execution now : String} (h : Wrote (Store.Claims.place message)
    (.map [("execution_id", .str execution), ("claimed_at", .str now)]) w w') : Apart S w w' :=
  .wrote h (record_of_eq (h.read_ne (claims_ne message (by decide) _ _)))
    (rows_of_eq (h.read_ne (claims_ne message (by decide) _ _)))
    (fun _ _ hm => hm.of_wrote_ne h fun _ => claims_ne message (by decide) _ _) fun _ => Workflow.load_claim_ne _ _

/-- A claim was given up. -/
theorem released (message : String) : Apart S w { w with storage := w.storage.remove (Store.Claims.place message) } where
  config := rfl
  steady := id
  heard := id
  record := record_of_eq (Storage.read_remove_ne (claims_ne message (by decide) _ _))
  rows := rows_of_eq (Storage.read_remove_ne (claims_ne message (by decide) _ _))
  listed m _ hm := by
    obtain ⟨other, rows, hread, hrest⟩ := hm
    exact ⟨other, rows, (Storage.read_remove_ne (claims_ne message (by decide) _ _)).symm.trans hread, hrest⟩
  accepted _ _ := .rfl
  kept _ _ hd _ := Entries.get?_of_erase hd

/-- A workflow was saved whose id has no slash, and not in the place of the workflow of the execution. -/
theorem saved {w' : World} {V : Workflow} {id : String} (hid : '/' ∉ id.toList)
    (hp : (Store.Workflows.place V.id).path = (Store.Workflows.place id).path)
    (hne : (Store.Workflows.place S.workflow.id).path ≠ (Store.Workflows.place id).path)
    (h : Wrote (Store.Workflows.place V.id) V.toValue w w') : Apart S w w' := by
  have hrecord {folder : Folder} (hf : folder ≠ .workflows) (other extension : String) :
      (Location.ofRecord folder other extension).path ≠ (Store.Workflows.place V.id).path :=
    hp ▸ Location.ofWorkflow_ne_ofRecord hid hf other extension
  exact .wrote h (record_of_eq (h.read_ne (hrecord (by decide) _ _))) (rows_of_eq (h.read_ne (hrecord (by decide) _ _)))
    (fun _ _ hm => hm.of_wrote_ne h fun _ => hrecord (by decide) _ _) fun he => absurd (he.trans hp) hne

end Apart

end WorkGraph
