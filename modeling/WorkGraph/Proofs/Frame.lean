import WorkGraph.Proofs.Chronicle
import WorkGraph.Proofs.Refused

/-!
# What an operation leaves as it was

An operation works on one execution, whatever faults show: the one that it starts, or the one that the mapping of a
clicked message names. Of all files it changes only those of that execution, mappings, and the claim of the message
(`Owned`), and what a file held is still there afterwards: a list of rows has got more rows at its end, the record of an
execution tells of another outcome (`Grown`). Only where an execution starts, its record takes the place of whatever was
there (`Framed`). What nothing breaks that is done for an execution once it is on record, an operation keeps (`Hosting`),
and so the operations are framed (`Framed.execute`, `Framed.click`). For what is stored this means that nothing is lost
(`Frame`, `history_grows`), but for a workflow that was saved where the record of a later execution goes
(`not_always_framed`).
-/

namespace WorkGraph

open Engine

/-! ## Files that grow -/

/-- A file holds what it held, but for rows at the end of a list and the outcome of an execution. -/
inductive Grown : Option Document → Option Document → Prop
  | begun (after : Option Document) : Grown none after
  | same (document : Option Document) : Grown document document
  | rows {document : Document} {rows : List Value} (more : List Value) : document.readOr (.list []) = .ok (.list rows) →
      Grown (some document) (some (.value (.list (rows ++ more))))
  | record {v : Value} {x : Execution} (y : Execution) : v = x.toValue → Grown (some (.value v)) (some (.value y.toValue))

namespace Grown

variable {before between after : Option Document}

theorem trans (h : Grown before between) (k : Grown between after) : Grown before after := by
  cases h with
  | begun => exact .begun _
  | same => exact k
  | rows more hrows =>
    generalize hb : some (Document.value _) = between at k
    cases k with
    | begun => cases hb
    | same => exact hb ▸ .rows more hrows
    | rows more' hrows' =>
      obtain rfl := Option.some.inj hb
      obtain rfl := Value.list.inj (Except.ok.inj hrows')
      rw [List.append_assoc]
      exact .rows _ hrows
    | record y hx =>
      obtain rfl := Document.value.inj (Option.some.inj hb)
      cases hx
  | record y hx =>
    generalize hb : some (Document.value _) = between at k
    cases k with
    | begun => cases hb
    | same => exact hb ▸ .record y hx
    | rows more hrows =>
      obtain rfl := Option.some.inj hb
      cases Except.ok.inj hrows
    | record y' _ => exact .record y' hx

/-- A list of rows is written with more rows at its end. -/
theorem of_read {s : Storage} {place : Location} {rows : List Value} (more : List Value)
    (h : s.read place (.list []) = .ok (.list rows)) :
    Grown (s.find? place) (some (.value (.list (rows ++ more)))) := by
  unfold Storage.read at h
  cases hf : s.find? place with
  | none => exact .begun _
  | some document =>
    rw [hf] at h
    exact .rows more h

/-- A record is written again. -/
theorem of_hasRecord {w : World} (h : Orderly w) {id : String} {x : Execution} (y : Execution)
    (hx : HasRecord w.storage id x) :
    Grown (w.storage.find? (Store.Executions.place id)) (some (.value y.toValue)) := by
  unfold HasRecord Storage.read at hx
  cases hf : w.storage.find? (Store.Executions.place id) with
  | none => exact .begun _
  | some document =>
    obtain ⟨v, rfl, -⟩ := h.files _ _ hf
    rw [hf] at hx
    exact .record y (Except.ok.inj hx)

end Grown

/-- What is found goes by the path. -/
theorem Storage.find?_congr {s : Storage} {place other : Location} (h : place.path = other.path) :
    s.find? place = s.find? other :=
  congrArg s.files.get? h

/-! ## Files of an operation -/

/-- The places of the files that an operation on an execution may change; the message is one that was clicked. -/
inductive Owned (execution : String) (message : Option String) (place : Location) : Prop
  | record : place.path = (Store.Executions.place execution).path → Owned execution message place
  | logs : place.path = (Store.NodeLogs.place execution).path → Owned execution message place
  | mappings (other : String) : place.path = (Store.Mappings.place other).path → Owned execution message place
  | claim {other : String} : other ∈ message → place.path = (Store.Claims.place other).path →
      Owned execution message place

/-- Files that an operation on an execution owns have grown, and no other file has changed. Where the execution begins
with the operation, nothing is said of what was in the place of its record. -/
structure Framed (execution : String) (message : Option String) (begins : Prop) (w w' : World) : Prop where
  grown : ∀ place : Location, (begins → place.path ≠ (Store.Executions.place execution).path) →
    Grown (w.storage.find? place) (w'.storage.find? place)
  same : ∀ place : Location, ¬Owned execution message place → w'.storage.find? place = w.storage.find? place

namespace Framed

variable {execution : String} {message : Option String} {begins : Prop} {u w w' : World} {place : Location} {v : Value}

theorem trans (h : Framed execution message begins u w) (k : Framed execution message begins w w') :
    Framed execution message begins u w' where
  grown place hp := (h.grown place hp).trans (k.grown place hp)
  same place hp := (k.same place hp).trans (h.same place hp)

theorem of_storage (h : w'.storage = w.storage) : Framed execution message begins w w' where
  grown place _ := by rw [h]; exact .same _
  same place _ := by rw [h]

theorem of_quiet (h : Quiet w w') : Framed execution message begins w w' :=
  of_storage h.storage

/-- What is said of every file is said of those but one. -/
theorem weaken (h : Framed execution message False w w') : Framed execution message begins w w' where
  grown place _ := h.grown place False.elim
  same := h.same

/-- A file was written that the operation owns. -/
theorem wrote (h : Wrote place v w w') (ho : Owned execution message place)
    (hg : (begins → place.path ≠ (Store.Executions.place execution).path) →
      Grown (w.storage.find? place) (some (.value v))) : Framed execution message begins w w' where
  grown other hother := by
    by_cases hp : other.path = place.path
    · rw [Storage.find?_congr hp, Storage.find?_congr hp, h.find?_self]
      exact hg (hp ▸ hother)
    · rw [h.find?_ne hp]
      exact .same _
  same other hother := by
    refine h.find?_ne fun hp => hother ?_
    cases ho with
    | record hplace => exact .record (hp.trans hplace)
    | logs hplace => exact .logs (hp.trans hplace)
    | mappings m hplace => exact .mappings m (hp.trans hplace)
    | claim hm hplace => exact .claim hm (hp.trans hplace)

theorem posted {α : Type} {a : α} {heard : Prop} {result : Except Fault α}
    (hw : ∀ {w'}, Wrote place v w w' → Framed execution message begins w w')
    (h : Posted place v a heard w (result, w')) : Framed execution message begins w w' :=
  h.keeps (I := Framed execution message begins w) hw of_quiet

end Framed

/-! ## What a run does -/

/-- A node that runs changes no file but those of mappings, and these get rows. -/
theorem Worked.grown {origin : Origin} {workflow : String} {w w' : World} (h : Worked origin workflow w w')
    (place : Location) : Grown (w.storage.find? place) (w'.storage.find? place) ∧
      ((∀ message, place.path ≠ (Store.Mappings.place message).path) →
        w'.storage.find? place = w.storage.find? place) := by
  rcases h.storage with hs | ⟨m, -, -, -, rows, hread, hwrite⟩
  · rw [hs]
    exact ⟨.same _, fun _ => rfl⟩
  · refine ⟨?_, fun hne => Storage.find?_write_ne hwrite (hne _)⟩
    by_cases hp : place.path = (Store.Mappings.place m.messageId).path
    · rw [Storage.find?_congr hp, Storage.find?_congr hp, Storage.find?_write_self hwrite]
      exact .of_read _ hread
    · rw [Storage.find?_write_ne hwrite hp]
      exact .same _

/-- Whether the file of a log is as it was, or has a row of a node more. -/
def Storage.Gained (place : Location) (node : Node) (logs : List NodeLog) (s t : Storage) : Prop :=
  t.find? place = s.find? place ∨ ∃ row : NodeLog, row.nodeId = node.id ∧ row.nodeType = node.type ∧
    t.find? place = some (.value (.list ((logs ++ [row]).map NodeLog.toValue)))

/-- The log of an execution in which a node is performed gains a row of the node at the most. -/
theorem Dispatch.gained_perform {node : Node} {logs : List NodeLog} {p : Progress}
    (h : HasLogs p.world.storage p.run.execution logs) (hc : Counted logs) :
    p.world.storage.Gained (Store.NodeLogs.place p.run.execution) node logs
      (Running.go (perform node) p).2.world.storage := by
  generalize hplace : Store.NodeLogs.place p.run.execution = place
  have hwrote {w w' : World} {row : NodeLog} (hw : Wrote place (.list ((logs ++ [row]).map NodeLog.toValue)) w w')
      (hrow : row.nodeId = node.id ∧ row.nodeType = node.type) : p.world.storage.Gained place node logs w'.storage :=
    .inr ⟨row, hrow.1, hrow.2, hw.find?_self⟩
  -- the row that was opened is still there when the node has run
  have hran {w w' : World} {result : Except Fault Value} (hw : p.world.storage.Gained place node logs w.storage)
      (hr : run (runNode node (p.run.marked node)) w = (result, w')) :
      p.world.storage.Gained place node logs w'.storage := by
    have hworked := (runNode_worked node (p.run.marked node) w).1
    rw [hr] at hworked
    have hfind : w'.storage.find? place = w.storage.find? place :=
      (hworked.grown place).2 (hplace ▸ nodeLogs_ne_mappings _)
    unfold Storage.Gained
    rwa [hfind]
  have hposted {α : Type} {a : α} {heard : Prop} {row : NodeLog} {w w' : World} {result : Except Fault α}
      (hp : Posted place (.list ((logs ++ [row]).map NodeLog.toValue)) a heard w (result, w'))
      (hw : p.world.storage.Gained place node logs w.storage) (hrow : row.nodeId = node.id ∧ row.nodeType = node.type) :
      p.world.storage.Gained place node logs w'.storage := by
    exact hp.keeps (I := fun u => p.world.storage.Gained place node logs u.storage) (hwrote · hrow)
      fun hq => by rwa [hq.storage]
  have hp := @perform_cases node logs p h hc
  generalize Running.go (perform node) p = out at hp ⊢
  cases hp with
  | untitled _ hq => exact .inl (by rw [hq.storage])
  | unopened he hp => subst hplace; exact hposted hp (.inl rfl) ⟨by rw [he]; rfl, by rw [he]; rfl⟩
  | refused he _ hw hr => subst hplace; exact hran (hwrote hw ⟨by rw [he]; rfl, by rw [he]; rfl⟩) hr
  | succeeded he _ hw hr hp =>
    subst hplace he
    exact hposted hp (hran (hwrote hw ⟨rfl, rfl⟩) hr) ⟨rfl, rfl⟩
  | failed he hw hr hp =>
    subst hplace he
    exact hposted hp (hran (hwrote hw ⟨rfl, rfl⟩) hr) ⟨rfl, rfl⟩

/-- It keeps its rows, whatever comes of the node. -/
theorem Dispatch.grown_perform {node : Node} {logs : List NodeLog} {p : Progress}
    (h : HasLogs p.world.storage p.run.execution logs) (hc : Counted logs) :
    Grown (p.world.storage.find? (Store.NodeLogs.place p.run.execution))
      ((Running.go (perform node) p).2.world.storage.find? (Store.NodeLogs.place p.run.execution)) := by
  rcases gained_perform h hc with hsame | ⟨row, -, -, hrow⟩
  · rw [hsame]
    exact .same _
  · rw [hrow, List.map_append]
    exact .of_read _ h

/-- A node that is performed is framed by its execution. -/
theorem Framed.performed {message : Option String} {p : Progress} (h : Tracks p) (node : Node) :
    Framed p.run.execution message False p.world (Running.go (Dispatch.perform node) p).2.world := by
  -- what comes of the other files: each write of the log leaves them alone
  let R (w w' : World) : Prop := ∀ place : Location, place.path ≠ (Store.NodeLogs.place p.run.execution).path →
    Grown (w.storage.find? place) (w'.storage.find? place) ∧
      ((∀ message, place.path ≠ (Store.Mappings.place message).path) → w'.storage.find? place = w.storage.find? place)
  have hbeside : R p.world (Running.go (Dispatch.perform node) p).2.world := by
    refine h.perform_induction (R := R) node (fun h k place hp => ?_) (fun hq place _ => ?_) (fun hw place hp => ?_)
      fun hw place _ => hw.grown place
    · exact ⟨(h place hp).1.trans (k place hp).1, fun hm => ((k place hp).2 hm).trans ((h place hp).2 hm)⟩
    · rw [hq.storage]
      exact ⟨.same _, fun _ => rfl⟩
    · rw [hw.find?_ne hp]
      exact ⟨.same _, fun _ => rfl⟩
  refine ⟨fun place _ => ?_, fun place ho => ?_⟩
  · by_cases hp : place.path = (Store.NodeLogs.place p.run.execution).path
    · rw [Storage.find?_congr hp, Storage.find?_congr hp]
      rcases h.orderly.logs_cases p.run.execution with ⟨logs, hl, hc, -, -⟩ | hno
      · exact Dispatch.grown_perform hl hc
      · obtain ⟨w, r⟩ := p
        obtain ⟨fault, w', hb, hq⟩ := @Dispatch.perform_barred node w r fun _ => hno
        rw [hb, hq.storage]
        exact .same _
    · exact (hbeside place hp).1
  · exact (hbeside place fun hp => ho (.logs hp)).2 fun other hp => ho (.mappings other hp)

/-! ## What comes after a run -/

/-- A property of worlds that nothing breaks which is done for an execution after its run: a click is noted that led
nowhere, and the outcome is written to the record. -/
structure Closing (execution : String) (I : World → Prop) : Prop where
  quiet : ∀ {w w' : World}, I w → Quiet w w' → I w'
  routed : ∀ (node text : String) (details : Entries Value), Keeps I (Journal.routingFailed execution node text details)
  finish : ∀ (status : RunStatus) (error : Option String) (duration : Int),
    Keeps I (Journal.finishExecution execution status (Value.ofText? error) duration)

namespace Closing

variable {I : World → Prop}

theorem hushed {execution : String} (h : Closing execution I) {α : Type} {act : Engine α} (ha : Hushed act) :
    Keeps I act :=
  fun w hw => h.quiet hw (ha w)

theorem finalize {r : Run} (h : Closing r.execution I) (duration : Int) : Keeps I (Invocation.finalize r duration) := by
  rw [Invocation.finalize_eq]
  exact keeps_bind (h.hushed (hushed_entering _)) fun _ => keeps_bind (h.finish _ _ _) fun _ => h.hushed (hushed_pure _)

variable {x : Execution} (h : Closing x.id I) (message : String) (workflow : Workflow) (node : Node) (button : Value)
  (context : Context) (start : Int) {w : World}

include h

theorem goOn (hw : I (run (Invocation.resume workflow x.id node context x.errorMessage) w).2) :
    I (run (Continuation.goOn message workflow x node button context start) w).2 := by
  obtain ⟨r, ⟨hexecution, -⟩, hsame⟩ :=
    (stable_identity x.id workflow (Run.start x.id workflow context).graph).resumed x.errorMessage (w := w) ⟨rfl, rfl, rfl⟩
  unfold Continuation.goOn
  rcases hres : run (Invocation.resume workflow x.id node context x.errorMessage) w with ⟨fault | ⟨routing, s⟩, u⟩ <;>
    rw [hres] at hw hsame
  · rw [run_bind_error hres]
    exact hw
  obtain rfl := hsame routing s rfl
  rw [run_bind_ok hres]
  have hnote : Keeps I (Continuation.noteUnrouted message x node button routing s) := by
    unfold Continuation.noteUnrouted
    split
    · exact h.hushed (hushed_pure _)
    · exact keeps_bind (h.routed _ _ _) fun _ => h.hushed (hushed_pure _)
  have hv := hnote u hw
  rcases hnoted : run (Continuation.noteUnrouted message x node button routing s) u with ⟨fault | t, v⟩ <;>
    rw [hnoted] at hv
  · rw [run_bind_error hnoted]
    exact hv
  have hid : t.execution = x.id := (Continuation.execution_of_noteUnrouted hnoted).trans hexecution
  rw [run_bind_ok hnoted]
  exact keeps_bind (h.hushed (Continuation.hushed_totalDuration _ _)) (fun _ => (hid ▸ h).finalize _) v hv

theorem goOnOrFail (hw : I (run (Invocation.resume workflow x.id node context x.errorMessage) w).2) :
    I (run (Continuation.goOnOrFail message workflow x node button context start) w).2 := by
  have hgo := h.goOn message workflow node button context start hw
  unfold Continuation.goOnOrFail
  rw [run_bind_ok (run_attempt _ w)]
  rcases hrun : run (Continuation.goOn message workflow x node button context start) w with ⟨fault | answer, u⟩ <;>
    rw [hrun] at hgo
  · exact keeps_bind (h.hushed (Continuation.hushed_totalDuration _ _)) (fun duration =>
      keeps_bind (h.hushed (hushed_logFault _ _)) fun _ => keeps_bind (h.finish .failed (some _) duration) fun _ =>
        h.hushed (hushed_throw _)) u hgo
  · exact hgo

end Closing

/-! ## What an operation keeps -/

/-- A property of worlds that nothing breaks which is done for an execution of a workflow once it is on record. -/
structure Hosting (execution : String) (workflow : Workflow) (K : World → Prop) : Prop where
  quiet : ∀ {w w' : World}, K w → Quiet w w' → K w'
  performed : ∀ (p : Progress) (node : Node), Tracks p → p.run.execution = execution → p.run.workflow = workflow →
    node ∈ workflow.nodes → K p.world → K (Running.go (Dispatch.perform node) p).2.world
  routed : ∀ (node text : String) (details : Entries Value) {w : World}, Orderly w → K w →
    K (run (Journal.routingFailed execution node text details) w).2
  finish : ∀ (status : RunStatus) (error : Option String) (duration : Int) {w : World}, Orderly w → K w →
    K (run (Journal.finishExecution execution status (Value.ofText? error) duration) w).2

namespace Hosting

variable {execution : String} {workflow : Workflow} {K : World → Prop}

theorem stable (h : Hosting execution workflow K) :
    Stable fun p => (Tracks p ∧ p.run.execution = execution ∧ p.run.workflow = workflow) ∧ K p.world where
  quiet hp hq := ⟨⟨stable_tracks.quiet hp.1.1 hq, hp.1.2⟩, h.quiet hp.2 hq⟩
  noted failed firstError suspended hp := ⟨⟨stable_tracks.noted failed firstError suspended hp.1.1, hp.1.2⟩, hp.2⟩
  entered node hp := ⟨⟨stable_tracks.entered node hp.1.1, hp.1.2⟩, hp.2⟩
  clicked button title data ho hd hp := ⟨⟨stable_tracks.clicked button title data ho hd hp.1.1, hp.1.2⟩, hp.2⟩
  performed p node hn he hnew hp := by
    obtain ⟨⟨htracks, hid, hw⟩, hk⟩ := hp
    obtain ⟨c, hc⟩ := Dispatch.run_perform node p
    refine ⟨⟨stable_tracks.performed p node hn he hnew htracks, ?_⟩, h.performed p node htracks hid hw (hw ▸ hn) hk⟩
    rw [hc]
    exact ⟨hid, hw⟩

theorem closing (h : Hosting execution workflow K) : Closing execution fun w => Orderly w ∧ K w where
  quiet hw hq := ⟨hw.1.quiet hq, h.quiet hw.2 hq⟩
  routed node text details w hw :=
    ⟨orderly_routingFailed execution node text details w hw.1, h.routed node text details hw.1 hw.2⟩
  finish status error duration w hw :=
    ⟨orderly_finishExecution execution status error duration w hw.1, h.finish status error duration hw.1 hw.2⟩

/-- The run of an execution that starts. -/
theorem launch {w : World} (h : Hosting w.nextExecution workflow K) (payload : Value) (ho : Orderly w) (hk : K w)
    (counted : ∀ {u : World}, K u → K { u with issued := u.issued + 1 })
    (begun : ∀ {u v : World} {x : Execution}, x.id = w.nextExecution → K u →
      Wrote (Store.Executions.place w.nextExecution) x.toValue u v → K v) :
    Orderly (run (Invocation.launch workflow payload) w).2 ∧ K (run (Invocation.launch workflow payload) w).2 ∧
      ∀ r, (run (Invocation.launch workflow payload) w).1 = .ok r → r.execution = w.nextExecution := by
  obtain ⟨horderly, htracks⟩ := startExecution_tracks workflow payload (Context.start payload).triggerData ho
  rcases Journal.startExecution_cases workflow.id (Context.start payload).triggerData w with
    ⟨session, w₁, hr, hw⟩ | ⟨-, fault, w₁, hr, hq⟩
  · replace htracks := htracks _ (by rw [hr])
    rw [hr] at htracks
    obtain ⟨r, u, hlaunch, ⟨htracks', hexecution, -⟩, hu⟩ :=
      h.stable.launched hr ⟨⟨htracks, rfl, rfl⟩, begun (x := Execution.begun ..) rfl (counted hk) hw⟩
    rw [hlaunch]
    exact ⟨htracks'.orderly, hu, fun s hs => Except.ok.inj hs ▸ hexecution⟩
  · rw [hr] at horderly
    have hlaunch : run (Invocation.launch workflow payload) w = (.error fault, w₁) := by
      unfold Invocation.launch
      exact run_bind_error hr
    rw [hlaunch]
    exact ⟨horderly, h.quiet (counted hk) hq, fun r hr => by cases hr⟩

/-- An execution that starts. -/
theorem execute {w : World} {payload : Value} (h : Hosting w.nextExecution workflow K) (ho : Orderly w) (hk : K w)
    (counted : ∀ {u : World}, K u → K { u with issued := u.issued + 1 })
    (begun : ∀ {u v : World} {x : Execution}, x.id = w.nextExecution → K u →
      Wrote (Store.Executions.place w.nextExecution) x.toValue u v → K v) :
    K (run (Invocation.execute workflow payload) w).2 := by
  unfold Invocation.execute
  obtain ⟨u, hq, he | ⟨-, fault, he⟩⟩ := entering_cases .execute w
  · rw [run_bind_ok he, run_bind_ok (run_reading u)]
    rw [← hq.nextExecution] at h begun
    obtain ⟨horderly, hk', hexecution⟩ := h.launch payload (ho.quiet hq) (h.quiet hk hq) counted begun
    rcases hl : run (Invocation.launch workflow payload) u with ⟨fault | r, v⟩ <;> rw [hl] at horderly hk' hexecution
    · rw [run_bind_error hl]
      exact hk'
    · rw [run_bind_ok hl, run_bind_ok (run_since _ v)]
      rw [← hexecution r rfl] at h
      exact (h.closing.finalize _ v ⟨horderly, hk'⟩).2
  · rw [run_bind_error he]
    exact h.quiet hk hq

/-- An execution that goes on. -/
theorem goOnOrFail {mapping : ButtonMapping} {button data : Value} {x : Execution} {node : Node} {context : Context}
    {w : World} (h : Hosting x.id workflow K) (ho : Orderly w)
    (hr : Continuation.Resumable mapping button data workflow x node context w) (hk : K (w.accepting x node button))
    (message : String) (start : Int) :
    K (run (Continuation.goOnOrFail message workflow x node button context start) (w.accepting x node button)).2 := by
  obtain ⟨r, ⟨⟨htracks, -⟩, hk'⟩, -⟩ := h.stable.resumed x.errorMessage ⟨⟨ho.tracks_of_resumable hr, rfl, rfl⟩, hk⟩
  exact (h.closing.goOnOrFail message workflow node button context start ⟨htracks.orderly, hk'⟩).2

end Hosting

namespace Framed

variable {execution : String} {message : Option String} {u w w' : World}

/-- The outcome of an execution was written to its record. -/
theorem finish (h : Orderly w) (execution : String) (status : RunStatus) (error : Option String) (duration : Int) :
    Framed execution message False w (run (Journal.finishExecution execution status (Value.ofText? error) duration) w).2 := by
  rcases h.finish_cases execution status error duration with ⟨x, hx, -, -⟩ | ⟨fault, w', hr, hq⟩
  · exact .posted (fun hw => .wrote hw (.record rfl) fun _ => .of_hasRecord h _ hx)
      (Journal.finishExecution_posted hx status error duration)
  · rw [hr]
    exact .of_quiet hq

/-- A click that led nowhere was noted. -/
theorem routed (execution node text : String) (details : Entries Value) (w : World) :
    Framed execution message False w (run (Journal.routingFailed execution node text details) w).2 := by
  by_cases hlist : ∃ rows, w.storage.read (Store.NodeLogs.place execution) (.list []) = .ok (.list rows)
  · obtain ⟨rows, hrows⟩ := hlist
    exact .posted (fun hw => .wrote hw (.logs rfl) fun _ => .of_read _ hrows)
      (Journal.routingFailed_listed hrows node text details)
  · obtain ⟨fault, w', hr, hq⟩ := Journal.routingFailed_barred (fun rows hrows => hlist ⟨rows, hrows⟩) node text details
    rw [hr]
    exact .of_quiet hq

theorem noted {mapping : ButtonMapping} (h : Noted mapping w w') : Framed mapping.executionId message False w w' := by
  obtain ⟨rows, text, details, hr, hw⟩ := h
  exact .wrote hw (.logs rfl) fun _ => .of_read _ hr

/-- What is done for an execution is framed by it. -/
theorem hosting (execution : String) (workflow : Workflow) (message : Option String) (begins : Prop) (w : World) :
    Hosting execution workflow (Framed execution message begins w) where
  quiet h hq := h.trans (of_quiet hq)
  performed _ node ht hid _ _ h := h.trans (hid ▸ performed ht node).weaken
  routed node text details u _ h := h.trans (routed execution node text details u).weaken
  finish status error duration _ ho h := h.trans (finish ho execution status error duration).weaken

/-! ## Operations -/

/-- An execution that starts. -/
theorem execute (h : Orderly w) (W : Workflow) (payload : Value) :
    Framed w.nextExecution none True w (run (Invocation.execute W payload) w).2 :=
  (hosting w.nextExecution W none True w).execute h (of_storage rfl) (fun hu => hu.trans (of_storage rfl))
    fun _ hu hw => hu.trans (.wrote hw (.record rfl) fun hne => absurd rfl (hne trivial))

theorem executeStored (h : Orderly w) (id : String) (payload : Value) :
    Framed w.nextExecution none True w (run (Invocation.executeStored id payload) w).2 := by
  have hq := Store.Workflows.hushed_find? id w
  unfold Invocation.executeStored
  rcases hf : run (Store.Workflows.find? id) w with ⟨fault | found, u⟩ <;> rw [hf] at hq
  · rw [run_bind_error hf]
    exact of_quiet hq
  · rw [run_bind_ok hf]
    cases found.filter Workflow.isPublished with
    | some W => exact (of_quiet hq).trans (hq.nextExecution ▸ execute (h.quiet hq) W payload)
    | none => exact of_quiet (hq.trans (hushed_bind (hushed_log (by decide)) (fun _ => hushed_pure _) u))

/-- A click on a message, of whose execution it is. -/
theorem click {mapping : ButtonMapping} {clicked : String} (button data : Value) (h : Orderly w)
    (hf : run (Store.Mappings.find? clicked) w = (.ok (some mapping), u)) :
    Framed mapping.executionId (some clicked) False w (run (WorkGraph.click clicked button data) w).2 := by
  have hq := Store.Mappings.hushed_find? clicked w
  rw [hf] at hq
  have hu := h.quiet hq
  have hrefuse (fault : Fault) (v : World) : Framed mapping.executionId (some clicked) False v
      (run (do Continuation.refuse mapping clicked button fault; return (none : Option String)) v).2 := by
    rcases Continuation.refuse_cases mapping clicked button fault v with ⟨v', hr, hn⟩ | ⟨fault', v', hr, hn⟩
    · rw [run_bind_ok hr]
      exact noted hn
    · rw [run_bind_error hr]
      exact of_quiet hn
  have hclaim {execution now : String} {v : World} (hnone : u.storage.find? (Store.Claims.place clicked) = none)
      (hw : Wrote (Store.Claims.place clicked) (.map [("execution_id", .str execution), ("claimed_at", .str now)]) u v) :
      Framed mapping.executionId (some clicked) False u v := by
    refine .wrote hw (.claim rfl rfl) fun _ => ?_
    rw [hnone]
    exact .begun _
  refine (of_quiet hq).trans ?_
  rcases lasting_orderly.heedless.admission clicked button (data.orElse (.map [])) hu
    (Continuation.listed_of_find? hf hq) with ⟨fault, v, ha, -⟩ | ⟨a, v, ha, -, hv, hr⟩
  · rw [run_click_refused hf ha]
    refine trans ?_ (hrefuse fault v)
    rcases Continuation.admission_cases mapping clicked button (data.orElse (.map [])) u with
      ⟨_, _, ha', hq' | ⟨hnone, -, _, _, hw⟩⟩ | ⟨_, _, _, ha', -⟩ <;> obtain ⟨hfault, rfl⟩ := Prod.mk.inj (ha.symm.trans ha')
    · exact of_quiet hq'
    · exact hclaim hnone hw
    · cases hfault
  · rw [run_click_admitted hf ha]
    have hclaimed : Framed mapping.executionId (some clicked) False u v := by
      rcases Continuation.admission_cases mapping clicked button (data.orElse (.map [])) u with
        ⟨_, _, ha', -⟩ | ⟨b, v', now, ha', hnone, hw⟩
      · cases (Prod.mk.inj (ha.symm.trans ha')).1
      · have hs : (v.accepting a.execution a.node button).storage = (v'.accepting b.execution b.node button).storage :=
          congrArg World.storage (Prod.mk.inj (ha.symm.trans ha')).2
        exact (hclaim hnone hw).trans (of_storage hs)
    have hid := (hv.id_of_ready hr.toReady).2
    have hgo := (hosting a.execution.id a.workflow (some clicked) False v).goOnOrFail hv hr (of_storage rfl) clicked a.start
    rw [hid] at hgo
    rw [run_bind_ok (run_attempt _ _)]
    rcases hrun : run (Continuation.goOnOrFail clicked a.workflow a.execution a.node button a.context a.start)
      (v.accepting a.execution a.node button) with ⟨fault | answer, v'⟩ <;> rw [hrun] at hgo
    · exact hclaimed.trans (hgo.trans (hrefuse fault v'))
    · exact hclaimed.trans hgo

end Framed

/-! ## What is kept -/

/-- The rows that a file holds; none where there is no list. -/
def Storage.rows (s : Storage) (place : Location) : List Value :=
  match s.read place (.list []) with
  | .ok (.list rows) => rows
  | _ => []

theorem Storage.rows_eq {s : Storage} {place : Location} {rows : List Value}
    (h : s.read place (.list []) = .ok (.list rows)) : s.rows place = rows := by
  rw [Storage.rows, h]

theorem Storage.rows_of_unlisted {s : Storage} {place : Location}
    (h : ∀ rows, s.read place (.list []) ≠ .ok (.list rows)) : s.rows place = [] := by
  unfold Storage.rows
  split
  · next rows hr => exact absurd hr (h rows)
  · rfl

/-- A file that has grown keeps its rows. -/
theorem Grown.rows_kept {s t : Storage} {place : Location} (h : Grown (s.find? place) (t.find? place)) :
    s.rows place <+: t.rows place := by
  generalize hs : s.find? place = before at h
  generalize ht : t.find? place = after at h
  have hread {s : Storage} {d : Option Document} (hd : s.find? place = d) :
      s.read place (.list []) = d.elim (.ok (.list [])) (Document.readOr (.list [])) := by rw [Storage.read, hd]
  cases h with
  | begun =>
    rw [Storage.rows_eq (hread hs)]
    exact List.nil_prefix
  | same => exact ⟨[], by rw [List.append_nil, Storage.rows, Storage.rows, hread hs, hread ht]⟩
  | rows more hrows =>
    rw [Storage.rows_eq ((hread hs).trans hrows), Storage.rows_eq (hread ht)]
    exact List.prefix_append _ _
  | record y hx =>
    have hnone : s.rows place = [] := Storage.rows_of_unlisted fun rows hr => by
      rw [hread hs, hx] at hr
      cases hr
    rw [hnone]
    exact List.nil_prefix

/-- What holds no list of rows does not grow into one. -/
theorem Grown.unlisted {s t : Storage} {place : Location} (h : Grown (s.find? place) (t.find? place))
    (hno : ∀ rows, s.read place (.list []) ≠ .ok (.list rows)) (rows : List Value) :
    t.read place (.list []) ≠ .ok (.list rows) := by
  unfold Storage.read at hno ⊢
  generalize s.find? place = before at h hno
  generalize t.find? place = after at h
  cases h with
  | begun => exact absurd rfl (hno [])
  | same => exact hno rows
  | rows more hrows => exact absurd hrows (hno _)
  | record y hx => nofun

theorem Grown.rows_of_unlisted {s t : Storage} {place : Location} (h : Grown (s.find? place) (t.find? place))
    (hno : ∀ rows, s.read place (.list []) ≠ .ok (.list rows)) : t.rows place = [] :=
  Storage.rows_of_unlisted (h.unlisted hno)

/-- A file that a workflow can be read from stays as it is. -/
theorem Grown.decoded {v : Value} {after : Option Document} {V : Workflow} (h : Grown (some (.value v)) after)
    (hV : Workflow.load v = .ok V) : after = some (.value v) := by
  generalize hb : some (Document.value v) = before at h
  cases h with
  | begun => cases hb
  | same => rfl
  | rows more hrows =>
    obtain rfl := Option.some.inj hb
    obtain rfl := Except.ok.inj hrows
    exact absurd hV (Workflow.load_list_ne _ V)
  | record y hx =>
    obtain rfl := Document.value.inj (Option.some.inj hb)
    obtain rfl := hx
    exact absurd hV (Workflow.load_execution_ne _ V)

/-- The claim of a message stays as it is. -/
theorem Grown.claimed {w : World} (h : Orderly w) {message : String} {document : Document} {after : Option Document}
    (hd : w.storage.find? (Store.Claims.place message) = some document) (hg : Grown (some document) after) :
    after = some document := by
  obtain ⟨v, rfl, hv⟩ := h.files _ _ hd
  have hmap : ∃ entries, v = .map entries ∧ Entries.get? entries "workflow_id" = none := by
    generalize hp : (Store.Claims.place message).path = path at hv
    cases hv with
    | workflow W => exact ⟨_, rfl, rfl⟩
    | record => cases Location.folder_eq_of_path hp
    | logs => cases Location.folder_eq_of_path hp
    | mappings => cases Location.folder_eq_of_path hp
    | claim => exact ⟨_, rfl, rfl⟩
  obtain ⟨entries, rfl, hnone⟩ := hmap
  generalize hb : some (Document.value (.map entries)) = before at hg
  cases hg with
  | begun => cases hb
  | same => rfl
  | rows more hrows =>
    obtain rfl := Option.some.inj hb
    cases Except.ok.inj hrows
  | @record _ x y hx =>
    obtain rfl := Document.value.inj (Option.some.inj hb)
    exact absurd (hx ▸ Execution.load_toValue "" x) (Execution.load_ne_of_missing hnone x)

/-- What an operation on an execution leaves as it was. -/
structure Frame (execution : String) (begins : Prop) (w w' : World) : Prop where
  /-- Nothing is changed of any other execution. -/
  others : ∀ id, Issued w'.issued id → id ≠ execution →
    w'.storage.find? (Store.Executions.place id) = w.storage.find? (Store.Executions.place id) ∧
    w'.storage.find? (Store.NodeLogs.place id) = w.storage.find? (Store.NodeLogs.place id)
  /-- Every row of a log is kept, in its place. -/
  rows : ∀ id, w.storage.rows (Store.NodeLogs.place id) <+: w'.storage.rows (Store.NodeLogs.place id)
  /-- Every row of the mappings of a message is kept, in its place. -/
  mappings : ∀ message, w.storage.rows (Store.Mappings.place message) <+: w'.storage.rows (Store.Mappings.place message)
  /-- No file of a workflow is changed. -/
  workflows : ∀ id, '/' ∉ id.toList →
    w'.storage.find? (Store.Workflows.place id) = w.storage.find? (Store.Workflows.place id)
  /-- Nor is any other file that a workflow was saved to, unless the record of an execution that begins goes there. -/
  saved : ∀ place : Location, (begins → place.path ≠ (Store.Executions.place execution).path) → ∀ document V,
    w.storage.find? place = some document → Store.Workflows.decode document = .ok V →
    w'.storage.find? place = some document
  /-- No claim is removed that was there. -/
  claims : ∀ message, w.storage.find? (Store.Claims.place message) ≠ none →
    w'.storage.find? (Store.Claims.place message) = w.storage.find? (Store.Claims.place message)

theorem Framed.frame {execution : String} {message : Option String} {begins : Prop} {w w' : World} {k : Nat}
    (h : Orderly w) (hi : Issued k execution) (hf : Framed execution message begins w w') : Frame execution begins w w' where
  others id hid hne := by
    refine ⟨hf.same _ fun ho => ?_, hf.same _ fun ho => ?_⟩
    · cases ho with
      | record hp => exact hid.path_ne hi hne _ _ hp
      | logs hp => exact executions_ne_nodeLogs _ _ hp
      | mappings m hp => exact executions_ne_mappings _ _ hp
      | claim _ hp => cases Location.folder_eq_of_path hp
    · cases ho with
      | record hp => exact executions_ne_nodeLogs _ _ hp.symm
      | logs hp => exact hid.path_ne hi hne _ _ hp
      | mappings m hp => exact nodeLogs_ne_mappings _ _ hp
      | claim _ hp => exact claims_ne_nodeLogs _ _ hp
  rows id := (hf.grown _ fun _ hp => executions_ne_nodeLogs _ _ hp.symm).rows_kept
  mappings message := (hf.grown _ fun _ hp => executions_ne_mappings _ _ hp.symm).rows_kept
  workflows id hid := by
    refine hf.same _ fun ho => ?_
    cases ho with
    | record hp => exact Location.ofWorkflow_ne_ofRecord hid (by decide) _ _ hp.symm
    | logs hp => exact Location.ofWorkflow_ne_ofRecord hid (by decide) _ _ hp.symm
    | mappings m hp => exact Location.ofWorkflow_ne_ofRecord hid (by decide) _ _ hp.symm
    | claim _ hp => exact Location.ofWorkflow_ne_ofRecord hid (by decide) _ _ hp.symm
  saved place hp document V hd hV := by
    have hg := hf.grown place hp
    obtain ⟨v, rfl, -⟩ := h.files _ _ hd
    rw [hd] at hg
    exact hg.decoded hV
  claims message hd := by
    have hg := hf.grown (Store.Claims.place message) fun _ hp => by cases Location.folder_eq_of_path hp
    obtain ⟨document, hd⟩ := Option.ne_none_iff_exists'.1 hd
    rw [hd] at hg ⊢
    exact hg.claimed h hd

/-- In every session, whatever faults show, an operation works on no execution but the one that it starts, or the one of
the mapping of the clicked message, and nothing is lost of what was stored. A click without a mapping changes nothing. -/
theorem history_grows (config : Config) (root : String) (auditor : Option Auditor) (steps : List Session.Step) :
    let w := (Session.run steps (.initial config root auditor)).2
    (∀ W payload, Frame w.nextExecution True w (run (Invocation.execute W payload) w).2) ∧
    (∀ id payload, Frame w.nextExecution True w (run (Invocation.executeStored id payload) w).2) ∧
    (∀ message button data mapping, (run (Store.Mappings.find? message) w).1 = .ok (some mapping) →
      Frame mapping.executionId False w (run (click message button data) w).2) ∧
    ∀ message button data, (∀ mapping, (run (Store.Mappings.find? message) w).1 ≠ .ok (some mapping)) →
      (run (click message button data) w).2.storage = w.storage := by
  intro w
  have h : Orderly w := orderly_run steps (orderly_initial config root auditor)
  have hnext := issued_nextExecution w
  refine ⟨fun W payload => (Framed.execute h W payload).frame h hnext,
    fun id payload => (Framed.executeStored h id payload).frame h hnext, fun message button data mapping hf => ?_,
    fun message button data hno => (click_unmapped hno).storage⟩
  -- a mapping that is found is one of an execution that there is
  have hissued : Issued w.issued mapping.executionId := by
    obtain ⟨rows, hrows, row, hrow, now, hload⟩ := Store.Mappings.eq_some_of_find? (Prod.ext hf rfl)
    obtain ⟨ms, rfl, hms⟩ := h.mappings_of_read hrows
    obtain ⟨m, hm, rfl⟩ := List.mem_map.1 hrow
    rw [ButtonMapping.load_toValue] at hload
    obtain rfl := Except.ok.inj hload
    exact hms m hm
  exact (Framed.click button data h (Prod.ext hf rfl)).frame h hissued

/-- A message that waits is clicked, while a fault waits for the record of its execution. -/
theorem history_grows_sample :
    let w := (Session.run (Sample.asking (.str Sample.sender) ++ [.inject ⟨.updateExecution, "disk full", 1⟩])
      (.initial {} "" none)).2
    ∃ mapping, (run (Store.Mappings.find? "m") w).1 = .ok (some mapping) ∧
      Frame mapping.executionId False w (run (click "m" (.str "yes") .null) w).2 := by
  intro w
  have hfound : (run (Store.Mappings.find? "m") w).1.toOption.join.isSome = true := by decide +kernel
  rcases hf : (run (Store.Mappings.find? "m") w).1 with fault | found
  · rw [hf] at hfound
    cases hfound
  · rw [hf] at hfound
    obtain ⟨mapping, rfl⟩ := Option.isSome_iff_exists.1 hfound
    exact ⟨mapping, rfl, (history_grows {} "" none _).2.2.1 "m" (.str "yes") .null mapping hf⟩

namespace Store.Workflows

variable {found : Option Document}

theorem exists_decoded (h : (found.bind fun d => (decode d).toOption).isSome = true) :
    ∃ document V, found = some document ∧ decode document = .ok V := by
  obtain ⟨V, hV⟩ := Option.isSome_iff_exists.1 h
  obtain ⟨document, hd, hV⟩ := Option.bind_eq_some_iff.1 hV
  cases hdecode : decode document with
  | ok V' => exact ⟨document, V', hd, hdecode⟩
  | error fault => rw [hdecode] at hV; cases hV

theorem ne_of_undecoded (h : (found.bind fun d => (decode d).toOption).isNone = true) (document : Document) (V : Workflow)
    (hd : found = some document) : decode document ≠ .ok V := by
  intro hV
  rw [hd, Option.bind_some, hV] at h
  cases h

end Store.Workflows

/-- A workflow whose id is a path is saved where the record of the next execution goes, and lost when that begins. -/
theorem not_always_framed :
    let w := (Session.run [.saveWorkflow (Sample.lonely ("../executions/" ++ Sample.execution))] (.initial {} "" none)).2
    let w' := (run (Invocation.execute (Sample.lonely "flow") .null) w).2
    let place := Store.Workflows.place ("../executions/" ++ Sample.execution)
    (∃ document V, w.storage.find? place = some document ∧ Store.Workflows.decode document = .ok V) ∧
    ∀ document V, w'.storage.find? place = some document → Store.Workflows.decode document ≠ .ok V :=
  ⟨Store.Workflows.exists_decoded (by decide +kernel), Store.Workflows.ne_of_undecoded (by decide +kernel)⟩

end WorkGraph
