import WorkGraph.Proofs.Sessions

/-!
# No node runs twice

Every file of the storage holds what its place is for, or else a workflow (`Shape`, `Orderly`). The log of an execution
has at most one row for each node, the rows of clicks apart, and whoever was called for a node has the node in the log;
a run knows all nodes that are in the log (`Tracks`). Every move keeps that (`stable_tracks`), and so the order in the
storage lasts (`lasting_orderly`), through the steps of every session (`orderly_run`).
-/

namespace WorkGraph

/-! ## Attempts -/

/-- The nodes that rows tell of, the rows of clicks apart. -/
def attempts (logs : List NodeLog) : List String :=
  (logs.filter (!·.isRouting)).map NodeLog.nodeId

theorem attempts_append (logs : List NodeLog) (log : NodeLog) :
    attempts (logs ++ [log]) = attempts logs ++ if log.isRouting then [] else [log.nodeId] := by
  cases h : log.isRouting <;> simp [attempts, h]

theorem mem_attempts {logs : List NodeLog} {row : NodeLog} (hm : row ∈ logs) (hr : row.isRouting = false) :
    row.nodeId ∈ attempts logs :=
  List.mem_map_of_mem (List.mem_filter.2 ⟨hm, by simp [hr]⟩)

theorem attempts_append_logs (logs more : List NodeLog) : attempts (logs ++ more) = attempts logs ++ attempts more := by
  simp [attempts]

/-- A row that changes in other fields stays an attempt at its node. -/
theorem attempts_replace {logs : List NodeLog} {log other : NodeLog} (hn : other.nodeId = log.nodeId)
    (ht : other.nodeType = log.nodeType) : attempts (logs ++ [other]) = attempts (logs ++ [log]) := by
  rw [attempts_append, attempts_append, NodeLog.isRouting, NodeLog.isRouting, hn, ht]

/-- The rows that the storage holds for an execution; none where there is no list of rows. -/
def Storage.nodeLogs (s : Storage) (execution : String) : List NodeLog :=
  match s.read (Store.NodeLogs.place execution) (.list []) with
  | .ok (.list rows) => rows.filterMap fun row => (NodeLog.load "" row).toOption
  | _ => []

theorem HasLogs.nodeLogs {s : Storage} {execution : String} {logs : List NodeLog} (h : HasLogs s execution logs) :
    s.nodeLogs execution = logs := by
  have hload : (fun log : NodeLog => (NodeLog.load "" log.toValue).toOption) = some := by
    funext log
    rw [NodeLog.load_toValue]
    rfl
  rw [Storage.nodeLogs, h]
  simp [List.filterMap_map, Function.comp_def, hload]

/-! ## What is rebuilt from rows -/

namespace Context

theorem isCompleted_replayLog {c c' : Context} {log : NodeLog} (h : c.replayLog log = .ok c') (node : String) :
    c'.isCompleted node = true ↔ c.isCompleted node = true ∨ log.isRouting = false ∧ node = log.nodeId := by
  unfold replayLog at h
  cases hr : log.isRouting with
  | true =>
    rw [hr] at h
    obtain rfl := Except.ok.inj h
    simp
  | false =>
    rw [hr] at h
    have hmarked : (c.markCompleted log.nodeId).isCompleted node = true ↔
        c.isCompleted node = true ∨ node = log.nodeId := by
      rw [isCompleted_markCompleted, Bool.or_eq_true, beq_iff_eq, or_comm]
    simp only [Bool.false_eq_true, if_false, true_and] at h ⊢
    split at h
    · rw [← Except.ok.inj h, hmarked]
    · next ho =>
      rw [Bool.or_eq_true, not_or, Bool.not_eq_true, Bool.not_eq_true] at ho
      rw [record_eq _ _ ho.2] at h
      rw [← Except.ok.inj h, isCompleted_recorded, Bool.or_eq_true, hmarked, beq_iff_eq]
      exact ⟨fun hn => hn.elim .inr id, .inr⟩

/-- The nodes that a rebuilt context knows are those of the rows. -/
theorem isCompleted_foldlM_replayLog {c c' : Context} {logs : List NodeLog} (h : logs.foldlM replayLog c = .ok c')
    (node : String) : c'.isCompleted node = true ↔ c.isCompleted node = true ∨ node ∈ attempts logs := by
  induction logs generalizing c with
  | nil =>
    obtain rfl := Except.ok.inj h
    simp [attempts]
  | cons log rest ih =>
    rw [List.foldlM_cons] at h
    cases hl : c.replayLog log with
    | error fault => rw [hl] at h; cases h
    | ok c₁ =>
      rw [hl] at h
      rw [ih h, isCompleted_replayLog hl, attempts, attempts]
      cases hr : log.isRouting <;> simp [hr, or_assoc]

end Context

/-! ## Order in the storage -/

/-- What a file may hold. A workflow can be saved to the place of any file with an id that is a path. -/
inductive Shape (issued : Nat) : String → Value → Prop
  | workflow (W : Workflow) : Shape issued (Store.Workflows.place W.id).path W.toValue
  | record {x : Execution} : Issued issued x.id → Shape issued (Store.Executions.place x.id).path x.toValue
  | logs {execution : String} {logs : List NodeLog} : (attempts logs ≠ [] → Issued issued execution) → Counted logs →
      (attempts logs).Nodup → Shape issued (Store.NodeLogs.place execution).path (.list (logs.map NodeLog.toValue))
  | mappings {message : String} {rows : List ButtonMapping} : (∀ m ∈ rows, Issued issued m.executionId) →
      Shape issued (Store.Mappings.place message).path (.list (rows.map ButtonMapping.toValue))
  | claim (message execution now : String) : Shape issued (Store.Claims.place message).path
      (.map [("execution_id", .str execution), ("claimed_at", .str now)])

theorem Shape.mono {m n : Nat} {path : String} {v : Value} (h : Shape m path v) (hle : m ≤ n) : Shape n path v := by
  cases h with
  | workflow W => exact .workflow W
  | record hi => exact .record (hi.mono hle)
  | logs hi hc hn => exact .logs (fun ha => (hi ha).mono hle) hc hn
  | mappings hi => exact .mappings fun m hm => (hi m hm).mono hle
  | claim message execution now => exact .claim message execution now

/-- Whether a node is in whatever rows there are of an execution. -/
def Spent (s : Storage) (execution node : String) : Prop :=
  ∀ logs, HasLogs s execution logs → node ∈ attempts logs

/-- Every file holds what its place is for, whoever was called was called once, for a node that is in the log, and clicks
were accepted for executions only that there are. -/
structure Orderly (w : World) : Prop where
  files : ∀ path document, w.storage.files.get? path = some document →
    ∃ v, document = .value v ∧ Shape w.issued path v
  origins : ∀ call ∈ w.calls, ∃ origin, call.origin = some origin ∧ Issued w.issued origin.execution ∧
    Spent w.storage origin.execution origin.node
  once : (w.calls.map Call.origin).Nodup
  accepted : ∀ a ∈ w.accepted, Issued w.issued a.execution

namespace Orderly

variable {w w' : World} {place : Location} {v : Value}

theorem of_eq (h : Orderly w) (hs : w'.storage = w.storage) (hi : w'.issued = w.issued) (hc : w'.calls = w.calls)
    (ha : w'.accepted = w.accepted) : Orderly w' where
  files := by rw [hs, hi]; exact h.files
  origins := by rw [hs, hi, hc]; exact h.origins
  once := by rw [hc]; exact h.once
  accepted := by rw [hi, ha]; exact h.accepted

theorem idle (h : Orderly w) (hi : Idle w w') : Orderly w' :=
  h.of_eq hi.storage hi.issued hi.calls hi.accepted

theorem quiet (h : Orderly w) (hq : Quiet w w') : Orderly w' :=
  h.idle hq.idle

/-- One file more, or another content of one. -/
theorem wrote (h : Orderly w) (hw : Wrote place v w w') (hv : Shape w.issued place.path v)
    (hspent : ∀ {execution node}, Spent w.storage execution node → Spent w'.storage execution node) : Orderly w' where
  files := by
    intro path document hd
    rw [hw.issued]
    by_cases hp : path = place.path
    · subst hp
      exact ⟨v, Option.some.inj (hd.symm.trans hw.find?_self), hv⟩
    · have hne := @Wrote.find?_ne w w' place ⟨path, "", true⟩ v hw hp
      exact h.files path document (hne.symm.trans hd)
  origins := by
    intro call hcall
    rw [hw.calls] at hcall
    obtain ⟨origin, ho, hi, hs⟩ := h.origins call hcall
    exact ⟨origin, ho, hw.issued ▸ hi, hspent hs⟩
  once := by rw [hw.calls]; exact h.once
  accepted := by rw [hw.issued, hw.accepted]; exact h.accepted

/-- A file that is not for rows does not matter to what is spent. -/
theorem spent_of_ne (hw : Wrote place v w w') (hne : ∀ id, (Store.NodeLogs.place id).path ≠ place.path)
    {execution node : String} (h : Spent w.storage execution node) : Spent w'.storage execution node := by
  intro logs hl
  rw [HasLogs, hw.read_ne (hne _)] at hl
  exact h logs hl

/-- A longer log takes away nothing from what is spent. -/
theorem spent_of_logs {id execution node : String} {logs logs' : List NodeLog} (hl : HasLogs w.storage id logs)
    (hw : Wrote (Store.NodeLogs.place id) (.list (logs'.map NodeLog.toValue)) w w')
    (hsub : ∀ n ∈ attempts logs, n ∈ attempts logs') (h : Spent w.storage execution node) :
    Spent w'.storage execution node := by
  intro other ho
  by_cases hp : (Store.NodeLogs.place execution).path = (Store.NodeLogs.place id).path
  · have hread : ∀ s : Storage, HasLogs s execution = HasLogs s id := by
      intro s
      funext logs
      unfold HasLogs Storage.read Storage.find?
      rw [hp]
    rw [hread] at ho
    obtain rfl := ho.unique hw.hasLogs
    exact hsub node (h logs (by rw [hread]; exact hl))
  · rw [HasLogs, hw.read_ne hp] at ho
    exact h other ho

/-- The log of an execution is a list of rows, each node in one of them, or else no list at all. -/
theorem logs_cases (h : Orderly w) (execution : String) :
    (∃ logs, HasLogs w.storage execution logs ∧ Counted logs ∧ (attempts logs).Nodup ∧
      (attempts logs ≠ [] → ∃ id, Issued w.issued id ∧ safeName id = safeName execution)) ∨
    ∀ rows, w.storage.read (Store.NodeLogs.place execution) (.list []) ≠ .ok (.list rows) := by
  cases hf : w.storage.find? (Store.NodeLogs.place execution) with
  | none =>
    refine .inl ⟨[], ?_, counted_nil, List.nodup_nil, fun ha => absurd rfl ha⟩
    rw [HasLogs, Storage.read, hf]
    rfl
  | some document =>
    obtain ⟨v, rfl, hv⟩ := h.files _ _ hf
    have hr : w.storage.read (Store.NodeLogs.place execution) (.list []) = .ok v := by
      rw [Storage.read, hf]
      rfl
    generalize hp : (Store.NodeLogs.place execution).path = path at hv
    cases hv with
    | workflow W =>
      refine .inr fun rows hrows => ?_
      rw [hr] at hrows
      cases hrows
    | record => exact absurd hp.symm (executions_ne_nodeLogs _ _)
    | @logs id logs hi hc hn => exact .inl ⟨logs, hr, hc, hn, fun ha => ⟨id, hi ha, (Location.path_inj hp).symm⟩⟩
    | mappings => exact absurd hp (nodeLogs_ne_mappings _ _)
    | claim message =>
      cases Location.folder_eq_of_path hp

/-- The mappings of a message are those of executions that there are. -/
theorem mappings_of_read (h : Orderly w) {message : String} {rows : List Value}
    (hr : w.storage.read (Store.Mappings.place message) (.list []) = .ok (.list rows)) :
    ∃ ms : List ButtonMapping, rows = ms.map ButtonMapping.toValue ∧ ∀ m ∈ ms, Issued w.issued m.executionId := by
  unfold Storage.read at hr
  cases hf : w.storage.find? (Store.Mappings.place message) with
  | none =>
    rw [hf] at hr
    obtain rfl := Value.list.inj (Except.ok.inj hr)
    exact ⟨[], rfl, fun m hm => by cases hm⟩
  | some document =>
    obtain ⟨v, rfl, hv⟩ := h.files _ _ hf
    rw [hf] at hr
    obtain rfl : v = .list rows := Except.ok.inj hr
    generalize hp : (Store.Mappings.place message).path = path at hv
    generalize hl : Value.list rows = value at hv
    cases hv with
    | workflow W => cases hl
    | record => cases hl
    | logs => exact absurd hp.symm (nodeLogs_ne_mappings _ _)
    | mappings hi => exact ⟨_, Value.list.inj hl, hi⟩
    | claim => cases Location.folder_eq_of_path hp

end Orderly

/-! ## What a run knows -/

/-- A run knows every node that is in the log of its execution. -/
structure Tracks (p : Progress) : Prop where
  orderly : Orderly p.world
  issued : Issued p.world.issued p.run.execution
  known : ∀ logs, HasLogs p.world.storage p.run.execution logs → ∀ node ∈ attempts logs,
    p.run.context.isCompleted node = true

namespace Tracks

variable {w w' : World} {r : Run} {logs : List NodeLog} {node : Node} {entry : NodeLog}

theorem quiet (h : Tracks ⟨w, r⟩) (hq : Quiet w w') : Tracks ⟨w', r⟩ where
  orderly := h.orderly.quiet hq
  issued := hq.issued ▸ h.issued
  known := by
    intro logs hl
    rw [HasLogs, hq.storage] at hl
    exact h.known logs hl

/-- Something was said that is no call, and accepts no click for another execution. -/
theorem said (h : Tracks ⟨w, r⟩) (effect : Effect) (hc : effect.call? = none)
    (ha : ∀ a, effect.acceptance? = some a → a.execution = r.execution) :
    Tracks ⟨{ w with trace := w.trace ++ [effect] }, r⟩ where
  orderly :=
    { files := h.orderly.files
      origins := by
        have hcalls : { w with trace := w.trace ++ [effect] }.calls = w.calls := by simp [World.calls, hc]
        rw [hcalls]
        exact h.orderly.origins
      once := by
        have hcalls : { w with trace := w.trace ++ [effect] }.calls = w.calls := by simp [World.calls, hc]
        rw [hcalls]
        exact h.orderly.once
      accepted := by
        intro a hm
        simp only [World.accepted, List.filterMap_append, List.mem_append, List.filterMap_cons, List.filterMap_nil] at hm
        rcases hm with hm | hm
        · exact h.orderly.accepted a hm
        · cases he : effect.acceptance? with
          | none => rw [he] at hm; cases hm
          | some b =>
            rw [he, List.mem_singleton] at hm
            rw [hm, ha b he]
            exact h.issued }
  issued := h.issued
  known := h.known

/-- Another run of the same execution that knows as much. -/
theorem rerun {s : Run} (h : Tracks ⟨w, r⟩) (he : s.execution = r.execution)
    (hc : ∀ node, r.context.isCompleted node = true → s.context.isCompleted node = true) : Tracks ⟨w, s⟩ where
  orderly := h.orderly
  issued := he ▸ h.issued
  known := fun logs hl node hn => hc node (h.known logs (he ▸ hl) node hn)

theorem marked (h : Tracks ⟨w, r⟩) (node : Node) : Tracks ⟨w, r.marked node⟩ :=
  h.rerun rfl fun other ho => by
    rw [Run.marked, Context.isCompleted_markCompleted, ho, Bool.or_true]

/-- The log with one row more or with another last row, which tells of a node that the run knows. -/
theorem wrote (h : Tracks ⟨w, r⟩) (hl : HasLogs w.storage r.execution logs) {logs' : List NodeLog}
    (hw : Wrote (Store.NodeLogs.place r.execution) (.list (logs'.map NodeLog.toValue)) w w') (hc : Counted logs')
    (hn : (attempts logs').Nodup) (hsub : ∀ n ∈ attempts logs, n ∈ attempts logs')
    (hk : ∀ n ∈ attempts logs', r.context.isCompleted n = true) : Tracks ⟨w', r⟩ where
  orderly := h.orderly.wrote hw (.logs (fun _ => h.issued) hc hn) (Orderly.spent_of_logs hl hw hsub)
  issued := hw.issued ▸ h.issued
  known := by
    intro other ho
    obtain rfl := ho.unique hw.hasLogs
    exact hk

end Tracks

/-- A call on behalf of a node that nobody was called for yet. -/
theorem Orderly.worked {w w' : World} {origin : Origin} {workflow : String} (h : Orderly w)
    (hw : Worked origin workflow w w') (hi : Issued w.issued origin.execution)
    (hnew : ∀ call ∈ w.calls, call.origin ≠ some origin) (hspent : w'.calls ≠ w.calls →
      Spent w.storage origin.execution origin.node) : Orderly w' where
  files := by
    intro path document hd
    rw [hw.issued]
    rcases hw.storage with hs | ⟨m, he, -, -, rows, hread, hm⟩
    · exact h.files path document (hs ▸ hd)
    · have hwrote : Wrote (Store.Mappings.place m.messageId) (.list (rows ++ [m.toValue])) w { w with storage := w'.storage } :=
        ⟨_, hm, .refl _⟩
      obtain ⟨ms, rfl, hms⟩ := h.mappings_of_read hread
      have hshape : Shape w.issued (Store.Mappings.place m.messageId).path
          (.list ((ms ++ [m]).map ButtonMapping.toValue)) := by
        refine .mappings fun m' hm' => ?_
        rcases List.mem_append.1 hm' with hm' | hm'
        · exact hms m' hm'
        · rw [List.mem_singleton.1 hm', he]
          exact hi
      rw [List.map_append] at hshape
      exact (h.wrote hwrote hshape (spent_of_ne hwrote (fun id => nodeLogs_ne_mappings id _))).files path document hd
  origins := by
    have hsame : ∀ {execution node}, Spent w.storage execution node → Spent w'.storage execution node := by
      intro execution node hs logs hl
      rw [HasLogs, hw.read_ne (nodeLogs_ne_mappings _)] at hl
      exact hs logs hl
    intro call hcall
    rw [hw.issued]
    rcases hw.calls with hc | ⟨call', ho, hc⟩
    · rw [hc] at hcall
      obtain ⟨o, ho, hoi, hs⟩ := h.origins call hcall
      exact ⟨o, ho, hoi, hsame hs⟩
    · rw [hc, List.mem_append, List.mem_singleton] at hcall
      rcases hcall with hcall | rfl
      · obtain ⟨o, ho, hoi, hs⟩ := h.origins call hcall
        exact ⟨o, ho, hoi, hsame hs⟩
      · exact ⟨origin, ho, hi, hsame (hspent (by rw [hc]; simp))⟩
  once := by
    rcases hw.calls with hc | ⟨call, ho, hc⟩
    · rw [hc]; exact h.once
    · rw [hc, List.map_append, List.map_singleton, List.nodup_append]
      refine ⟨h.once, by simp, fun a ha b hb => ?_⟩
      rw [List.mem_singleton.1 hb, ho]
      obtain ⟨call', hcall', rfl⟩ := List.mem_map.1 ha
      exact hnew call' hcall'
  accepted := by rw [hw.issued, hw.accepted]; exact h.accepted

/-! ## One turn -/

section Turn

variable {w w₁ w₂ w₃ : World} {r : Run} {logs : List NodeLog} {node : Node} {entry row : NodeLog}

/-- The row of a node that the run did not know is a row of its own. -/
theorem nodup_attempts_append (hn : (attempts logs).Nodup) (hid : entry.nodeId = node.id)
    (hnew : node.id ∉ attempts logs) : (attempts (logs ++ [entry])).Nodup := by
  rw [attempts_append]
  split
  · simpa using hn
  · rw [hid, List.nodup_append]
    refine ⟨hn, by simp, fun a ha b hb => ?_⟩
    rw [List.mem_singleton.1 hb]
    rintro rfl
    exact hnew ha

/-- A row was opened. -/
theorem Tracks.opened (h : Tracks ⟨w, r⟩) (hl : HasLogs w.storage r.execution logs) (hc : Counted logs)
    (hn : (attempts logs).Nodup) (hnew : r.context.isCompleted node.id = false)
    (he : entry.id = logs.length + 1) (hid : entry.nodeId = node.id)
    (hw : Wrote (Store.NodeLogs.place r.execution) (.list ((logs ++ [entry]).map NodeLog.toValue)) w w₁) :
    Tracks ⟨w₁, r.marked node⟩ := by
  have hfresh : node.id ∉ attempts logs := fun hm => by
    rw [h.known logs hl _ hm] at hnew
    cases hnew
  refine (h.marked node).wrote hl hw (hc.append he) (nodup_attempts_append hn hid hfresh) ?_ ?_
  · intro n hm
    rw [attempts_append]
    exact List.mem_append_left _ hm
  · intro n hm
    rw [attempts_append, List.mem_append] at hm
    rw [Run.marked, Context.isCompleted_markCompleted]
    rcases hm with hm | hm
    · rw [h.known logs hl n hm, Bool.or_true]
    · split at hm
      · cases hm
      · rw [List.mem_singleton.1 hm, hid, beq_self_eq_true, Bool.true_or]

/-- The node has run. -/
theorem Tracks.ran {result : Except Fault Value} (h : Tracks ⟨w₁, r⟩) (hl : HasLogs w₁.storage r.execution (logs ++ [entry]))
    (hnew : ∀ call ∈ w₁.calls, call.origin ≠ some ⟨r.execution, node.id⟩)
    (hid : entry.nodeId = node.id) (ht : entry.nodeType = node.type)
    (hr : Engine.run (Dispatch.runNode node r) w₁ = (result, w₂)) : Tracks ⟨w₂, r⟩ := by
  have hworked := (Dispatch.runNode_worked node r w₁).1
  rw [hr] at hworked
  refine ⟨h.orderly.worked hworked h.issued hnew fun hcalls => ?_, hworked.issued ▸ h.issued, fun other ho => ?_⟩
  · -- a row of a click has no known type, and its node makes no call
    cases hrouting : entry.isRouting with
    | true =>
      exfalso
      have htype : node.nodeType? = none := by
        rw [NodeLog.isRouting, ht, beq_iff_eq] at hrouting
        rw [Node.nodeType?, hrouting]
        decide
      obtain ⟨fault, hf⟩ := Dispatch.runNode_unknown htype r w₁
      rw [hf] at hr
      obtain ⟨-, rfl⟩ := Prod.mk.inj hr
      exact hcalls rfl
    | false =>
      intro other ho
      obtain rfl := ho.unique hl
      rw [attempts_append, hrouting]
      simp [hid]
  · obtain rfl := ho.unique (hworked.hasLogs hl)
    exact h.known _ hl

/-- The row was closed, or not. -/
theorem Tracks.closed {α : Type} {a : α} {heard : Prop} {result : Except Fault α} (h : Tracks ⟨w₂, r⟩)
    (hl : HasLogs w₂.storage r.execution (logs ++ [entry])) (hc : Counted (logs ++ [entry]))
    (hn : (attempts (logs ++ [entry])).Nodup)
    (hp : Posted (Store.NodeLogs.place r.execution) (.list ((logs ++ [row]).map NodeLog.toValue)) a heard w₂
      (result, w₃)) (he : row.id = entry.id) (hid : row.nodeId = entry.nodeId) (ht : row.nodeType = entry.nodeType) :
    Tracks ⟨w₃, r⟩ := by
  have hsame := @attempts_replace logs _ _ hid ht
  have hwrote {w₃ : World} (hw : Wrote (Store.NodeLogs.place r.execution)
      (.list ((logs ++ [row]).map NodeLog.toValue)) w₂ w₃) : Tracks ⟨w₃, r⟩ :=
    h.wrote hl hw (hc.replace he) (hsame ▸ hn) (fun n hm => hsame ▸ hm) (fun n hm => h.known _ hl n (hsame ▸ hm))
  exact hp.keeps (I := fun u => Tracks ⟨u, r⟩) hwrote h.quiet

end Turn

/-- Every move of a dispatch keeps what a run knows. -/
theorem stable_tracks : Stable Tracks where
  quiet h hq := h.quiet hq
  noted _ _ _ h := h.rerun rfl fun _ => id
  entered _ h := h.rerun rfl fun _ => id
  clicked _ _ _ _ _ h := h.rerun rfl fun _ => id
  performed := by
    rintro ⟨w, r⟩ node - - hnew h
    rcases h.orderly.logs_cases r.execution with ⟨logs, hl, hc, hn, -⟩ | hno
    · have hcalls : ∀ call ∈ w.calls, call.origin ≠ some ⟨r.execution, node.id⟩ := by
        intro call hcall ho
        obtain ⟨origin, ho', -, hs⟩ := h.orderly.origins call hcall
        obtain rfl := Option.some.inj (ho'.symm.trans ho)
        have hk := h.known logs hl _ (hs logs hl)
        rw [hnew] at hk
        cases hk
      have hopened : ∀ {entry : NodeLog} {w₁ : World}, entry = .opened r.execution (logs.length + 1) node
            (.map (r.marked node).context.flat) w.clock.stamp →
          Wrote (Store.NodeLogs.place r.execution) (.list ((logs ++ [entry]).map NodeLog.toValue)) w w₁ →
          Tracks ⟨w₁, r.marked node⟩ := by
        rintro entry w₁ rfl hw
        exact h.opened hl hc hn hnew rfl rfl hw
      have hran : ∀ {entry : NodeLog} {w₁ w₂ : World} {result : Except Fault Value},
          entry = .opened r.execution (logs.length + 1) node (.map (r.marked node).context.flat) w.clock.stamp →
          Wrote (Store.NodeLogs.place r.execution) (.list ((logs ++ [entry]).map NodeLog.toValue)) w w₁ →
          Engine.run (Dispatch.runNode node (r.marked node)) w₁ = (result, w₂) →
          Tracks ⟨w₂, r.marked node⟩ ∧ HasLogs w₂.storage r.execution (logs ++ [entry]) ∧
            Counted (logs ++ [entry]) ∧ (attempts (logs ++ [entry])).Nodup := by
        rintro entry w₁ w₂ result he hw hr
        have h₁ := hopened he hw
        have hfresh : node.id ∉ attempts logs := fun hm => by
          have hk := h.known logs hl _ hm
          rw [hnew] at hk
          cases hk
        have hworked := (Dispatch.runNode_worked node (r.marked node) w₁).1
        rw [hr] at hworked
        refine ⟨h₁.ran hw.hasLogs (hw.calls ▸ hcalls) (by rw [he]; rfl) (by rw [he]; rfl) hr, hworked.hasLogs hw.hasLogs,
          hc.append (by rw [he]; rfl), nodup_attempts_append hn (by rw [he]; rfl) hfresh⟩
      have hp := @Dispatch.perform_cases node logs ⟨w, r⟩ hl hc
      generalize Running.go (Dispatch.perform node) ⟨w, r⟩ = out at hp
      cases hp with
      | untitled _ hq => exact (h.quiet hq).marked node
      | unopened he hposted =>
        cases hposted with
        | unheard _ hw => exact hopened he hw
        | lost _ hq => exact (h.quiet hq).marked node
      | refused he _ hw hr => exact (hran he hw hr).1
      | succeeded he _ hw hr hclosed =>
        obtain ⟨h₂, hl₂, hc₂, hn₂⟩ := hran he hw hr
        exact (h₂.closed hl₂ hc₂ hn₂ hclosed rfl rfl rfl).rerun rfl fun n hk =>
          (Context.isCompleted_recorded _ _ _ _ n).trans (by rw [hk, Bool.or_true])
      | failed he hw hr hclosed =>
        obtain ⟨h₂, hl₂, hc₂, hn₂⟩ := hran he hw hr
        exact (h₂.closed hl₂ hc₂ hn₂ hclosed rfl rfl rfl).rerun rfl fun n hk =>
          Context.isCompleted_kept node _ hk
    · obtain ⟨fault, w', hb, hq⟩ := Dispatch.perform_barred fun _ => hno
      rw [hb]
      exact (h.quiet hq).marked node

/-! ## What is on record -/

open Engine

namespace Orderly

variable {w w' : World}

/-- The record of an execution is one, or there is none. -/
theorem record_cases (h : Orderly w) (id : String) {v : Value}
    (hr : w.storage.read (Store.Executions.place id) .null = .ok v) :
    v = .null ∨ (∃ W : Workflow, v = W.toValue) ∨ ∃ x, v = Execution.toValue x ∧ Issued w.issued x.id ∧
      (Store.Executions.place x.id).path = (Store.Executions.place id).path := by
  unfold Storage.read at hr
  cases hf : w.storage.find? (Store.Executions.place id) with
  | none =>
    rw [hf] at hr
    exact .inl (Except.ok.inj hr).symm
  | some document =>
    obtain ⟨u, rfl, hu⟩ := h.files _ _ hf
    rw [hf] at hr
    obtain rfl : u = v := Except.ok.inj hr
    generalize hp : (Store.Executions.place id).path = path at hu
    cases hu with
    | workflow W => exact .inr (.inl ⟨W, rfl⟩)
    | @record x hi => exact .inr (.inr ⟨x, rfl, hi, rfl⟩)
    | logs => exact absurd hp (executions_ne_nodeLogs _ _)
    | mappings => exact absurd hp (executions_ne_mappings _ _)
    | claim => cases Location.folder_eq_of_path hp

theorem mono (h : Orderly w) (hs : w'.storage = w.storage) (hi : w.issued ≤ w'.issued) (hc : w'.calls = w.calls)
    (ha : w'.accepted = w.accepted) : Orderly w' where
  files := by
    intro path document hd
    rw [hs] at hd
    obtain ⟨v, hv, hshape⟩ := h.files path document hd
    exact ⟨v, hv, hshape.mono hi⟩
  origins := by
    intro call hcall
    rw [hc] at hcall
    obtain ⟨origin, ho, hio, hspent⟩ := h.origins call hcall
    exact ⟨origin, ho, hio.mono hi, hs ▸ hspent⟩
  once := by rw [hc]; exact h.once
  accepted := by
    rw [ha]
    exact fun a hm => (h.accepted a hm).mono hi

end Orderly

/-! ## What the journal keeps -/

/-- An execution that ends has a record, or nothing is written. -/
theorem Orderly.finish_cases {w : World} (h : Orderly w) (id : String) (status : RunStatus) (error : Option String)
    (duration : Int) :
    (∃ x, HasRecord w.storage id x ∧ Issued w.issued x.id ∧
      (Store.Executions.place x.id).path = (Store.Executions.place id).path) ∨
    Barred (Journal.finishExecution id status (Value.ofText? error) duration) w := by
  by_cases hx : ∃ x, HasRecord w.storage id x ∧ Issued w.issued x.id ∧
      (Store.Executions.place x.id).path = (Store.Executions.place id).path
  · exact .inl hx
  · refine .inr (Journal.finishExecution_barred fun entries hv => ?_)
    rcases h.record_cases id hv with hnull | ⟨W, hW⟩ | ⟨x, hxv, hi, hp⟩
    · cases hnull
    · cases hW
      rfl
    · exact absurd ⟨x, by rw [HasRecord, ← hxv]; exact hv, hi, hp⟩ hx

theorem orderly_finishExecution (id : String) (status : RunStatus) (error : Option String) (duration : Int) :
    Keeps Orderly (Journal.finishExecution id status (Value.ofText? error) duration) := by
  intro w h
  rcases h.finish_cases id status error duration with ⟨x, hx, hi, hp⟩ | ⟨fault, w', hr, hq⟩
  · have hposted := Journal.finishExecution_posted hx status error duration
    have hshape : Shape w.issued (Store.Executions.place id).path (x.ended status error duration w.clock.stamp).toValue :=
      hp ▸ Shape.record (x := x.ended status error duration w.clock.stamp) hi
    exact hposted.keeps (I := Orderly)
      (fun hw => h.wrote hw hshape (Orderly.spent_of_ne hw fun other => (executions_ne_nodeLogs id other).symm)) h.quiet
  · rw [hr]
    exact h.quiet hq

/-- A click that led nowhere has its row, unless there is no list of rows, and then nothing is written. -/
theorem Orderly.routingFailed_cases {w : World} (h : Orderly w) (execution node message : String)
    (details : Entries Value) :
    (∃ (logs : List NodeLog) (row : NodeLog), HasLogs w.storage execution logs ∧ Counted logs ∧ (attempts logs).Nodup ∧
      (attempts logs ≠ [] → ∃ id, Issued w.issued id ∧ safeName id = safeName execution) ∧
      row.isRouting = true ∧ row.id = (logs.length + 1 : Int) ∧
      Posted (Store.NodeLogs.place execution) (.list ((logs ++ [row]).map NodeLog.toValue)) row True w
        (run (Journal.routingFailed execution node message details) w)) ∨
    Barred (Journal.routingFailed execution node message details) w := by
  rcases h.logs_cases execution with ⟨logs, hl, hc, hn, hi⟩ | hno
  · exact .inl ⟨logs, _, hl, hc, hn, hi, NodeLog.isRouting_unrouted _ _ _ _ _ _, rfl,
      Journal.routingFailed_posted hl node message details⟩
  · exact .inr (barred_stamp (Barred.bind (Store.NodeLogs.append_barred fun rows hrows => absurd hrows (hno rows))))

theorem orderly_routingFailed (execution node message : String) (details : Entries Value) :
    Keeps Orderly (Journal.routingFailed execution node message details) := by
  intro w h
  rcases h.routingFailed_cases execution node message details with
    ⟨logs, row, hl, hc, hn, hi, hrouting, hid, hposted⟩ | ⟨fault, w', hr, hq⟩
  · have hattempts : attempts (logs ++ [row]) = attempts logs := by
      rw [attempts_append, if_pos hrouting, List.append_nil]
    have hcounted : Counted (logs ++ [row]) := hc.append hid
    have hshape : Shape w.issued (Store.NodeLogs.place execution).path (.list ((logs ++ [row]).map NodeLog.toValue)) := by
      by_cases ha : attempts logs = []
      · exact .logs (fun hne => absurd ha (hattempts ▸ hne)) hcounted (hattempts ▸ hn)
      · obtain ⟨id, hid, hsafe⟩ := hi ha
        have hp : Store.NodeLogs.place id = Store.NodeLogs.place execution := by
          simp only [Store.NodeLogs.place, Location.ofRecord, hsafe]
        exact hp ▸ Shape.logs (fun _ => hid) hcounted (hattempts ▸ hn)
    exact hposted.keeps (I := Orderly)
      (fun hw => h.wrote hw hshape (Orderly.spent_of_logs hl hw (hattempts ▸ fun _ => id))) h.quiet
  · rw [hr]
    exact h.quiet hq

/-! ## Invocations -/

/-- In the log of the next execution there is no attempt. -/
theorem Orderly.attempts_eq_nil {w : World} (h : Orderly w) {logs : List NodeLog}
    (hl : HasLogs w.storage w.nextExecution logs) : Counted logs ∧ attempts logs = [] := by
  rcases h.logs_cases w.nextExecution with ⟨logs', hl', hc, -, hi⟩ | hno
  · obtain rfl := hl.unique hl'
    refine ⟨hc, Classical.byContradiction fun hne => ?_⟩
    obtain ⟨id, hid, hsafe⟩ := hi hne
    rw [hid.safeName, (issued_nextExecution w).safeName] at hsafe
    exact not_issued_nextExecution w (hsafe ▸ hid)
  · exact absurd hl (hno _)

/-- A new execution starts in order, and there is no attempt in its log yet. -/
theorem startExecution_tracks (workflow : Workflow) (payload triggerData : Value) {w : World} (h : Orderly w) :
    let p := run (Journal.startExecution workflow.id triggerData) w
    Orderly p.2 ∧ ∀ x, p.1 = .ok x → Tracks ⟨p.2, .start x.id workflow (.start payload)⟩ := by
  have hup : Orderly { w with issued := w.issued + 1 } := h.mono rfl (Nat.le_succ _) rfl rfl
  rcases Journal.startExecution_cases workflow.id triggerData w with ⟨session, w', hr, hw⟩ | ⟨-, fault, w', hr, hq⟩
  · rw [hr]
    have hissued : Issued (w.issued + 1) w.nextExecution := issued_nextExecution w
    have ho : Orderly w' := hup.wrote hw
      (Shape.record (x := .begun w.nextExecution workflow.id triggerData session w.clock.stamp) hissued)
      (Orderly.spent_of_ne hw fun other => (executions_ne_nodeLogs _ other).symm)
    refine ⟨ho, fun x hx => ?_⟩
    obtain rfl := Except.ok.inj hx
    refine ⟨ho, hw.issued ▸ hissued, fun logs hl node hn => ?_⟩
    exfalso
    have hl' : HasLogs w.storage w.nextExecution logs := by
      rw [HasLogs, ← hw.read_ne (executions_ne_nodeLogs _ _).symm]
      exact hl
    rw [(h.attempts_eq_nil hl').2] at hn
    cases hn
  · rw [hr]
    exact ⟨hup.quiet hq, fun x hx => by cases hx⟩

/-- What a claim holds does not matter to what is spent. -/
theorem claims_ne_nodeLogs (message id : String) :
    (Store.NodeLogs.place id).path ≠ (Store.Claims.place message).path := by
  intro h
  cases Location.folder_eq_of_path h

theorem Orderly.released (message : String) {w : World} (h : Orderly w) :
    Orderly { w with storage := w.storage.remove (Store.Claims.place message) } := by
  have hget {path : String} {document : Document}
      (hd : (w.storage.remove (Store.Claims.place message)).files.get? path = some document) :
      w.storage.files.get? path = some document := Entries.get?_of_erase hd
  refine ⟨fun path document hd => h.files path document (hget hd), fun call hcall => ?_, h.once, h.accepted⟩
  obtain ⟨origin, ho, hi, hs⟩ := h.origins call hcall
  refine ⟨origin, ho, hi, fun logs hl => hs logs ?_⟩
  rw [HasLogs, ← Storage.read_remove_ne (claims_ne_nodeLogs message _)]
  exact hl

/-- An execution that goes on has an id that was given out, that of the mapping. -/
theorem Orderly.id_of_ready {mapping : ButtonMapping} {workflow : Workflow} {x : Execution} {node : Node} {w : World}
    (h : Orderly w) (hr : Continuation.Ready mapping workflow x node w) :
    Issued w.issued x.id ∧ x.id = mapping.executionId := by
  obtain ⟨message, rows, hrows, row, hrow, now, hload⟩ := hr.listed
  obtain ⟨ms, rfl, hms⟩ := h.mappings_of_read hrows
  obtain ⟨m, hm, rfl⟩ := List.mem_map.1 hrow
  rw [ButtonMapping.load_toValue] at hload
  obtain rfl := Except.ok.inj hload
  obtain ⟨v, now, hv, hx⟩ := hr.recorded
  rcases h.record_cases _ hv with rfl | ⟨W, rfl⟩ | ⟨y, rfl, hi, hp⟩
  · cases hx
  · exact absurd hx (Execution.load_ne_of_missing rfl x)
  · rw [Execution.load_toValue] at hx
    obtain rfl := Except.ok.inj hx
    have hsafe := Location.path_inj hp
    rw [hi.safeName, (hms _ hm).safeName] at hsafe
    exact ⟨hi, hsafe⟩

/-- An execution that goes on has a list of rows. -/
theorem Orderly.hasLogs_of_resumable {mapping : ButtonMapping} {button data : Value} {workflow : Workflow} {x : Execution}
    {node : Node} {context : Context} {w : World} (h : Orderly w)
    (hr : Continuation.Resumable mapping button data workflow x node context w) : ∃ logs, HasLogs w.storage x.id logs := by
  rcases h.logs_cases x.id with ⟨logs, hl, -⟩ | hno
  · exact ⟨logs, hl⟩
  · -- only a workflow could be there instead, and none is read as rows
    exfalso
    obtain ⟨v, rows, now, logs, hread, hrows, hload⟩ := hr.logged
    cases hf : w.storage.find? (Store.NodeLogs.place x.id) with
    | none =>
      rw [Storage.read, hf] at hno
      exact hno [] rfl
    | some document =>
      obtain ⟨u, rfl, hu⟩ := h.files _ _ hf
      have huv : w.storage.read (Store.NodeLogs.place x.id) (.list []) = .ok u := by
        rw [Storage.read, hf]
        rfl
      obtain rfl := Except.ok.inj (hread.symm.trans huv)
      generalize hp : (Store.NodeLogs.place x.id).path = path at hu
      cases hu with
      | workflow W =>
        obtain rfl := Except.ok.inj hrows
        cases hload
      | record => exact executions_ne_nodeLogs _ _ hp.symm
      | logs => exact hno _ hread
      | mappings => exact nodeLogs_ne_mappings _ _ hp
      | claim message => exact claims_ne_nodeLogs message x.id hp

/-- A run that goes on knows what is in the log. -/
theorem Orderly.tracks_of_resumable {mapping : ButtonMapping} {button data : Value} {workflow : Workflow} {x : Execution}
    {node : Node} {context : Context} {w : World} (h : Orderly w)
    (hr : Continuation.Resumable mapping button data workflow x node context w) :
    Tracks ⟨w.accepting x node button, .start x.id workflow context⟩ := by
  have htracks : Tracks ⟨w, .start x.id workflow context⟩ := by
    refine ⟨h, (h.id_of_ready hr.toReady).1, fun logs hl n hn => ?_⟩
    obtain ⟨rebuilt, fields, hreplay, -, rfl⟩ := hr.restored logs hl
    exact (Context.isCompleted_foldlM_replayLog hreplay n).2 (.inr hn)
  refine htracks.said _ rfl fun a ha => ?_
  obtain rfl := Option.some.inj ha
  rfl

theorem lasting_orderly : Lasting Orderly where
  idle h hi := h.idle hi
  claimed h hw := h.wrote hw (.claim _ _ _) (Orderly.spent_of_ne hw (claims_ne_nodeLogs _))
  released message _ h := h.released message
  launch workflow payload w h := by
    obtain ⟨ho, ht⟩ := startExecution_tracks workflow payload (Context.start payload).triggerData h
    rcases hr : run (Journal.startExecution workflow.id (Context.start payload).triggerData) w with ⟨result, w'⟩
    rw [hr] at ho ht
    cases result with
    | error fault => unfold Invocation.launch; rw [run_bind_error hr]; exact ho
    | ok x =>
      obtain ⟨r, hlaunch⟩ := stable_tracks.launch hr (ht x rfl)
      exact hlaunch.orderly
  resume h hr := by
    obtain ⟨r, hresume⟩ := stable_tracks.resume _ (h.tracks_of_resumable hr)
    exact hresume.orderly
  routed := orderly_routingFailed
  finish id status error duration _ := orderly_finishExecution id status error duration

/-! ## Sessions -/

theorem orderly_saveWorkflow (V : Workflow) : Keeps Orderly (Store.Workflows.save V) := by
  intro w h
  rcases Store.Workflows.save_cases V w with ⟨w', hr, hw⟩ | ⟨fault, w', hr, hq⟩
  · rw [hr]
    refine h.wrote hw (.workflow V) fun {execution node} hs logs hl => ?_
    -- what is saved to the place of a log is no list of rows
    by_cases hpath : (Store.NodeLogs.place execution).path = (Store.Workflows.place V.id).path
    · have hread : w'.storage.read (Store.NodeLogs.place execution) (.list []) = .ok V.toValue := by
        unfold Storage.read Storage.find?
        rw [hpath]
        exact hw.read_self
      rw [HasLogs, hread] at hl
      cases hl
    · rw [HasLogs, hw.read_ne hpath] at hl
      exact hs logs hl
  · rw [hr]
    exact h.quiet hq

theorem enduring_orderly : Enduring Orderly where
  toLasting := lasting_orderly
  saved := orderly_saveWorkflow
  closed _ h := h.of_eq rfl rfl rfl rfl
  armed _ _ h := h.of_eq rfl rfl rfl rfl

theorem orderly_initial (config : Config) (root : String) (auditor : Option Auditor) :
    Orderly (.initial config root auditor) where
  files := fun _ _ h => by cases h
  origins := fun _ h => by cases h
  once := List.nodup_nil
  accepted := fun _ h => by cases h

/-- Every session keeps order. -/
theorem orderly_run (steps : List Session.Step) {w : World} (h : Orderly w) : Orderly (Session.run steps w).2 :=
  enduring_orderly.run steps h

/-- In no session does an execution try a node twice, and in none is a collaborator called twice on behalf of a node of
an execution. -/
theorem at_most_once (config : Config) (root : String) (auditor : Option Auditor) (steps : List Session.Step) :
    let w := (Session.run steps (.initial config root auditor)).2
    (∀ execution, (((w.storage.nodeLogs execution).filter fun log => log.nodeType != buttonRoutingType).map
      NodeLog.nodeId).Nodup) ∧
    (∀ call ∈ w.calls, ∃ origin, call.origin = some origin) ∧ (w.calls.map Call.origin).Nodup := by
  intro w
  have h : Orderly w := orderly_run steps (orderly_initial config root auditor)
  refine ⟨fun execution => ?_, fun call hcall => ?_, h.once⟩
  · rcases h.logs_cases execution with ⟨logs, hl, -, hn, -⟩ | hno
    · rw [hl.nodeLogs]
      exact hn
    · have hempty : w.storage.nodeLogs execution = [] := by
        unfold Storage.nodeLogs
        split
        · next rows hr => exact absurd hr (hno rows)
        · rfl
      rw [hempty]
      exact List.nodup_nil
  · obtain ⟨origin, ho, -, -⟩ := h.origins call hcall
    exact ⟨origin, ho⟩

end WorkGraph
