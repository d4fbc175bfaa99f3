import WorkGraph.Proofs.Records

/-!
# What a click sees of earlier ones

A click is put into the output of its node in the context of the run that goes on, and never into the row of the node. A
node whose message waits has put out no button, and its row stays as it is (`Added`, `Forgetful`). The context of a later
click is rebuilt from the rows, so that it has the button of that click and of no earlier one: `clicks_forgotten`, for
every click that goes on in any session.
-/

namespace WorkGraph

open Engine Running

/-! ## Rows that tell of no button -/

/-- Whether an output tells of a button that was clicked. -/
def Value.answered (v : Value) : Bool :=
  v.entries?.any fun entries => (Value.field entries "button_id").truthy

/-- What waits for a click was not clicked. -/
theorem Value.answered_of_awaitsClick {v : Value} (h : Action.awaitsClick v = true) : v.answered = false := by
  cases v with
  | map entries =>
    rw [Action.awaitsClick, Bool.and_eq_true, Bool.not_eq_true'] at h
    exact h.2
  | null | bool | num | str | list => rfl

/-- Whether a node has a row, and has no row that tells of a button. -/
structure Unanswered (logs : List NodeLog) (node : String) : Prop where
  attempted : node ∈ attempts logs
  silent : ∀ row ∈ logs, row.isRouting = false → row.nodeId = node → row.outputData.answered = false

section Rows

variable {execution : String} {logs : List NodeLog} {row : NodeLog} {w w' : World}

theorem Unanswered.append {node : String} (h : Unanswered logs node) (hr : row.isRouting = false → row.nodeId ≠ node) :
    Unanswered (logs ++ [row]) node where
  attempted := by
    rw [attempts_append]
    exact List.mem_append_left _ h.attempted
  silent other ho hrouting hnode := by
    rcases List.mem_append.1 ho with ho | ho
    · exact h.silent other ho hrouting hnode
    · rw [List.mem_singleton.1 ho] at hrouting hnode
      exact absurd hnode (hr hrouting)

/-- Whether a node has a row among whatever rows there are of an execution, and none that tells of a button. -/
def Storage.Withholds (s : Storage) (execution node : String) : Prop :=
  ∀ logs, HasLogs s execution logs → Unanswered logs node

/-! ## One row more -/

/-- A row was added to the log of an execution. If a mapping was added as well, it leads to the node of the row, and the
row tells of no button. -/
structure Added (execution : String) (logs : List NodeLog) (row : NodeLog) (w w' : World) : Prop where
  rows : HasLogs w'.storage execution (logs ++ [row])
  others : ∀ other, (Store.NodeLogs.place other).path ≠ (Store.NodeLogs.place execution).path →
    w'.storage.read (Store.NodeLogs.place other) (.list []) = w.storage.read (Store.NodeLogs.place other) (.list [])
  listed : ∀ m, Continuation.Listed m w' → Continuation.Listed m w ∨
    m.executionId = execution ∧ m.nodeId = row.nodeId ∧ row.isRouting = false ∧ row.outputData.answered = false
  accepted : w'.accepted = w.accepted

namespace Added

/-- The row was written and nothing else. -/
theorem of_wrote (hw : Wrote (Store.NodeLogs.place execution) (.list ((logs ++ [row]).map NodeLog.toValue)) w w') :
    Added execution logs row w w' where
  rows := hw.hasLogs
  others _ ho := hw.read_ne ho
  listed _ hm := .inl (hm.of_wrote_ne hw fun _ => (nodeLogs_ne_mappings _ _).symm)
  accepted := hw.accepted

/-- A row was opened, its node has run, and the row was closed, or else it stayed open. -/
theorem of_turn {r : Run} {node : Node} {entry : NodeLog} {result : Except Fault Value} {w₁ w₂ : World}
    (hopened : Wrote (Store.NodeLogs.place r.execution) (.list ((logs ++ [entry]).map NodeLog.toValue)) w w₁)
    (hran : run (Dispatch.runNode node r) w₁ = (result, w₂))
    (hclosed : Wrote (Store.NodeLogs.place r.execution) (.list ((logs ++ [row]).map NodeLog.toValue)) w₂ w' ∨
      row = entry ∧ Quiet w₂ w')
    (hid : row.nodeId = node.id) (htype : row.nodeType = node.type)
    (hout : ∀ output, result = .ok output → Action.awaitsClick output = true → row.outputData.answered = false) :
    Added r.execution logs row w w' := by
  obtain ⟨hworked, hmapped⟩ := Dispatch.runNode_worked node r w₁
  rw [hran] at hworked hmapped
  have hread (other : String) (hne : (Store.NodeLogs.place other).path ≠ (Store.NodeLogs.place r.execution).path) :
      w₂.storage.read (Store.NodeLogs.place other) (.list []) = w.storage.read (Store.NodeLogs.place other) (.list []) :=
    (hworked.read_ne (nodeLogs_ne_mappings _)).trans (hopened.read_ne hne)
  have hlisted (m : ButtonMapping) (hm : Continuation.Listed m w₂) : Continuation.Listed m w ∨
      m.executionId = r.execution ∧ m.nodeId = row.nodeId ∧ row.isRouting = false ∧ row.outputData.answered = false := by
    rcases hm.of_worked hworked with hm | ⟨he, hn, -, hne⟩
    · exact .inl (hm.of_wrote_ne hopened fun _ => (nodeLogs_ne_mappings _ _).symm)
    · rcases hmapped with hsame | ⟨output, rfl, ht, -, hawaits⟩
      · exact absurd hsame hne
      · have haction : node.type = NodeType.action.name := beq_iff_eq.1 (Node.isOfType_iff.2 ht)
        refine .inr ⟨he, hn.trans hid.symm, ?_, hout output rfl hawaits⟩
        rw [NodeLog.isRouting, htype, haction]
        rfl
  rcases hclosed with hw | ⟨rfl, hq⟩
  · exact ⟨hw.hasLogs, fun other ho => (hw.read_ne ho).trans (hread other ho),
      fun m hm => hlisted m (hm.of_wrote_ne hw fun _ => (nodeLogs_ne_mappings _ _).symm),
      hw.accepted.trans (hworked.accepted.trans hopened.accepted)⟩
  · refine ⟨hq.hasLogs (hworked.hasLogs hopened.hasLogs), fun other ho => ?_, fun m hm => hlisted m ?_,
      hq.accepted.trans (hworked.accepted.trans hopened.accepted)⟩
    · rw [hq.storage]
      exact hread other ho
    · rw [Continuation.Listed, ← hq.storage]
      exact hm

end Added

/-- A node that is performed adds its row, or nothing is changed that lasts. -/
theorem Dispatch.Performed.added {node : Node} {p q : Progress} {result : Except Fault Value}
    (h : Dispatch.Performed node logs p (result, q)) : Quiet p.world q.world ∨
      ∃ row, row.nodeId = node.id ∧ Added p.run.execution logs row p.world q.world := by
  cases h with
  | untitled _ hq => exact .inl hq
  | @unopened _ _ entry he hposted =>
    cases hposted with
    | unheard _ hw => exact .inr ⟨entry, by rw [he]; rfl, .of_wrote hw⟩
    | lost _ hq => exact .inl hq
  | @refused _ output w₁ w₂ entry he _ hw hran =>
    exact .inr ⟨entry, by rw [he]; rfl, .of_turn (r := p.run.marked node) hw hran (.inr ⟨rfl, .refl _⟩) (by rw [he]; rfl) (by rw [he]; rfl)
      fun _ _ _ => by rw [he]; rfl⟩
  | @succeeded _ output duration w₁ w₂ w₃ entry he _ hw hran hclosed =>
    have hclose (hw' : Wrote (Store.NodeLogs.place p.run.execution) _ w₂ w₃) :
        Added p.run.execution logs (entry.succeeded output duration w₂.clock.stamp) p.world w₃ :=
      .of_turn (r := p.run.marked node) hw hran (.inl hw') (by rw [he]; rfl) (by rw [he]; rfl) fun other ho hawaits => by
        obtain rfl := Except.ok.inj ho
        exact Value.answered_of_awaitsClick hawaits
    cases hclosed with
    | done hw' => exact .inr ⟨_, by rw [he]; rfl, hclose hw'⟩
    | unheard _ hw' => exact .inr ⟨_, by rw [he]; rfl, hclose hw'⟩
    | lost _ hq => exact .inr ⟨entry, by rw [he]; rfl, .of_turn (r := p.run.marked node) hw hran (.inr ⟨rfl, hq⟩) (by rw [he]; rfl)
        (by rw [he]; rfl) fun _ _ _ => by rw [he]; rfl⟩
  | @failed closed fault duration w₁ w₂ w₃ entry he hw hran hclosed =>
    have hclose (hw' : Wrote (Store.NodeLogs.place p.run.execution) _ w₂ w₃) :
        Added p.run.execution logs (entry.failed fault duration fault.output w₂.clock.stamp) p.world w₃ :=
      .of_turn (r := p.run.marked node) hw hran (.inl hw') (by rw [he]; rfl) (by rw [he]; rfl) fun _ ho => by cases ho
    cases hclosed with
    | done hw' => exact .inr ⟨_, by rw [he]; rfl, hclose hw'⟩
    | unheard _ hw' => exact .inr ⟨_, by rw [he]; rfl, hclose hw'⟩
    | lost _ hq => exact .inr ⟨entry, by rw [he]; rfl, .of_turn (r := p.run.marked node) hw hran (.inr ⟨rfl, hq⟩) (by rw [he]; rfl)
        (by rw [he]; rfl) fun _ ho => by cases ho⟩

/-! ## What no step undoes -/

/-- Whether no row tells of a button where a message waits for a click, nor where a click was accepted. -/
structure Forgetful (w : World) : Prop where
  orderly : Orderly w
  listed : ∀ m, Continuation.Listed m w → w.storage.Withholds m.executionId m.nodeId
  accepted : ∀ a ∈ w.accepted, w.storage.Withholds a.execution a.node

namespace Forgetful

theorem idle (h : Forgetful w) (hi : Idle w w') : Forgetful w' where
  orderly := h.orderly.idle hi
  listed m hm := by
    rw [hi.storage]
    rw [Continuation.Listed, hi.storage] at hm
    exact h.listed m hm
  accepted := by
    rw [hi.accepted, hi.storage]
    exact h.accepted

theorem quiet (h : Forgetful w) (hq : Quiet w w') : Forgetful w' :=
  h.idle hq.idle

/-- A file was written that is no list: neither rows nor mappings. -/
theorem wrote {place : Location} {v : Value} (h : Forgetful w) (ho : Orderly w') (hw : Wrote place v w w')
    (hv : ∀ rows, v ≠ .list rows) : Forgetful w' := by
  have hread {other : Location} {rows : List Value} (hr : w'.storage.read other (.list []) = .ok (.list rows)) :
      w.storage.read other (.list []) = .ok (.list rows) := by
    by_cases hp : other.path = place.path
    · rw [Storage.read_congr hp] at hr
      exact absurd (Except.ok.inj (hw.read_self.symm.trans hr)) (hv rows)
    · rwa [hw.read_ne hp] at hr
  have hkept {execution node : String} (hs : w.storage.Withholds execution node) : w'.storage.Withholds execution node :=
    fun logs hl => hs logs (hread hl)
  refine ⟨ho, fun m ⟨message, rows, hr, hrest⟩ => hkept (h.listed m ⟨message, rows, hread hr, hrest⟩), fun a ha => ?_⟩
  rw [hw.accepted] at ha
  exact hkept (h.accepted a ha)

/-- A row was added, of a node that had none or of a click that led nowhere. -/
theorem added (h : Forgetful w) (ho : Orderly w') (hl : HasLogs w.storage execution logs)
    (hnew : row.isRouting = false → row.nodeId ∉ attempts logs) (ha : Added execution logs row w w') : Forgetful w' := by
  have hcongr {other : String} {s : Storage}
      (hp : (Store.NodeLogs.place other).path = (Store.NodeLogs.place execution).path) {logs : List NodeLog} :
      HasLogs s other logs ↔ HasLogs s execution logs := by
    rw [HasLogs, HasLogs, Storage.read_congr hp]
  have hkept {other node : String} (hs : w.storage.Withholds other node) : w'.storage.Withholds other node := by
    intro logs' hl'
    by_cases hp : (Store.NodeLogs.place other).path = (Store.NodeLogs.place execution).path
    · obtain rfl := ((hcongr hp).1 hl').unique ha.rows
      have hs := hs logs ((hcongr hp).2 hl)
      exact hs.append fun hr he => hnew hr (he ▸ hs.attempted)
    · rw [HasLogs, ha.others other hp] at hl'
      exact hs logs' hl'
  refine ⟨ho, fun m hm => ?_, fun a hm => ?_⟩
  · rcases ha.listed m hm with hm | ⟨rfl, hnode, hr, hrow⟩
    · exact hkept (h.listed m hm)
    · intro logs' hl'
      obtain rfl := hl'.unique ha.rows
      rw [hnode]
      refine ⟨by rw [attempts_append, hr]; simp, fun other hother hrouting hid => ?_⟩
      rcases List.mem_append.1 hother with hother | hother
      · exact absurd (hid ▸ List.mem_map.2 ⟨other, by simp [hother, hrouting], rfl⟩) (hnew hr)
      · rw [List.mem_singleton.1 hother]
        exact hrow
  · rw [ha.accepted] at hm
    exact hkept (h.accepted a hm)

/-- A click was accepted that a mapping was there for. -/
theorem accepting {mapping : ButtonMapping} {workflow : Workflow} {x : Execution} {node : Node} (h : Forgetful w)
    (hr : Continuation.Ready mapping workflow x node w) (button : Value) : Forgetful (w.accepting x node button) := by
  obtain ⟨hissued, hid⟩ := h.orderly.id_of_ready hr
  have hnode : node.id = mapping.nodeId := by simpa using List.find?_some hr.found
  refine ⟨?_, h.listed, fun a ha => ?_⟩
  · refine ⟨h.orderly.files, by rw [World.calls_accepting]; exact h.orderly.origins,
      by rw [World.calls_accepting]; exact h.orderly.once, fun a ha => ?_⟩
    rw [World.accepted_accepting, List.mem_append, List.mem_singleton] at ha
    rcases ha with ha | rfl
    · exact h.orderly.accepted a ha
    · exact hissued
  · rw [World.accepted_accepting, List.mem_append, List.mem_singleton] at ha
    rcases ha with ha | rfl
    · exact h.accepted a ha
    · show w.storage.Withholds x.id node.id
      rw [hid, hnode]
      exact h.listed mapping hr.listed

end Forgetful

/-- No move of a run undoes it. -/
theorem stable_forgetful : Stable fun p => Tracks p ∧ Forgetful p.world where
  quiet h hq := ⟨stable_tracks.quiet h.1 hq, h.2.quiet hq⟩
  noted failed firstError suspended h := ⟨stable_tracks.noted failed firstError suspended h.1, h.2⟩
  entered node h := ⟨stable_tracks.entered node h.1, h.2⟩
  clicked button title data ho hd h := ⟨stable_tracks.clicked button title data ho hd h.1, h.2⟩
  performed p node hn he hnew h := by
    have htracks := stable_tracks.performed p node hn he hnew h.1
    refine ⟨htracks, ?_⟩
    rcases h.1.orderly.logs_cases p.run.execution with ⟨logs, hl, hc, -, -⟩ | hno
    · have hp := @Dispatch.perform_cases node logs p hl hc
      rcases hp.added with hq | ⟨row, hid, ha⟩
      · exact h.2.quiet hq
      · refine h.2.added htracks.orderly hl (fun _ hm => ?_) ha
        rw [h.1.known logs hl _ (hid ▸ hm)] at hnew
        cases hnew
    · obtain ⟨w, r⟩ := p
      obtain ⟨fault, w', hb, hq⟩ := @Dispatch.perform_barred node w r fun _ => hno
      rw [hb]
      exact h.2.quiet hq

/-! ## Sessions -/

theorem lasting_forgetful : Lasting Forgetful where
  idle h hi := h.idle hi
  claimed h hw := h.wrote (lasting_orderly.claimed h.orderly hw) hw fun rows hrows => by cases hrows
  released message w h := by
    have hread {folder : Folder} (hne : folder ≠ .claims) (id : String) :
        (w.storage.remove (Store.Claims.place message)).read (.ofRecord folder id ".json") (.list []) =
          w.storage.read (.ofRecord folder id ".json") (.list []) :=
      Storage.read_remove_ne (Apart.claims_ne message hne _ _)
    have hkept {execution node : String} (hs : w.storage.Withholds execution node) :
        (w.storage.remove (Store.Claims.place message)).Withholds execution node :=
      fun logs hl => hs logs ((hread (by decide) execution).symm.trans hl)
    exact ⟨h.orderly.released message, fun m ⟨other, rows, hr, hrest⟩ =>
      hkept (h.listed m ⟨other, rows, (hread (by decide) other).symm.trans hr, hrest⟩), fun a ha => hkept (h.accepted a ha)⟩
  launch workflow payload w h := by
    obtain ⟨ho, ht⟩ := startExecution_tracks workflow payload (Context.start payload).triggerData h.orderly
    have hup : Forgetful { w with issued := w.issued + 1 } :=
      ⟨h.orderly.mono rfl (Nat.le_succ _) rfl rfl, h.listed, h.accepted⟩
    rcases Journal.startExecution_cases workflow.id (Context.start payload).triggerData w with
      ⟨session, w', hr, hw⟩ | ⟨-, fault, w', hr, hq⟩
    · rw [hr] at ho ht
      obtain ⟨r, -, hend⟩ := stable_forgetful.launch hr ⟨ht _ rfl, hup.wrote ho hw fun rows hrows => by cases hrows⟩
      exact hend
    · unfold Invocation.launch
      rw [run_bind_error hr]
      exact hup.quiet hq
  resume h hr := by
    obtain ⟨r, -, hend⟩ := stable_forgetful.resume _ ⟨h.orderly.tracks_of_resumable hr, h.accepting hr.toReady _⟩
    exact hend
  routed execution node message details w h := by
    have ho := orderly_routingFailed execution node message details w h.orderly
    rcases h.orderly.routingFailed_cases execution node message details with
      ⟨logs, row, hl, -, -, -, hrouting, -, hp⟩ | ⟨fault, w', hr, hq⟩
    · exact hp.keeps (I := fun u => Orderly u → Forgetful u)
        (fun hw ho => h.added ho hl (fun hr => by rw [hrouting] at hr; cases hr) (.of_wrote hw)) (fun hq _ => h.quiet hq) ho
    · rw [hr]
      exact h.quiet hq
  finish id status error duration _ w h := by
    have ho := orderly_finishExecution id status error duration w h.orderly
    rcases h.orderly.finish_cases id status error duration with ⟨x, hx, -, -⟩ | ⟨fault, w', hr, hq⟩
    · exact (Journal.finishExecution_posted hx status error duration).keeps (I := fun u => Orderly u → Forgetful u)
        (fun hw ho => h.wrote ho hw fun rows hrows => by cases hrows) (fun hq _ => h.quiet hq) ho
    · rw [hr]
      exact h.quiet hq

theorem forgetful_saveWorkflow (V : Workflow) : Keeps Forgetful (Store.Workflows.save V) := by
  intro w h
  have ho := orderly_saveWorkflow V w h.orderly
  rcases Store.Workflows.save_cases V w with ⟨w', hr, hw⟩ | ⟨fault, w', hr, hq⟩ <;> rw [hr] at ho ⊢
  · exact h.wrote ho hw fun rows hrows => by cases hrows
  · exact h.quiet hq

theorem enduring_forgetful : Enduring Forgetful where
  toLasting := lasting_forgetful
  saved := forgetful_saveWorkflow
  closed _ h := ⟨h.orderly.of_eq rfl rfl rfl rfl, h.listed, h.accepted⟩
  armed _ _ h := ⟨h.orderly.of_eq rfl rfl rfl rfl, h.listed, h.accepted⟩

/-- Every session keeps buttons out of the rows. -/
theorem forgetful_run (steps : List Session.Step) {w : World} (h : Forgetful w) : Forgetful (Session.run steps w).2 :=
  enduring_forgetful.run steps h

theorem forgetful_initial (config : Config) (root : String) (auditor : Option Auditor) :
    Forgetful (.initial config root auditor) where
  orderly := orderly_initial config root auditor
  listed m hm := by
    obtain ⟨message, rows, hr, row, hrow, -⟩ := hm
    obtain rfl := Value.list.inj (Except.ok.inj hr)
    cases hrow
  accepted a ha := by cases ha

/-! ## Contexts that are rebuilt -/

namespace Context

variable {c c' : Context} {log : NodeLog} {node : String} {v : Value}

/-- Where no row of a node tells of a button, no rebuilt context does. -/
theorem answered_of_replay {triggerData : Value} (h : replay triggerData logs = .ok c) (hu : Unanswered logs node) :
    (c.output node).answered = false := by
  unfold output Value.field
  cases hv : c.outputs.get? node with
  | none => rfl
  | some v =>
    rcases get?_of_foldlM h hv with hv | ⟨row, hm, hrouting, hnode, rfl⟩
    · cases hv
    · exact hu.silent row hm hrouting hnode

/-- A click changes the output of its own node only. -/
theorem output_spliceButton_ne (c : Context) {other : String} (fields : Entries Value) (h : node ≠ other) :
    (c.spliceButton other fields).output node = c.output node := by
  simp only [spliceButton, output, Value.field, Entries.get?_set_ne _ _ h]

end Context

end Rows

/-! ## Clicks that go on -/

/-- Since some world no step was taken but that clicks were read. -/
structure Since (u w : World) : Prop where
  rows : ∀ execution, w.storage.read (Store.NodeLogs.place execution) (.list []) =
    u.storage.read (Store.NodeLogs.place execution) (.list [])
  accepted : w.accepted = u.accepted
  forgetful : Forgetful w

theorem heedless_since (u : World) : Heedless (Since u) where
  quiet h hq := ⟨fun _ => by rw [hq.storage, h.rows], hq.accepted.trans h.accepted, h.forgetful.quiet hq⟩
  claimed {message _ _ _ _} h hw := ⟨fun id => (hw.read_ne (Apart.claims_ne message (by decide) id _)).trans (h.rows id),
    hw.accepted.trans h.accepted, lasting_forgetful.claimed h.forgetful hw⟩
  released message _ h := ⟨fun id =>
      (Storage.read_remove_ne (Apart.claims_ne message (by decide) id ".json")).trans (h.rows id),
    h.accepted, lasting_forgetful.released message h.forgetful⟩

/-- A click that goes on, after whatever session, does so from the rows of its execution and its own fields alone: the
output of a node that was clicked before has no button, though the click was accepted. -/
theorem clicks_forgotten (config : Config) (root : String) (auditor : Option Auditor) (steps : List Session.Step) :
    let w := (Session.run steps (.initial config root auditor)).2
    ∀ {message : String} {button data : Value} {mapping : ButtonMapping} {v u : World} {a : Continuation.Admission},
      run (Store.Mappings.find? message) w = (.ok (some mapping), v) →
      run (Continuation.admission mapping message button data) v = (.ok a, u) →
      ∃ logs rebuilt fields, HasLogs w.storage a.execution.id logs ∧
        Context.replay a.execution.triggerData logs = .ok rebuilt ∧ ButtonMessage.clicked button data = .ok fields ∧
        a.context = rebuilt.spliceButton a.node.id fields ∧
        ∀ c ∈ w.accepted, c.execution = a.execution.id → c.node ≠ a.node.id →
          (a.context.output c.node).answered = false := by
  intro w message button data mapping v u a hf ha
  have hw : Since w w := ⟨fun _ => rfl, rfl, forgetful_run steps (forgetful_initial config root auditor)⟩
  have hq := Store.Mappings.hushed_find? message w
  rw [hf] at hq
  have hv := (heedless_since w).quiet hw hq
  rcases (heedless_since w).admission message button data hv (Continuation.listed_of_find? hf hq) with
    ⟨fault, u', hr, -⟩ | ⟨b, u', hr, -, hi, hres⟩
  · rw [ha] at hr
    cases hr
  · rw [ha, Prod.mk.injEq] at hr
    obtain rfl := Except.ok.inj hr.1
    obtain ⟨logs, hl⟩ := hi.forgetful.orderly.hasLogs_of_resumable hres
    obtain ⟨rebuilt, fields, hreplay, hfields, hcontext⟩ := hres.restored logs hl
    refine ⟨logs, rebuilt, fields, (hi.rows _).symm.trans hl, hreplay, hfields, hcontext, fun c hc he hne => ?_⟩
    rw [hcontext, Context.output_spliceButton_ne _ _ hne]
    exact Context.answered_of_replay hreplay (hi.forgetful.accepted c (hi.accepted ▸ hc) logs (he ▸ hl))

namespace Sample

/-- Two messages, one behind the other, each named by its node, and a click on the first. -/
def firstClick : List Session.Step :=
  [.register .tool sender
      (some ⟨fun _ call => ⟨0, .ok (.map [("message_id", .str ((call.origin.map Origin.node).getD ""))])⟩, 0⟩),
    .saveWorkflow (workflow true), .execute (workflow true) .null, .click "menu" (.str "more") .null]

/-- What a click on the second message goes on with. -/
def secondClick (w : World) : Option Continuation.Admission :=
  match run (Store.Mappings.find? "ask") w with
  | (.ok (some mapping), v) => (run (Continuation.admission mapping "ask" (.str "yes") (.map [])) v).1.toOption
  | _ => none

/-- Whether the first click was accepted. -/
def isClicked (w : World) : Bool :=
  w.accepted.any fun c => c.execution == execution && c.node == "menu" && c.button.str? == some "more"

end Sample

/-- The first of two messages has no button when the second is clicked. -/
theorem clicks_forgotten_sample :
    let w := (Session.run Sample.firstClick (.initial {} "" none)).2
    Sample.isClicked w = true ∧ ∃ a, Sample.secondClick w = some a ∧ a.execution.id = Sample.execution ∧
      a.node.id = "ask" ∧ (a.context.output "menu").answered = false := by
  dsimp only
  have h : (Sample.isClicked (Session.run Sample.firstClick (.initial {} "" none)).2,
      (Sample.secondClick (Session.run Sample.firstClick (.initial {} "" none)).2).map fun a => (a.execution.id, a.node.id)) =
      (true, some (Sample.execution, "ask")) := by
    decide +kernel
  obtain ⟨hclicked, hsecond⟩ := Prod.mk.inj h
  obtain ⟨a, ha, heq⟩ := Option.map_eq_some_iff.1 hsecond
  obtain ⟨hid, hnode⟩ := Prod.mk.inj heq
  refine ⟨hclicked, a, ha, hid, hnode, ?_⟩
  obtain ⟨c, hc, hcw⟩ := List.any_eq_true.1 hclicked
  simp only [Bool.and_eq_true, beq_iff_eq] at hcw
  rw [Sample.secondClick] at ha
  rcases hf : run (Store.Mappings.find? "ask") (Session.run Sample.firstClick (.initial {} "" none)).2 with
    ⟨fault | _ | mapping, v⟩ <;> rw [hf] at ha
  · cases ha
  · cases ha
  · dsimp only at ha
    rcases hadmission : run (Continuation.admission mapping "ask" (.str "yes") (.map [])) v with ⟨fault | b, u⟩ <;>
      rw [hadmission] at ha
    · cases ha
    · obtain rfl := Option.some.inj ha
      obtain ⟨-, -, -, -, -, -, -, hforgotten⟩ := clicks_forgotten {} "" none Sample.firstClick hf hadmission
      rw [← hcw.1.2]
      exact hforgotten c hc (hcw.1.1.trans hid.symm) (by rw [hcw.1.2, hnode]; decide)

/-- A node behind the second message does not see the button of the first, which was clicked. -/
theorem not_remembered :
    let w := (Session.run (Sample.firstClick ++ [.click "ask" (.str "yes") .null]) (.initial {} "" none)).2
    Sample.isClicked w = true ∧ ∃ row ∈ w.storage.nodeLogs Sample.execution, row.nodeId = "end" ∧ row.status = .success ∧
      ∃ input, row.inputData = .map input ∧ Entries.has input "menu" = true ∧ (Value.field input "menu").answered = false := by
  dsimp only
  have h : (Sample.isClicked (Session.run (Sample.firstClick ++ [.click "ask" (.str "yes") .null]) (.initial {} "" none)).2 &&
      ((Session.run (Sample.firstClick ++ [.click "ask" (.str "yes") .null]) (.initial {} "" none)).2.storage.nodeLogs
        Sample.execution).any fun row => row.nodeId == "end" && row.status == .success &&
          row.inputData.entries?.any fun input => Entries.has input "menu" && !(Value.field input "menu").answered) = true := by
    decide +kernel
  obtain ⟨hclicked, hrow⟩ := Bool.and_eq_true_iff.1 h
  refine ⟨hclicked, ?_⟩
  obtain ⟨row, hm, hrow⟩ := List.any_eq_true.1 hrow
  simp only [Bool.and_eq_true, beq_iff_eq, Option.any_eq_true] at hrow
  obtain ⟨⟨hid, hstatus⟩, input, hinput, hhas, hanswered⟩ := hrow
  refine ⟨row, hm, hid, hstatus, input, ?_, hhas, by simpa using hanswered⟩
  cases hv : row.inputData <;> rw [hv] at hinput <;> cases hinput
  rfl

end WorkGraph
