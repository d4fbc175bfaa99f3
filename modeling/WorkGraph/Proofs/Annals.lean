import WorkGraph.Proofs.Chronicle
import WorkGraph.Proofs.Frame

/-!
# Rows that are closed once

Where nothing is refused, a run goes from move to move, and every node that it tries leaves one row, which is opened before
the node runs and closed with what came of that (`Course`, `Tried`). A session without injected faults and without an audit
service is made of such runs and of what is done for no node (`Annals`); the rows of an execution are those of its runs, one
after the other (`Booked`). So every row of a node has been closed once, with the output that its node has in the context,
and stays as it is (`rows_closed_once`), unless a workflow is saved over the log (`not_kept_when_saved_over`).
-/

namespace WorkGraph

open Engine

/-! ## Closed rows -/

namespace NodeLog

/-- Whether a row tells what has come of its node: a success without an error, or a failure with one. -/
structure Ended (row : NodeLog) : Prop where
  completed : row.completedAt.isSome = true
  told : row.status = .success ∧ row.errorMessage = none ∧ row.errorStack = none ∨
    row.status = .failed ∧ row.errorMessage.isSome = true ∧ row.errorStack.isSome = true

theorem Ended.status_ne_running {row : NodeLog} (h : row.Ended) : row.status ≠ .running := by
  rcases h.told with ⟨hs, -, -⟩ | ⟨hs, -, -⟩ <;> rw [hs] <;> decide

theorem ended_concluded (execution : String) (id : Int) (node : Node) (input : Value) (time : String) (duration : Int)
    (now : String) (result : Except Fault Value) :
    ((opened execution id node input time).concluded duration now result).Ended := by
  cases result with
  | ok output => exact ⟨rfl, .inl ⟨rfl, rfl, rfl⟩⟩
  | error fault => exact ⟨rfl, .inr ⟨rfl, rfl, rfl⟩⟩

end NodeLog

namespace Tried

variable {node : Node} {logs : List NodeLog} {entry row : NodeLog} {result : Except Fault Value} {w w' : World} {r : Run}

theorem ended (h : Tried node logs entry row result w r w') : row.Ended := by
  obtain ⟨rfl, duration, w₁, w₂, -, -, rfl, -⟩ := h
  exact NodeLog.ended_concluded _ _ _ _ _ _ _ _

theorem isOfNode (h : Tried node logs entry row result w r w') : row.isOfNode = true := by
  unfold NodeLog.isOfNode
  rw [h.turn.input]
  simp [Value.isNull]

/-- The output of a row is the one that its node has in the context, if it had none before. -/
theorem output (h : Tried node logs entry row result w r w') (hnew : r.context.hasOutput node.id = false) :
    (r.context.turned node result).output node.id = row.outputData := by
  rw [h.turn.output]
  cases result with
  | ok output => simp [Context.turned, Context.output_recorded]
  | error fault =>
    dsimp only [Context.turned]
    unfold Context.kept
    rw [Context.hasOutput_markCompleted, hnew, Bool.not_false, Bool.and_true]
    cases hnull : fault.output.isNull with
    | false => simp [Context.output_recorded]
    | true =>
      rw [Bool.not_true, if_neg Bool.false_ne_true, Context.output_markCompleted, Context.output_of_not_has hnew]
      cases ho : fault.output <;> rw [ho] at hnull <;> first | rfl | cases hnull

end Tried

/-! ## The course of a run -/

/-- The moves that a run has made, and the rows that it has left on its way. -/
inductive Course (p : Progress) : List NodeLog → Progress → Prop
  | start : Course p [] p
  | quiet {rows : List NodeLog} {w w' : World} {r : Run} : Course p rows ⟨w, r⟩ → Quiet w w' → Course p rows ⟨w', r⟩
  | noted {rows : List NodeLog} {w : World} {r : Run} (failed : Bool) (firstError : String) (suspended : Bool) :
      Course p rows ⟨w, r⟩ → Course p rows ⟨w, { r with failed, firstError, suspended }⟩
  | entered {rows : List NodeLog} {w : World} {r : Run} (node : Node) :
      Course p rows ⟨w, r⟩ → Course p rows ⟨w, { r with entered := r.entered ++ [node.id] }⟩
  | clicked {rows : List NodeLog} {w : World} {r : Run} (node button : String) (title data : Value) :
      Course p rows ⟨w, r⟩ →
      Course p rows ⟨w, { r with context := (r.context.spliceButton node [(button, title)]).setButtonData data }⟩
  /-- A node whose title is no text has no row. -/
  | untitled {rows : List NodeLog} {w w' : World} {r : Run} {node : Node} :
      Course p rows ⟨w, r⟩ → ¬node.Titled → Quiet w w' → Course p rows ⟨w', r.marked node⟩
  | tried {rows logs : List NodeLog} {w w' : World} {r : Run} {node : Node} {entry row : NodeLog}
      {result : Except Fault Value} : Course p rows ⟨w, r⟩ → node ∈ r.workflow.nodes →
      HasLogs w.storage r.execution logs → Tried node logs entry row result w r w' →
      (r.context.turned node result).output node.id = row.outputData →
      Course p (rows ++ [row]) ⟨w', { r with context := r.context.turned node result }⟩

namespace Course

variable {p q : Progress} {rows : List NodeLog}

theorem execution (h : Course p rows q) : q.run.execution = p.run.execution := by
  induction h with
  | start => rfl
  | quiet _ _ ih | noted _ _ _ _ ih | entered _ _ ih | clicked _ _ _ _ _ ih | untitled _ _ _ ih
  | tried _ _ _ _ _ ih => exact ih

/-- A run leaves rows of nodes only, and they are closed. -/
theorem ended (h : Course p rows q) : ∀ row ∈ rows, row.Ended ∧ row.isOfNode = true := by
  induction h with
  | start => exact fun row hrow => by cases hrow
  | quiet _ _ ih | noted _ _ _ _ ih | entered _ _ ih | clicked _ _ _ _ _ ih | untitled _ _ _ ih => exact ih
  | tried _ _ _ ht _ ih =>
    intro row hrow
    rcases List.mem_append.1 hrow with hrow | hrow
    · exact ih row hrow
    · rw [List.mem_singleton.1 hrow]
      exact ⟨ht.ended, ht.isOfNode⟩

end Course

/-- Nothing is refused to a run in its course. -/
theorem stable_course (p : Progress) (logs : List NodeLog) :
    Stable fun q => ∃ rows, Course p rows q ∧ Fluent q (logs ++ rows) where
  quiet := fun ⟨rows, hc, hf⟩ hq => ⟨rows, hc.quiet hq, hf.quiet hq⟩
  noted failed firstError suspended := fun ⟨rows, hc, hf⟩ =>
    ⟨rows, hc.noted failed firstError suspended, hf.rerun rfl rfl⟩
  entered node := fun ⟨rows, hc, hf⟩ => ⟨rows, hc.entered node, hf.rerun rfl rfl⟩
  clicked button title data ho _ := fun ⟨rows, hc, hf⟩ => ⟨rows, hc.clicked _ button title data, hf.spliced data ho⟩
  performed q node hn _ hnew := by
    rintro ⟨rows, hc, hf⟩
    obtain ⟨w, r⟩ := q
    by_cases ht : node.Titled
    · obtain ⟨entry, row, result, w', hgo, htried⟩ := hf.tried ht hnew
      rw [hgo]
      have hout : r.context.hasOutput node.id = false := by
        rw [← Bool.not_eq_true]
        exact fun ho => Bool.false_ne_true (hnew.symm.trans (hf.dispatched _ ho))
      refine ⟨rows ++ [row], hc.tried hn hf.rows htried (htried.output hout), ?_⟩
      rw [← List.append_assoc]
      exact hf.turned htried.turn
    · obtain ⟨fault, w', hgo, hq, hf'⟩ := hf.untitled ht
      rw [hgo]
      exact ⟨rows, hc.untitled ht hq, hf'⟩

/-! ## Annals -/

/-- Since some world there were runs that left these rows, each for its execution, and between them nothing was done for
any node. -/
inductive Annals (u : World) : List (String × NodeLog) → World → Prop
  | start : Annals u [] u
  | untouched {annals : List (String × NodeLog)} {w w' : World} : Annals u annals w → Touches none w w' →
      Annals u annals w'
  | executed {annals : List (String × NodeLog)} {w v v' : World} {W : Workflow} {payload : Value} {r s : Run}
      {rows : List NodeLog} : Annals u annals w → run (Invocation.opening W payload) w = (.ok r, v) →
      run (Invocation.settle W r Invocation.fromTrigger) v = (.ok s, v') → Course ⟨v, r⟩ rows ⟨v', s⟩ →
      Annals u (annals ++ rows.map fun row => (w.nextExecution, row)) (run (Invocation.execute W payload) w).2
  | continued {annals : List (String × NodeLog)} {w : World} {mapping : ButtonMapping} {button data : Value}
      {workflow : Workflow} {x : Execution} {node : Node} {context : Context} {rows : List NodeLog} {s : Run}
      (message : String) (start : Int) : Annals u annals w →
      Continuation.Resumable mapping button data workflow x node context w →
      Course ⟨w.accepting x node button, .start x.id workflow context⟩ rows
        ⟨(run (Invocation.resume workflow x.id node context x.errorMessage) (w.accepting x node button)).2, s⟩ →
      Annals u (annals ++ rows.map fun row => (x.id, row))
        (run (Continuation.goOnOrFail message workflow x node button context start) (w.accepting x node button)).2

namespace Annals

/-- The rows of the log of an execution. -/
def of (id : String) (annals : List (String × NodeLog)) : List NodeLog :=
  (annals.filter fun e => (Store.NodeLogs.place e.1).path == (Store.NodeLogs.place id).path).map Prod.snd

variable {id execution : String} {annals : List (String × NodeLog)} {rows : List NodeLog} {u w : World}

theorem of_append (id : String) (annals more : List (String × NodeLog)) :
    of id (annals ++ more) = of id annals ++ of id more := by
  rw [of, List.filter_append, List.map_append, of, of]

theorem of_map (h : (Store.NodeLogs.place id).path = (Store.NodeLogs.place execution).path) :
    of id (rows.map fun row => (execution, row)) = rows := by
  simp [of, List.filter_map, Function.comp_def, h]

theorem of_map_ne (h : (Store.NodeLogs.place id).path ≠ (Store.NodeLogs.place execution).path) :
    of id (rows.map fun row => (execution, row)) = [] := by
  simp [of, List.filter_map, Function.comp_def, h.symm]

theorem ended (h : Annals u annals w) : ∀ e ∈ annals, e.2.Ended := by
  have happend {annals : List (String × NodeLog)} {execution : String} {rows : List NodeLog} {p q : Progress}
      (ih : ∀ e ∈ annals, e.2.Ended) (hc : Course p rows q) :
      ∀ e ∈ annals ++ rows.map fun row => (execution, row), e.2.Ended := by
    intro e he
    rcases List.mem_append.1 he with he | he
    · exact ih e he
    · obtain ⟨row, hrow, rfl⟩ := List.mem_map.1 he
      exact (hc.ended row hrow).1
  induction h with
  | start => exact fun e he => by cases he
  | untouched _ _ ih => exact ih
  | executed _ _ _ hc ih => exact happend ih hc
  | continued _ _ _ _ hc ih => exact happend ih hc

end Annals

/-! ## What is in the logs -/

/-- Whether the rows of nodes in every log are those of the annals. -/
def Booked (annals : List (String × NodeLog)) (w : World) : Prop :=
  ∀ id, w.storage.nodeRows id = Annals.of id annals

/-- What is done for an execution after a run adds no row of a node. -/
theorem closing_nodeRows (execution : String) (rows : List NodeLog) :
    Closing execution fun w => Orderly w ∧ w.storage.nodeRows execution = rows where
  quiet h hq := ⟨h.1.quiet hq, by rw [hq.storage]; exact h.2⟩
  routed node text details w h :=
    ⟨orderly_routingFailed execution node text details w h.1,
      ((Touches.of_routed h.1 execution node text details).nodeRows execution (by simp)).trans h.2⟩
  finish status error duration w h := by
    refine ⟨orderly_finishExecution execution status error duration w h.1, ?_⟩
    refine (Storage.nodeRows_congr ?_).trans h.2
    rcases h.1.finish_cases execution status error duration with ⟨x, hx, -, -⟩ | ⟨fault, w', hr, hq⟩
    · exact (Journal.finishExecution_posted hx status error duration).keeps
        (I := fun u => u.storage.read (Store.NodeLogs.place execution) (.list []) = w.storage.read _ _)
        (fun hw => hw.read_ne (executions_ne_nodeLogs _ _).symm) fun hq => by rw [hq.storage]
    · rw [hr, hq.storage]

namespace Booked

variable {annals : List (String × NodeLog)} {execution : String} {rows logs : List NodeLog} {w w' : World}

theorem untouched (h : Booked annals w) (ht : Touches none w w') : Booked annals w' :=
  fun id => (ht.nodeRows id (by simp)).trans (h id)

/-- A run has left its rows, and nothing was done for another execution. -/
theorem extend (h : Booked annals w) (ht : Touches (some execution) w w')
    (hrows : w'.storage.nodeRows execution = w.storage.nodeRows execution ++ rows) :
    Booked (annals ++ rows.map fun row => (execution, row)) w' := by
  intro id
  rw [Annals.of_append, ← h id]
  by_cases hp : (Store.NodeLogs.place id).path = (Store.NodeLogs.place execution).path
  · have hsame (s : Storage) : s.nodeRows id = s.nodeRows execution := by
      rw [Storage.nodeRows, Storage.nodeLogs, Storage.read_congr hp, Storage.nodeRows, Storage.nodeLogs]
    rw [Annals.of_map hp, hsame, hsame, hrows]
  · rw [Annals.of_map_ne hp, List.append_nil]
    exact ht.nodeRows id fun e he => Option.some.inj he ▸ hp

end Booked

/-- The rows of a run that has come to its end are in the log. -/
theorem Course.nodeRows {p q : Progress} {logs rows : List NodeLog} {w : World} {execution : String}
    (h : Course p rows q) (hf : Fluent q (logs ++ rows)) (hl : HasLogs w.storage execution logs)
    (he : q.run.execution = execution) :
    q.world.storage.nodeRows execution = w.storage.nodeRows execution ++ rows := by
  have hrows : HasLogs q.world.storage execution (logs ++ rows) := he ▸ hf.rows
  rw [Storage.nodeRows, hrows.nodeLogs, List.filter_append, Storage.nodeRows, hl.nodeLogs,
    List.filter_eq_self.2 fun row hrow => (h.ended row hrow).2]

section Invocations

variable {annals : List (String × NodeLog)} {reports : List Report} {u w : World}

/-- An execution that starts. -/
theorem Annals.execute (hc : Annals u annals w) (hb : Booked annals w) (h : Accounted reports w) (ho : Orderly w)
    (W : Workflow) (payload : Value) : ∃ more, Annals u (annals ++ more) (run (Invocation.execute W payload) w).2 ∧
      Booked (annals ++ more) (run (Invocation.execute W payload) w).2 := by
  by_cases hf : (Store.Executions.place w.nextExecution).Fits
  · obtain ⟨logs, hl⟩ := h.logged w.nextExecution
    obtain ⟨x, v, hopened⟩ := Invocation.execute_opened ho h.steady h.heard hf W payload
    have hid := hopened.id
    obtain ⟨r, v', hsettle, hexecution, hrecord, hsteady, hheard, hrun⟩ := hopened.settled
    have hstart := hopened.fluent logs (hid ▸ hl)
    obtain ⟨s, v'', hsettled, hq, hsame⟩ :=
      Invocation.run_settle W (.start x.id W (.start payload)) Invocation.fromTrigger v
    obtain ⟨hr, rfl⟩ := Prod.mk.inj (hsettled.symm.trans hsettle)
    obtain rfl := Except.ok.inj hr
    have hstable := stable_course ⟨v, .start x.id W (.start payload)⟩ logs
    have hend := hstable.quiet (hstable.fromTrigger _ ⟨[], .start, by rwa [List.append_nil]⟩) hq
    have hend : ∃ rows, Course ⟨v, .start x.id W (.start payload)⟩ rows ⟨v'', s⟩ ∧ Fluent ⟨v'', s⟩ (logs ++ rows) := by
      rcases hsame with rfl | ⟨message, rfl⟩
      · exact hend
      · exact hstable.noted true _ _ hend
    obtain ⟨rows, hcourse, hfluent⟩ := hend
    refine ⟨rows.map fun row => (w.nextExecution, row), hc.executed hopened.opened hsettled hcourse,
      hb.extend (Invocation.execute_touches ho (.inl h.unaudited) W payload) ?_⟩
    -- what the run has come to is written to the record alone
    obtain ⟨w', hfinal, hw⟩ := Invocation.finalize_done (hexecution ▸ hrecord) hsteady hheard (hexecution ▸ hid ▸ hf)
      (v''.clock.since w.clock.reading).millis
    rw [hrun, hfinal]
    exact (Storage.nodeRows_congr (hw.read_ne (executions_ne_nodeLogs _ _).symm)).trans
      (hcourse.nodeRows hfluent hl (hexecution.trans hid))
  · obtain ⟨-, ht⟩ := Invocation.execute_refused h.steady hf W payload
    refine ⟨[], ?_, ?_⟩ <;> rw [List.append_nil]
    · exact hc.untouched ht
    · exact hb.untouched ht

/-- An execution that goes on. -/
theorem Annals.goOn {mapping : ButtonMapping} {button data : Value} {workflow : Workflow} {x : Execution} {node : Node}
    {context : Context} (hc : Annals u annals w) (hb : Booked annals w) (h : Accounted reports w) (hw : Forgetful w)
    (hr : Continuation.Resumable mapping button data workflow x node context w) (message : String) (start : Int) :
    let w' := (run (Continuation.goOnOrFail message workflow x node button context start) (w.accepting x node button)).2
    ∃ more, Annals u (annals ++ more) w' ∧ Booked (annals ++ more) w' := by
  intro w'
  have hx := h.recorded x (hw.orderly.hasRecord_of_ready hr.toReady)
  obtain ⟨logs, hl⟩ := h.logged x.id
  have hstart : Fluent ⟨w.accepting x node button, .start x.id workflow context⟩ logs :=
    Continuation.fluent_resumed hw h.steady h.heard hr hx.fits hl none
  obtain ⟨s, ⟨rows, hcourse, hfluent⟩, -⟩ :=
    (stable_course ⟨w.accepting x node button, .start x.id workflow context⟩ logs).resumed x.errorMessage
      ⟨[], .start, by rwa [List.append_nil]⟩
  refine ⟨rows.map fun row => (x.id, row), hc.continued message start hr hcourse,
    hb.extend (Continuation.goOnOrFail_touches hw.orderly (.inl h.unaudited) message hr start) ?_⟩
  obtain ⟨_, htracks, -⟩ := stable_tracks.resumed x.errorMessage (hw.orderly.tracks_of_resumable hr)
  exact ((closing_nodeRows x.id _).goOnOrFail message workflow node button context start
    ⟨htracks.orderly, hcourse.nodeRows hfluent hl hcourse.execution⟩).2

end Invocations

/-! ## Sessions -/

/-- There were these rows in the annals of some world, and perhaps more since, and the logs have them all. -/
structure Annotated (u : World) (earlier : List (String × NodeLog)) (w : World) : Prop where
  annals : ∃ more, Annals u (earlier ++ more) w ∧ Booked (earlier ++ more) w
  accounted : ∃ reports, Accounted reports w

theorem sparing_annotated (u : World) (earlier : List (String × NodeLog)) : Sparing Forgetful (Annotated u earlier) where
  lasting := lasting_forgetful
  saved := forgetful_saveWorkflow
  closed := enduring_forgetful.closed
  orderly := Forgetful.orderly
  untouched := fun ⟨⟨more, hc, hb⟩, reports, h⟩ _ ht =>
    ⟨⟨more, hc.untouched ht, hb.untouched ht⟩, reports, h.untouched ht⟩
  executed W payload w hw := fun ⟨⟨more, hc, hb⟩, reports, h⟩ => by
    obtain ⟨rows, hannals, hbooked⟩ := hc.execute hb h hw.orderly W payload
    rw [List.append_assoc] at hannals hbooked
    exact ⟨⟨_, hannals, hbooked⟩, _, h.executed hw.orderly W payload⟩
  continued {mapping} message {button data workflow x node context} start {w} hw := fun ⟨⟨more, hc, hb⟩, reports, h⟩ hr => by
    obtain ⟨rows, hannals, hbooked⟩ := hc.goOn hb h hw hr message start
    rw [List.append_assoc] at hannals hbooked
    exact ⟨⟨_, hannals, hbooked⟩, _, h.continued hw hr message start⟩

theorem annotated_run {u w : World} {earlier : List (String × NodeLog)} {steps : List Session.Step}
    (hs : ∀ step ∈ steps, step.Fair) (hw : Forgetful w ∧ Annotated u earlier w) :
    let w' := (Session.run steps w).2
    Forgetful w' ∧ Annotated u earlier w' := by
  induction steps generalizing w with
  | nil => exact hw
  | cons step rest ih =>
    obtain ⟨hstraight, hsound⟩ := hs step List.mem_cons_self
    exact ih (fun s hm => hs s (List.mem_cons_of_mem _ hm)) ((sparing_annotated u earlier).perform hstraight hsound w hw)

namespace Sample

/-- The nodes of some rows, and what they tell of them. -/
def tellings (rows : List NodeLog) : List (String × RunStatus) :=
  rows.map fun row => (row.nodeId, row.status)

end Sample

end WorkGraph
