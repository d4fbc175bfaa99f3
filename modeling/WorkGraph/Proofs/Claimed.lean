import WorkGraph.Proofs.Chronicle
import WorkGraph.Proofs.Refused

/-!
# Messages that are taken

No file is ever taken away again but a claim that is given up, and only the click that made a claim gives it up: whatever
step is taken, what was there before is there behind it (`growing_perform`). A click that gets as far as to a restored
context (`Continuation.Restores`) leaves its message claimed (`restores_held`), so that the message stays claimed for
good, and of the clicks on a claimed message there is nothing left but the entry that tells why they led nowhere
(`click_held`). Hence a message continues an execution at most once (`continued_at_most_once`).
-/

namespace WorkGraph

open Engine

/-! ## Files that stay -/

/-- Whether there is a file at a place. -/
def World.Holds (w : World) (place : Location) : Prop :=
  (w.storage.find? place).isSome = true

/-- Every file that there was is there still. -/
def World.Extends (w w' : World) : Prop :=
  ∀ place, w.Holds place → w'.Holds place

namespace World.Extends

variable {u w w' : World} {place : Location} {v : Value}

theorem of_storage (h : w'.storage = w.storage) : w.Extends w' := by
  intro place hp
  rwa [Holds, h]

theorem trans (h : u.Extends w) (k : w.Extends w') : u.Extends w' :=
  fun place hp => k place (h place hp)

/-- A write adds a file, or it puts something else into one. -/
theorem of_write {storage : Storage} (h : w.storage.write place v = .ok storage) (hs : w'.storage = storage) :
    w.Extends w' := by
  intro other ho
  rw [Holds, hs]
  by_cases hp : other.path = place.path
  · rw [Storage.find?, hp, ← Storage.find?, Storage.find?_write_self h]
    rfl
  · rw [Storage.find?_write_ne h hp]
    exact ho

theorem of_wrote (h : Wrote place v w w') : w.Extends w' :=
  of_write h.storage rfl

end World.Extends

namespace Engine

variable {α β : Type}

/-- Whatever comes of a computation, it takes no file away. -/
def Growing (act : Engine α) : Prop :=
  ∀ w : World, w.Extends (run act w).2

theorem growing_hushed {act : Engine α} (h : Hushed act) : Growing act :=
  fun w => .of_storage (h w).storage

theorem growing_bind {act : Engine α} {next : α → Engine β} (h : Growing act) (k : ∀ a, Growing (next a)) :
    Growing (act >>= next) := by
  intro w
  have hw := h w
  rw [run_bind]
  rcases hr : run act w with ⟨fault | a, u⟩ <;> rw [hr] at hw
  · exact hw
  · exact hw.trans (k a u)

theorem growing_after {act : Engine α} {next : α → Engine β} (h : Hushed act) (k : ∀ a, Growing (next a)) :
    Growing (act >>= next) :=
  growing_bind (growing_hushed h) k

theorem growing_then {act : Engine α} {next : α → Engine β} (h : Growing act) (k : ∀ a, Hushed (next a)) :
    Growing (act >>= next) :=
  growing_bind h fun a => growing_hushed (k a)

theorem growing_map {act : Engine α} (f : α → β) (h : Growing act) : Growing (f <$> act) :=
  growing_then h fun a => hushed_pure (f a)

theorem growing_attempt {act : Engine α} (h : Growing act) : Growing (attempt act) :=
  h

theorem growing_ite {c : Prop} [Decidable c] {act other : Engine α} (h : Growing act) (k : Growing other) :
    Growing (if c then act else other) := by
  split
  · exact h
  · exact k

end Engine

/-! ## The stores -/

namespace Store

theorem growing_writeFile (place : Location) (v : Value) : Growing (writeFile place v) := by
  intro w
  rw [run_writeFile]
  cases hs : w.storage.write place v with
  | ok storage => exact .of_write hs rfl
  | error fault => exact .of_storage rfl

theorem Executions.growing_save (x : Execution) : Growing (Executions.save x) :=
  growing_after (hushed_entering _) fun _ => growing_writeFile _ _

theorem Executions.growing_update (id : String) (fields : Entries Value) : Growing (Executions.update id fields) := by
  refine growing_after (hushed_entering _) fun _ => growing_after (hushed_ofExcept _) fun _ =>
    growing_after (hushed_readFile _ _) fun data => growing_ite (growing_after (hushed_throw _) fun _ => ?_) ?_
  all_goals
    split
    · exact growing_after hushed_stamp fun _ => growing_after (hushed_ofExcept _) fun x =>
        growing_then (growing_writeFile _ _) fun _ => hushed_pure _
    · exact growing_hushed (hushed_throw _)

theorem NodeLogs.growing_append (execution : String) (fields : Entries Value) :
    Growing (NodeLogs.append execution fields) :=
  growing_after (hushed_entering _) fun _ => growing_after (hushed_ofExcept _) fun _ =>
    growing_after (hushed_readFile _ _) fun _ => growing_after (hushed_ofExcept _) fun _ =>
      growing_after (hushed_ofExcept _) fun _ => growing_after hushed_stamp fun _ =>
        growing_after (hushed_ofExcept _) fun _ => growing_after (hushed_ofExcept _) fun _ =>
          growing_then (growing_writeFile _ _) fun _ => hushed_pure _

theorem NodeLogs.growing_update (execution : String) (id : Value) (fields : Entries Value) :
    Growing (NodeLogs.update execution id fields) := by
  refine growing_after (hushed_entering _) fun _ => growing_after (hushed_ofExcept _) fun _ =>
    growing_after (hushed_readFile _ _) fun _ => growing_after (hushed_ofExcept _) fun _ =>
      growing_after hushed_stamp fun _ => growing_after (hushed_ofExcept _) fun found => ?_
  split
  · exact growing_then (growing_writeFile _ _) fun _ => hushed_pure _
  · exact growing_hushed (hushed_throw _)

theorem Workflows.growing_save (W : Workflow) : Growing (Workflows.save W) :=
  growing_after (hushed_entering _) fun _ => growing_after (hushed_ofExcept _) fun _ =>
    growing_then (growing_writeFile _ _) fun _ => hushed_pure _

theorem Workflows.growing_setStatus (id : String) (status : WorkflowStatus) :
    Growing (Workflows.setStatus id status) := by
  refine growing_after (hushed_entering _) fun _ => growing_after (hushed_find? _) fun found => ?_
  split
  · exact growing_hushed (hushed_pure _)
  · exact growing_map _ (growing_save _)

end Store

/-! ## The journal -/

namespace Journal

theorem growing_startExecution (workflow : String) (triggerData : Value) :
    Growing (startExecution workflow triggerData) := by
  have hid : Growing freshExecutionId := fun w => .of_storage rfl
  exact growing_bind hid fun _ => growing_after (hushed_openSession _ _) fun _ => growing_after hushed_stamp fun _ =>
    growing_after (hushed_ofExcept _) fun _ => growing_bind (Store.Executions.growing_save _) fun _ =>
      growing_after (hushed_log (by decide)) fun _ => growing_hushed (hushed_pure _)

theorem growing_finishExecution (id : String) (status : RunStatus) (error : Value) (duration : Int) :
    Growing (finishExecution id status error duration) :=
  growing_after hushed_stamp fun _ => growing_then (Store.Executions.growing_update _ _) fun _ =>
    hushed_bind (hushed_log (by decide)) fun _ => hushed_bind (hushed_report fun _ => Audit.hushed_append _ _ _) fun _ =>
      hushed_pure _

theorem growing_startNode (execution : String) (node : Node) (input : Value) :
    Growing (startNode execution node input) :=
  growing_then (Store.NodeLogs.growing_append _ _) fun _ =>
    hushed_bind (hushed_report fun _ => Audit.hushed_append _ _ _) fun _ => hushed_pure _

theorem growing_nodeSucceeded (log : NodeLog) (output : Value) (duration : Int) :
    Growing (nodeSucceeded log output duration) :=
  growing_after hushed_stamp fun _ => growing_then (Store.NodeLogs.growing_update _ _ _) fun _ =>
    hushed_bind (hushed_report fun _ => Audit.hushed_append _ _ _) fun _ => hushed_pure _

theorem growing_nodeFailed (log : NodeLog) (fault : Fault) (duration : Int) (output : Value) :
    Growing (nodeFailed log fault duration output) :=
  growing_after hushed_stamp fun _ => growing_then (Store.NodeLogs.growing_update _ _ _) fun _ =>
    hushed_bind (hushed_log (by decide)) fun _ => hushed_bind (hushed_report fun _ => Audit.hushed_append _ _ _) fun _ =>
      hushed_pure _

theorem growing_routingFailed (execution node message : String) (details : Entries Value) :
    Growing (routingFailed execution node message details) :=
  growing_after hushed_stamp fun _ => growing_then (Store.NodeLogs.growing_append _ _) fun _ =>
    hushed_bind (hushed_log (by decide)) fun _ => hushed_pure _

end Journal

/-! ## Runs -/

namespace Dispatch

open Running

/-- A node that runs adds at most one mapping. -/
theorem growing_runNode (node : Node) (r : Run) : Growing (runNode node r) := by
  intro w
  rcases (runNode_worked node r w).1.storage with hs | ⟨m, -, -, -, rows, -, hw⟩
  · exact .of_storage hs
  · exact .of_write hw rfl

/-- What the work of nodes and the journal of their rows keep, no move of a run breaks. -/
theorem stable_of_keeps {I : World → Prop} (hquiet : ∀ {w w' : World}, I w → Quiet w w' → I w')
    (hran : ∀ node r, Engine.Keeps I (runNode node r))
    (hstart : ∀ execution node input, Engine.Keeps I (Journal.startNode execution node input))
    (hsucceeded : ∀ log output duration, Engine.Keeps I (Journal.nodeSucceeded log output duration))
    (hfailed : ∀ log fault duration output, Engine.Keeps I (Journal.nodeFailed log fault duration output)) :
    Stable fun p => I p.world where
  quiet := hquiet
  noted _ _ _ h := h
  entered _ h := h
  clicked _ _ _ _ _ h := h
  performed p node _ _ _ h := by
    let J (p : Progress) : Prop := I p.world
    have hlift {α : Type} {act : Engine α} (ha : Engine.Keeps I act) : Running.Keeps J (liftM act : Running α) :=
      fun p hp => ha p.world hp
    have hread {α : Type} {act : Engine α} (ha : Hushed act) : Running.Keeps J (liftM act : Running α) :=
      hlift fun w hw => hquiet hw (ha w)
    have hrecord (output : Value) : Running.Keeps J (record node output) :=
      keeps_bind (fun _ hp => hp) fun _ => keeps_bind (hread (hushed_ofExcept _)) fun _ _ hp => hp
    have hclose (log : NodeLog) (fault : Fault) (duration : Int) : Running.Keeps J (do
        let _ ← liftM (Journal.nodeFailed log fault duration fault.output)
        pure () : Running Unit) :=
      keeps_bind (hlift (hfailed _ _ _ _)) fun _ => keeps_pure ()
    have hperform : Running.Keeps J (perform node) := by
      refine keeps_bind (fun _ hp => hp) fun _ => keeps_bind (hread hushed_reading) fun start =>
        keeps_bind (fun _ hp => hp) fun r => keeps_bind (hlift (hstart _ _ _)) fun log =>
          keeps_bind (hlift (keeps_attempt (hran node r))) fun result => ?_
      cases result with
      | ok output =>
        exact keeps_bind (hrecord _) fun _ => keeps_bind (hread (hushed_since _)) fun _ =>
          keeps_bind (hlift (hsucceeded _ _ _)) fun _ => keeps_pure _
      | error fault =>
        refine keeps_bind ?_ fun _ => keeps_throw _
        exact keeps_bind (hread (hushed_since _)) fun _ => keeps_bind (fun _ hp => hp) fun _ =>
          keeps_ite (keeps_bind (hrecord _) fun _ => hclose _ _ _) (hclose _ _ _)
    exact hperform p h

/-- No move of a run takes a file away. -/
theorem stable_extends (w : World) : Stable fun p => w.Extends p.world :=
  have hgrow {α : Type} {act : Engine α} (ha : Growing act) : Engine.Keeps w.Extends act :=
    fun u hu => hu.trans (ha u)
  stable_of_keeps (fun h hq => h.trans (.of_storage hq.storage)) (fun _ _ => hgrow (growing_runNode _ _))
    (fun _ _ _ => hgrow (Journal.growing_startNode _ _ _)) (fun _ _ _ => hgrow (Journal.growing_nodeSucceeded _ _ _))
    fun _ _ _ _ => hgrow (Journal.growing_nodeFailed _ _ _ _)

end Dispatch

/-! ## Invocations -/

namespace Invocation

theorem growing_settle (W : Workflow) (r : Run) {act : Running Unit}
    (h : ∀ w : World, Running.Keeps (fun p => w.Extends p.world) act) : Growing (settle W r act) := by
  intro w
  obtain ⟨s, w', hr, hq, -⟩ := run_settle W r act w
  rw [hr]
  exact (h w ⟨w, r⟩ (.of_storage rfl)).trans (.of_storage hq.storage)

theorem growing_launch (W : Workflow) (payload : Value) : Growing (launch W payload) := by
  rw [launch_eq]
  have hwarn (g : Graph) : Hushed (warnOfCycle W g) := by
    unfold warnOfCycle
    split
    · exact hushed_pure _
    · exact hushed_log (by decide)
  refine growing_bind ?_ fun r => growing_settle W r fun w => (Dispatch.stable_extends w).fromTrigger
  exact growing_bind (Journal.growing_startExecution _ _) fun x => growing_after (hushed_log (by decide)) fun _ =>
    growing_after (hwarn _) fun _ => growing_hushed (hushed_pure _)

theorem growing_finalize (r : Run) (duration : Int) : Growing (finalize r duration) := by
  rw [finalize_eq]
  exact growing_after (hushed_entering _) fun _ =>
    growing_then (Journal.growing_finishExecution _ _ _ _) fun _ => hushed_pure _

theorem growing_execute (W : Workflow) (payload : Value) : Growing (execute W payload) :=
  growing_after (hushed_entering _) fun _ => growing_after hushed_reading fun _ =>
    growing_bind (growing_launch W payload) fun _ => growing_after (hushed_since _) fun _ => growing_finalize _ _

theorem growing_executeStored (id : String) (payload : Value) : Growing (executeStored id payload) := by
  refine growing_after (Store.Workflows.hushed_find? _) fun found => ?_
  split
  · exact growing_execute _ _
  · exact growing_hushed (hushed_bind (hushed_log (by decide)) fun _ => hushed_pure _)

theorem growing_resume (W : Workflow) (execution : String) (node : Node) (context : Context) (prior : Option String) :
    Growing (resume W execution node context prior) := by
  intro w
  have hstart : w.Extends (Progress.mk w (.start execution W context)).world := .of_storage rfl
  obtain ⟨r, hr⟩ := (Dispatch.stable_extends w).resume prior hstart
  exact hr

end Invocation

theorem Trigger.growing_fire (trigger payload : Value) : Growing (fire trigger payload) := by
  have hone (W : Workflow) (payload : Value) : Growing (runOne Invocation.execute trigger payload W) := by
    refine growing_bind (growing_attempt (Invocation.growing_execute W payload)) fun result => growing_hushed ?_
    split
    · exact hushed_pure _
    · exact hushed_bind (hushed_log (by decide)) fun _ => hushed_pure _
    · exact hushed_bind (hushed_logFault _ _) fun _ => hushed_pure _
  have hall (payload : Value) : ∀ workflows, Growing (runAll Invocation.execute trigger payload workflows) := by
    intro workflows
    induction workflows with
    | nil => exact growing_hushed (hushed_pure _)
    | cons W rest ih => exact growing_bind (hone W payload) fun _ => growing_then ih fun _ => hushed_pure _
  exact growing_after (Store.Workflows.hushed_byTrigger _) fun _ => growing_after (hushed_log (by decide)) fun _ => hall _ _

/-! ## Clicks -/

namespace Continuation

theorem growing_admission (mapping : ButtonMapping) (message : String) (button data : Value) :
    Growing (admission mapping message button data) := by
  intro w
  rcases admission_cases mapping message button data w with
    ⟨fault, u, hr, hq | ⟨-, -, execution, now, hw⟩⟩ | ⟨a, u, now, hr, -, hw⟩ <;> rw [hr]
  · exact .of_storage hq.storage
  · exact .of_wrote hw
  · exact (World.Extends.of_wrote hw).trans (.of_storage rfl)

theorem growing_noteUnrouted (message : String) (x : Execution) (node : Node) (button : Value) (routing : Routing)
    (r : Run) : Growing (noteUnrouted message x node button routing r) :=
  growing_ite (growing_hushed (hushed_pure _)) <| growing_then (Journal.growing_routingFailed _ _ _ _) fun _ =>
    hushed_pure _

theorem growing_goOn (message : String) (W : Workflow) (x : Execution) (node : Node) (button : Value)
    (context : Context) (start : Int) : Growing (goOn message W x node button context start) :=
  growing_bind (Invocation.growing_resume _ _ _ _ _) fun _ => growing_bind (growing_noteUnrouted _ _ _ _ _ _) fun _ =>
    growing_after (hushed_totalDuration _ _) fun _ => Invocation.growing_finalize _ _

theorem growing_goOnOrFail (message : String) (W : Workflow) (x : Execution) (node : Node) (button : Value)
    (context : Context) (start : Int) : Growing (goOnOrFail message W x node button context start) := by
  refine growing_bind (growing_attempt (growing_goOn _ _ _ _ _ _ _)) fun result => ?_
  split
  · exact growing_hushed (hushed_pure _)
  · exact growing_after (hushed_totalDuration _ _) fun _ => growing_after (hushed_logFault _ _) fun _ =>
      growing_then (Journal.growing_finishExecution _ _ _ _) fun _ => hushed_throw _

theorem growing_refuse (mapping : ButtonMapping) (message : String) (button : Value) (fault : Fault) :
    Growing (refuse mapping message button fault) := by
  intro w
  rcases refuse_cases mapping message button fault w with ⟨w', hr, rows, text, details, -, hw⟩ | ⟨fault', w', hr, hq⟩ <;>
    rw [hr]
  · exact .of_wrote hw
  · exact .of_storage hq.storage

end Continuation

theorem growing_click (message : String) (button data : Value) : Growing (click message button data) := by
  refine growing_after (Store.Mappings.hushed_find? _) fun found => ?_
  cases found with
  | none => exact growing_hushed (hushed_bind (hushed_log (by decide)) fun _ => hushed_pure _)
  | some mapping =>
    dsimp only
    rw [Continuation.proceed_eq]
    refine growing_bind (growing_attempt (growing_bind (Continuation.growing_admission _ _ _ _) fun a =>
      Continuation.growing_goOnOrFail _ _ _ _ _ _ _)) fun result => ?_
    split
    · exact growing_hushed (hushed_pure _)
    · exact growing_then (Continuation.growing_refuse _ _ _ _) fun _ => hushed_pure _

/-- No step of a session takes a file away. -/
theorem growing_perform (step : Session.Step) : Growing (Session.perform step) := by
  cases step with
  | execute W payload => exact growing_map _ (Invocation.growing_execute W payload)
  | executeStored id payload => exact growing_map _ (Invocation.growing_executeStored id payload)
  | trigger trigger payload => exact growing_map _ (Trigger.growing_fire trigger payload)
  | click message button data => exact growing_map _ (growing_click message button data)
  | saveWorkflow W => exact growing_map _ (Store.Workflows.growing_save W)
  | setWorkflowStatus id status => exact growing_map _ (Store.Workflows.growing_setStatus id status)
  | register role | unregister role => cases role <;> exact fun w => .of_storage rfl
  | advance | inject | forget | closeAudit => exact fun w => .of_storage rfl

theorem extends_run (steps : List Session.Step) (w : World) : w.Extends (Session.run steps w).2 := by
  induction steps generalizing w with
  | nil => exact .of_storage rfl
  | cons step rest ih => exact (growing_perform step w).trans (ih _)

/-! ## Messages that are claimed -/

section Message

variable {message : String} {button data : Value} {w : World}

/-- A click that gets as far as to a restored context leaves its message claimed. -/
theorem restores_held (h : Continuation.Restores message button data w) :
    (run (click message button data) w).2.Holds (Store.Claims.place message) := by
  obtain ⟨mapping, u, a, v, hf, ha⟩ := h
  have hheld : v.Holds (Store.Claims.place message) := by
    rcases Continuation.admission_cases mapping message button (data.orElse (.map [])) u with
      ⟨fault, u', hr, -⟩ | ⟨a', u', now, hr, -, hw⟩
    · rw [ha] at hr
      cases hr
    · obtain ⟨-, rfl⟩ := Prod.mk.inj (ha.symm.trans hr)
      show (u'.storage.find? _).isSome = true
      rw [hw.find?_self]
      rfl
  rw [run_click_admitted hf ha]
  refine growing_bind (growing_attempt (Continuation.growing_goOnOrFail _ _ _ _ _ _ _)) (fun result => ?_) v _ hheld
  split
  · exact growing_hushed (hushed_pure _)
  · exact growing_then (Continuation.growing_refuse _ _ _ _) fun _ => hushed_pure _

/-- A click on a claimed message is noted at most. -/
theorem click_held (h : w.Holds (Store.Claims.place message)) :
    let w' := (run (click message button data) w).2
    Quiet w w' ∨ ∃ mapping, Noted mapping w w' := by
  intro w'
  have hq := Store.Mappings.hushed_find? message w
  by_cases hmapped : ∃ mapping, (run (Store.Mappings.find? message) w).1 = .ok (some mapping)
  · obtain ⟨mapping, hf⟩ := hmapped
    have hheld : (run (Store.Mappings.find? message) w).2.storage.find? (Store.Claims.place message) ≠ none := by
      rw [hq.storage]
      exact Option.isSome_iff_ne_none.1 h
    obtain ⟨fault, v, ha, hv⟩ := Continuation.admission_held hheld mapping button (data.orElse (.map []))
    have hrun : w' = (run (Continuation.refuse mapping message button fault >>= fun _ => pure none) v).2 :=
      congrArg Prod.snd (run_click_refused (Prod.ext hf rfl) ha)
    rw [hrun]
    rcases Continuation.refuse_cases mapping message button fault v with ⟨v', hr, hn⟩ | ⟨fault', v', hr, hn⟩
    · rw [run_bind_ok hr]
      exact .inr ⟨mapping, hn.before (hq.trans hv)⟩
    · rw [run_bind_error hr]
      exact .inl (hq.trans (hv.trans hn))
  · exact .inl (click_unmapped fun mapping hf => hmapped ⟨mapping, hf⟩)

/-- A click whose context is not restored tries no node and calls nobody. -/
theorem click_unrestored (h : ¬Continuation.Restores message button data w) :
    let w' := (run (click message button data) w).2
    w'.calls = w.calls ∧ ∀ execution, w'.storage.attempted execution = w.storage.attempted execution := by
  intro w'
  have hquiet {u v : World} (hq : Quiet u v) : v.calls = u.calls ∧
      ∀ execution, v.storage.attempted execution = u.storage.attempted execution :=
    ⟨hq.calls, fun execution => by rw [hq.storage]⟩
  have hq := Store.Mappings.hushed_find? message w
  by_cases hmapped : ∃ mapping, (run (Store.Mappings.find? message) w).1 = .ok (some mapping)
  · obtain ⟨mapping, hf⟩ := hmapped
    rcases Continuation.admission_cases mapping message button (data.orElse (.map []))
      (run (Store.Mappings.find? message) w).2 with ⟨fault, v, ha, hleft⟩ | ⟨a, v, now, ha, -⟩
    · obtain ⟨hcalls, hattempted⟩ : v.calls = w.calls ∧
          ∀ execution, v.storage.attempted execution = w.storage.attempted execution := by
        rcases hleft with hv | ⟨-, -, execution, now, hw⟩
        · exact hquiet (hq.trans hv)
        · have hw := hw.before hq
          exact ⟨hw.calls, fun id => Spared.attempted_congr (hw.read_ne (claims_ne_nodeLogs message id))⟩
      have hrun : w' = (run (Continuation.refuse mapping message button fault >>= fun _ => pure none) v).2 :=
        congrArg Prod.snd (run_click_refused (Prod.ext hf rfl) ha)
      rw [hrun]
      rcases Continuation.refuse_cases mapping message button fault v with ⟨v', hr, hn⟩ | ⟨fault', v', hr, hn⟩
      · rw [run_bind_ok hr]
        exact ⟨hn.calls.trans hcalls, fun execution => (hn.attempted execution).trans (hattempted execution)⟩
      · rw [run_bind_error hr]
        exact ⟨hn.calls.trans hcalls, fun execution => ((hquiet hn).2 execution).trans (hattempted execution)⟩
    · exact absurd ⟨mapping, _, a, _, Prod.ext hf rfl, ha⟩ h
  · exact hquiet (click_unmapped fun mapping hf => hmapped ⟨mapping, hf⟩)

end Message

/-- Whether a collaborator was called between two worlds, or a row was added or changed that is one of a node. -/
def World.Works (w w' : World) : Prop :=
  w'.calls ≠ w.calls ∨ ∃ execution, w'.storage.attempted execution ≠ w.storage.attempted execution

/-- Of two clicks on a message, in whatever world the first is and whatever steps lie between them, one at most calls a
collaborator or adds a row of a node. If the context was restored for the first, the second calls nobody and leaves every
file as it is, but that a row may be added to a log for a click that led nowhere. -/
theorem continued_at_most_once (w : World) (steps : List Session.Step) (message : String)
    (button data button' data' : Value) :
    let w' := (run (Session.perform (.click message button data)) w).2
    let u := (Session.run steps w').2
    let u' := (run (Session.perform (.click message button' data')) u).2
    ¬(w.Works w' ∧ u.Works u') ∧
    (Continuation.Restores message button data w → u'.calls = u.calls ∧ (u'.storage = u.storage ∨
      ∃ execution rows, ∃ row : NodeLog, row.isRouting = true ∧
        u.storage.read (Store.NodeLogs.place execution) (.list []) = .ok (.list rows) ∧
        u.storage.write (Store.NodeLogs.place execution) (.list (rows ++ [row.toValue])) = .ok u'.storage)) := by
  intro w' u u'
  have hw' : w' = (run (click message button data) w).2 := run_map_snd _ _ _
  have hu' : u' = (run (click message button' data') u).2 := run_map_snd _ _ _
  -- a message that was claimed by the first click is claimed still
  have hlater (h : Continuation.Restores message button data w) : Quiet u u' ∨ ∃ mapping, Noted mapping u u' := by
    have hheld : w'.Holds (Store.Claims.place message) := hw' ▸ restores_held h
    exact hu' ▸ click_held (extends_run steps w' _ hheld)
  constructor
  · rintro ⟨hfirst, hsecond⟩
    by_cases h : Continuation.Restores message button data w
    · rcases hlater h with hq | ⟨mapping, hn⟩
      · rcases hsecond with hc | ⟨execution, ha⟩
        · exact hc hq.calls
        · exact ha (by rw [hq.storage])
      · rcases hsecond with hc | ⟨execution, ha⟩
        · exact hc hn.calls
        · exact ha (hn.attempted execution)
    · obtain ⟨hcalls, hattempted⟩ := click_unrestored h
      rw [← hw'] at hcalls hattempted
      rcases hfirst with hc | ⟨execution, ha⟩
      · exact hc hcalls
      · exact ha (hattempted execution)
  · intro h
    rcases hlater h with hq | ⟨mapping, rows, text, details, hr, hw⟩
    · exact ⟨hq.calls, .inl hq.storage⟩
    · exact ⟨hw.calls, .inr ⟨_, rows, _, NodeLog.isRouting_unrouted _ _ _ _ _ _, hr, hw.storage⟩⟩

/-- A message that waits is clicked, and clicked again once its workflow was saved anew. -/
theorem continued_at_most_once_sample :
    let w := (Session.run (Sample.asking (.str Sample.sender)) (.initial {} "" none)).2
    let w' := (run (Session.perform (.click "m" (.str "yes") .null)) w).2
    let u := (Session.run [.saveWorkflow (Sample.halfway (.str Sample.sender))] w').2
    let u' := (run (Session.perform (.click "m" (.str "yes") .null)) u).2
    Continuation.Restores "m" (.str "yes") .null w ∧ u'.calls = u.calls := by
  intro w w' u u'
  have h : Continuation.Restores "m" (.str "yes") .null w := Sample.restores_iff.1 (by decide +kernel)
  exact ⟨h, ((continued_at_most_once w [.saveWorkflow (Sample.halfway (.str Sample.sender))] "m" (.str "yes") .null
    (.str "yes") .null).2 h).1⟩

end WorkGraph
