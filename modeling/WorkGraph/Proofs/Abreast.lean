import WorkGraph.Proofs.Once
import WorkGraph.Trigger

/-!
# Two worlds side by side

A computation that is run in two worlds, of which some relation holds, may come to the same in both and leave two such
worlds behind (`Engine.Abreast`). So it is with whatever nodes do, provided the worlds agree in what nodes read and differ
in some odd files only, which they do not read (`Bond`, `Bond.runNode`). Two runs of which no move of a dispatch breaks a
relation (`Yoked`) go the same way through the graph (`Yoked.settle`, `Yoked.along`).
-/

namespace WorkGraph

/-! ## Computations -/

/-- What is said to the audit service. -/
def Effect.request? : Effect → Option Request
  | .request r => some r
  | _ => none

namespace Engine

variable {R : World → World → Prop} {α β : Type}

/-- A computation comes to the same in two worlds, and leaves two worlds behind of which the relation holds still. -/
def Abreast (R : World → World → Prop) (act : Engine α) : Prop :=
  ∀ w w', R w w' → ∃ result u u', run act w = (result, u) ∧ run act w' = (result, u') ∧ R u u'

theorem abreast_pure (a : α) : Abreast R (pure a) :=
  fun _ _ h => ⟨.ok a, _, _, rfl, rfl, h⟩

theorem abreast_throw (fault : Fault) : Abreast R (throw fault : Engine α) :=
  fun _ _ h => ⟨.error fault, _, _, rfl, rfl, h⟩

theorem abreast_ofExcept (result : Except Fault α) : Abreast R (ofExcept result) :=
  fun _ _ h => ⟨result, _, _, run_ofExcept _ _, run_ofExcept _ _, h⟩

theorem abreast_bind {act : Engine α} {next : α → Engine β} (h : Abreast R act) (k : ∀ a, Abreast R (next a)) :
    Abreast R (act >>= next) := by
  intro w w' hw
  obtain ⟨result, u, u', hr, hr', hu⟩ := h w w' hw
  cases result with
  | ok a =>
    obtain ⟨result, v, v', hn, hn', hv⟩ := k a u u' hu
    exact ⟨result, v, v', (run_bind_ok hr).trans hn, (run_bind_ok hr').trans hn', hv⟩
  | error fault => exact ⟨_, u, u', run_bind_error hr, run_bind_error hr', hu⟩

theorem abreast_map {act : Engine α} (f : α → β) (h : Abreast R act) : Abreast R (f <$> act) :=
  abreast_bind h fun a => abreast_pure (f a)

theorem abreast_attempt {act : Engine α} (h : Abreast R act) : Abreast R (attempt act) := by
  intro w w' hw
  obtain ⟨result, u, u', hr, hr', hu⟩ := h w w' hw
  exact ⟨.ok result, u, u', by rw [run_attempt, hr], by rw [run_attempt, hr'], hu⟩

theorem abreast_ite {c : Prop} [Decidable c] {act other : Engine α} (h : Abreast R act) (k : Abreast R other) :
    Abreast R (if c then act else other) := by
  split
  · exact h
  · exact k

theorem abreast_modify {f : World → World} (h : ∀ w w', R w w' → R (f w) (f w')) : Abreast R (modify f) :=
  fun w w' hw => ⟨.ok (), _, _, rfl, rfl, h w w' hw⟩

/-- What is read of the world is the same on both sides. -/
theorem abreast_get {act : World → Engine α} (h : ∀ w w', R w w' → act w' = act w) (k : ∀ w, Abreast R (act w)) :
    Abreast R (get >>= act) := by
  intro w w' hw
  rw [run_get_bind, run_get_bind, h w w' hw]
  exact k w w w' hw

end Engine

open Engine

/-! ## Storages that differ -/

/-- Two storages with files of the same names, and what each file holds on both sides is as a relation allows. -/
structure Storage.Differ (D : String → Option Document → Option Document → Prop) (s t : Storage) : Prop where
  root : t.root = s.root
  keys : t.files.keys = s.files.keys
  files : ∀ path, D path (s.files.get? path) (t.files.get? path)

namespace Storage.Differ

variable {D : String → Option Document → Option Document → Prop} {s t : Storage}

theorem obstacle? (h : s.Differ D t) (place : Location) : t.obstacle? place = s.obstacle? place := by
  unfold Storage.obstacle?
  rw [h.root]

/-- A file is written on both sides. -/
theorem set (h : s.Differ D t) {path : String} {document document' : Document} (hd : D path (some document) (some document')) :
    Differ D { s with files := s.files.set path document } { t with files := t.files.set path document' } where
  root := h.root
  keys := by
    have hhas : t.files.has path = s.files.has path := by
      rw [Bool.eq_iff_iff]
      simp only [Entries.has, ← Entries.mem_keys_iff_get?, h.keys]
    rw [Entries.keys_set, Entries.keys_set, hhas, h.keys]
  files other := by
    by_cases hp : other = path
    · rw [hp, Entries.get?_set_self, Entries.get?_set_self]
      exact hd
    · rw [Entries.get?_set_ne _ _ hp, Entries.get?_set_ne _ _ hp]
      exact h.files other

/-- A file is taken away on both sides. -/
theorem remove (h : s.Differ D t) {place : Location} (hd : D place.path none none) :
    (s.remove place).Differ D (t.remove place) where
  root := h.root
  keys := by
    have hkeys (m : Entries Document) : (m.erase place.path).keys = m.keys.filter (· != place.path) := by
      simp [Entries.erase, Entries.keys, List.filter_map, Function.comp_def]
    show (t.files.erase place.path).keys = (s.files.erase place.path).keys
    rw [hkeys, hkeys, h.keys]
  files other := by
    show D other ((s.files.erase place.path).get? other) ((t.files.erase place.path).get? other)
    by_cases hp : other = place.path
    · rw [hp, Entries.get?_erase_self, Entries.get?_erase_self]
      exact hd
    · rw [Entries.get?_erase_ne hp, Entries.get?_erase_ne hp]
      exact h.files other

end Storage.Differ

/-! ## Worlds that differ in odd files -/

/-- A relation of worlds that agree in what is read while nodes run, and that differ in odd files only. It is kept by what
nodes do, and by what is done for a click before the context is restored. -/
structure Bond (odd : String → Prop) (R : World → World → Prop) : Prop where
  config : ∀ {w w' : World}, R w w' → w'.config = w.config
  clock : ∀ {w w' : World}, R w w' → w'.clock = w.clock
  registry : ∀ {w w' : World}, R w w' → ∀ role, w'.registry role = w.registry role
  root : ∀ {w w' : World}, R w w' → w'.storage.root = w.storage.root
  keys : ∀ {w w' : World}, R w w' → w'.storage.files.keys = w.storage.files.keys
  find? : ∀ {w w' : World} {place : Location}, R w w' → ¬odd place.path → w'.storage.find? place = w.storage.find? place
  /-- An odd file is no workflow, or the same one. -/
  decoded : ∀ {w w' : World}, R w w' → ∀ id, (w'.storage.find? (Store.Workflows.place id)).map Store.Workflows.decode =
    (w.storage.find? (Store.Workflows.place id)).map Store.Workflows.decode
  said : ∀ {w w' : World} {effect : Effect}, effect.request? = none → R w w' →
    R { w with trace := w.trace ++ [effect] } { w' with trace := w'.trace ++ [effect] }
  ticked : ∀ {w w' : World} (ticks : Int), R w w' →
    R { w with clock := w.clock.advance ticks } { w' with clock := w'.clock.advance ticks }
  registered : ∀ {w w' : World} (role : Role) (registry : Registry), R w w' →
    R (w.setRegistry role registry) (w'.setRegistry role registry)
  entering : ∀ operation, Abreast R (Engine.entering operation)
  written : ∀ {w w' : World} {place : Location} (v : Value), ¬odd place.path → R w w' →
    R { w with storage := { w.storage with files := w.storage.files.set place.path (.value v) } }
      { w' with storage := { w'.storage with files := w'.storage.files.set place.path (.value v) } }
  removed : ∀ {w w' : World} {place : Location}, ¬odd place.path → R w w' →
    R { w with storage := w.storage.remove place } { w' with storage := w'.storage.remove place }
  mappings : ∀ message, ¬odd (Store.Mappings.place message).path
  claims : ∀ message, ¬odd (Store.Claims.place message).path
  workflows : ∀ name, ¬odd (Folder.workflows.name ++ "/" ++ name)

namespace Bond

variable {odd : String → Prop} {R : World → World → Prop} (h : Bond odd R)

include h

theorem stamp : Abreast R Engine.stamp :=
  abreast_get (fun _ _ hw => by rw [h.clock hw]) fun _ => abreast_pure _

theorem reading : Abreast R Engine.reading :=
  abreast_get (fun _ _ hw => by rw [h.clock hw]) fun _ => abreast_pure _

theorem since (earlier : Int) : Abreast R (Engine.since earlier) :=
  abreast_get (fun _ _ hw => by rw [h.clock hw]) fun _ => abreast_pure _

theorem configured : Abreast R Engine.config :=
  abreast_get (fun _ _ hw => by rw [h.config hw]) fun _ => abreast_pure _

theorem emit {effect : Effect} (he : effect.request? = none) : Abreast R (Engine.emit effect) :=
  abreast_modify fun _ _ => h.said he

theorem log {level : Level} {component message : String} {fields : Entries Value} :
    Abreast R (Engine.log level component message fields) :=
  h.emit rfl

theorem logFault (component message : String) : Abreast R (Engine.logFault component message) :=
  h.emit rfl

theorem advance (ticks : Int) : Abreast R (Engine.advance ticks) :=
  abreast_modify fun _ _ => h.ticked ticks

/-! ### The stores -/

theorem read {w w' : World} {place : Location} (hw : R w w') (hp : ¬odd place.path) (default : Value) :
    w'.storage.read place default = w.storage.read place default := by
  rw [Storage.read, Storage.read, h.find? hw hp]

theorem readFile {place : Location} (hp : ¬odd place.path) (default : Value) : Abreast R (Store.readFile place default) := by
  intro w w' hw
  refine ⟨_, w, w', Store.run_readFile _ _ _, ?_, hw⟩
  rw [Store.run_readFile, h.read hw hp]

theorem obstacle? {w w' : World} (hw : R w w') (place : Location) :
    w'.storage.obstacle? place = w.storage.obstacle? place := by
  unfold Storage.obstacle?
  rw [h.root hw]

theorem writeFile {place : Location} (hp : ¬odd place.path) (v : Value) : Abreast R (Store.writeFile place v) := by
  intro w w' hw
  rw [Store.run_writeFile, Store.run_writeFile, Storage.write, Storage.write, h.obstacle? hw]
  cases w.storage.obstacle? place with
  | some fault => exact ⟨_, w, w', rfl, rfl, hw⟩
  | none => exact ⟨_, _, _, rfl, rfl, h.written v hp hw⟩

theorem saveMapping (mapping : ButtonMapping) : Abreast R (Store.Mappings.save mapping) :=
  have hp := h.mappings mapping.messageId
  abreast_bind (h.entering _) fun _ => abreast_bind (h.readFile hp _) fun _ => abreast_bind (abreast_ofExcept _) fun _ =>
    abreast_bind (abreast_ofExcept _) fun _ => abreast_bind (h.writeFile hp _) fun _ => abreast_pure _

theorem findMapping (message : String) : Abreast R (Store.Mappings.find? message) := by
  refine abreast_bind (h.entering _) fun _ => abreast_bind (h.readFile (h.mappings message) _) fun _ =>
    abreast_ite (abreast_pure _) ?_
  exact abreast_bind (abreast_ofExcept _) fun _ => abreast_bind h.stamp fun _ => abreast_map _ (abreast_ofExcept _)

theorem claim (message execution : String) : Abreast R (Store.Claims.claim message execution) := by
  refine abreast_bind (h.entering _) fun _ => abreast_get (fun w w' hw => ?_) fun w => ?_
  · rw [h.find? hw (h.claims message)]
  · exact abreast_ite (abreast_pure _) <| abreast_bind h.stamp fun _ =>
      abreast_bind (h.writeFile (h.claims message) _) fun _ => abreast_pure _

theorem release (message : String) : Abreast R (Store.Claims.release message) :=
  abreast_bind (h.entering _) fun _ => abreast_modify fun _ _ => h.removed (h.claims message)

theorem findWorkflow (id : String) : Abreast R (Store.Workflows.find? id) := by
  refine abreast_bind (h.entering _) fun _ => abreast_get (fun w w' hw => ?_) fun w => ?_
  · have hdecoded := h.decoded hw id
    revert hdecoded
    cases w.storage.find? (Store.Workflows.place id) <;> cases w'.storage.find? (Store.Workflows.place id) <;>
      intro hdecoded
    · rfl
    · cases hdecoded
    · cases hdecoded
    · dsimp only
      rw [Option.some.inj hdecoded]
  · cases w.storage.find? (Store.Workflows.place id) with
    | none => exact abreast_pure _
    | some document => exact abreast_map _ (abreast_ofExcept _)

theorem setWorkflowStatus (hsave : ∀ W, Abreast R (Store.Workflows.save W)) (id : String) (status : WorkflowStatus) :
    Abreast R (Store.Workflows.setStatus id status) := by
  refine abreast_bind (h.entering _) fun _ => abreast_bind (h.findWorkflow id) fun found => ?_
  cases found with
  | none => exact abreast_pure _
  | some W => exact abreast_map _ (hsave _)

theorem names {w w' : World} (hw : R w w') (folder : Folder) (start finish : String) :
    w'.storage.names folder start finish = w.storage.names folder start finish := by
  unfold Storage.names
  rw [h.keys hw]

theorem listWorkflows (status : Option WorkflowStatus) : Abreast R (Store.Workflows.list status) := by
  refine abreast_bind (h.entering _) fun _ => abreast_get (fun w w' hw => ?_) fun w => ?_
  · have hget (name : String) : w'.storage.files.get? (Folder.workflows.name ++ "/" ++ name) =
        w.storage.files.get? (Folder.workflows.name ++ "/" ++ name) :=
      show w'.storage.find? ⟨_, name, true⟩ = w.storage.find? ⟨_, name, true⟩ from h.find? hw (h.workflows name)
    simp only [h.names hw, hget]
  · exact abreast_bind (abreast_ofExcept _) fun _ => abreast_pure _

theorem workflowsByTrigger (trigger : Value) : Abreast R (Store.Workflows.byTrigger trigger) :=
  abreast_bind (h.entering _) fun _ => abreast_bind (h.listWorkflows _) fun _ => abreast_pure _

/-! ### Nodes -/

theorem call (role : Role) (id : Value) (origin : Option Origin) (first second : Value) :
    Abreast R (Registry.call role id origin first second) := by
  refine abreast_get (fun w w' hw => by rw [h.registry hw]) fun w => abreast_bind (abreast_ofExcept _) fun found => ?_
  obtain ⟨name, collaborator⟩ := found
  refine abreast_bind (h.emit rfl) fun _ => abreast_bind (abreast_modify fun w w' hw => ?_) fun _ =>
    abreast_bind (h.advance _) fun _ => abreast_ofExcept _
  rw [h.registry hw]
  exact h.registered role _ hw

theorem remember (node : Node) (output : Value) (workflow execution : String) :
    Abreast R (ButtonMessage.remember node output workflow execution) := by
  refine abreast_ite (abreast_pure _) <| abreast_bind (abreast_ofExcept _) fun _ => abreast_ite
    (abreast_bind h.log fun _ => abreast_pure _) <| abreast_bind h.stamp fun _ => ?_
  exact abreast_bind (h.saveMapping _) fun _ => abreast_bind h.log fun _ => abreast_pure _

theorem runAgent (node : Node) (context : Context) (execution : String) :
    Abreast R (Agent.run node context execution) := by
  refine abreast_bind (abreast_ofExcept _) fun b => abreast_bind (abreast_attempt ?_) fun result => ?_
  · exact abreast_bind h.configured fun _ => abreast_bind h.reading fun _ => abreast_bind (h.call _ _ _ _ _) fun _ =>
      abreast_bind (h.since _) fun _ => abreast_ite (abreast_bind (abreast_throw _) fun _ => abreast_pure _)
        (abreast_pure _)
  · cases result with
    | ok answer => exact abreast_pure _
    | error fault =>
      refine abreast_bind ?_ fun _ => abreast_throw _
      unfold Agent.failure
      split
      · exact abreast_pure _
      · exact abreast_bind h.log fun _ => abreast_pure _

theorem runPlain (node : Node) (context : Context) (workflow execution : String) :
    Abreast R (Action.runPlain node context workflow execution) := by
  refine abreast_bind h.configured fun config => abreast_ite (abreast_bind (abreast_throw _) fun _ => ?_) ?_
  all_goals
    exact abreast_bind (abreast_ofExcept _) fun _ => abreast_bind (h.call _ _ _ _ _) fun _ =>
      abreast_ite (abreast_bind (h.remember _ _ _ _) fun _ => abreast_pure _) (abreast_pure _)

theorem runConditional (node : Node) (context : Context) (execution : String) :
    Abreast R (Action.runConditional node context execution) := by
  unfold Action.runConditional
  split
  · exact abreast_pure _
  · exact abreast_bind (abreast_ofExcept _) fun _ => abreast_bind (abreast_ofExcept _) fun _ =>
      abreast_ite (abreast_pure _) <| abreast_bind (abreast_ofExcept _) fun _ => h.call _ _ _ _ _

/-- A node that runs does the same in both worlds. -/
theorem runNode (node : Node) (r : Run) : Abreast R (Dispatch.runNode node r) := by
  unfold Dispatch.runNode
  split
  · exact abreast_pure _
  · exact h.runAgent _ _ _
  · exact abreast_ite (h.runConditional _ _ _) (h.runPlain _ _ _ _)
  · exact abreast_ofExcept _
  · exact abreast_throw _

theorem warnOfCycle (workflow : Workflow) (g : Graph) : Abreast R (Invocation.warnOfCycle workflow g) := by
  unfold Invocation.warnOfCycle
  split
  · exact abreast_pure _
  · exact h.log

/-! ### Logs that are not odd -/

section Logs

variable {execution : String} (hl : ¬odd (Store.NodeLogs.place execution).path)

include hl

theorem appendLog (fields : Entries Value) : Abreast R (Store.NodeLogs.append execution fields) := by
  refine abreast_bind (h.entering _) fun _ => abreast_bind (abreast_ofExcept _) fun _ =>
    abreast_bind (h.readFile hl _) fun rows => abreast_bind (abreast_ofExcept _) fun count =>
    abreast_bind (abreast_ofExcept _) fun _ => abreast_bind h.stamp fun now => abreast_bind (abreast_ofExcept _) fun log => ?_
  exact abreast_bind (abreast_ofExcept _) fun _ => abreast_bind (h.writeFile hl _) fun _ => abreast_pure _

theorem updateLog (id : Value) (fields : Entries Value) : Abreast R (Store.NodeLogs.update execution id fields) := by
  refine abreast_bind (h.entering _) fun _ => abreast_bind (abreast_ofExcept _) fun _ =>
    abreast_bind (h.readFile hl _) fun rows => abreast_bind (abreast_ofExcept _) fun members =>
    abreast_bind h.stamp fun now => abreast_bind (abreast_ofExcept _) fun changed => ?_
  cases changed with
  | none => exact abreast_throw _
  | some changed => exact abreast_bind (h.writeFile hl _) fun _ => abreast_pure _

theorem allLogs : Abreast R (Store.NodeLogs.all execution) :=
  abreast_bind (h.entering _) fun _ => abreast_bind (h.readFile hl _) fun _ => abreast_bind h.stamp fun _ =>
    abreast_bind (abreast_ofExcept _) fun _ => abreast_ofExcept _

/-- A click that led nowhere is noted. -/
theorem routingFailed (node message : String) (details : Entries Value) :
    Abreast R (Journal.routingFailed execution node message details) :=
  abreast_bind h.stamp fun _ => abreast_bind (h.appendLog hl _) fun _ => abreast_bind h.log fun _ => abreast_pure _

end Logs

/-! ### Clicks -/

theorem workflowOf (mapping : ButtonMapping) : Abreast R (Continuation.workflowOf mapping) := by
  refine abreast_bind (h.findWorkflow _) fun found => ?_
  split
  · exact abreast_pure _
  · exact abreast_throw _

theorem warnOfButton (mapping : ButtonMapping) (x : Execution) (button : Value) :
    Abreast R (Continuation.warnOfButton mapping x button) :=
  abreast_ite h.log (abreast_pure _)

theorem restoreOrRelease {x : Execution} (hl : ¬odd (Store.NodeLogs.place x.id).path) (message : String) (node : Node)
    (button data : Value) : Abreast R (Continuation.restoreOrRelease message x node button data) := by
  refine abreast_bind (abreast_attempt ?_) fun result => ?_
  · exact abreast_bind (h.allLogs hl) fun _ => abreast_bind (abreast_ofExcept _) fun _ =>
      abreast_bind (abreast_ofExcept _) fun _ => abreast_pure _
  · cases result with
    | ok context => exact abreast_pure _
    | error fault => exact abreast_bind (h.release _) fun _ => abreast_throw _

theorem totalDuration (x : Execution) (start : Int) : Abreast R (Continuation.totalDuration x start) := by
  refine abreast_bind (h.since _) fun span => ?_
  split
  · exact abreast_pure _
  · exact abreast_throw _

theorem change (role : Role) (change : Registry → Registry) :
    Abreast R (modify fun w => w.setRegistry role (change (w.registry role))) :=
  abreast_modify fun w w' hw => by
    rw [h.registry hw]
    exact h.registered role _ hw

end Bond

/-! ## Workflows that are run -/

namespace Bond

variable {ι : Type} {odd : String → Prop} {R : ι → World → World → Prop} {S : World → World → Prop}
  (h : ∀ i, Bond odd (R i))
  (hs : ∀ {α : Type} {act : Engine α}, Hushed act → (∀ i, Abreast (R i) act) → Abreast S act)
  (he : ∀ W payload, Abreast S (Invocation.execute W payload))

include h hs he

/-- A stored workflow is executed as any other. -/
theorem executeStored (id : String) (payload : Value) : Abreast S (Invocation.executeStored id payload) := by
  refine abreast_bind (hs (Store.Workflows.hushed_find? _) fun i => (h i).findWorkflow _) fun found => ?_
  split
  · exact he _ _
  · exact abreast_bind (hs (hushed_log (by decide)) fun i => (h i).log) fun _ => abreast_pure _

/-- A trigger executes workflows one after the other. -/
theorem fire (trigger payload : Value) : Abreast S (Trigger.fire trigger payload) := by
  have hone (payload : Value) (W : Workflow) : Abreast S (Trigger.runOne Invocation.execute trigger payload W) := by
    refine abreast_bind (abreast_attempt (he W payload)) fun result => ?_
    split
    · exact abreast_pure _
    · exact abreast_bind (hs (hushed_log (by decide)) fun i => (h i).log) fun _ => abreast_pure _
    · exact abreast_bind (hs (hushed_logFault _ _) fun i => (h i).logFault _ _) fun _ => abreast_pure _
  have hall (payload : Value) (workflows : List Workflow) :
      Abreast S (Trigger.runAll Invocation.execute trigger payload workflows) := by
    induction workflows with
    | nil => exact abreast_pure _
    | cons W rest ih => exact abreast_bind (hone payload W) fun _ => abreast_bind ih fun _ => abreast_pure _
  exact abreast_bind (hs (Store.Workflows.hushed_byTrigger _) fun i => (h i).workflowsByTrigger _) fun _ =>
    abreast_bind (hs (hushed_log (by decide)) fun i => (h i).log) fun _ => hall _ _

end Bond

/-! ## Runs -/

namespace Running

variable {J : Run → World → World → Prop} {α β : Type}

/-- From here a computation on a run comes to the same in two worlds, and leaves the same run behind, and two worlds of
which the relation holds still. -/
def Abreast (J : Run → World → World → Prop) (act : Running α) (r : Run) (w w' : World) : Prop :=
  ∃ result s u u', go act ⟨w, r⟩ = (result, ⟨u, s⟩) ∧ go act ⟨w', r⟩ = (result, ⟨u', s⟩) ∧ J s u u'

variable {r : Run} {w w' : World}

theorem abreast_pure (h : J r w w') (a : α) : Abreast J (pure a) r w w' :=
  ⟨.ok a, r, w, w', rfl, rfl, h⟩

theorem abreast_throw (h : J r w w') (fault : Fault) : Abreast J (throw fault : Running α) r w w' :=
  ⟨.error fault, r, w, w', rfl, rfl, h⟩

theorem abreast_bind {act : Running α} {next : α → Running β} (h : Abreast J act r w w')
    (k : ∀ a s u u', go act ⟨w, r⟩ = (.ok a, ⟨u, s⟩) → J s u u' → Abreast J (next a) s u u') :
    Abreast J (act >>= next) r w w' := by
  obtain ⟨result, s, u, u', hr, hr', hu⟩ := h
  cases result with
  | ok a =>
    obtain ⟨result, t, v, v', hn, hn', hv⟩ := k a s u u' hr hu
    exact ⟨result, t, v, v', (go_bind_ok hr).trans hn, (go_bind_ok hr').trans hn', hv⟩
  | error fault => exact ⟨_, s, u, u', go_bind_error hr, go_bind_error hr', hu⟩

/-- A computation on the worlds. -/
theorem abreast_lift {act : Engine α}
    (h : ∃ result u u', Engine.run act w = (result, u) ∧ Engine.run act w' = (result, u') ∧ J r u u') :
    Abreast J (liftM act : Running α) r w w' := by
  obtain ⟨result, u, u', hr, hr', hu⟩ := h
  exact ⟨result, r, u, u', by rw [go_lift, hr], by rw [go_lift, hr'], hu⟩

theorem abreast_faultOf {act : Running Unit} (h : Abreast J act r w w') : Abreast J (faultOf act) r w w' := by
  obtain ⟨result, s, u, u', hr, hr', hu⟩ := h
  cases result with
  | ok _ => exact ⟨.ok none, s, u, u', by rw [go_faultOf, hr], by rw [go_faultOf, hr'], hu⟩
  | error fault => exact ⟨.ok (some fault), s, u, u', by rw [go_faultOf, hr], by rw [go_faultOf, hr'], hu⟩

theorem abreast_onRun {act : Running α} (h : Abreast J act r w w') : ∃ result s u u',
    Engine.run (onRun r act) w = (.ok (result, s), u) ∧ Engine.run (onRun r act) w' = (.ok (result, s), u') ∧ J s u u' := by
  obtain ⟨result, s, u, u', hr, hr', hu⟩ := h
  exact ⟨result, s, u, u', by rw [run_onRun, hr], by rw [run_onRun, hr'], hu⟩

end Running

open Running

/-- A relation of two worlds in which a run goes on that no move of a dispatch breaks, each move being the same in both. -/
structure Yoked (J : Run → World → World → Prop) : Prop where
  config : ∀ {r : Run} {w w' : World}, J r w w' → w'.config = w.config
  said : ∀ {r : Run} {w w' : World} (event : LogEvent), J r w w' →
    J r { w with trace := w.trace ++ [.event event] } { w' with trace := w'.trace ++ [.event event] }
  noted : ∀ {r : Run} {w w' : World} (failed : Bool) (firstError : String) (suspended : Bool),
    J r w w' → J { r with failed, firstError, suspended } w w'
  entered : ∀ {r : Run} {w w' : World} (node : Node), J r w w' → J { r with entered := r.entered ++ [node.id] } w w'
  clicked : ∀ {r : Run} {w w' : World} {node : String} {output : Entries Value} (button : String) (title data : Value),
    r.context.outputs.get? node = some (.map output) → J r w w' →
    J { r with context := (r.context.spliceButton node [(button, title)]).setButtonData data } w w'
  performed : ∀ {r : Run} {w w' : World} (node : Node), r.context.isCompleted node.id = false → J r w w' →
    Running.Abreast J (Dispatch.perform node) r w w'

namespace Yoked

variable {J : Run → World → World → Prop} {dispatch : Node → Running Unit} {r : Run} {w w' : World} (h : Yoked J)

include h

theorem log (hj : J r w w') {level : Level} {component message : String} {fields : Entries Value} :
    Running.Abreast J (liftM (Engine.log level component message fields)) r w w' :=
  abreast_lift ⟨.ok (), _, _, rfl, rfl, h.said _ hj⟩

theorem noteIn (hj : J r w w') (routing : Routing) : J (routing.noteIn r) w w' := by
  have hr : J (routing.error.elim r r.recordFailure) w w' := by
    cases routing.error with
    | none => exact hj
    | some message => exact h.noted true _ r.suspended hj
  unfold Routing.noteIn
  dsimp only
  split
  · exact h.noted _ _ true hr
  · exact hr

section Links

variable (hd : ∀ {node : Node} {r : Run} {w w' : World}, J r w w' → Running.Abreast J (dispatch node) r w w')

omit h in
include hd in
theorem followLink (hj : J r w w') (link : Link) : Running.Abreast J (Routing.followLink dispatch link) r w w' := by
  unfold Routing.followLink
  refine abreast_bind ⟨.ok r, r, w, w', rfl, rfl, hj⟩ fun r s u u' _ hj => ?_
  split
  · exact abreast_pure hj _
  · exact abreast_bind (abreast_faultOf (hd hj)) fun _ _ _ _ _ hj => abreast_pure hj _

omit h in
include hd in
theorem follow : ∀ {r : Run} {w w' : World}, J r w w' → ∀ links : List Link,
    Running.Abreast J (Routing.follow dispatch links) r w w'
  | _, _, _, hj, [] => abreast_pure hj _
  | _, _, _, hj, link :: rest => abreast_bind (followLink hd hj link) fun _ _ _ _ _ hj =>
      abreast_bind (follow hj rest) fun _ _ _ _ _ hj => abreast_pure hj _

include hd in
/-- A node is routed. The output of a clicked node must be the one in the context. -/
theorem along (hj : J r w w') (router : Option Router) {node : Node} {output : Value} (links : List Link)
    (ho : r.context.outputs.get? node.id = some output) :
    Running.Abreast J (Routing.along router dispatch node output links) r w w' := by
  unfold Routing.along
  split
  · unfold Routing.condition
    refine abreast_bind (follow hd hj _) fun routing _ _ _ _ hj => ?_
    dsimp only
    split
    · exact abreast_bind (h.log hj) fun _ _ _ _ _ hj => abreast_pure hj _
    · exact abreast_pure hj _
  · unfold Routing.pendingSend
    split
    · exact abreast_pure hj _
    · exact abreast_bind (h.log hj) fun _ _ _ _ _ hj => abreast_pure hj _
  · unfold Routing.buttonClick
    dsimp only
    split
    · exact abreast_pure hj _
    · refine abreast_bind ⟨.ok r.context, r, w, w', rfl, rfl, hj⟩ fun c s u u' hgo hj => ?_
      obtain ⟨hc, hp⟩ := Prod.mk.inj hgo
      obtain rfl := Except.ok.inj hc
      obtain ⟨rfl, rfl⟩ := Progress.mk.inj hp
      refine abreast_bind ⟨.ok (), _, w, u', rfl, rfl, h.clicked _ _ _ ho hj⟩ fun _ _ _ _ _ hj => ?_
      exact abreast_bind (h.log hj) fun _ _ _ _ _ hj => follow hd hj _
  · exact follow hd hj links

include hd in
theorem route (hj : J r w w') {node : Node} {output : Value} (ho : r.context.outputs.get? node.id = some output) :
    Running.Abreast J (Dispatch.route dispatch node output) r w w' := by
  unfold Running.Abreast Dispatch.route
  rw [go_bind_ok (go_run w r), go_bind_ok (go_run w' r), go_lift_bind (Engine.run_config w),
    go_lift_bind (Engine.run_config w'), h.config hj]
  cases Router.choose w.config.buttonTools node output with
  | error fault =>
    rw [go_lift_bind_error (Engine.run_ofExcept _ w), go_lift_bind_error (Engine.run_ofExcept _ w')]
    exact abreast_throw hj fault
  | ok router =>
    rw [go_lift_bind (Engine.run_ofExcept _ w), go_lift_bind (Engine.run_ofExcept _ w')]
    exact abreast_bind (h.along hd hj router (r.graph.links node.id) ho) fun routing s u u' _ hj =>
      ⟨.ok (), _, u, u', rfl, rfl, h.noteIn hj routing⟩

end Links

/-- By induction on how deep dispatches may be nested: every move keeps the relation, and so a dispatch does. -/
theorem within : ∀ (depth : Nat) {node : Node} {r : Run} {w w' : World}, J r w w' →
    Running.Abreast J (Dispatch.within depth node) r w w'
  | 0, _, _, _, _, hj => abreast_throw hj _
  | depth + 1, node, r, w, w', hj => by
    unfold Running.Abreast Dispatch.within
    rw [go_bind_ok (go_modifyRun _ w r), go_bind_ok (go_modifyRun _ w' r), go_bind_ok (go_run _ _),
      go_bind_ok (go_run _ _)]
    have he := h.entered node hj
    split
    · exact h.log he
    · next hc =>
      exact abreast_bind (h.performed node (by simpa using hc) he) fun output s u u' hgo hj =>
        h.route (fun hj => within depth hj) hj (Dispatch.output_of_perform hgo)

theorem dispatch_node (hj : J r w w') {node : Node} : Running.Abreast J (WorkGraph.dispatch node) r w w' := by
  unfold Running.Abreast WorkGraph.dispatch
  rw [go_bind_ok (go_run w r), go_bind_ok (go_run w' r)]
  exact h.within r.depth hj

theorem fromTrigger (hj : J r w w') : Running.Abreast J Invocation.fromTrigger r w w' := by
  unfold Running.Abreast Invocation.fromTrigger
  rw [go_bind_ok (go_run w r), go_bind_ok (go_run w' r)]
  cases r.workflow.triggerNode? with
  | none => exact abreast_throw hj _
  | some node => exact h.dispatch_node hj

/-- A run from the trigger node on. -/
theorem settle (hj : J r w w') (workflow : Workflow) : ∃ s u u',
    Engine.run (Invocation.settle workflow r Invocation.fromTrigger) w = (.ok s, u) ∧
      Engine.run (Invocation.settle workflow r Invocation.fromTrigger) w' = (.ok s, u') ∧ J s u u' := by
  obtain ⟨result, s, u, u', hr, hr', hu⟩ := abreast_onRun (h.fromTrigger hj)
  unfold Invocation.settle
  rw [Engine.run_bind_ok hr, Engine.run_bind_ok hr']
  cases result with
  | ok _ => exact ⟨s, u, u', rfl, rfl, hu⟩
  | error fault => exact ⟨s.recordFailure fault.message, _, _, rfl, rfl, h.noted true _ s.suspended (h.said _ hu)⟩

/-- A run that goes on behind a click. If it is entered in both worlds or in none, it comes to the same in both. -/
theorem resume {workflow : Workflow} {execution : String} {context : Context} (node : Node) (prior : Option String)
    (he : ∃ result v v', Engine.run (Engine.entering .resume) w = (result, v) ∧
      Engine.run (Engine.entering .resume) w' = (result, v') ∧ J (.start execution workflow context) v v') :
    ∃ result s u u', Engine.run (Invocation.resume workflow execution node context prior) w = (result, u) ∧
      Engine.run (Invocation.resume workflow execution node context prior) w' = (result, u') ∧ J s u u' ∧
      ∀ p, result = .ok p → p.2 = s := by
  obtain ⟨result, v, v', hr, hr', hj⟩ := he
  unfold Invocation.resume
  cases result with
  | error fault =>
    exact ⟨_, _, v, v', Engine.run_bind_error hr, Engine.run_bind_error hr', hj, fun _ hp => by cases hp⟩
  | ok _ =>
    rw [Engine.run_bind_ok hr, Engine.run_bind_ok hr', Engine.run_bind_ok (Engine.run_config v),
      Engine.run_bind_ok (Engine.run_config v'), h.config hj]
    have hprior : J ((prior.filter (· != "")).elim (.start execution workflow context)
        (Run.start execution workflow context).recordFailure) v v' := by
      cases prior.filter (· != "") with
      | none => exact hj
      | some message => exact h.noted true _ _ hj
    have hcontext : ((prior.filter (· != "")).elim (.start execution workflow context)
        (Run.start execution workflow context).recordFailure).context = context := by
      cases prior.filter (· != "") <;> rfl
    generalize (prior.filter (· != "")).elim (Run.start execution workflow context)
      (Run.start execution workflow context).recordFailure = r at hprior hcontext
    dsimp only
    cases hclaims : Router.claims v.config.buttonTools node (context.output node.id) .buttonClick with
    | error fault =>
      rw [Engine.run_ofExcept_bind_error rfl, Engine.run_ofExcept_bind_error rfl]
      exact ⟨_, r, v, v', rfl, rfl, hprior, fun _ hp => by cases hp⟩
    | ok claimed =>
      rw [Engine.run_ofExcept_bind rfl, Engine.run_ofExcept_bind rfl]
      cases claimed with
      | false => exact ⟨_, r, v, v', rfl, rfl, hprior, fun _ hp => by rw [← Except.ok.inj hp]⟩
      | true =>
        obtain ⟨entries, hmap, hget⟩ := Router.output_of_claims hclaims
        obtain ⟨result, s, u, u', hr, hr', hu⟩ := abreast_onRun
          (h.along (fun hj => h.dispatch_node hj) hprior (some .buttonClick) (r.graph.links node.id)
            (show r.context.outputs.get? node.id = some (context.output node.id) by rw [hcontext, hmap]; exact hget))
        rw [Bool.not_true, if_neg Bool.false_ne_true, Engine.run_bind_ok hr, Engine.run_bind_ok hr']
        cases result with
        | error fault => exact ⟨_, s, u, u', rfl, rfl, hu, fun _ hp => by cases hp⟩
        | ok routing =>
          exact ⟨_, _, u, u', rfl, rfl, h.noteIn hu routing, fun _ hp => by rw [← Except.ok.inj hp]⟩

end Yoked

end WorkGraph
