import WorkGraph.Continuation

/-!
# Computations that leave no record

Most of what the engine does between its writes changes nothing that lasts: it reads, logs events, reports to the audit
service, uses up injected faults. `Quiet w w'` says that a world differs from another in such things only, and
`Engine.Hushed` that a computation never does more. What may be forgotten behind a hushed computation is said once, here;
later modules speak of the writes alone.
-/

namespace WorkGraph

/-! ## What lasts of a trace -/

/-- A click that goes on behind a node of an execution. -/
structure Acceptance where
  execution : String
  node : String
  button : Value

namespace Effect

def call? : Effect → Option Call
  | .call c => some c
  | _ => none

/-- The click that an event tells of, where it tells that a click was accepted. -/
def acceptance? : Effect → Option Acceptance
  | .event e =>
    if e.message = "continuation_started" then
      match Value.field e.fields "execution_id", Value.field e.fields "node_id" with
      | .str execution, .str node => some ⟨execution, node, Value.field e.fields "button_id"⟩
      | _, _ => none
    else none
  | _ => none

end Effect

namespace World

/-- The calls of collaborators, in order. -/
def calls (w : World) : List Call :=
  w.trace.filterMap Effect.call?

/-- The clicks that were accepted, in order. -/
def accepted (w : World) : List Acceptance :=
  w.trace.filterMap Effect.acceptance?

/-- No injected fault waits. -/
def Steady (w : World) : Prop :=
  ∀ p ∈ w.failpoints, p.remaining = 0

end World

/-- What the audit service answers, and whether it can be asked. -/
def Auditor.service (a : Auditor) : String × (Nat → AuditAnswer) × Bool :=
  (a.url, a.answers, a.closed)

/-- Nothing has changed that lasts. -/
structure Quiet (w w' : World) : Prop where
  config : w'.config = w.config
  clock : w'.clock = w.clock
  issued : w'.issued = w.issued
  tools : w'.tools = w.tools
  agents : w'.agents = w.agents
  storage : w'.storage = w.storage
  steady : w.Steady → w'.Steady
  auditor : w'.auditor.map Auditor.service = w.auditor.map Auditor.service
  calls : w'.calls = w.calls
  accepted : w'.accepted = w.accepted

namespace Quiet

theorem refl (w : World) : Quiet w w :=
  ⟨rfl, rfl, rfl, rfl, rfl, rfl, id, rfl, rfl, rfl⟩

theorem trans {u v w : World} (h : Quiet u v) (k : Quiet v w) : Quiet u w where
  config := k.config.trans h.config
  clock := k.clock.trans h.clock
  issued := k.issued.trans h.issued
  tools := k.tools.trans h.tools
  agents := k.agents.trans h.agents
  storage := k.storage.trans h.storage
  steady := k.steady ∘ h.steady
  auditor := k.auditor.trans h.auditor
  calls := k.calls.trans h.calls
  accepted := k.accepted.trans h.accepted

/-- One more effect that is neither a call nor an accepted click. -/
theorem said (w : World) {effect : Effect} (hc : effect.call? = none) (ha : effect.acceptance? = none) :
    Quiet w { w with trace := w.trace ++ [effect] } where
  config := rfl
  clock := rfl
  issued := rfl
  tools := rfl
  agents := rfl
  storage := rfl
  steady := id
  auditor := rfl
  calls := by simp [World.calls, hc]
  accepted := by simp [World.accepted, ha]

/-- The audit service was asked. -/
theorem asked {w : World} {a b : Auditor} (h : w.auditor = some a) (hs : b.service = a.service) :
    Quiet w { w with auditor := some b } where
  config := rfl
  clock := rfl
  issued := rfl
  tools := rfl
  agents := rfl
  storage := rfl
  steady := id
  auditor := by simp [h, hs]
  calls := rfl
  accepted := rfl

/-- The audit session of an execution was noted. -/
theorem noted (w : World) (sessions : Entries Value) : Quiet w { w with sessions } :=
  ⟨rfl, rfl, rfl, rfl, rfl, rfl, id, rfl, rfl, rfl⟩

end Quiet

/-! ## Rules -/

namespace Engine

variable {α β : Type}

/-- Whatever comes of a computation, it has changed nothing that lasts. -/
def Hushed (act : Engine α) : Prop :=
  ∀ w, Quiet w (run act w).2

theorem hushed_pure (a : α) : Hushed (pure a) :=
  fun w => .refl w

theorem hushed_throw (fault : Fault) : Hushed (throw fault : Engine α) :=
  fun w => .refl w

theorem hushed_get : Hushed (get : Engine World) :=
  fun w => .refl w

theorem hushed_ofExcept (result : Except Fault α) : Hushed (ofExcept result) := by
  intro w
  rw [run_ofExcept]
  exact .refl w

theorem hushed_bind {act : Engine α} {next : α → Engine β} (h : Hushed act) (k : ∀ a, Hushed (next a)) :
    Hushed (act >>= next) := by
  intro w
  have hw := h w
  rw [run_bind]
  cases hr : run act w with
  | mk result w' =>
    rw [hr] at hw
    cases result with
    | ok a => exact hw.trans (k a w')
    | error fault => exact hw

/-- What is read is the world as it is. -/
theorem run_get_bind (next : World → Engine α) (w : World) : run (get >>= next) w = run (next w) w := rfl

theorem hushed_map {act : Engine α} (f : α → β) (h : Hushed act) : Hushed (f <$> act) :=
  hushed_bind h fun a => hushed_pure (f a)

theorem hushed_ite {c : Prop} [Decidable c] {act other : Engine α} (h : Hushed act) (k : Hushed other) :
    Hushed (if c then act else other) := by
  split
  · exact h
  · exact k

theorem hushed_modify {f : World → World} (h : ∀ w, Quiet w (f w)) : Hushed (modify f) :=
  h

theorem hushed_stamp : Hushed stamp :=
  fun w => .refl w

theorem hushed_reading : Hushed reading :=
  fun w => .refl w

theorem hushed_since (earlier : Int) : Hushed (since earlier) :=
  fun w => .refl w

theorem hushed_log {level : Level} {component message : String} {fields : Entries Value}
    (h : message ≠ "continuation_started") : Hushed (log level component message fields) :=
  fun w => Quiet.said w rfl (by simp [Effect.acceptance?, h])

/-- The log of a fault has no fields, and tells of no click. -/
theorem hushed_logFault (component message : String) : Hushed (logFault component message) :=
  fun w => Quiet.said w rfl (by simp [Effect.acceptance?, Value.field])

/-! ## Steps of which the result is known -/

theorem run_bind_ok {act : Engine α} {next : α → Engine β} {w u : World} {a : α} (h : run act w = (.ok a, u)) :
    run (act >>= next) w = run (next a) u := by
  rw [run_bind, h]

theorem run_bind_of_fst {act : Engine α} {next : α → Engine β} {w : World} {a : α} (h : (run act w).1 = .ok a) :
    run (act >>= next) w = run (next a) (run act w).2 :=
  run_bind_ok (Prod.ext h rfl)

theorem run_bind_error {act : Engine α} {next : α → Engine β} {w u : World} {fault : Fault}
    (h : run act w = (.error fault, u)) : run (act >>= next) w = (.error fault, u) := by
  rw [run_bind, h]

/-- What returned went through every step. -/
theorem eq_ok_of_bind {act : Engine α} {next : α → Engine β} {w w' : World} {b : β}
    (h : run (act >>= next) w = (.ok b, w')) :
    ∃ a u, run act w = (.ok a, u) ∧ run (next a) u = (.ok b, w') := by
  rw [run_bind] at h
  rcases hr : run act w with ⟨result, u⟩
  rw [hr] at h
  cases result with
  | ok a => exact ⟨a, u, rfl, h⟩
  | error fault => cases h

theorem eq_ok_of_map {act : Engine α} {f : α → β} {w w' : World} {b : β} (h : run (f <$> act) w = (.ok b, w')) :
    ∃ a, run act w = (.ok a, w') ∧ f a = b := by
  have h : run (act >>= fun a => pure (f a)) w = (.ok b, w') := h
  obtain ⟨a, u, hr, hp⟩ := eq_ok_of_bind h
  rw [run_pure, Prod.mk.injEq] at hp
  obtain ⟨hb, rfl⟩ := hp
  exact ⟨a, hr, Except.ok.inj hb⟩

theorem eq_ok_of_ofExcept {result : Except Fault α} {w w' : World} {a : α}
    (h : run (ofExcept result) w = (.ok a, w')) : result = .ok a ∧ w' = w := by
  rw [run_ofExcept] at h
  exact ⟨(Prod.mk.inj h).1, (Prod.mk.inj h).2.symm⟩

theorem run_ofExcept_bind {result : Except Fault α} {next : α → Engine β} {a : α} (h : result = .ok a) (w : World) :
    run (ofExcept result >>= next) w = run (next a) w := by
  rw [h]
  rfl

theorem run_ofExcept_bind_error {result : Except Fault α} {next : α → Engine β} {fault : Fault}
    (h : result = .error fault) (w : World) : run (ofExcept result >>= next) w = (.error fault, w) := by
  rw [h]
  rfl

/-! ## Computations that come to nothing -/

/-- A computation ends in a fault and has changed nothing that lasts. -/
def Barred (act : Engine α) (w : World) : Prop :=
  ∃ fault w', run act w = (.error fault, w') ∧ Quiet w w'

theorem barred_throw (fault : Fault) (w : World) : Barred (throw fault : Engine α) w :=
  ⟨fault, w, rfl, .refl w⟩

theorem barred_bind {act : Engine α} {next : α → Engine β} {w : World} (hq : Hushed act)
    (h : ∀ a u, run act w = (.ok a, u) → Quiet w u → Barred (next a) u) : Barred (act >>= next) w := by
  have hw := hq w
  cases hr : run act w with
  | mk result u =>
    rw [hr] at hw
    cases result with
    | ok a =>
      obtain ⟨fault, w', hn, hu⟩ := h a u hr hw
      exact ⟨fault, w', (run_bind_ok hr).trans hn, hw.trans hu⟩
    | error fault => exact ⟨fault, u, run_bind_error hr, hw⟩

/-- What would come behind does not matter. -/
theorem Barred.bind {act : Engine α} {next : α → Engine β} {w : World} (h : Barred act w) : Barred (act >>= next) w := by
  obtain ⟨fault, w', hr, hq⟩ := h
  exact ⟨fault, w', run_bind_error hr, hq⟩

theorem barred_ofExcept {result : Except Fault α} {next : α → Engine β} {w : World}
    (h : ∀ a, result = .ok a → Barred (next a) w) : Barred (ofExcept result >>= next) w := by
  cases result with
  | ok a => exact h a rfl
  | error fault => exact ⟨fault, w, rfl, .refl w⟩

/-! ## What is read -/

@[simp] theorem run_config (w : World) : run config w = (.ok w.config, w) := rfl

@[simp] theorem run_stamp (w : World) : run stamp w = (.ok w.clock.stamp, w) := rfl

theorem barred_stamp {next : String → Engine α} {w : World} (h : Barred (next w.clock.stamp) w) :
    Barred (stamp >>= next) w := by
  obtain ⟨fault, w', hn, hq⟩ := h
  exact ⟨fault, w', (run_bind_ok (run_stamp w)).trans hn, hq⟩

@[simp] theorem run_reading (w : World) : run reading w = (.ok w.clock.reading, w) := rfl

@[simp] theorem run_since (earlier : Int) (w : World) : run (since earlier) w = (.ok (w.clock.since earlier), w) := rfl

/-! ## Injected faults -/

theorem trip_steady {operation : Operation} : ∀ {points : List Failpoint}, (∀ p ∈ points, p.remaining = 0) →
    trip operation points = (none, points)
  | [], _ => rfl
  | p :: rest, h => by
    have hp := h p (by simp)
    have hr := @trip_steady operation rest fun q hq => h q (by simp [hq])
    simp [trip, hp, hr]

/-- An operation starts unless an injected fault shows, and the fault is used up. -/
theorem run_entering (operation : Operation) (w : World) :
    run (entering operation) w =
      ((trip operation w.failpoints).1.elim (.ok ()) fun text => .error (.storage text),
        { w with failpoints := (trip operation w.failpoints).2 }) := by
  unfold entering
  rw [run_get_bind]
  rcases trip operation w.failpoints with ⟨_ | text, failpoints⟩ <;> rfl

/-- Where no fault waits, an operation starts. -/
theorem run_entering_steady {w : World} (h : w.Steady) (operation : Operation) :
    run (entering operation) w = (.ok (), w) := by
  rw [run_entering, trip_steady h]
  rfl

theorem hushed_entering (operation : Operation) : Hushed (entering operation) := by
  intro w
  rw [run_entering]
  exact ⟨rfl, rfl, rfl, rfl, rfl, rfl, fun hs => by rw [trip_steady hs]; exact hs, rfl, rfl, rfl⟩

end Engine

/-! ## The audit trail -/

namespace Audit

open Engine

/-- A request changes how often the service was asked, and whether it is asked again. -/
theorem hushed_callTool (tool : String) (arguments : Value) : Hushed (callTool tool arguments) := by
  intro w
  unfold callTool
  rw [run_get_bind]
  cases ha : w.auditor with
  | none => exact .refl w
  | some auditor =>
    dsimp only
    split
    · exact .refl w
    · split
      · exact .refl w
      · let said : World := { w with trace := w.trace ++ [.request
          { url := address auditor.url, body := .map [("tool", .str tool), ("arguments", arguments)] }] }
        have hsaid : Quiet w said := Quiet.said w rfl rfl
        cases proper? (auditor.answers auditor.asked) with
        | none =>
          have hasked : Quiet said { said with auditor := some { auditor with asked := auditor.asked + 1, enabled := false } } :=
            Quiet.asked (a := auditor) ha rfl
          exact hsaid.trans (hasked.trans (hushed_bind (hushed_log (by decide)) (fun _ => hushed_pure _) _))
        | some body =>
          have hasked : Quiet said { said with auditor := some { auditor with asked := auditor.asked + 1 } } :=
            Quiet.asked (a := auditor) ha rfl
          exact hsaid.trans (hasked.trans (hushed_ofExcept _ _))

theorem hushed_createSession (workflow execution : Value) : Hushed (createSession workflow execution) :=
  hushed_bind (hushed_callTool _ _) fun _ => hushed_ofExcept _

theorem hushed_append (session : Value) (content : String) (metadata : Entries Value) :
    Hushed (append session content metadata) := by
  unfold append
  exact hushed_ite (hushed_bind hushed_stamp fun _ => hushed_bind (hushed_callTool _ _) fun _ => hushed_pure _)
    (hushed_pure _)

end Audit

/-! ## Stores that are read -/

namespace Store

open Engine

theorem hushed_readFile (place : Location) (default : Value) : Hushed (readFile place default) := by
  intro w
  unfold readFile
  rw [run_get_bind]
  cases w.storage.find? place with
  | none => exact .refl w
  | some document => exact hushed_ofExcept _ w

theorem Executions.hushed_find? (id : String) : Hushed (Executions.find? id) := by
  refine hushed_bind (hushed_entering _) fun _ => hushed_bind (hushed_readFile _ _) fun data => hushed_ite ?_ ?_
  · exact hushed_bind hushed_stamp fun now => hushed_map _ (hushed_ofExcept _)
  · exact hushed_pure _

theorem NodeLogs.hushed_all (execution : String) : Hushed (NodeLogs.all execution) :=
  hushed_bind (hushed_entering _) fun _ => hushed_bind (hushed_readFile _ _) fun _ =>
    hushed_bind hushed_stamp fun _ => hushed_bind (hushed_ofExcept _) fun _ => hushed_ofExcept _

theorem Mappings.hushed_find? (message : String) : Hushed (Mappings.find? message) := by
  refine hushed_bind (hushed_entering _) fun _ => hushed_bind (hushed_readFile _ _) fun _ => hushed_ite ?_ ?_
  · exact hushed_pure _
  · exact hushed_bind (hushed_ofExcept _) fun row => hushed_bind hushed_stamp fun now =>
      hushed_map _ (hushed_ofExcept _)

theorem Workflows.hushed_find? (id : String) : Hushed (Workflows.find? id) := by
  refine hushed_bind (hushed_entering _) fun _ => hushed_bind hushed_get fun w => ?_
  cases w.storage.find? (Workflows.place id) with
  | none => exact hushed_pure _
  | some document => exact hushed_map _ (hushed_ofExcept _)

theorem Workflows.hushed_list (status : Option WorkflowStatus) : Hushed (Workflows.list status) :=
  hushed_bind (hushed_entering _) fun _ => hushed_bind hushed_get fun _ =>
    hushed_bind (hushed_ofExcept _) fun _ => hushed_pure _

theorem Workflows.hushed_byTrigger (trigger : Value) : Hushed (Workflows.byTrigger trigger) :=
  hushed_bind (hushed_entering _) fun _ => hushed_bind (hushed_list _) fun _ => hushed_pure _

end Store

/-! ## The journal's reports -/

namespace Journal

open Engine

theorem hushed_audited {act : Engine Unit} (h : Hushed act) : Hushed (audited act) :=
  hushed_bind hushed_get fun _ => hushed_ite h (hushed_pure _)

theorem hushed_sessionFor (execution : String) : Hushed (sessionFor execution) := by
  refine hushed_bind hushed_get fun w => ?_
  cases w.sessions.get? execution with
  | some session => exact hushed_pure _
  | none =>
    exact hushed_bind (Store.Executions.hushed_find? _) fun found =>
      hushed_bind (hushed_modify fun w => Quiet.noted w _) fun _ => hushed_pure _

theorem hushed_openSession (workflow execution : String) : Hushed (openSession workflow execution) := by
  refine hushed_bind hushed_get fun _ => hushed_ite ?_ (hushed_pure _)
  exact hushed_bind (Audit.hushed_createSession _ _) fun session =>
    hushed_bind (hushed_modify fun w => Quiet.noted w _) fun _ => hushed_pure _

/-- A report to the audit trail of an execution. -/
theorem hushed_report {execution : String} {report : Value → Engine Unit} (h : ∀ session, Hushed (report session)) :
    Hushed (audited do report (← sessionFor execution)) :=
  hushed_audited (hushed_bind (hushed_sessionFor _) h)

end Journal
end WorkGraph
