import WorkGraph.Proofs.Touches

/-!
# The life of an execution

Without an audit service the record of an execution is ended once. Of an execution that has ended nothing is done any
more but to note clicks that lead nowhere (`Spared`), and what is on record stays on record (`Onward`). Invocations keep
that (`Living.executed`, `Living.continued`), and so does every step of a session, as long as no workflow is saved over
files that are not for workflows (`living_perform`); so it is with every session (`ended_for_good`). The place of a
workflow is its id as it stands, and an id that is a path leads to the record of an execution (`not_ended_for_good`).
-/

namespace WorkGraph

open Engine

/-! ## What goes on -/

/-- Whether the record of an execution tells of an end if and only if it has ended. -/
def World.Dated (w : World) : Prop :=
  ∀ x, HasRecord w.storage x.id x → (x.completedAt.isSome = true ↔ x.status ≠ .running)

/-- A world without an audit service in which records tell of their ends. -/
structure Living (w : World) : Prop where
  orderly : Orderly w
  unaudited : w.Unaudited
  dated : w.Dated

/-- What is on record stays on record, and what has ended is spared. -/
structure Onward (w w' : World) : Prop where
  kept : ∀ x, HasRecord w.storage x.id x → ∃ y, HasRecord w'.storage x.id y ∧ y.id = x.id
  ended : ∀ x, HasRecord w.storage x.id x → x.status ≠ .running → Spared x.id w w'

namespace Onward

variable {u w w' : World}

/-- Nothing was done for any execution that was there. -/
theorem of_spared (h : ∀ x, HasRecord w.storage x.id x → Spared x.id w w') : Onward w w' where
  kept x hx := ⟨x, (h x hx).hasRecord hx, rfl⟩
  ended x hx _ := h x hx

theorem refl (w : World) : Onward w w :=
  of_spared fun _ _ => ⟨rfl, rfl, rfl⟩

theorem trans (h : Onward u w) (k : Onward w w') : Onward u w' where
  kept x hx := by
    obtain ⟨y, hy, hid⟩ := h.kept x hx
    obtain ⟨z, hz, hid'⟩ := k.kept y (hid ▸ hy)
    exact ⟨z, hid ▸ hz, hid'.trans hid⟩
  ended x hx hs := (h.ended x hx hs).trans (k.ended x ((h.ended x hx hs).hasRecord hx) hs)

end Onward

namespace World.Dated

variable {w w' : World}

/-- The records are those that there were. -/
theorem of_records (h : w.Dated) (hr : ∀ x, HasRecord w'.storage x.id x → HasRecord w.storage x.id x) : w'.Dated :=
  fun x hx => h x (hr x hx)

theorem of_storage (h : w.Dated) (hs : w'.storage = w.storage) : w'.Dated :=
  h.of_records fun x hx => by rwa [hs] at hx

/-- One record was written, and it tells of its end if it has ended. -/
theorem recorded (h : w.Dated) {x : Execution} (hw : Wrote (Store.Executions.place x.id) x.toValue w w')
    (hx : x.completedAt.isSome = true ↔ x.status ≠ .running) : w'.Dated := by
  intro y hy
  by_cases hp : (Store.Executions.place y.id).path = (Store.Executions.place x.id).path
  · rw [HasRecord, Storage.read_congr hp] at hy
    rwa [Execution.hasRecord_unique hy hw.read_self]
  · exact h y ((hw.read_ne hp).symm.trans hy)

end World.Dated

/-- An execution that was running tells of its end if it has ended now. -/
theorem Execution.dated_ended {x : Execution} (h : x.completedAt = none) (status : RunStatus) (error : Option String)
    (duration : Int) (now : String) :
    (x.ended status error duration now).completedAt.isSome = true ↔ (x.ended status error duration now).status ≠ .running := by
  cases status <;> simp [ended, h]

/-! ## What is kept -/

namespace Living

variable {w w' : World}

/-- Nothing was done for any execution. -/
theorem untouched (h : Living w) (ho : Orderly w') (ht : Touches none w w') : Living w' ∧ Onward w w' :=
  ⟨⟨ho, ht.unaudited h.unaudited, h.dated.of_records fun x hx => ht.kept x hx (by simp)⟩,
    .of_spared fun x hx => ht.spared x hx (by simp)⟩

/-- An execution that has started was not there, and the others are spared. -/
theorem executed (h : Living w) (W : Workflow) (payload : Value) :
    let w' := (run (Invocation.execute W payload) w).2
    Living w' ∧ Onward w w' := by
  intro w'
  have ht : Touches (some w.nextExecution) w w' := Invocation.execute_touches h.orderly (.inl h.unaudited) W payload
  have hnew {x : Execution} (hx : HasRecord w.storage x.id x) : x.id ∉ some w.nextExecution := fun he =>
    h.orderly.ne_nextExecution hx (Option.some.inj he).symm
  refine ⟨⟨lasting_orderly.abiding.executed W payload w h.orderly, ht.unaudited h.unaudited, ?_⟩,
    .of_spared fun x hx => ht.spared x hx (hnew hx)⟩
  rcases hrun : run (Invocation.execute W payload) w with ⟨result, v⟩
  obtain rfl : w' = v := congrArg Prod.snd hrun
  rcases Invocation.execute_cases h.orderly (.inl h.unaudited) W payload with
    ⟨fault, u, hr, -, -, -, hs, -⟩ | ⟨w₀, session, w₁, u, r, duration, hq, hw, -, -, hconfined, hend⟩
  · obtain rfl : w' = u := congrArg Prod.snd hr
    exact h.dated.of_storage hs
  · rw [hrun] at hend
    generalize hx : Execution.begun w₀.nextExecution W.id (Context.start payload).triggerData session w₀.clock.stamp = x
      at hw hconfined hend
    have hcompleted : x.completedAt = none := by rw [← hx]; rfl
    have hdated₀ : World.Dated { w₀ with issued := w₀.issued + 1 } := h.dated.of_storage hq.storage
    have hdated₁ : w₁.Dated := hdated₀.recorded hw (by rw [← hx]; simp [Execution.begun])
    have hdated : u.Dated := hdated₁.of_records fun y hy => (hconfined.record y.id).symm.trans hy
    cases hend with
    | done hw => exact hdated.recorded (x := x.ended ..) hw (Execution.dated_ended hcompleted _ _ _ _)
    | unheard hno _ => exact absurd trivial hno
    | lost _ hq => exact hdated.of_storage hq.storage

/-- An execution that has gone on was running, and the others are spared. -/
theorem continued {mapping : ButtonMapping} (message : String) {button data : Value} {workflow : Workflow}
    {x : Execution} {node : Node} {context : Context} (start : Int) (h : Living w)
    (hr : Continuation.Resumable mapping button data workflow x node context w) :
    let w' := (run (Continuation.goOnOrFail message workflow x node button context start) (w.accepting x node button)).2
    Living w' ∧ Onward w w' := by
  intro w'
  have hrecord := h.orderly.hasRecord_of_ready hr.toReady
  have hstatus : x.status = .running := beq_iff_eq.1 hr.running
  have hcompleted : x.completedAt = none := by
    have hd := h.dated x hrecord
    rw [hstatus] at hd
    simpa using hd
  have ht : Touches (some x.id) w w' := Continuation.goOnOrFail_touches h.orderly (.inl h.unaudited) message hr start
  -- the execution that goes on is the only one that is not spared, and it has not ended
  have hspared {y : Execution} (hy : HasRecord w.storage y.id y) (hne : y.id ≠ x.id) : Spared y.id w w' :=
    ht.spared y hy fun he => hne (Option.some.inj he).symm
  have hsame {y : Execution} (hy : HasRecord w.storage y.id y) (he : y.id = x.id) : y = x :=
    Execution.hasRecord_unique (he ▸ hy) hrecord
  obtain ⟨u, hconfined, result, v, hrun, hend⟩ := Continuation.goOnOrFail_cases h.orderly (.inl h.unaudited) message hr start
  obtain rfl : w' = v := congrArg Prod.snd hrun
  have hdated : u.Dated := h.dated.of_records fun y hy => (hconfined.record y.id).symm.trans hy
  have hleft : w'.Dated ∧ ∃ y, HasRecord w'.storage x.id y ∧ y.id = x.id := by
    rcases hend with ⟨status, error, duration, hw⟩ | rfl
    · exact ⟨hdated.recorded (x := x.ended ..) hw (Execution.dated_ended hcompleted _ _ _ _), _, hw.read_self, rfl⟩
    · exact ⟨hdated, x, hconfined.hasRecord hrecord, rfl⟩
  refine ⟨⟨lasting_orderly.abiding.continued message start h.orderly hr, ht.unaudited h.unaudited, hleft.1⟩,
    fun y hy => ?_, fun y hy hs => hspared hy fun he => hs (hsame hy he ▸ hstatus)⟩
  by_cases he : y.id = x.id
  · rw [he]
    exact hleft.2
  · exact ⟨y, (hspared hy he).hasRecord hy, rfl⟩

/-- Whatever happened since some world, except that workflows were saved over other files. -/
theorem sparing (u : World) : Sparing Orderly fun w => Living w ∧ Onward u w where
  lasting := lasting_orderly
  saved := orderly_saveWorkflow
  closed _ h := h.of_eq rfl rfl rfl rfl
  orderly := id
  untouched h ho ht := ⟨(h.1.untouched ho ht).1, h.2.trans (h.1.untouched ho ht).2⟩
  executed W payload _ _ h := ⟨(h.1.executed W payload).1, h.2.trans (h.1.executed W payload).2⟩
  continued message _ _ _ _ _ _ start _ _ h hr :=
    ⟨(h.1.continued message start hr).1, h.2.trans (h.1.continued message start hr).2⟩

end Living

/-! ## Sessions -/

/-- Every step of a session that saves no workflow over other files goes on with what is there. -/
theorem living_perform (step : Session.Step) {w : World} (h : Living w) :
    let w' := (run (Session.perform step) w).2
    Living w' ∧ (step.Straight → Onward w w') := by
  have hsound (hs : step.Straight) (hi : step.isSound = true) : let w' := (run (Session.perform step) w).2
      Living w' ∧ (step.Straight → Onward w w') := by
    obtain ⟨-, hl, hon⟩ := (Living.sparing w).perform hs hi w ⟨h.orderly, h, .refl w⟩
    exact ⟨hl, fun _ => hon⟩
  cases step with
  | saveWorkflow W =>
    refine ⟨?_, fun hs => (hsound hs rfl).2 hs⟩
    have ho := enduring_orderly.perform (.saveWorkflow W) w h.orderly
    rw [show (run (Session.perform (.saveWorkflow W)) w).2 = (run (Store.Workflows.save W) w).2 from run_map_snd _ _ _]
      at ho ⊢
    rcases Store.Workflows.save_cases W w with ⟨w', hr, hw⟩ | ⟨fault, w', hr, hq⟩ <;> rw [hr] at ho ⊢
    · exact ⟨ho, h.unaudited.wrote hw, h.dated.of_records fun x hx => Touches.recorded_saved hw hx⟩
    · exact (h.untouched ho (.of_quiet hq)).1
  | inject failpoint =>
    exact ⟨⟨h.orderly.of_eq rfl rfl rfl rfl, h.unaudited, h.dated⟩,
      fun _ => .of_spared fun _ _ => ⟨rfl, rfl, rfl⟩⟩
  | setWorkflowStatus | closeAudit | execute | executeStored | trigger | click | register | unregister | advance | forget =>
    exact hsound trivial rfl

theorem living_run (steps : List Session.Step) {w : World} (h : Living w) :
    let w' := (Session.run steps w).2
    Living w' ∧ ((∀ step ∈ steps, step.Straight) → Onward w w') := by
  induction steps generalizing w with
  | nil => exact ⟨h, fun _ => .refl w⟩
  | cons step rest ih =>
    obtain ⟨hl, hon⟩ := living_perform step h
    obtain ⟨hl', hon'⟩ := ih hl
    exact ⟨hl', fun hs => (hon (hs step List.mem_cons_self)).trans (hon' fun s hm => hs s (List.mem_cons_of_mem _ hm))⟩

theorem living_initial (config : Config) (root : String) : Living (.initial config root none) where
  orderly := orderly_initial config root none
  unaudited := rfl
  dated _ hx := by cases hx

/-- The record of an execution tells of an end if and only if the execution has ended. An execution that has ended stays
as it is: its record is never written again, no node of it runs, and no collaborator is called on its behalf; and one that
has not ended stays on record. For this no workflow must be saved whose id has a slash. -/
theorem ended_for_good (config : Config) (root : String) (before after : List Session.Step)
    (hs : ∀ step ∈ after, step.Straight) :
    let w := (Session.run before (.initial config root none)).2
    let w' := (Session.run after w).2
    ∀ x, HasRecord w.storage x.id x →
      (x.completedAt.isSome = true ↔ x.status = .success ∨ x.status = .failed) ∧
      (∃ y, HasRecord w'.storage x.id y ∧ y.id = x.id) ∧
      (x.status ≠ .running → HasRecord w'.storage x.id x ∧ w'.storage.attempted x.id = w.storage.attempted x.id ∧
        w'.callsFor x.id = w.callsFor x.id) := by
  intro w w' x hx
  have hw : Living w := (living_run before (living_initial config root)).1
  have hon : Onward w w' := (living_run after hw).2 hs
  refine ⟨?_, hon.kept x hx, fun hended => ?_⟩
  · rw [hw.dated x hx]
    cases x.status <;> simp
  · have hspared := hon.ended x hx hended
    exact ⟨hspared.hasRecord hx, hspared.attempted, hspared.calls⟩

namespace Sample

/-- A trigger node with nothing behind it. -/
def lonely (id : String) : Workflow :=
  { id, title := none, status := .published, nodes := [node "start" "trigger" []], edges := [] }

end Sample

/-- An execution that has ended when its workflow is saved once more. -/
theorem ended_for_good_sample :
    let w := (Session.run [.execute (Sample.lonely "flow") .null] (.initial {} "" none)).2
    let w' := (Session.run [.saveWorkflow (Sample.lonely "flow"), .execute (Sample.lonely "flow") .null] w).2
    ∃ x, HasRecord w.storage Sample.execution x ∧ x.status = .success ∧ HasRecord w'.storage Sample.execution x := by
  dsimp only
  have hw : Orderly (Session.run [.execute (Sample.lonely "flow") .null] (.initial {} "" none)).2 :=
    orderly_run _ (orderly_initial {} "" none)
  have hx : ((Session.run [.execute (Sample.lonely "flow") .null]
      (.initial {} "" none)).2.storage.execution? Sample.execution).map (fun x => (x.id, x.status)) =
      some (Sample.execution, .success) := by decide +kernel
  obtain ⟨x, hx, heq⟩ := Option.map_eq_some_iff.1 hx
  obtain ⟨hid, hstatus⟩ := Prod.mk.inj heq
  have hrecord := (hw.hasRecord_iff _ _).2 hx
  have hstraight : ∀ step ∈ [Session.Step.saveWorkflow (Sample.lonely "flow"), .execute (Sample.lonely "flow") .null],
      step.Straight := by
    intro step hm
    rcases List.mem_cons.1 hm with rfl | hm
    · show '/' ∉ "flow".toList
      decide
    · rw [List.mem_singleton.1 hm]
      trivial
  obtain ⟨-, -, hended⟩ := ended_for_good {} "" [.execute (Sample.lonely "flow") .null] _ hstraight x (hid ▸ hrecord)
  have hend := (hended (by rw [hstatus]; decide)).1
  rw [hid] at hend
  exact ⟨x, hrecord, hstatus, hend⟩

/-- A workflow whose id is a path is saved over the record of an execution that has ended. -/
theorem not_ended_for_good :
    let w := (Session.run [.execute (Sample.lonely "flow") .null] (.initial {} "" none)).2
    let w' := (Session.run [.saveWorkflow (Sample.lonely ("../executions/" ++ Sample.execution))] w).2
    ∃ x, HasRecord w.storage Sample.execution x ∧ x.status = .success ∧ ∀ y, ¬HasRecord w'.storage Sample.execution y := by
  intro w w'
  have hw : Orderly w := orderly_run _ (orderly_initial {} "" none)
  have hx : (w.storage.execution? Sample.execution).map Execution.status = some .success := by decide +kernel
  obtain ⟨x, hx, hstatus⟩ := Option.map_eq_some_iff.1 hx
  refine ⟨x, (hw.hasRecord_iff _ _).2 hx, hstatus, fun y hy => ?_⟩
  have hw' : Orderly w' := orderly_run _ hw
  have hnone : (w'.storage.execution? Sample.execution).isNone = true := by decide +kernel
  rw [(hw'.hasRecord_iff _ _).1 hy] at hnone
  cases hnone

end WorkGraph
