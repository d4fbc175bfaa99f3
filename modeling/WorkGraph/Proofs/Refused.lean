import WorkGraph.Proofs.Touches

/-!
# Clicks that lead nowhere

A click goes on if its context can be restored (`Continuation.Restores`), and this is the last thing that is tried before
the run goes on. Up to there nothing is done that lasts but to claim the message, and the claim is given up if the context
cannot be restored (`admission_cases`). So a click that returns nothing before the run goes on leaves the world as it was,
with one more row in the log of the execution of its mapping (`click_refused`): `Noted`.
-/

namespace WorkGraph

open Engine

/-! ## Faults that do not wait -/

/-- Whether no injected fault waits for an operation. -/
def World.Unset (operation : Operation) (w : World) : Prop :=
  ∀ p ∈ w.failpoints, p.operation = operation → p.remaining = 0

namespace Engine

variable {operation : Operation}

/-- An operation for which no fault waits sets none off. -/
theorem trip_fst_of_unset : ∀ {points : List Failpoint}, (∀ p ∈ points, p.operation = operation → p.remaining = 0) →
    (trip operation points).1 = none
  | [], _ => rfl
  | p :: rest, h => by
    have hp : ¬(p.operation = operation ∧ 0 < p.remaining) := fun ⟨ho, hr⟩ => by
      rw [h p List.mem_cons_self ho] at hr
      exact absurd hr (Nat.lt_irrefl 0)
    rw [trip, if_neg hp]
    exact trip_fst_of_unset fun q hq => h q (List.mem_cons_of_mem _ hq)

/-- A use of another operation makes no fault wait. -/
theorem trip_snd_of_unset (used : Operation) : ∀ {points : List Failpoint},
    (∀ p ∈ points, p.operation = operation → p.remaining = 0) →
    ∀ p ∈ (trip used points).2, p.operation = operation → p.remaining = 0
  | [], _, p, hp => by cases hp
  | q :: rest, h, p, hp => by
    rw [trip] at hp
    split at hp
    · rcases List.mem_cons.1 hp with rfl | hp
      · intro ho
        show q.remaining - 1 = 0
        rw [h q List.mem_cons_self ho]
      · exact h p (List.mem_cons_of_mem _ hp)
    · rcases List.mem_cons.1 hp with rfl | hp
      · exact h p List.mem_cons_self
      · exact trip_snd_of_unset used (fun r hr => h r (List.mem_cons_of_mem _ hr)) p hp

end Engine

/-! ## What a click before the run goes on does not touch -/

/-- A property of worlds for which it does not matter what is in the files and what the operators were told, and that is
not lost when an operation is used. -/
structure Remote (I : World → Prop) : Prop where
  used : ∀ {w : World} (operation : Operation), I w → I { w with failpoints := (trip operation w.failpoints).2 }
  stored : ∀ {w : World} (storage : Storage), I w → I { w with storage }
  told : ∀ {w : World} (trace : List Effect), I w → I { w with trace }

theorem remote_unset (operation : Operation) : Remote (World.Unset operation) where
  used used h := trip_snd_of_unset used h
  stored _ h := h
  told _ h := h

theorem remote_audit (auditor : Option Auditor) (sessions : Entries Value) :
    Remote fun w => w.auditor = auditor ∧ w.sessions = sessions where
  used _ h := h
  stored _ h := h
  told _ h := h

namespace Remote

variable {α : Type} {I : World → Prop}

theorem pure (a : α) : Keeps I (Pure.pure a : Engine α) :=
  fun _ h => h

theorem throw (fault : Fault) : Keeps I (MonadExcept.throw fault : Engine α) :=
  fun _ h => h

theorem ofExcept (result : Except Fault α) : Keeps I (Engine.ofExcept result) := by
  intro w h
  rw [run_ofExcept]
  exact h

theorem stamp : Keeps I Engine.stamp :=
  fun _ h => h

theorem readFile (place : Location) (default : Value) : Keeps I (Store.readFile place default) := by
  intro w h
  rw [Store.run_readFile]
  exact h

variable (h : Remote I)
include h

theorem entering (operation : Operation) : Keeps I (Engine.entering operation) := by
  intro w hw
  rw [run_entering]
  exact h.used operation hw

theorem emit (effect : Effect) : Keeps I (Engine.emit effect) :=
  fun w hw => h.told (w.trace ++ [effect]) hw

theorem writeFile (place : Location) (v : Value) : Keeps I (Store.writeFile place v) := by
  intro w hw
  rw [Store.run_writeFile]
  split
  · exact h.stored _ hw
  · exact hw

end Remote

/-! ## Claims that are given up -/

/-- An entry that was not there is taken out again. -/
theorem Entries.erase_set {α : Type} {m : Entries α} {key : String} (h : m.get? key = none) (value : α) :
    (m.set key value).erase key = m := by
  induction m with
  | nil => simp [set, erase]
  | cons e rest ih =>
    obtain ⟨k, v⟩ := e
    by_cases hk : k = key
    · rw [get?, if_pos hk] at h
      cases h
    · rw [get?, if_neg hk] at h
      have hrest := ih h
      unfold erase at hrest ⊢
      rw [set, if_neg hk, List.filter_cons, if_pos (by simpa using hk), hrest]

/-- A file that was not there is taken away again, and the storage is what it was. -/
theorem Storage.remove_write {s t : Storage} {place : Location} {v : Value} (h : s.write place v = .ok t)
    (hnone : s.find? place = none) : t.remove place = s := by
  rw [write_of_fits (fits_of_write h)] at h
  obtain rfl := Except.ok.inj h
  rw [remove, Entries.erase_set hnone]

/-- What was written where nothing was, and then taken away, leaves nothing behind. -/
theorem Wrote.undone {place : Location} {v : Value} {w u u' : World} (h : Wrote place v w u)
    (hnone : w.storage.find? place = none) (hq : Quiet u u') :
    Quiet w { u' with storage := u'.storage.remove place } := by
  have hs : u'.storage.remove place = w.storage := by
    rw [hq.storage]
    exact Storage.remove_write h.storage hnone
  rw [hs]
  obtain ⟨storage, -, hw⟩ := h
  exact (hw.trans hq).withStorage w.storage

namespace Store.Claims

/-- A message is given up, unless an injected fault shows. -/
theorem release_cases (message : String) (w : World) :
    ∃ u, Quiet w u ∧ (run (release message) w =
        (.ok (), { u with storage := u.storage.remove (place message) }) ∨
      ¬w.Unset .releaseClaim ∧ ∃ fault, run (release message) w = (.error fault, u)) := by
  refine ⟨_, hushed_entering .releaseClaim w, ?_⟩
  unfold release
  by_cases hu : w.Unset .releaseClaim
  · refine .inl (run_bind_ok (a := ()) ?_)
    rw [run_entering, trip_fst_of_unset hu]
    rfl
  · rw [run_bind, run_entering]
    cases (trip .releaseClaim w.failpoints).1 with
    | none => exact .inl rfl
    | some text => exact .inr ⟨hu, _, rfl⟩

variable {I : World → Prop} (h : Remote I)
include h

theorem remote_claim (message execution : String) : Keeps I (claim message execution) := by
  refine keeps_bind (h.entering _) fun _ w hw => ?_
  rw [run_get_bind]
  split
  · exact hw
  · exact keeps_bind Remote.stamp (fun _ => keeps_bind (h.writeFile _ _) fun _ => Remote.pure _) w hw

theorem remote_release (message : String) : Keeps I (release message) :=
  keeps_bind (h.entering _) fun _ _ hw => h.stored _ hw

end Store.Claims

namespace Continuation

section Remote

variable {I : World → Prop} (h : Remote I)
include h

theorem remote_workflowOf (mapping : ButtonMapping) : Keeps I (workflowOf mapping) := by
  have hfind : Keeps I (Store.Workflows.find? mapping.workflowId) := by
    refine keeps_bind (h.entering _) fun _ w hw => ?_
    rw [run_get_bind]
    split
    · exact hw
    · exact keeps_map _ (Remote.ofExcept _) w hw
  refine keeps_bind hfind fun found => ?_
  split
  · exact Remote.pure _
  · exact Remote.throw _

theorem remote_executionOf (mapping : ButtonMapping) : Keeps I (executionOf mapping) := by
  have hfind : Keeps I (Store.Executions.find? mapping.executionId) := by
    refine keeps_bind (h.entering _) fun _ => keeps_bind (Remote.readFile _ _) fun data => ?_
    split
    · exact keeps_bind Remote.stamp fun _ => keeps_map _ (Remote.ofExcept _)
    · exact Remote.pure _
  refine keeps_bind hfind fun found => ?_
  split
  · exact Remote.throw _
  · split
    · exact Remote.pure _
    · exact Remote.throw _

theorem remote_warnOfButton (mapping : ButtonMapping) (x : Execution) (button : Value) :
    Keeps I (warnOfButton mapping x button) := by
  unfold warnOfButton
  dsimp only
  split
  · exact h.emit _
  · exact Remote.pure _

theorem remote_restore (x : Execution) (node : Node) (button data : Value) : Keeps I (restore x node button data) := by
  have hall : Keeps I (Store.NodeLogs.all x.id) :=
    keeps_bind (h.entering _) fun _ => keeps_bind (Remote.readFile _ _) fun _ => keeps_bind Remote.stamp fun _ =>
      keeps_bind (Remote.ofExcept _) fun _ => Remote.ofExcept _
  exact keeps_bind hall fun _ => keeps_bind (Remote.ofExcept _) fun _ => keeps_bind (Remote.ofExcept _) fun _ =>
    Remote.pure _

theorem remote_restoreOrRelease (message : String) (x : Execution) (node : Node) (button data : Value) :
    Keeps I (restoreOrRelease message x node button data) := by
  refine keeps_bind (keeps_attempt (remote_restore h _ _ _ _)) fun result => ?_
  cases result with
  | ok context => exact Remote.pure _
  | error fault => exact keeps_bind (Store.Claims.remote_release h _) fun _ => Remote.throw _

theorem remote_admission (mapping : ButtonMapping) (message : String) (button data : Value) :
    Keeps I (admission mapping message button data) := by
  have hreading : Keeps I Engine.reading := fun _ hw => hw
  refine keeps_bind hreading fun _ => keeps_bind (remote_workflowOf h _) fun W =>
    keeps_bind (remote_executionOf h _) fun x => ?_
  split
  · exact Remote.throw _
  · refine keeps_bind (remote_warnOfButton h _ _ _) fun _ => keeps_bind (Store.Claims.remote_claim h _ _) fun claimed => ?_
    dsimp only
    split
    · exact keeps_bind (Remote.throw _) fun _ => keeps_bind (remote_restoreOrRelease h _ _ _ _ _) fun _ =>
        keeps_bind (h.emit _) fun _ => Remote.pure _
    · exact keeps_bind (remote_restoreOrRelease h _ _ _ _ _) fun _ => keeps_bind (h.emit _) fun _ => Remote.pure _

end Remote

/-! ## Admission -/

/-- The context is restored, or it is not and the message is given up. -/
theorem restoreOrRelease_cases (message : String) (x : Execution) (node : Node) (button data : Value) (w : World) :
    (∃ context u, run (restoreOrRelease message x node button data) w = (.ok context, u) ∧ Quiet w u) ∨
    ∃ fault u, run (restoreOrRelease message x node button data) w = (.error fault, u) ∧
      ((∃ u', Quiet w u' ∧ u = { u' with storage := u'.storage.remove (Store.Claims.place message) }) ∨
        ¬w.Unset .releaseClaim ∧ Quiet w u) := by
  unfold restoreOrRelease
  rw [run_bind_ok (run_attempt _ w)]
  have hq := hushed_restore x node button data w
  have hu := remote_restore (remote_unset .releaseClaim) x node button data w
  rcases hr : run (restore x node button data) w with ⟨fault | context, u⟩ <;> rw [hr] at hq hu
  · obtain ⟨u', hq', hrel | ⟨hno, fault', hrel⟩⟩ := Store.Claims.release_cases message u
    · exact .inr ⟨_, _, run_bind_ok hrel, .inl ⟨u', hq.trans hq', rfl⟩⟩
    · exact .inr ⟨fault', u', run_bind_error hrel, .inr ⟨mt hu hno, hq.trans hq'⟩⟩
  · exact .inl ⟨context, u, rfl, hq⟩

/-- A click is admitted with its message claimed, or else nothing is left of it. -/
theorem admission_cases (mapping : ButtonMapping) (message : String) (button data : Value) (w : World) :
    (∃ fault u, run (admission mapping message button data) w = (.error fault, u) ∧
      (Quiet w u ∨ w.storage.find? (Store.Claims.place message) = none ∧ ¬w.Unset .releaseClaim ∧ ∃ execution now,
        Wrote (Store.Claims.place message) (.map [("execution_id", .str execution), ("claimed_at", .str now)]) w u)) ∨
    ∃ a u now, run (admission mapping message button data) w = (.ok a, u.accepting a.execution a.node button) ∧
      w.storage.find? (Store.Claims.place message) = none ∧ Wrote (Store.Claims.place message)
        (.map [("execution_id", .str a.execution.id), ("claimed_at", .str now)]) w u := by
  unfold admission
  rw [run_bind_ok (run_reading w)]
  have hq₁ := hushed_workflowOf mapping w
  have hu₁ := remote_workflowOf (remote_unset .releaseClaim) mapping w
  rcases hworkflow : run (workflowOf mapping) w with ⟨fault | workflow, w₁⟩ <;> rw [hworkflow] at hq₁ hu₁
  · rw [run_bind_error hworkflow]
    exact .inl ⟨fault, w₁, rfl, .inl hq₁⟩
  rw [run_bind_ok hworkflow]
  have hq₂ := hushed_executionOf mapping w₁
  have hu₂ := remote_executionOf (remote_unset .releaseClaim) mapping w₁
  rcases hx : run (executionOf mapping) w₁ with ⟨fault | x, w₂⟩ <;> rw [hx] at hq₂ hu₂
  · rw [run_bind_error hx]
    exact .inl ⟨fault, w₂, rfl, .inl (hq₁.trans hq₂)⟩
  rw [run_bind_ok hx]
  dsimp only
  cases workflow.node? mapping.nodeId with
  | none => exact .inl ⟨_, w₂, rfl, .inl (hq₁.trans hq₂)⟩
  | some node =>
    have hq₃ := hushed_warnOfButton mapping x button w₂
    have hu₃ := remote_warnOfButton (remote_unset .releaseClaim) mapping x button w₂
    dsimp only
    rcases hwarn : run (warnOfButton mapping x button) w₂ with ⟨fault | _, w₃⟩ <;> rw [hwarn] at hq₃ hu₃
    · rw [run_bind_error hwarn]
      exact .inl ⟨fault, w₃, rfl, .inl (hq₁.trans (hq₂.trans hq₃))⟩
    rw [run_bind_ok hwarn]
    have hq := hq₁.trans (hq₂.trans hq₃)
    have hu₄ := Store.Claims.remote_claim (remote_unset .releaseClaim) message x.id w₃
    rcases Store.Claims.claim_cases message x.id w₃ with ⟨w₄, hclaim, hnone, now, hwrote⟩ |
      ⟨result, w₄, hclaim, hne, hq₄⟩ <;> rw [hclaim] at hu₄
    · rw [run_bind_ok hclaim]
      rw [Bool.not_true, if_neg Bool.false_ne_true]
      rw [hq.storage] at hnone
      replace hwrote := hwrote.before hq
      rcases restoreOrRelease_cases message x node button data w₄ with ⟨context, w₅, hr, hq₅⟩ |
        ⟨fault, w₅, hr, ⟨u, hq₅, rfl⟩ | ⟨hno, hq₅⟩⟩
      · rw [run_bind_ok hr]
        exact .inr ⟨⟨w.clock.reading, workflow, x, node, context⟩, w₅, now, rfl, hnone, hwrote.after hq₅⟩
      · rw [run_bind_error hr]
        exact .inl ⟨fault, _, rfl, .inl (hwrote.undone hnone hq₅)⟩
      · rw [run_bind_error hr]
        exact .inl ⟨fault, w₅, rfl, .inr ⟨hnone, fun hw => hno (hu₄ (hu₃ (hu₂ (hu₁ hw)))), _, now, hwrote.after hq₅⟩⟩
    · cases result with
      | error fault =>
        rw [run_bind_error hclaim]
        exact .inl ⟨fault, w₄, rfl, .inl (hq.trans hq₄)⟩
      | ok claimed =>
        rw [run_bind_ok hclaim]
        have hfalse : claimed = false := by cases claimed <;> simp at hne ⊢
        rw [hfalse]
        exact .inl ⟨_, w₄, rfl, .inl (hq.trans hq₄)⟩

/-- Whether a click on a message gets as far as to a restored context, with which the run goes on. -/
def Restores (message : String) (button data : Value) (w : World) : Prop :=
  ∃ mapping u a v, run (Store.Mappings.find? message) w = (.ok (some mapping), u) ∧
    run (admission mapping message button (data.orElse (.map []))) u = (.ok a, v)

/-- A claimed message is not claimed again. -/
theorem admission_held {message : String} {w : World} (h : w.storage.find? (Store.Claims.place message) ≠ none)
    (mapping : ButtonMapping) (button data : Value) :
    ∃ fault u, run (admission mapping message button data) w = (.error fault, u) ∧ Quiet w u := by
  rcases admission_cases mapping message button data w with ⟨fault, u, hr, hq | ⟨hnone, -⟩⟩ | ⟨a, u, now, -, hnone, -⟩
  · exact ⟨fault, u, hr, hq⟩
  · exact absurd hnone h
  · exact absurd hnone h

end Continuation

/-! ## Refusals -/

/-- One row was added to the log of the execution of a mapping, for a click that led nowhere, and nothing else was done. -/
def Noted (mapping : ButtonMapping) (w w' : World) : Prop :=
  ∃ rows text details, w.storage.read (Store.NodeLogs.place mapping.executionId) (.list []) = .ok (.list rows) ∧
    Wrote (Store.NodeLogs.place mapping.executionId) (.list (rows ++
      [(NodeLog.unrouted mapping.executionId (rows.length + 1) mapping.nodeId text details w.clock.stamp).toValue])) w w'

theorem Noted.before {mapping : ButtonMapping} {u w w' : World} (hq : Quiet u w) (h : Noted mapping w w') :
    Noted mapping u w' := by
  obtain ⟨rows, text, details, hr, hw⟩ := h
  rw [hq.storage] at hr
  rw [hq.clock] at hw
  exact ⟨rows, text, details, hr, hw.before hq⟩

namespace Noted

variable {mapping : ButtonMapping} {w w' : World}

theorem calls (h : Noted mapping w w') : w'.calls = w.calls := by
  obtain ⟨rows, text, details, -, hw⟩ := h
  exact hw.calls

/-- The row is none of a node. -/
theorem attempted (h : Noted mapping w w') (execution : String) :
    w'.storage.attempted execution = w.storage.attempted execution := by
  obtain ⟨rows, text, details, hr, hw⟩ := h
  by_cases hp : (Store.NodeLogs.place execution).path = (Store.NodeLogs.place mapping.executionId).path
  · rw [← Storage.read_congr hp] at hr
    have hr' := (Storage.read_congr hp (.list [])).trans hw.read_self
    unfold Storage.attempted Storage.nodeLogs
    rw [hr, hr']
    simp [List.filterMap_append, NodeLog.load_toValue, Except.toOption]
  · exact Spared.attempted_congr (hw.read_ne hp)

end Noted

namespace Continuation

theorem remote_refuse {I : World → Prop} (h : Remote I) (mapping : ButtonMapping) (message : String) (button : Value)
    (fault : Fault) : Keeps I (refuse mapping message button fault) := by
  have hnote (text : String) (details : Entries Value) :
      Keeps I (Journal.routingFailed mapping.executionId mapping.nodeId text details) :=
    keeps_bind Remote.stamp fun _ => keeps_bind (keeps_bind (h.entering _) fun _ => keeps_bind (Remote.ofExcept _) fun _ =>
      keeps_bind (Remote.readFile _ _) fun _ => keeps_bind (Remote.ofExcept _) fun _ =>
        keeps_bind (Remote.ofExcept _) fun _ => keeps_bind Remote.stamp fun _ => keeps_bind (Remote.ofExcept _) fun _ =>
          keeps_bind (Remote.ofExcept _) fun _ => keeps_bind (h.writeFile _ _) fun _ => Remote.pure _) fun _ =>
      keeps_bind (h.emit _) fun _ => Remote.pure _
  unfold refuse
  dsimp only
  split
  · exact keeps_bind (hnote _ _) fun _ => Remote.pure _
  · exact keeps_bind (h.emit _) fun _ => keeps_bind (hnote _ _) fun _ => Remote.pure _

/-- A click that leads nowhere is noted, or nothing is written. -/
theorem refuse_cases (mapping : ButtonMapping) (message : String) (button : Value) (fault : Fault) (w : World) :
    (∃ w', run (refuse mapping message button fault) w = (.ok (), w') ∧ Noted mapping w w') ∨
    ∃ fault' w', run (refuse mapping message button fault) w = (.error fault', w') ∧ Quiet w w' := by
  have hnote (w : World) (text : String) (details : Entries Value) :
      let act : Engine Unit := do
        let _ ← Journal.routingFailed mapping.executionId mapping.nodeId text details
      (∃ w', run act w = (.ok (), w') ∧ Noted mapping w w') ∨ ∃ fault' w', run act w = (.error fault', w') ∧ Quiet w w' := by
    intro act
    by_cases hlist : ∃ rows, w.storage.read (Store.NodeLogs.place mapping.executionId) (.list []) = .ok (.list rows)
    · obtain ⟨rows, hrows⟩ := hlist
      have hp := (Journal.routingFailed_listed hrows mapping.nodeId text details).returning ()
      rcases hr : run (Journal.routingFailed mapping.executionId mapping.nodeId text details >>= fun _ => pure ()) w with
        ⟨result, w'⟩
      rw [hr] at hp
      cases hp with
      | done hw => exact .inl ⟨w', rfl, rows, text, details, hrows, hw⟩
      | unheard hno _ => exact absurd trivial hno
      | lost _ hq => exact .inr ⟨_, w', rfl, hq⟩
    · have hb := Journal.routingFailed_barred (fun rows hrows => hlist ⟨rows, hrows⟩) mapping.nodeId text details
      obtain ⟨fault', w', hr, hq⟩ := hb
      exact .inr ⟨fault', w', run_bind_error hr, hq⟩
  unfold refuse
  dsimp only
  split
  · exact hnote w _ _
  · have hlog := hushed_logFault "continuation" ("Button click routing failed: " ++ fault.message) w
    rw [run_bind_of_fst (a := ()) rfl]
    rcases hnote _ ("Button click routing failed: " ++ fault.message) _ with ⟨w', hr, hn⟩ | ⟨fault', w', hr, hq⟩
    · exact .inl ⟨w', hr, hn.before hlog⟩
    · exact .inr ⟨fault', w', hr, hlog.trans hq⟩

end Continuation

/-! ## Clicks -/

section Click

variable {message : String} {button data : Value} {mapping : ButtonMapping} {w u v : World}

/-- A click that is not admitted is refused. -/
theorem run_click_refused {fault : Fault} (hf : run (Store.Mappings.find? message) w = (.ok (some mapping), u))
    (ha : run (Continuation.admission mapping message button (data.orElse (.map []))) u = (.error fault, v)) :
    run (click message button data) w =
      run (Continuation.refuse mapping message button fault >>= fun _ => pure none) v := by
  unfold click
  rw [run_bind_ok hf]
  dsimp only
  rw [run_bind_ok (run_attempt _ u), Continuation.proceed_eq, run_bind_error ha]

/-- A click that is admitted goes on. -/
theorem run_click_admitted {a : Continuation.Admission}
    (hf : run (Store.Mappings.find? message) w = (.ok (some mapping), u))
    (ha : run (Continuation.admission mapping message button (data.orElse (.map []))) u = (.ok a, v)) :
    run (click message button data) w = run (do
      match ← attempt (Continuation.goOnOrFail message a.workflow a.execution a.node button a.context a.start) with
      | .ok answer => return answer
      | .error fault =>
        Continuation.refuse mapping message button fault
        return none) v := by
  unfold click
  rw [run_bind_ok hf]
  dsimp only
  rw [run_bind_ok (run_attempt _ u), Continuation.proceed_eq, run_bind_ok ha]
  refine Eq.symm ((run_bind_ok (run_attempt (Continuation.goOnOrFail message a.workflow a.execution a.node button a.context
    a.start) v)).trans ?_)
  rfl

/-- A click without a mapping does nothing. -/
theorem click_unmapped (h : ∀ mapping, (run (Store.Mappings.find? message) w).1 ≠ .ok (some mapping)) :
    Quiet w (run (click message button data) w).2 := by
  have hq := Store.Mappings.hushed_find? message w
  unfold click
  rcases hf : run (Store.Mappings.find? message) w with ⟨fault | found, u⟩ <;> rw [hf] at hq h
  · rw [run_bind_error hf]
    exact hq
  · rw [run_bind_ok hf]
    cases found with
    | none => exact hq.trans (hushed_bind (hushed_log (by decide)) (fun _ => hushed_pure _) u)
    | some mapping => exact absurd rfl (h mapping)

theorem remote_find? {I : World → Prop} (h : Remote I) (message : String) : Keeps I (Store.Mappings.find? message) := by
  refine keeps_bind (h.entering _) fun _ => keeps_bind (Remote.readFile _ _) fun data => ?_
  split
  · exact Remote.pure _
  · exact keeps_bind (Remote.ofExcept _) fun _ => keeps_bind Remote.stamp fun _ => keeps_map _ (Remote.ofExcept _)

/-- A click that is refused does not change what it does not touch. -/
theorem click_remote {I : World → Prop} (h : Remote I) (hno : ¬Continuation.Restores message button data w) (hw : I w) :
    I (run (click message button data) w).2 := by
  have hu := remote_find? h message w hw
  rcases hf : run (Store.Mappings.find? message) w with ⟨fault | found, u⟩ <;> rw [hf] at hu
  · unfold click
    rw [run_bind_error hf]
    exact hu
  cases found with
  | none =>
    unfold click
    rw [run_bind_ok hf]
    exact keeps_bind (h.emit _) (fun _ => Remote.pure _) u hu
  | some mapping =>
    have hv := Continuation.remote_admission h mapping message button (data.orElse (.map [])) u hu
    rcases ha : run (Continuation.admission mapping message button (data.orElse (.map []))) u with ⟨fault | a, v⟩
    · rw [ha] at hv
      rw [run_click_refused hf ha]
      exact keeps_bind (Continuation.remote_refuse h mapping message button fault) (fun _ => Remote.pure _) v hv
    · exact absurd ⟨mapping, u, a, v, hf, ha⟩ hno

/-- Of a click that returns nothing before the run goes on there is nothing left but its note, and without a mapping not
even that. No fault must wait for the claim to be given up. -/
theorem click_refused (hu : w.Unset .releaseClaim) (hnone : (run (click message button data) w).1 = .ok none)
    (hno : ¬Continuation.Restores message button data w) :
    let w' := (run (click message button data) w).2
    (run (Store.Mappings.find? message) w).1 = .ok none ∧ Quiet w w' ∨
    ∃ mapping, (run (Store.Mappings.find? message) w).1 = .ok (some mapping) ∧ Noted mapping w w' := by
  intro w'
  have hq := Store.Mappings.hushed_find? message w
  have hunset := remote_find? (remote_unset .releaseClaim) message w hu
  rcases hf : run (Store.Mappings.find? message) w with ⟨fault | found, u⟩
  · unfold click at hnone
    rw [run_bind_error hf] at hnone
    cases hnone
  cases found with
  | none => exact .inl ⟨rfl, click_unmapped fun mapping h => by rw [hf] at h; cases h⟩
  | some mapping =>
    rw [hf] at hq hunset
    rcases Continuation.admission_cases mapping message button (data.orElse (.map [])) u with
      ⟨fault, v, ha, hv | ⟨-, hleft, -⟩⟩ | ⟨a, v, now, ha, -⟩
    · have hrun := run_click_refused hf ha
      refine .inr ⟨mapping, rfl, ?_⟩
      show Noted mapping w (run (click message button data) w).2
      rw [hrun] at hnone ⊢
      rcases Continuation.refuse_cases mapping message button fault v with ⟨v', hr, hn⟩ | ⟨fault', v', hr, -⟩
      · rw [run_bind_ok hr]
        exact hn.before (hq.trans hv)
      · rw [run_bind_error hr] at hnone
        cases hnone
    · exact absurd hunset hleft
    · exact absurd ⟨mapping, u, a, _, hf, ha⟩ hno

end Click

namespace Sample

/-- Whether a click gets as far as to a restored context. -/
def restores (message : String) (button : Value) (w : World) : Bool :=
  match run (Store.Mappings.find? message) w with
  | (.ok (some mapping), u) => (run (Continuation.admission mapping message button (.map [])) u).1.isOk
  | _ => false

theorem restores_iff {message : String} {button : Value} {w : World} :
    restores message button w = true ↔ Continuation.Restores message button .null w := by
  unfold restores
  constructor
  · intro h
    split at h
    · next mapping u hf =>
      rcases ha : run (Continuation.admission mapping message button (.map [])) u with ⟨fault | a, v⟩ <;> rw [ha] at h
      · cases h
      · exact ⟨mapping, u, a, v, hf, ha⟩
    · cases h
  · rintro ⟨mapping, u, a, v, hf, ha⟩
    have hmap : Value.null.orElse (.map []) = .map [] := rfl
    rw [hmap] at ha
    rw [hf]
    dsimp only
    rw [ha]
    rfl

end Sample

end WorkGraph
