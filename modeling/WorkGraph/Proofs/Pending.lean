import WorkGraph.Proofs.Messages
import WorkGraph.Proofs.Selected

/-!
# Messages that are pending

Whether an execution is left running or ends is decided by what its last invocation did, and by nothing else. So an
execution that is left running came to wait in that invocation, and a click on a message for which a node asked then is
admitted (`LeftWaiting`, `left_waiting`); but a node may wait without having asked (`not_always_answerable`). And an execution
that succeeds leaves unanswered what nodes of earlier invocations have asked for (`pending_at_success`,
`pending_and_succeeded`). Both go by the mappings that an invocation adds (`Invoked.listed_cases`, `Invoked.find?_asked`).
-/

namespace WorkGraph

open Engine Running

/-! ## Records that can be written again -/

/-- Whether every record fits where it is, and the time that it tells of can be added to. -/
def World.Rewritable (w : World) : Prop :=
  ∀ x, HasRecord w.storage x.id x → (Store.Executions.place x.id).Fits ∧ Number.inRange x.durationMs = true

namespace World.Rewritable

variable {w w' : World}

theorem of_records (h : w.Rewritable) (hr : ∀ x, HasRecord w'.storage x.id x → HasRecord w.storage x.id x) :
    w'.Rewritable :=
  fun x hx => h x (hr x hx)

theorem of_storage (h : w.Rewritable) (hs : w'.storage = w.storage) : w'.Rewritable :=
  h.of_records fun x hx => by rwa [hs] at hx

/-- Nothing was done for any execution. -/
theorem untouched (h : w.Rewritable) (ht : Touches none w w') : w'.Rewritable :=
  h.of_records fun x hx => ht.kept x hx (by simp)

/-- A record was written, with a duration that can be told. -/
theorem recorded {id : String} {x : Execution} (h : w.Rewritable)
    (hw : Wrote (Store.Executions.place id) x.toValue w w') (hd : Number.inRange x.durationMs = true) : w'.Rewritable := by
  intro y hy
  by_cases hp : (Store.Executions.place y.id).path = (Store.Executions.place id).path
  · have hplace : Store.Executions.place y.id = Store.Executions.place id := Location.ofRecord_congr hp
    rw [HasRecord, hplace] at hy
    rw [hplace, Execution.hasRecord_unique hy hw.read_self]
    exact ⟨hw.fits, hd⟩
  · exact h y ((hw.read_ne hp).symm.trans hy)

end World.Rewritable

theorem lasting_rewritable : Lasting fun w => Forgetful w ∧ w.Rewritable where
  idle h hi := ⟨h.1.idle hi, h.2.of_storage hi.storage⟩
  claimed {message _ _ _ _} h hw := ⟨lasting_forgetful.claimed h.1 hw, h.2.untouched
    (.of_wrote hw (fun _ => Apart.claims_ne message (by decide) _ _) (claims_ne_nodeLogs message))⟩
  released message w h := ⟨lasting_forgetful.released message h.1, h.2.untouched (.of_released message w)⟩
  launch W payload w h := by
    refine ⟨lasting_forgetful.launch W payload w h.1, ?_⟩
    have htracks := (startExecution_tracks W payload (Context.start payload).triggerData h.1.orderly).2
    have hup : World.Rewritable { w with issued := w.issued + 1 } := h.2.of_storage rfl
    rcases Journal.startExecution_cases W.id (Context.start payload).triggerData w with
      ⟨session, w₁, hr, hw⟩ | ⟨-, fault, w₁, hr, hq⟩
    · have htracks := htracks _ (by rw [hr])
      rw [hr] at htracks
      obtain ⟨r, u, hlaunch, -, -, hconfined⟩ :=
        (stable_confined w.nextExecution w₁).launched hr ⟨htracks, rfl, .refl w₁⟩
      rw [hlaunch]
      have hnothing : Number.inRange 0 = true := by decide +kernel
      exact (hup.recorded hw hnothing).of_records fun x hx => (hconfined.record x.id).symm.trans hx
    · unfold Invocation.launch
      rw [run_bind_error hr]
      exact hup.of_storage hq.storage
  resume {_ button _ _ x node _ w} h hr := by
    refine ⟨lasting_forgetful.resume h.1 hr, ?_⟩
    obtain ⟨r, ⟨-, -, hconfined⟩, -⟩ := (stable_confined x.id (w.accepting x node button)).resumed x.errorMessage
      ⟨h.1.orderly.tracks_of_resumable hr, rfl, .refl _⟩
    exact h.2.of_records fun y hy => (hconfined.record y.id).symm.trans hy
  routed execution node message details w h :=
    ⟨lasting_forgetful.routed execution node message details w h.1, h.2.untouched (.of_routed h.1.orderly _ _ _ _)⟩
  finish id status error duration hd w h := by
    refine ⟨lasting_forgetful.finish id status error duration hd w h.1, ?_⟩
    rcases h.1.orderly.finish_cases id status error duration with ⟨x, hx, -, -⟩ | ⟨fault, w', hr, hq⟩
    · exact (Journal.finishExecution_posted hx status error duration).keeps (h.2.recorded · hd) fun hq =>
        h.2.of_storage hq.storage
    · rw [hr]
      exact h.2.of_storage hq.storage

/-- In every session every record can be written again. -/
theorem enduring_rewritable : Enduring fun w => Forgetful w ∧ w.Rewritable where
  toLasting := lasting_rewritable
  saved V w h := by
    refine ⟨forgetful_saveWorkflow V w h.1, ?_⟩
    rcases Store.Workflows.save_cases V w with ⟨w', hr, hw⟩ | ⟨fault, w', hr, hq⟩ <;> rw [hr]
    · exact h.2.of_records fun x hx => Touches.recorded_saved hw hx
    · exact h.2.of_storage hq.storage
  closed w h := ⟨enduring_forgetful.closed w h.1, h.2.of_storage rfl⟩
  armed failpoint _ h := ⟨enduring_forgetful.armed failpoint h.1, h.2.of_storage rfl⟩

theorem rewritable_initial (config : Config) (root : String) (auditor : Option Auditor) :
    World.Rewritable (.initial config root auditor) :=
  fun _ hx => by cases hx

/-! ## Clicks that go on -/

/-- Since some world no step was taken but that clicks were read, and messages claimed for them. -/
structure Unsent.Since (u w : World) : Prop extends WorkGraph.Since u w where
  config : w.config = u.config
  steady : u.Steady → w.Steady
  heard : u.Heard → w.Heard
  mappings : ∀ message, w.storage.read (Store.Mappings.place message) (.list []) =
    u.storage.read (Store.Mappings.place message) (.list [])
  rewritable : w.Rewritable

theorem Unsent.Since.listed_iff {u w : World} {m : ButtonMapping} (h : Unsent.Since u w) :
    Continuation.Listed m w ↔ Continuation.Listed m u := by
  unfold Continuation.Listed
  simp only [h.mappings]

theorem heedless_unsent (u : World) : Heedless (Unsent.Since u) where
  quiet h hq := ⟨(heedless_since u).quiet h.toSince hq, hq.config.trans h.config, hq.steady ∘ h.steady,
    hq.heard ∘ h.heard, fun _ => by rw [hq.storage, h.mappings], h.rewritable.of_storage hq.storage⟩
  claimed {message _ _ _ _} h hw := ⟨(heedless_since u).claimed h.toSince hw, hw.config.trans h.config,
    hw.steady ∘ h.steady, hw.heard ∘ h.heard,
    fun id => (hw.read_ne (Apart.claims_ne message (by decide) id _)).trans (h.mappings id),
    (lasting_rewritable.claimed ⟨h.forgetful, h.rewritable⟩ hw).2⟩
  released message _ h := ⟨(heedless_since u).released message h.toSince, h.config, h.steady, h.heard,
    fun id => (Storage.read_remove_ne (Apart.claims_ne message (by decide) id ".json")).trans (h.mappings id),
    (lasting_rewritable.released message ⟨h.forgetful, h.rewritable⟩).2⟩

/-- Whether a message is claimed if it was before, or if it is the one that was clicked. -/
def World.ClaimedBy (clicked : Option String) (message : String) (w w' : World) : Prop :=
  w'.Holds (Store.Claims.place message) ↔ w.Holds (Store.Claims.place message) ∨
    ∃ c ∈ clicked, (Store.Claims.place message).path = (Store.Claims.place c).path

theorem World.claimedBy_none (w : World) (message : String) : World.ClaimedBy none message w w := by
  simp [ClaimedBy]

section Click

variable {w : World} {message : String} {button data : Value} {mapping : ButtonMapping} {v v' : World}
  {a : Continuation.Admission}

/-- A click is admitted once its message is claimed, and nothing else was done for it. -/
theorem admission_unsent (h : Forgetful w) (hk : w.Rewritable)
    (hf : run (Store.Mappings.find? message) w = (.ok (some mapping), v))
    (ha : run (Continuation.admission mapping message button (data.orElse (.map []))) v = (.ok a, v')) :
    ∃ u, v' = u.accepting a.execution a.node button ∧ Unsent.Since w u ∧
      Continuation.Resumable mapping button (data.orElse (.map [])) a.workflow a.execution a.node a.context u ∧
      ¬w.Holds (Store.Claims.place message) ∧ ∀ other, World.ClaimedBy (some message) other w u := by
  have hw : Unsent.Since w w := ⟨⟨fun _ => rfl, rfl, h⟩, rfl, id, id, fun _ => rfl, hk⟩
  have hq := Store.Mappings.hushed_find? message w
  rw [hf] at hq
  have hv := (heedless_unsent w).quiet hw hq
  rcases (heedless_unsent w).admission message button (data.orElse (.map [])) hv (Continuation.listed_of_find? hf hq) with
    ⟨fault, u, hr, -⟩ | ⟨b, u, hr, -, hu, hres⟩
  · rw [ha] at hr
    cases hr
  · obtain ⟨hb, rfl⟩ := Prod.mk.inj (ha.symm.trans hr)
    obtain rfl := Except.ok.inj hb
    rcases Continuation.admission_cases mapping message button (data.orElse (.map [])) v with
      ⟨fault, t, hr, -⟩ | ⟨b, t, now, hr, hnone, hwrote⟩
    · rw [ha] at hr
      cases hr
    · obtain ⟨hb, hsame⟩ := Prod.mk.inj (ha.symm.trans hr)
      have hstorage : (u.accepting a.execution a.node button).storage = (t.accepting b.execution b.node button).storage :=
        congrArg World.storage hsame
      replace hstorage : u.storage = t.storage := hstorage
      rw [hq.storage] at hnone
      refine ⟨u, rfl, hu, hres, ?_, fun other => ?_⟩
      · rw [World.Holds, hnone]
        exact Bool.false_ne_true
      · unfold World.ClaimedBy World.Holds
        rw [hstorage]
        simp only [Option.mem_some_iff, exists_eq_left']
        by_cases hp : (Store.Claims.place other).path = (Store.Claims.place message).path
        · have hself : t.storage.find? (Store.Claims.place other) = t.storage.find? (Store.Claims.place message) := by
            rw [Storage.find?, hp, ← Storage.find?]
          rw [hself, hwrote.find?_self]
          exact ⟨fun _ => .inr hp, fun _ => rfl⟩
        · rw [hwrote.find?_ne hp, hq.storage]
          exact ⟨.inl, fun hc => hc.resolve_right hp⟩

/-- An execution that has gone on and not failed is left as its deeds say. -/
theorem click_left (h : Forgetful w) (hk : w.Rewritable) (hs : w.Steady) (hh : w.Heard)
    (hf : run (Store.Mappings.find? message) w = (.ok (some mapping), v))
    (ha : run (Continuation.admission mapping message button (data.orElse (.map []))) v = (.ok a, v')) {x : Execution}
    (hx : HasRecord (run (click message button data) w).2.storage a.execution.id x) (hne : x.status ≠ .failed) :
    ∃ logs ds u, Unsent.Since w u ∧ (∀ other, World.ClaimedBy (some message) other w u) ∧
      HasLogs w.storage a.execution.id logs ∧ x.id = a.execution.id ∧
      Invoked a.workflow x logs ds u (run (click message button data) w).2 := by
  obtain ⟨u, rfl, hu, hres, -, hclaims⟩ := admission_unsent h hk hf ha
  obtain ⟨logs, hl⟩ := hu.forgetful.orderly.hasLogs_of_resumable hres
  have hrecord := hu.forgetful.orderly.hasRecord_of_ready hres.toReady
  obtain ⟨hfits, hbounded⟩ := hu.rewritable _ hrecord
  rw [run_click_admitted hf ha] at hx ⊢
  rw [run_bind_ok (run_attempt _ _)] at hx ⊢
  rcases Invocation.resume_went (w := u.accepting a.execution a.node button) a.workflow a.execution a.node a.context
    (hu.steady hs) button with ⟨fault, hi, hresume⟩ | ⟨routing, s, w₁, -, -, hresume, -⟩
  · -- a click that was interrupted has failed its execution
    obtain ⟨failure, y, w', hrun, hid, hanswer, hholds⟩ := Continuation.goOnOrFail_interrupted hu.forgetful
      (hu.steady hs) (hu.heard hh) hres hfits hbounded hl message a.start hresume hi
    have hfailed : y.status = .failed := by
      have htold := hholds.told
      rw [Report.outcome, hi] at htold
      exact (Prod.mk.inj htold).1
    rw [hrun] at hx
    have hkept : HasRecord w'.storage a.execution.id x := by
      dsimp only at hx
      rcases Continuation.refuse_cases mapping message button (.stalled failure) w' with
        ⟨w'', hr, hnoted⟩ | ⟨fault', w'', hr, hq⟩
      · rw [run_bind_ok hr] at hx
        obtain ⟨rows, text, details, -, hwrote⟩ := hnoted
        exact (hwrote.read_ne (executions_ne_nodeLogs _ _)).symm.trans hx
      · rw [run_bind_error hr] at hx
        rwa [HasRecord, hq.storage] at hx
    rw [Execution.hasRecord_unique hkept (hid ▸ hholds.record)] at hne
    exact absurd hfailed hne
  · obtain ⟨y, w', ds, hid, hrun, hinvoked⟩ := Continuation.goOn_invoked hu.forgetful (hu.steady hs) (hu.heard hh) hres
      hfits hbounded hl message a.start hresume
    have hall : run (Continuation.goOnOrFail message a.workflow a.execution a.node button a.context a.start)
        (u.accepting a.execution a.node button) = (.ok y.answer, w') := by
      unfold Continuation.goOnOrFail
      rw [run_bind_ok (run_attempt _ _), hrun]
      rfl
    rw [hall] at hx ⊢
    obtain rfl : x = y := Execution.hasRecord_unique hx (hid ▸ hinvoked.record)
    exact ⟨logs, ds, u, hu, hclaims, (hu.rows _).symm.trans hl, hid, hinvoked⟩

end Click

/-! ## Mappings that are left -/

/-- The last row counts. -/
theorem Store.Mappings.run_find?_last {w : World} (hs : w.Steady) {message : String} {rows : List Value}
    {m : ButtonMapping}
    (hr : w.storage.read (Store.Mappings.place message) (.list []) = .ok (.list (rows ++ [m.toValue]))) :
    run (Store.Mappings.find? message) w = (.ok (some m), w) := by
  have ht : (Value.list (rows ++ [m.toValue])).truthy = true := by cases rows <;> rfl
  have hlast : Store.lastRow (.list (rows ++ [m.toValue])) = .ok m.toValue := by
    rw [Store.lastRow, List.getLast?_concat]
    rfl
  unfold Store.Mappings.find?
  rw [run_bind_ok (run_entering_steady hs _), run_readFile_bind hr, ht, hlast, Bool.not_true, if_neg Bool.false_ne_true,
    run_ofExcept_bind rfl, run_bind_ok (run_stamp w),
    ButtonMapping.load_toValue]
  rfl

namespace Invoked

variable {W : Workflow} {x : Execution} {logs : List NodeLog} {ds : List Deed} {w w' : World} {m : ButtonMapping}

/-- A mapping that was added is one of a deed. -/
theorem listed_cases (h : Invoked W x logs ds w w') (hm : Continuation.Listed m w') :
    Continuation.Listed m w ∨
      m.executionId = x.id ∧ ∃ d ∈ ds, d.asks? w.config = some m.messageId ∧ m.nodeId = d.node.id := by
  obtain ⟨message, rows, hr, row, hrow, now, hload⟩ := hm
  obtain ⟨ms, hms, ⟨-, hsame⟩ | ⟨before, hbefore, hafter⟩⟩ := h.mappings message
  · exact .inl ⟨message, rows, hsame ▸ hr, row, hrow, now, hload⟩
  · obtain rfl := Value.list.inj (Except.ok.inj (hr.symm.trans hafter))
    rcases List.mem_append.1 hrow with hrow | hrow
    · exact .inl ⟨message, before, hbefore, row, hrow, now, hload⟩
    · obtain ⟨m', hm', rfl⟩ := List.mem_map.1 hrow
      rw [ButtonMapping.load_toValue] at hload
      obtain rfl := Except.ok.inj hload
      have haddress : m'.address ∈ Deed.addresses w.config W.id x.id message ds := hms ▸ List.mem_map_of_mem hm'
      obtain ⟨⟨d, hd, hasks, heq⟩, -⟩ := Deed.mem_addresses.1 haddress
      exact .inr ⟨congrArg Address.execution heq, d, hd, hasks, congrArg Address.node heq⟩

/-- No mapping is lost. -/
theorem listed (h : Invoked W x logs ds w w') (hm : Continuation.Listed m w) : Continuation.Listed m w' := by
  obtain ⟨message, rows, hr, row, hrow, hload⟩ := hm
  obtain ⟨ms, -, ⟨-, hsame⟩ | ⟨before, hbefore, hafter⟩⟩ := h.mappings message
  · exact ⟨message, rows, hsame.trans hr, row, hrow, hload⟩
  · obtain rfl := Value.list.inj (Except.ok.inj (hr.symm.trans hbefore))
    exact ⟨message, _, hafter, row, List.mem_append_left _ hrow, hload⟩

/-- The latest mapping of a message for which a deed asks is one of the deed or of one behind it. -/
theorem find?_asked (h : Invoked W x logs ds w w') {front back : List Deed} {d : Deed} {message : String}
    (hds : ds = front ++ d :: back) (hd : d.asks? w.config = some message) :
    ∃ m, (run (Store.Mappings.find? message) w').1 = .ok (some m) ∧ m.executionId = x.id ∧ m.workflowId = W.id ∧
      (Store.Mappings.place m.messageId).path = (Store.Mappings.place message).path ∧
      ∃ e ∈ d :: back, e.asks? w.config = some m.messageId ∧ m.nodeId = e.node.id := by
  have hmine : (⟨message, W.id, x.id, d.node.id⟩ : Address) ∈ Deed.addresses w.config W.id x.id message (d :: back) :=
    Deed.mem_addresses.2 ⟨⟨d, List.mem_cons_self, hd, rfl⟩, beq_self_eq_true _⟩
  obtain ⟨ms, hms, hrows⟩ := h.mappings message
  rw [hds, Deed.addresses_append] at hms
  -- the deed itself asks, so that there is a last one that does
  obtain ⟨init, a, hlast⟩ := (List.eq_nil_or_concat _).resolve_left (List.ne_nil_of_mem hmine)
  rw [List.concat_eq_append] at hlast
  rw [hlast, ← List.append_assoc] at hms
  obtain rfl | ⟨before, m, rfl⟩ := List.eq_nil_or_concat ms
  · exact absurd hms.symm (List.concat_ne_nil _ _)
  rw [List.concat_eq_append, List.map_append] at hms hrows
  obtain rfl : m.address = a := List.singleton_inj.1 (List.append_inj_right' hms rfl)
  obtain ⟨⟨e, he, hasks, heq⟩, hfiled⟩ := Deed.mem_addresses.1 (hlast ▸ List.mem_concat_self)
  obtain ⟨hnil, -⟩ | ⟨rows, -, hafter⟩ := hrows
  · simp at hnil
  · rw [← List.append_assoc] at hafter
    exact ⟨m, congrArg Prod.fst (Store.Mappings.run_find?_last h.steady hafter), congrArg Address.execution heq,
      congrArg Address.workflow heq, beq_iff_eq.1 hfiled, e, he, hasks, congrArg Address.node heq⟩

end Invoked

/-! ## What waits when an execution has succeeded -/

/-- Whether a mapping leads to a node behind which there is something, and its message was not claimed yet. -/
structure World.Awaits (w : World) (W : Workflow) (m : ButtonMapping) : Prop where
  listed : Continuation.Listed m w
  linked : W.graph.links m.nodeId ≠ []
  unclaimed : ¬w.Holds (Store.Claims.place m.messageId)

/-- After an invocation that has ended in a success, only that leads to something which did before. -/
theorem Invoked.listed_iff {W : Workflow} {x : Execution} {logs : List NodeLog} {ds : List Deed} {w w' : World}
    {m : ButtonMapping} (h : Invoked W x logs ds w w') (hx : x.status = .success) (hm : W.graph.links m.nodeId ≠ []) :
    Continuation.Listed m w' ↔ Continuation.Listed m w := by
  refine ⟨fun hl => (h.listed_cases hl).resolve_right ?_, h.listed⟩
  rintro ⟨-, d, hd, hasks, hnode⟩
  have hwaits := h.asked d hd m.messageId hasks W.graph
  have hnone : d.waits w.config.buttonTools W.graph ≠ true := by
    intro hd'
    have hrunning := h.running.2 (List.any_eq_true.2 ⟨d, hd, hd'⟩)
    rw [hx] at hrunning
    cases hrunning
  rw [hwaits, ← hnode] at hnone
  exact hm (by simpa using hnone)

/-- What waits of an execution when it is stored as a success, unless the store refuses something: nothing after it has
started; after a click that goes on, all that waited before except for the message that was clicked. -/
theorem pending_at_success (config : Config) (root : String) (auditor : Option Auditor) (steps : List Session.Step) :
    let w := (Session.run steps (.initial config root auditor)).2
    w.Steady → w.Heard →
    (∀ W payload x, let w' := (run (Invocation.execute W payload) w).2
      HasRecord w'.storage w.nextExecution x → x.status = .success →
      ∀ m : ButtonMapping, m.executionId = w.nextExecution → ¬w'.Awaits W m) ∧
    ∀ {message : String} {button data : Value} {mapping : ButtonMapping} {v v' : World} {a : Continuation.Admission} {x},
      run (Store.Mappings.find? message) w = (.ok (some mapping), v) →
      run (Continuation.admission mapping message button (data.orElse (.map []))) v = (.ok a, v') →
      let w' := (run (click message button data) w).2
      HasRecord w'.storage a.execution.id x → x.status = .success →
      ∀ m : ButtonMapping, w'.Awaits a.workflow m ↔
        w.Awaits a.workflow m ∧ (Store.Claims.place m.messageId).path ≠ (Store.Claims.place message).path := by
  intro w hs hh
  obtain ⟨hforgetful, hrewritable⟩ := enduring_rewritable.run steps
    ⟨forgetful_initial config root auditor, rewritable_initial config root auditor⟩
  constructor
  · intro W payload x w' hx hsuccess m hm hawaits
    obtain ⟨logs, ds, hl, -, hinvoked⟩ :=
      Invocation.execute_left hforgetful.orderly hs hh W payload hx (by rw [hsuccess]; decide)
    -- of an execution that has just started there was no row, and so no message
    have hlisted := (hinvoked.listed_iff hsuccess hawaits.linked).1 hawaits.listed
    have hattempted := (hforgetful.listed m hlisted logs (hm ▸ hl)).attempted
    rw [(hforgetful.orderly.attempts_eq_nil hl).2] at hattempted
    cases hattempted
  · intro message button data mapping v v' a x hf ha w' hx hsuccess m
    obtain ⟨logs, ds, u, hu, hclaims, -, -, hinvoked⟩ :=
      click_left hforgetful hrewritable hs hh hf ha hx (by rw [hsuccess]; decide)
    have hlisted : Continuation.Listed m u ↔ Continuation.Listed m w := hu.listed_iff
    have hheld : w'.Holds (Store.Claims.place m.messageId) ↔ w.Holds (Store.Claims.place m.messageId) ∨
        (Store.Claims.place m.messageId).path = (Store.Claims.place message).path := by
      have hclaimed := hclaims m.messageId
      unfold World.ClaimedBy at hclaimed
      simp only [Option.mem_some_iff, exists_eq_left'] at hclaimed
      rw [← hclaimed, World.Holds, hinvoked.claims]
      rfl
    constructor
    · rintro ⟨hl, hlinked, hno⟩
      rw [hheld, not_or] at hno
      exact ⟨⟨hlisted.1 ((hinvoked.listed_iff hsuccess hlinked).1 hl), hlinked, hno.1⟩, hno.2⟩
    · rintro ⟨⟨hl, hlinked, hno⟩, hne⟩
      exact ⟨(hinvoked.listed_iff hsuccess hlinked).2 (hlisted.2 hl), hlinked,
        fun hheld' => (hheld.1 hheld').elim hno hne⟩

namespace Sample

/-- Two messages beside each other, and a node behind both. -/
def fork : Workflow :=
  { workflow true with
    edges := [⟨some "start", some "menu", none⟩, ⟨some "start", some "ask", none⟩, ⟨some "menu", some "end", some "more"⟩,
      ⟨some "ask", some "end", some "yes"⟩] }

/-- Both messages wait, each named by its node. -/
def forked : List Session.Step :=
  [.register .tool sender
      (some ⟨fun _ call => ⟨0, .ok (.map [("message_id", .str ((call.origin.map Origin.node).getD ""))])⟩, 0⟩),
    .saveWorkflow fork, .execute fork .null]

/-- Whether no injected fault waits, and there is no audit service. -/
def calm (w : World) : Bool :=
  w.failpoints.isEmpty && w.auditor.isNone

theorem steady_of_calm {w : World} (h : calm w = true) : w.Steady ∧ w.Heard := by
  rw [calm, Bool.and_eq_true, List.isEmpty_iff, Option.isNone_iff_eq_none] at h
  refine ⟨fun p hp => ?_, World.Unaudited.heard h.2⟩
  rw [h.1] at hp
  cases hp

theorem admitted_of_secondClick {w : World} {a : Continuation.Admission} (h : secondClick w = some a) :
    ∃ mapping v u, run (Store.Mappings.find? "ask") w = (.ok (some mapping), v) ∧
      run (Continuation.admission mapping "ask" (.str "yes") (.map [])) v = (.ok a, u) := by
  unfold secondClick at h
  split at h
  · next mapping v hf =>
    rcases ha : run (Continuation.admission mapping "ask" (.str "yes") (.map [])) v with ⟨fault | b, u⟩ <;> rw [ha] at h
    · cases h
    · obtain rfl := Option.some.inj h
      exact ⟨mapping, v, u, hf, ha⟩
  · cases h

/-- Whether a message waits whose latest mapping leads to a node of an execution. -/
def awaits (message node : String) (W : Workflow) (w : World) : Bool :=
  match (run (Store.Mappings.find? message) w).1 with
  | .ok (some m) => m.messageId == message && m.executionId == execution && m.nodeId == node &&
      !(W.graph.links node).isEmpty && (w.storage.find? (Store.Claims.place message)).isNone
  | _ => false

theorem awaits_of_awaits {message node : String} {W : Workflow} {w : World} (h : awaits message node W w = true) :
    ∃ m : ButtonMapping, m.executionId = execution ∧ m.nodeId = node ∧ w.Awaits W m := by
  unfold awaits at h
  split at h
  · next m hm =>
    simp only [Bool.and_eq_true, beq_iff_eq, Bool.not_eq_true', List.isEmpty_eq_false_iff, Option.isNone_iff_eq_none] at h
    obtain ⟨⟨⟨⟨hmessage, hexecution⟩, hnode⟩, hlinks⟩, hclaim⟩ := h
    obtain ⟨rows, hrows⟩ := Store.Mappings.eq_some_of_find? (Prod.ext hm rfl)
    refine ⟨m, hexecution, hnode, ⟨message, rows, hrows⟩, hnode ▸ hlinks, ?_⟩
    rw [hmessage, World.Holds, hclaim]
    exact Bool.false_ne_true
  · cases h

end Sample

/-- One of two messages is clicked. -/
theorem pending_at_success_sample :
    let w := (Session.run Sample.forked (.initial {} "" none)).2
    let w' := (run (click "ask" (.str "yes") .null) w).2
    w.Steady ∧ w.Heard ∧ ∃ a x, Sample.secondClick w = some a ∧ HasRecord w'.storage a.execution.id x ∧
      x.status = .success ∧ ∀ m : ButtonMapping, w'.Awaits a.workflow m ↔
        w.Awaits a.workflow m ∧ (Store.Claims.place m.messageId).path ≠ (Store.Claims.place "ask").path := by
  dsimp only
  have h : (Sample.calm (Session.run Sample.forked (.initial {} "" none)).2,
      (Sample.secondClick (Session.run Sample.forked (.initial {} "" none)).2).map fun a => a.execution.id,
      Sample.outcome (run (click "ask" (.str "yes") .null) (Session.run Sample.forked (.initial {} "" none)).2).2) =
      (true, some Sample.execution, some (.success, none)) := by
    decide +kernel
  obtain ⟨hcalm, h⟩ := Prod.mk.inj h
  obtain ⟨hsecond, houtcome⟩ := Prod.mk.inj h
  obtain ⟨hsteady, hheard⟩ := Sample.steady_of_calm hcalm
  obtain ⟨a, ha, hid⟩ := Option.map_eq_some_iff.1 hsecond
  obtain ⟨x, hx, hstatus⟩ := Option.map_eq_some_iff.1 houtcome
  have hw' : Orderly (run (click "ask" (.str "yes") .null) (Session.run Sample.forked (.initial {} "" none)).2).2 :=
    lasting_orderly.abiding.click _ _ _ _ (orderly_run _ (orderly_initial {} "" none))
  have hrecord := (hw'.hasRecord_iff _ _).2 hx
  refine ⟨hsteady, hheard, a, x, ha, hid ▸ hrecord, congrArg Prod.fst hstatus, ?_⟩
  obtain ⟨mapping, v, u, hf, hadmission⟩ := Sample.admitted_of_secondClick ha
  exact (pending_at_success {} "" none Sample.forked hsteady hheard).2 hf hadmission (hid ▸ hrecord)
    (congrArg Prod.fst hstatus)

/-- Two messages wait when one of them is clicked: the execution has succeeded while the other waits, and a click on that
leads nowhere. -/
theorem pending_and_succeeded :
    let w := (Session.run Sample.forked (.initial {} "" none)).2
    let w' := (run (click "menu" (.str "more") .null) w).2
    Sample.outcome w = some (.running, none) ∧ Sample.outcome w' = some (.success, none) ∧
      (∃ m : ButtonMapping, m.executionId = Sample.execution ∧ m.nodeId = "ask" ∧ w'.Awaits Sample.fork m) ∧
      ¬Continuation.Restores "ask" (.str "yes") .null w' := by
  intro w w'
  have h : (Sample.outcome w, Sample.outcome w', Sample.awaits "ask" "ask" Sample.fork w',
      Sample.restores "ask" (.str "yes") w') = (some (.running, none), some (.success, none), true, false) := by
    decide +kernel
  obtain ⟨hwaits, h⟩ := Prod.mk.inj h
  obtain ⟨hends, h⟩ := Prod.mk.inj h
  obtain ⟨hleft, hno⟩ := Prod.mk.inj h
  refine ⟨hwaits, hends, Sample.awaits_of_awaits hleft, fun hrestores => ?_⟩
  rw [Sample.restores_iff.2 hrestores] at hno
  cases hno

/-! ## Clicks that are admitted -/

/-- Whatever a row holds, a context can be told from it. -/
theorem Context.exists_replayLog (c : Context) (row : NodeLog) : ∃ c', c.replayLog row = .ok c' := by
  unfold replayLog
  split
  · exact ⟨c, rfl⟩
  · dsimp only
    split
    · exact ⟨_, rfl⟩
    · next hno =>
      rw [Bool.or_eq_true, not_or, Bool.not_eq_true, Bool.not_eq_true] at hno
      exact ⟨_, record_eq _ _ hno.2⟩

theorem Context.exists_replay (triggerData : Value) (logs : List NodeLog) : ∃ c, replay triggerData logs = .ok c := by
  unfold replay
  generalize start triggerData = c
  induction logs generalizing c with
  | nil => exact ⟨c, rfl⟩
  | cons row rest ih =>
    obtain ⟨c', hc⟩ := exists_replayLog c row
    rw [List.foldlM_cons, hc]
    exact ih c'

section Admitted

variable {w : World} {message : String} {mapping : ButtonMapping} {W : Workflow} {x : Execution} {node : Node}
  {logs : List NodeLog} {button data : Value}

/-- A message is claimed that is not claimed yet, if its file can be written. -/
theorem Store.Claims.run_claim (hs : w.Steady) (hf : (place message).Fits) (hno : ¬w.Holds (place message))
    (execution : String) : ∃ u now, run (claim message execution) w = (.ok true, u) ∧
      Wrote (place message) (.map [("execution_id", .str execution), ("claimed_at", .str now)]) w u := by
  rcases claim_cases message execution w with ⟨u, hr, -, now, hw⟩ | ⟨result, u, hr, hne, -⟩
  · exact ⟨u, now, hr, hw⟩
  · rw [World.Holds, Bool.not_eq_true, Option.isSome_eq_false_iff, Option.isNone_iff_eq_none] at hno
    unfold claim at hr
    rw [run_bind_ok (run_entering_steady hs _), run_get_bind, hno, Option.isSome_none, if_neg Bool.false_ne_true,
      run_bind_ok (run_stamp w), run_bind, run_writeFile, Storage.write_of_fits hf] at hr
    exact absurd (Prod.mk.inj hr).1.symm hne

/-- What belongs to a click can be read from a map, or from nothing. -/
theorem ButtonMessage.clicked_orElse (button data : Value) : clicked button (data.orElse (.map [])) = clicked button data := by
  have hsame : (data.orElse (.map [])).orElse (.map []) = data.orElse (.map []) := by
    unfold Value.orElse
    cases ht : data.truthy <;> simp [ht]
  unfold clicked
  rw [hsame]

namespace Continuation

/-- A published workflow is found where it is stored. -/
theorem run_workflowOf (hs : w.Steady) (hW : w.Stores W) (hid : mapping.workflowId = W.id) (hp : W.isPublished = true) :
    run (workflowOf mapping) w = (.ok W, w) := by
  unfold workflowOf
  rw [hid, run_bind_ok (hW.run_find? hs), Option.filter_some_pos hp]
  rfl

/-- An execution with a record is found if it runs. -/
theorem run_executionOf (hs : w.Steady) (hx : HasRecord w.storage mapping.executionId x) (hr : x.isRunning = true) :
    run (executionOf mapping) w = (.ok x, w) := by
  unfold executionOf
  rw [run_bind_ok (Store.Executions.run_find? hs hx)]
  dsimp only
  rw [if_pos hr]
  rfl

/-- A button that is not declared is no obstacle. -/
theorem run_warnOfButton (mapping : ButtonMapping) (x : Execution) (button : Value) (w : World) :
    ∃ u, run (warnOfButton mapping x button) w = (.ok (), u) ∧ Quiet w u := by
  refine ⟨_, Prod.ext ?_ rfl, hushed_warnOfButton mapping x button w⟩
  unfold warnOfButton
  dsimp only
  split <;> rfl

/-- The context of an execution is restored from its rows. -/
theorem run_restore (hs : w.Steady) (hl : HasLogs w.storage x.id logs) {c : Context}
    (hc : Context.replay x.triggerData logs = .ok c) {fields : Entries Value}
    (hd : ButtonMessage.clicked button data = .ok fields) (node : Node) :
    ∃ u, run (restore x node button data) w = (.ok (c.spliceButton node.id fields), u) := by
  obtain ⟨u, -, hall | ⟨hno, -⟩⟩ := Store.NodeLogs.all_cases hl
  · unfold restore
    rw [run_bind_ok hall, run_ofExcept_bind hc, run_ofExcept_bind hd]
    exact ⟨u, rfl⟩
  · exact absurd hs hno

/-- A click on a message that can be claimed is admitted if the mapping leads to a node of a published workflow and to a
running execution, with the context that its rows tell. -/
theorem run_admission (hs : w.Steady) (hW : w.Stores W) (hid : mapping.workflowId = W.id) (hp : W.isPublished = true)
    (hx : HasRecord w.storage mapping.executionId x) (hr : x.isRunning = true) (hn : W.node? mapping.nodeId = some node)
    (hl : HasLogs w.storage x.id logs) (hf : (Store.Claims.place message).Fits)
    (hno : ¬w.Holds (Store.Claims.place message)) {c : Context} (hc : Context.replay x.triggerData logs = .ok c)
    {fields : Entries Value} (hd : ButtonMessage.clicked button data = .ok fields) :
    ∃ v, run (admission mapping message button data) w =
      (.ok ⟨w.clock.reading, W, x, node, c.spliceButton node.id fields⟩, v) := by
  unfold admission
  rw [run_bind_ok (run_reading w), run_bind_ok (run_workflowOf hs hW hid hp), run_bind_ok (run_executionOf hs hx hr), hn]
  dsimp only
  obtain ⟨u, hwarn, hwarned⟩ := run_warnOfButton mapping x button w
  rw [← hwarned.storage] at hl
  rw [World.Holds, ← hwarned.storage] at hno
  obtain ⟨v, now, hclaim, hwrote⟩ := Store.Claims.run_claim (hwarned.steady hs) hf hno x.id
  rw [HasLogs, ← hwrote.read_ne (claims_ne_nodeLogs message x.id)] at hl
  obtain ⟨v', hrestore⟩ := run_restore (hwrote.steady (hwarned.steady hs)) hl hc hd node
  have hrestore : run (restoreOrRelease message x node button data) v = (.ok (c.spliceButton node.id fields), v') := by
    unfold restoreOrRelease
    rw [run_bind_ok (run_attempt _ v), hrestore]
    rfl
  rw [run_bind_ok hwarn, run_bind_ok hclaim, Bool.not_true, if_neg Bool.false_ne_true, run_bind_ok hrestore]
  exact ⟨_, rfl⟩

/-- A click on a message is admitted whose mapping leads to a node of a published workflow and to a running execution, if
the message can be claimed. -/
theorem restores_of_stored (hs : w.Steady) (hm : (run (Store.Mappings.find? message) w).1 = .ok (some mapping))
    (hW : w.Stores W) (hid : mapping.workflowId = W.id) (hp : W.isPublished = true)
    (hx : HasRecord w.storage mapping.executionId x) (hr : x.isRunning = true)
    (hn : W.node? mapping.nodeId = some node) (hl : HasLogs w.storage x.id logs)
    (hf : (Store.Claims.place message).Fits) (hno : ¬w.Holds (Store.Claims.place message))
    (hd : (ButtonMessage.clicked button data).isOk = true) : Restores message button data w := by
  obtain ⟨fields, hfields⟩ : ∃ fields, ButtonMessage.clicked button data = .ok fields := by
    cases hc : ButtonMessage.clicked button data with
    | ok fields => exact ⟨fields, rfl⟩
    | error fault =>
      rw [hc] at hd
      cases hd
  rw [← ButtonMessage.clicked_orElse] at hfields
  obtain ⟨c, hc⟩ := Context.exists_replay x.triggerData logs
  have hq := Store.Mappings.hushed_find? message w
  obtain ⟨u, hu⟩ : ∃ u, run (Store.Mappings.find? message) w = (.ok (some mapping), u) := ⟨_, Prod.ext hm rfl⟩
  rw [hu] at hq
  rw [← hq.storage] at hx hl
  rw [World.Stores, ← hq.storage] at hW
  rw [World.Holds, ← hq.storage] at hno
  obtain ⟨v, h⟩ := run_admission (hq.steady hs) hW hid hp hx hr hn hl hf hno hc hfields
  exact ⟨mapping, u, _, v, hu, h⟩

end Continuation

end Admitted

/-! ## What an execution waits for that is left running -/

/-- How an invocation has left an execution running: one of its nodes came to wait, the answer to each message for which they
asked leads to the node that asked or to one that has asked for the same message since, and a click on it is admitted if
the message was not claimed before. -/
structure LeftWaiting (W : Workflow) (execution : String) (clicked : Option String) (logs : List NodeLog) (ds : List Deed)
    (w w' : World) : Prop where
  logged : HasLogs w.storage execution logs
  rows : ∃ more, HasLogs w'.storage execution (logs ++ ds.map Deed.row ++ more)
  nodes : ∀ d ∈ ds, d.node ∈ W.nodes ∧ d.row.nodeId = d.node.id
  waits : ∃ d ∈ ds, d.waits w.config.buttonTools W.graph = true
  asking : ∀ d ∈ ds, ∀ message, d.asks? w.config = some message →
    d.waits w.config.buttonTools W.graph = !(W.graph.links d.node.id).isEmpty
  answerable : ∀ front d back message, ds = front ++ d :: back → d.asks? w.config = some message →
    ∃ m, (run (Store.Mappings.find? message) w').1 = .ok (some m) ∧ m.executionId = execution ∧ m.workflowId = W.id ∧
      (Store.Mappings.place m.messageId).path = (Store.Mappings.place message).path ∧
      ∃ e ∈ d :: back, e.asks? w.config = some m.messageId ∧ m.nodeId = e.node.id
  claimed : ∀ message, World.ClaimedBy clicked message w w'
  resumable : W.isPublished = true → w'.Stores W → ∀ d ∈ ds, ∀ message, d.asks? w.config = some message →
    (Store.Claims.place message).Fits → ¬w'.Holds (Store.Claims.place message) → ∀ button data,
      (ButtonMessage.clicked button data).isOk = true → Continuation.Restores message button data w'

/-- An execution that is left running waits. -/
theorem Invoked.leftWaiting {W : Workflow} {x : Execution} {execution : String} {clicked : Option String}
    {logs : List NodeLog} {ds : List Deed} {u w w' : World} (h : Invoked W x logs ds u w') (hid : x.id = execution)
    (hx : x.status = .running) (hl : HasLogs w.storage execution logs) (hconfig : u.config = w.config)
    (hclaims : ∀ message, World.ClaimedBy clicked message w u) : LeftWaiting W execution clicked logs ds w w' where
  logged := hl
  rows := hid ▸ h.rows
  nodes := h.nodes
  waits := hconfig ▸ List.any_eq_true.1 (h.running.1 hx)
  asking d hd message hasks := hconfig ▸ h.asked d hd message (hconfig.symm ▸ hasks) W.graph
  answerable front d back message hds hasks := hid ▸ hconfig ▸ h.find?_asked hds (hconfig.symm ▸ hasks)
  claimed message := by
    have hu := hclaims message
    unfold World.ClaimedBy World.Holds at hu ⊢
    rw [h.claims, hu]
  resumable hp hW d hd message hasks hf hno button data hclicked := by
    obtain ⟨front, back, hds⟩ := List.append_of_mem hd
    obtain ⟨m, hm, hexecution, hworkflow, -, e, he, -, hnode⟩ := h.find?_asked hds (hconfig.symm ▸ hasks)
    have he' : e ∈ ds := hds ▸ List.mem_append_right _ he
    obtain ⟨node, hn⟩ : ∃ node, W.node? m.nodeId = some node := by
      rw [← Option.isSome_iff_exists, Workflow.node?, List.find?_isSome]
      exact ⟨e.node, (h.nodes e he').1, beq_iff_eq.2 hnode.symm⟩
    obtain ⟨more, hl⟩ := h.rows
    exact Continuation.restores_of_stored h.steady hm hW hworkflow hp (hexecution ▸ h.record)
      (by rw [Execution.isRunning, hx]; rfl) hn hl hf hno hclicked

/-- An execution that is left running, by its first invocation or by a click that goes on in whatever session, unless the
store refuses something, came to wait in that invocation, and each of its nodes that asked for an answer will get it. -/
theorem left_waiting (config : Config) (root : String) (auditor : Option Auditor) (steps : List Session.Step) :
    let w := (Session.run steps (.initial config root auditor)).2
    w.Steady → w.Heard →
    (∀ W payload x, let w' := (run (Invocation.execute W payload) w).2
      HasRecord w'.storage w.nextExecution x → x.status = .running →
      ∃ logs ds, LeftWaiting W w.nextExecution none logs ds w w') ∧
    ∀ {message : String} {button data : Value} {mapping : ButtonMapping} {v v' : World} {a : Continuation.Admission} {x},
      run (Store.Mappings.find? message) w = (.ok (some mapping), v) →
      run (Continuation.admission mapping message button (data.orElse (.map []))) v = (.ok a, v') →
      let w' := (run (click message button data) w).2
      HasRecord w'.storage a.execution.id x → x.status = .running →
      ∃ logs ds, LeftWaiting a.workflow a.execution.id (some message) logs ds w w' := by
  intro w hs hh
  obtain ⟨hforgetful, hrewritable⟩ := enduring_rewritable.run steps
    ⟨forgetful_initial config root auditor, rewritable_initial config root auditor⟩
  constructor
  · intro W payload x w' hx hrunning
    obtain ⟨logs, ds, hl, hid, hinvoked⟩ :=
      Invocation.execute_left hforgetful.orderly hs hh W payload hx (by rw [hrunning]; decide)
    exact ⟨logs, ds, hinvoked.leftWaiting hid hrunning hl rfl (World.claimedBy_none w)⟩
  · intro message button data mapping v v' a x hf ha w' hx hrunning
    obtain ⟨logs, ds, u, hu, hclaims, hl, hid, hinvoked⟩ :=
      click_left hforgetful hrewritable hs hh hf ha hx (by rw [hrunning]; decide)
    exact ⟨logs, ds, hinvoked.leftWaiting hid hrunning hl hu.config hclaims⟩

namespace Sample

/-- Two messages, one behind the other, each named by its node, of which the first waits. -/
def chain : Workflow :=
  { workflow true with
    edges := [⟨some "start", some "ask", none⟩, ⟨some "ask", some "menu", some "yes"⟩,
      ⟨some "menu", some "end", some "more"⟩] }

def chained : List Session.Step :=
  [.register .tool sender
      (some ⟨fun _ call => ⟨0, .ok (.map [("message_id", .str ((call.origin.map Origin.node).getD ""))])⟩, 0⟩),
    .saveWorkflow chain, .execute chain .null]

/-- The status of an execution. -/
def status (id : String) (w : World) : Option RunStatus :=
  (w.storage.execution? id).map Execution.status

end Sample

/-- An execution that starts waits, and one that was waiting waits again behind the button that is clicked. -/
theorem left_waiting_sample :
    let w := (Session.run Sample.chained (.initial {} "" none)).2
    w.Steady ∧ w.Heard ∧
      (∃ x, HasRecord (run (Invocation.execute Sample.chain .null) w).2.storage w.nextExecution x ∧ x.status = .running ∧
        ∃ logs ds, LeftWaiting Sample.chain w.nextExecution none logs ds w (run (Invocation.execute Sample.chain .null) w).2) ∧
      ∃ a x, Sample.secondClick w = some a ∧ HasRecord (run (click "ask" (.str "yes") .null) w).2.storage a.execution.id x ∧
        x.status = .running ∧ ∃ logs ds, LeftWaiting a.workflow a.execution.id (some "ask") logs ds w
          (run (click "ask" (.str "yes") .null) w).2 := by
  dsimp only
  have h : (Sample.calm (Session.run Sample.chained (.initial {} "" none)).2,
      Sample.status (Session.run Sample.chained (.initial {} "" none)).2.nextExecution
        (run (Invocation.execute Sample.chain .null) (Session.run Sample.chained (.initial {} "" none)).2).2,
      (Sample.secondClick (Session.run Sample.chained (.initial {} "" none)).2).map fun a => a.execution.id,
      Sample.status Sample.execution
        (run (click "ask" (.str "yes") .null) (Session.run Sample.chained (.initial {} "" none)).2).2) =
      (true, some .running, some Sample.execution, some .running) := by
    decide +kernel
  obtain ⟨hcalm, h⟩ := Prod.mk.inj h
  obtain ⟨hstarts, h⟩ := Prod.mk.inj h
  obtain ⟨hsecond, hgoes⟩ := Prod.mk.inj h
  obtain ⟨hsteady, hheard⟩ := Sample.steady_of_calm hcalm
  have ho : Orderly (Session.run Sample.chained (.initial {} "" none)).2 := orderly_run _ (orderly_initial {} "" none)
  obtain ⟨x, hx, hrunning⟩ := Option.map_eq_some_iff.1 hstarts
  obtain ⟨a, ha, hid⟩ := Option.map_eq_some_iff.1 hsecond
  obtain ⟨y, hy, hrunning'⟩ := Option.map_eq_some_iff.1 hgoes
  have hx := ((lasting_orderly.abiding.executed _ _ _ ho).hasRecord_iff _ _).2 hx
  have hy := ((lasting_orderly.abiding.click _ _ _ _ ho).hasRecord_iff _ _).2 hy
  rw [← hid] at hy
  obtain ⟨mapping, v, u, hf, hadmission⟩ := Sample.admitted_of_secondClick ha
  exact ⟨hsteady, hheard,
    ⟨x, hx, hrunning, (left_waiting {} "" none Sample.chained hsteady hheard).1 _ _ x hx hrunning⟩,
    a, y, ha, hy, hrunning', (left_waiting {} "" none Sample.chained hsteady hheard).2 hf hadmission hy hrunning'⟩

/-- Whether there is a message that was not claimed yet, and whose latest mapping leads to a node of an execution behind
which there is something. -/
def World.Wakes (w : World) (W : Workflow) (execution : String) : Prop :=
  ∃ message m, (run (Store.Mappings.find? message) w).1 = .ok (some m) ∧ m.executionId = execution ∧
    W.graph.links m.nodeId ≠ [] ∧ ¬w.Holds (Store.Claims.place message)

namespace Sample

/-- Whether all mappings are those of some messages, and none of these leads on. -/
def asleep (messages : List String) (W : Workflow) (execution : String) (w : World) : Bool :=
  (w.storage.files.keys.all fun path => !"button_mappings/".toList.isPrefixOf path.toList ||
    messages.any fun message => path == (Store.Mappings.place message).path) &&
  messages.all fun message =>
    match (run (Store.Mappings.find? message) w).1 with
    | .ok (some m) => m.executionId != execution || (W.graph.links m.nodeId).isEmpty ||
        (w.storage.find? (Store.Claims.place message)).isSome
    | _ => true

theorem not_wakes_of_asleep {messages : List String} {W : Workflow} {execution : String} {w : World}
    (h : asleep messages W execution w = true) : ¬w.Wakes W execution := by
  rintro ⟨message, m, hm, hexecution, hlinks, hno⟩
  rw [asleep, Bool.and_eq_true, List.all_eq_true, List.all_eq_true] at h
  obtain ⟨hfiles, hmessages⟩ := h
  -- a mapping that is found was read from a file
  obtain ⟨rows, hrows, row, hrow, -⟩ := Store.Mappings.eq_some_of_find? (Prod.ext hm rfl)
  obtain ⟨document, hfile⟩ : ∃ document, w.storage.find? (Store.Mappings.place message) = some document := by
    rw [← Option.ne_none_iff_exists']
    intro hnone
    rw [Storage.read, hnone] at hrows
    obtain rfl := Value.list.inj (Except.ok.inj hrows)
    cases hrow
  have hkey : (Store.Mappings.place message).path ∈ w.storage.files.keys := List.mem_map_of_mem (Entries.mem_of_get? hfile)
  have hlead : "button_mappings/".toList.isPrefixOf (Store.Mappings.place message).path.toList = true := by
    rw [List.isPrefixOf_iff_prefix, Store.Mappings.place, Location.path_ofRecord]
    exact ⟨_, List.append_assoc Folder.mappings.name.toList ['/'] _⟩
  have hfiled := hfiles _ hkey
  rw [hlead, Bool.not_true, Bool.false_or, List.any_eq_true] at hfiled
  obtain ⟨other, hother, hpath⟩ := hfiled
  have hname : safeName message = safeName other := Location.path_inj (beq_iff_eq.1 hpath)
  have hplace : Store.Mappings.place message = Store.Mappings.place other := Location.ofRecord_congr (beq_iff_eq.1 hpath)
  have hclaim : Store.Claims.place message = Store.Claims.place other := by
    rw [Store.Claims.place, Store.Claims.place, Location.ofRecord, Location.ofRecord, hname]
  have hsame : Store.Mappings.find? message = Store.Mappings.find? other := by
    rw [Store.Mappings.find?, Store.Mappings.find?, hplace]
  have hnone := hmessages other hother
  rw [← hsame, hm, ← hclaim] at hnone
  simp only [Bool.or_eq_true, bne_iff_ne, List.isEmpty_iff] at hnone
  exact hnone.elim (·.elim (· hexecution) hlinks) hno

/-- An action that sends a message. -/
def action (id : String) (config : Entries Value) : Node :=
  node id "action" (("tool_id", .str sender) :: config)

/-- Messages with nothing to wait for: one has no id, one has no buttons, one was never sent as its action is conditional,
and one was sent again by a node with nothing behind it. -/
def mute : Workflow :=
  { workflow false with
    nodes := [node "start" "trigger" [], message "nameless" "yes", action "bare" [],
      action "idle" [("action_type", .str "conditional")], message "ask" "yes", message "again" "yes",
      node "end" "condition" []]
    edges := ["nameless", "bare", "idle", "ask", "again"].map (⟨some "start", some ·, none⟩) ++
      ["nameless", "bare", "idle", "ask"].map (⟨some ·, some "end", some "yes"⟩) }

/-- Whatever is sent names the same message, but the first names none. -/
def muted : List Session.Step :=
  [.register .tool sender (some ⟨fun _ call => ⟨0, .ok (.map
      (if call.origin.any (·.node == "nameless") then [] else [("message_id", .str "m")]))⟩, 0⟩),
    .saveWorkflow mute, .execute mute .null]

/-- Two messages of one id, one behind the other, of which the first is answered. -/
def repeated : List Session.Step :=
  [.register .tool sender (some ⟨fun _ _ => ⟨0, .ok (.map [("message_id", .str "m")])⟩, 0⟩), .saveWorkflow chain,
    .execute chain .null, .click "m" (.str "yes") .null]

/-- Whether an execution runs and no click leads on. -/
def parks (W : Workflow) (w : World) : Bool :=
  calm w && status execution w == some .running && asleep ["m"] W execution w

/-- Whether a session without store failures leaves an execution running that nothing wakes. -/
def Parked (W : Workflow) (steps : List Session.Step) : Prop :=
  let w := (Session.run steps (.initial {} "" none)).2
  W.validate = .ok () ∧ w.Steady ∧ w.Heard ∧ (∃ x, HasRecord w.storage execution x ∧ x.status = .running) ∧
    ¬w.Wakes W execution

theorem parked_of_parks {W : Workflow} {steps : List Session.Step} (hv : W.validate = .ok ())
    (h : parks W (Session.run steps (.initial {} "" none)).2 = true) : Parked W steps := by
  rw [parks, Bool.and_eq_true, Bool.and_eq_true, beq_iff_eq] at h
  obtain ⟨⟨hcalm, hstatus⟩, hasleep⟩ := h
  obtain ⟨hsteady, hheard⟩ := steady_of_calm hcalm
  obtain ⟨x, hx, hrunning⟩ := Option.map_eq_some_iff.1 hstatus
  have ho : Orderly (Session.run steps (.initial {} "" none)).2 := orderly_run steps (orderly_initial {} "" none)
  exact ⟨hv, hsteady, hheard, ⟨x, (ho.hasRecord_iff _ _).2 hx, hrunning⟩, not_wakes_of_asleep hasleep⟩

end Sample

/-- Not everything that is left running is waiting for an answer: neither what has just started with nothing to wait for, nor
what has gone on to a message of an id that was answered before. -/
theorem not_always_answerable : Sample.Parked Sample.mute Sample.muted ∧ Sample.Parked Sample.chain Sample.repeated :=
  ⟨Sample.parked_of_parks rfl (by decide +kernel), Sample.parked_of_parks rfl (by decide +kernel)⟩

end WorkGraph
