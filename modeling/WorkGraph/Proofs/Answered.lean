import WorkGraph.Proofs.Claimed

/-!
# Clicks that are answered whatever breaks

A click may come at any time: files may be damaged, faults may be injected, collaborators may fail. Whatever breaks on the
way (`Continuation.Escape` lists where a fault can come from), the click returns an answer as long as a row can be added for
it (`World.Notes`), and what it returns is what is on record: an id only of an execution that runs or succeeded, and nothing
where a fault came up, which has left a row of its own (`Unrouted`). A fault that comes up behind the restored context has
failed the execution, unless the record of that cannot be written either (`click_returns`).
-/

namespace WorkGraph

open Engine

variable {w w' : World}

/-! ## Rows that can be added -/

/-- A row is added to a list of rows in a file that can be written, unless a fault waits for that. -/
theorem Store.NodeLogs.append_unset {execution : String} {rows : List Value} {fields : Entries Value} {log : NodeLog}
    (ht : (trip .appendNodeLog w.failpoints).1 = none)
    (h : w.storage.read (place execution) (.list []) = .ok (.list rows)) (hfits : (place execution).Fits)
    (hf : unnamed ["self", "execution_id"] fields = .ok ()) (hi : unnamed ["id"] fields = .ok ())
    (hl : NodeLog.load w.clock.stamp
      (.map ([("id", .int (rows.length + 1)), ("execution_id", .str execution)] ++ fields)) = .ok log) :
    ∃ w', run (append execution fields) w = (.ok log, w') := by
  let u : World := { w with failpoints := (trip .appendNodeLog w.failpoints).2 }
  have hentered : run (entering .appendNodeLog) w = (.ok (), u) := by
    rw [run_entering, ht]
    rfl
  have hr : u.storage.read (place execution) (.list []) = .ok (.list rows) := h
  have hwrite : run (writeFile (place execution) (.list (rows ++ [log.toValue]))) u = (.ok (), { u with
      storage := { u.storage with files := u.storage.files.set (place execution).path (.value (.list (rows ++ [log.toValue]))) } }) := by
    rw [run_writeFile, Storage.write_of_fits hfits]
  unfold append
  rw [run_bind_ok hentered, run_ofExcept_bind hf, run_readFile_bind hr, run_ofExcept_bind (rowCount_list _),
    run_ofExcept_bind hi, run_bind_ok (run_stamp u), run_ofExcept_bind hl, run_ofExcept_bind (appendRow_list _ _),
    run_bind_ok hwrite]
  exact ⟨_, rfl⟩

/-- Whether a row can be added to the log of an execution for a click that leads nowhere. -/
def World.Notes (execution : String) (w : World) : Prop :=
  ∀ node text details, ∃ log w', run (Journal.routingFailed execution node text details) w = (.ok log, w')

/-- Such a row can be added if no fault waits for it and the log is a list in a file that can be written. -/
theorem World.notes_iff {execution : String} :
    w.Notes execution ↔ (trip .appendNodeLog w.failpoints).1 = none ∧
      (∃ rows, w.storage.read (Store.NodeLogs.place execution) (.list []) = .ok (.list rows)) ∧
      (Store.NodeLogs.place execution).Fits := by
  constructor
  · intro h
    obtain ⟨log, w', hr⟩ := h "" "" []
    unfold Journal.routingFailed Store.NodeLogs.append at hr
    rw [run_bind_ok (run_stamp w)] at hr
    obtain ⟨_, u, hr, -⟩ := eq_ok_of_bind hr
    obtain ⟨_, u, he, hr⟩ := eq_ok_of_bind hr
    rw [run_entering, Prod.mk.injEq] at he
    obtain ⟨he, rfl⟩ := he
    obtain ⟨_, u, hu, hr⟩ := eq_ok_of_bind hr
    obtain ⟨-, rfl⟩ := eq_ok_of_ofExcept hu
    obtain ⟨v, u, hv, hr⟩ := eq_ok_of_bind hr
    rw [Store.run_readFile, Prod.mk.injEq] at hv
    obtain ⟨hv, rfl⟩ := hv
    obtain ⟨count, u, hu, hr⟩ := eq_ok_of_bind hr
    obtain ⟨-, rfl⟩ := eq_ok_of_ofExcept hu
    obtain ⟨_, u, hu, hr⟩ := eq_ok_of_bind hr
    obtain ⟨-, rfl⟩ := eq_ok_of_ofExcept hu
    obtain ⟨now, u, hu, hr⟩ := eq_ok_of_bind hr
    obtain rfl := (Prod.mk.inj hu).2
    obtain ⟨row, u, hu, hr⟩ := eq_ok_of_bind hr
    obtain ⟨-, rfl⟩ := eq_ok_of_ofExcept hu
    obtain ⟨written, u, hu, hr⟩ := eq_ok_of_bind hr
    obtain ⟨happend, rfl⟩ := eq_ok_of_ofExcept hu
    obtain ⟨_, u, hwrite, -⟩ := eq_ok_of_bind hr
    rw [Store.run_writeFile] at hwrite
    refine ⟨?_, ?_, ?_⟩
    · cases ht : (trip .appendNodeLog w.failpoints).1 with
      | none => rfl
      | some text =>
        rw [ht] at he
        cases he
    · cases v with
      | list rows => exact ⟨rows, hv⟩
      | null | bool | num | str | map => cases happend
    · split at hwrite
      · next hs => exact Storage.fits_of_write hs
      · cases hwrite
  · rintro ⟨ht, ⟨rows, hrows⟩, hfits⟩ node text details
    obtain ⟨w', hr⟩ := Store.NodeLogs.append_unset ht hrows hfits rfl rfl (NodeLog.load_unrouted node text details)
    unfold Journal.routingFailed
    rw [run_bind_ok (run_stamp w)]
    exact ⟨_, _, run_bind_ok hr⟩

/-- A click that leads nowhere is noted where a row can be added. -/
theorem Continuation.refuse_noted {mapping : ButtonMapping} (h : w.Notes mapping.executionId) (message : String)
    (button : Value) (fault : Fault) :
    ∃ w', run (refuse mapping message button fault) w = (.ok (), w') ∧ Noted mapping w w' := by
  rcases refuse_cases mapping message button fault w with hnoted | ⟨fault', w', hr, -⟩
  · exact hnoted
  · exfalso
    have hok : ∃ w', run (refuse mapping message button fault) w = (.ok (), w') := by
      unfold refuse
      dsimp only
      split
      · obtain ⟨log, w', hr⟩ := h mapping.nodeId _ _
        exact ⟨w', run_bind_ok hr⟩
      · rw [run_bind_of_fst (a := ()) rfl]
        -- a log event changes nothing that the row goes by
        have hlogged (trace : List Effect) : ({ w with trace } : World).Notes mapping.executionId :=
          World.notes_iff.2 (World.notes_iff (w := w).1 h)
        obtain ⟨log, w', hr⟩ := hlogged _ mapping.nodeId _ _
        exact ⟨w', run_bind_ok hr⟩
    obtain ⟨w', hok⟩ := hok
    rw [hr] at hok
    cases hok

/-! ## Logs that do not get shorter -/

/-- Whether the log of an execution is a list of rows, so many at least. -/
def World.Lists (execution : String) (n : Nat) (w : World) : Prop :=
  ∃ rows, w.storage.read (Store.NodeLogs.place execution) (.list []) = .ok (.list rows) ∧ n ≤ rows.length

section Lists

variable {execution : String} {n : Nat}

theorem World.Lists.of_read (h : w.Lists execution n)
    (hr : w'.storage.read (Store.NodeLogs.place execution) (.list []) =
      w.storage.read (Store.NodeLogs.place execution) (.list [])) : w'.Lists execution n := by
  obtain ⟨rows, hrows, hn⟩ := h
  exact ⟨rows, hr.trans hrows, hn⟩

theorem World.Lists.quiet (h : w.Lists execution n) (hq : Quiet w w') : w'.Lists execution n :=
  h.of_read (by rw [hq.storage])

/-- What is written elsewhere does not matter. -/
theorem World.Lists.wrote {place : Location} {v : Value} (h : w.Lists execution n) (hw : Wrote place v w w')
    (hne : (Store.NodeLogs.place execution).path ≠ place.path) : w'.Lists execution n :=
  h.of_read (hw.read_ne hne)

theorem heedless_lists (execution : String) (n : Nat) : Heedless (World.Lists execution n) where
  quiet h hq := h.quiet hq
  claimed h hw := h.wrote hw fun hp => by cases Location.folder_eq_of_path hp
  released message _ h := h.of_read (Storage.read_remove_ne fun hp => by cases Location.folder_eq_of_path hp)

namespace Store

/-- A file with other rows in it, not fewer, or another file. -/
theorem keeps_lists_writeFile {place : Location} {v : Value} {w : World} (h : w.Lists execution n)
    (hv : (NodeLogs.place execution).path = place.path → ∃ rows, v = .list rows ∧ n ≤ rows.length) :
    (run (writeFile place v) w).2.Lists execution n := by
  rw [run_writeFile]
  cases hs : w.storage.write place v with
  | error fault => exact h
  | ok storage =>
    by_cases hp : (NodeLogs.place execution).path = place.path
    · obtain ⟨rows, rfl, hn⟩ := hv hp
      exact ⟨rows, (Storage.read_congr hp (.list [])).trans (Storage.read_write_self hs), hn⟩
    · exact h.of_read (Storage.read_write_ne hs hp)

/-- What is read of the log is such a list. -/
theorem NodeLogs.eq_list_of_read {other : String} {v : Value} {u : World} (h : w.Lists execution n)
    (hv : run (readFile (place other) (.list [])) w = (.ok v, u))
    (hp : (place execution).path = (place other).path) : ∃ rows, v = .list rows ∧ n ≤ rows.length := by
  obtain ⟨rows, hrows, hn⟩ := h
  rw [run_readFile, Prod.mk.injEq, ← Storage.read_congr hp, hrows] at hv
  exact ⟨rows, (Except.ok.inj hv.1).symm, hn⟩

theorem NodeLogs.keeps_lists_append (other : String) (fields : Entries Value) :
    Keeps (World.Lists execution n) (append other fields) := by
  have h := heedless_lists execution n
  refine keeps_bind (h.hushed (hushed_entering _)) fun _ => keeps_bind (h.hushed (hushed_ofExcept _)) fun _ w hw => ?_
  refine h.after_hushed (hushed_readFile _ _) hw fun v u hv hq => ?_
  refine keeps_bind (h.hushed (hushed_ofExcept _)) (fun _ => keeps_bind (h.hushed (hushed_ofExcept _)) fun _ =>
    keeps_bind (h.hushed hushed_stamp) fun _ => keeps_bind (h.hushed (hushed_ofExcept _)) fun log u hu => ?_) u
      (h.quiet hw hq)
  refine h.after_hushed (hushed_ofExcept _) hu fun written u' hwritten hq => ?_
  show (run ((fun _ => log) <$> writeFile (place other) written) u').2.Lists execution n
  rw [run_map_snd]
  refine keeps_lists_writeFile (h.quiet hu hq) fun hp => ?_
  obtain ⟨rows, rfl, hn⟩ := eq_list_of_read hw hv hp
  obtain rfl := Except.ok.inj (eq_ok_of_ofExcept hwritten).1
  exact ⟨_, rfl, by rw [List.length_append]; exact Nat.le_add_right_of_le hn⟩

/-- There are as many rows as before when one is changed. -/
theorem NodeLogs.length_change {now : String} {id : Value} {fields : Entries Value} {log : NodeLog} :
    ∀ {rows changed : List Value}, change now id fields rows = .ok (some (changed, log)) → changed.length = rows.length
  | [], changed, h => by cases h
  | .map entries :: rest, changed, h => by
    rw [change] at h
    split at h
    · cases hl : NodeLog.load now (.map (Entries.merge entries fields)) with
      | error fault => rw [hl] at h; cases h
      | ok row =>
        rw [hl] at h
        obtain ⟨rfl, -⟩ := Prod.mk.inj (Option.some.inj (Except.ok.inj h))
        rfl
    · cases hr : change now id fields rest with
      | error fault => rw [hr] at h; cases h
      | ok found =>
        rw [hr] at h
        obtain ⟨⟨others, row⟩, rfl, hpair⟩ := Option.map_eq_some_iff.1 (Except.ok.inj h)
        obtain ⟨rfl, -⟩ := Prod.mk.inj hpair
        rw [List.length_cons, List.length_cons, length_change hr]
  | .null :: _, _, h | .bool _ :: _, _, h | .num _ :: _, _, h | .str _ :: _, _, h | .list _ :: _, _, h => by cases h

theorem NodeLogs.keeps_lists_update (other : String) (id : Value) (fields : Entries Value) :
    Keeps (World.Lists execution n) (update other id fields) := by
  have h := heedless_lists execution n
  refine keeps_bind (h.hushed (hushed_entering _)) fun _ => keeps_bind (h.hushed (hushed_ofExcept _)) fun _ w hw => ?_
  refine h.after_hushed (hushed_readFile _ _) hw fun v u hv hq => ?_
  have hu := h.quiet hw hq
  refine h.after_hushed (hushed_ofExcept _) hu fun rows u₁ hrows hq₁ => ?_
  refine h.after_hushed hushed_stamp (h.quiet hu hq₁) fun now u₂ _ hq₂ => ?_
  have hu₂ := h.quiet (h.quiet hu hq₁) hq₂
  refine h.after_hushed (hushed_ofExcept _) hu₂ fun found u₃ hfound hq₃ => ?_
  have hu₃ := h.quiet hu₂ hq₃
  split
  · next changed log =>
    show (run ((fun _ => log) <$> writeFile (place other) (.list changed)) u₃).2.Lists execution n
    rw [run_map_snd]
    refine keeps_lists_writeFile hu₃ fun hp => ?_
    obtain ⟨rows', rfl, hn⟩ := eq_list_of_read hw hv hp
    obtain rfl := Except.ok.inj (eq_ok_of_ofExcept hrows).1
    exact ⟨changed, rfl, by rw [length_change (eq_ok_of_ofExcept hfound).1]; exact hn⟩
  · exact hu₃

theorem Executions.keeps_lists_update (id : String) (fields : Entries Value) :
    Keeps (World.Lists execution n) (Executions.update id fields) := by
  have h := heedless_lists execution n
  have hwrite (v : Value) : Keeps (World.Lists execution n) (writeFile (Executions.place id) v) := fun w hw =>
    keeps_lists_writeFile hw fun hp => absurd hp (executions_ne_nodeLogs _ _).symm
  refine keeps_bind (h.hushed (hushed_entering _)) fun _ => keeps_bind (h.hushed (hushed_ofExcept _)) fun _ =>
    keeps_bind (h.hushed (hushed_readFile _ _)) fun data => ?_
  dsimp only
  split
  · exact keeps_bind (h.hushed (hushed_throw _)) fun _ => by
      split
      · exact keeps_bind (h.hushed hushed_stamp) fun _ => keeps_bind (h.hushed (hushed_ofExcept _)) fun _ =>
          keeps_bind (hwrite _) fun _ => h.hushed (hushed_pure _)
      · exact h.hushed (hushed_throw _)
  · split
    · exact keeps_bind (h.hushed hushed_stamp) fun _ => keeps_bind (h.hushed (hushed_ofExcept _)) fun _ =>
        keeps_bind (hwrite _) fun _ => h.hushed (hushed_pure _)
    · exact h.hushed (hushed_throw _)

end Store

/-- No move of a run makes a log shorter. -/
theorem stable_lists (execution : String) (n : Nat) : Stable fun p => p.world.Lists execution n := by
  have h := heedless_lists execution n
  have hreport {id : String} {report : Value → Engine Unit} (hr : ∀ session, Hushed (report session)) :
      Keeps (World.Lists execution n) (Journal.audited do report (← Journal.sessionFor id)) :=
    h.hushed (Journal.hushed_report hr)
  refine Dispatch.stable_of_keeps h.quiet (fun node r w hw => ?_) (fun _ _ _ => ?_) (fun _ _ _ => ?_) fun _ _ _ _ => ?_
  · exact hw.of_read ((Dispatch.runNode_worked node r w).1.read_ne fun _ => nodeLogs_ne_mappings _ _)
  · exact keeps_bind (Store.NodeLogs.keeps_lists_append _ _) fun _ =>
      keeps_bind (hreport fun _ => Audit.hushed_append _ _ _) fun _ => h.hushed (hushed_pure _)
  · exact keeps_bind (h.hushed hushed_stamp) fun _ => keeps_bind (Store.NodeLogs.keeps_lists_update _ _ _) fun _ =>
      keeps_bind (hreport fun _ => Audit.hushed_append _ _ _) fun _ => h.hushed (hushed_pure _)
  · exact keeps_bind (h.hushed hushed_stamp) fun _ => keeps_bind (Store.NodeLogs.keeps_lists_update _ _ _) fun _ =>
      keeps_bind (h.hushed (hushed_log (by decide))) fun _ =>
        keeps_bind (hreport fun _ => Audit.hushed_append _ _ _) fun _ => h.hushed (hushed_pure _)

/-- Nothing in a session makes a log shorter. -/
theorem lasting_lists (execution : String) (n : Nat) : Lasting (World.Lists execution n) where
  idle h hi := h.of_read (by rw [hi.storage])
  claimed := (heedless_lists execution n).claimed
  released := (heedless_lists execution n).released
  launch W payload w h := by
    have hup : ({ w with issued := w.issued + 1 } : World).Lists execution n := h
    rcases Journal.startExecution_cases W.id (Context.start payload).triggerData w with
      ⟨session, w', hr, hw⟩ | ⟨-, fault, w', hr, hq⟩
    · obtain ⟨r, hend⟩ := (stable_lists execution n).launch hr (hup.wrote hw (executions_ne_nodeLogs _ _).symm)
      exact hend
    · unfold Invocation.launch
      rw [run_bind_error hr]
      exact hup.quiet hq
  resume {_ button _ W x node context w} h _ := by
    have hup : (w.accepting x node button).Lists execution n := h
    have hstart : (Progress.mk (w.accepting x node button) (.start x.id W context)).world.Lists execution n := hup
    obtain ⟨r, hend⟩ := (stable_lists execution n).resume x.errorMessage hstart
    exact hend
  routed id node message details := by
    have h := heedless_lists execution n
    exact keeps_bind (h.hushed hushed_stamp) fun _ => keeps_bind (Store.NodeLogs.keeps_lists_append _ _) fun _ =>
      keeps_bind (h.hushed (hushed_log (by decide))) fun _ => h.hushed (hushed_pure _)
  finish id status error duration _ := by
    have h := heedless_lists execution n
    exact keeps_bind (h.hushed hushed_stamp) fun _ => keeps_bind (Store.Executions.keeps_lists_update _ _) fun _ =>
      keeps_bind (h.hushed (hushed_log (by decide))) fun _ =>
        keeps_bind (h.hushed (Journal.hushed_report fun _ => Audit.hushed_append _ _ _)) fun _ => h.hushed (hushed_pure _)

end Lists

/-! ## What an execution is found to be -/

/-- The status of a record that is read is the one that was put into it. -/
theorem Execution.status_of_load {now : String} {entries : Entries Value} {y : Execution} {status : RunStatus}
    (hs : entries.get? "status" = some (.str status.name)) (h : load now (.map entries) = .ok y) : y.status = status := by
  have hstatus : Checked.optional entries "status" (Checked.word RunStatus.ofName?) .running = .ok status := by
    rw [Checked.optional, hs]
    exact congrArg (Checked.under "status") (Checked.word_str (RunStatus.ofName?_name status))
  have hr : read now entries = .ok y := by
    unfold load at h
    cases hr : read now entries with
    | ok x => simpa [Checked.record, hr, Checked.orFault] using h
    | bad misfits => simp [Checked.record, hr, Checked.orFault] at h
  rw [read, hstatus] at hr
  -- from the last field back to the status, and on to the workflow
  obtain ⟨_, _, h₁, -, hy⟩ := Checked.seq_eq_ok hr
  obtain ⟨_, _, h₂, -, rfl⟩ := Checked.seq_eq_ok h₁
  obtain ⟨_, _, h₃, -, rfl⟩ := Checked.seq_eq_ok h₂
  obtain ⟨_, _, h₄, -, rfl⟩ := Checked.seq_eq_ok h₃
  obtain ⟨_, _, h₅, -, rfl⟩ := Checked.seq_eq_ok h₄
  obtain ⟨_, _, h₆, -, rfl⟩ := Checked.seq_eq_ok h₅
  obtain ⟨_, _, h₇, hs', rfl⟩ := Checked.seq_eq_ok h₆
  obtain ⟨_, _, h₈, -, rfl⟩ := Checked.seq_eq_ok h₇
  rw [← hy, ← Checked.ok.inj hs']
  cases hid : Checked.required entries "id" Checked.text with
  | ok id =>
    rw [hid] at h₈
    rw [← Checked.ok.inj h₈]
  | bad =>
    rw [hid] at h₈
    cases h₈

/-- The fields of an end are found in what they are written over. -/
theorem Execution.get?_ending (entries : Entries Value) (status : RunStatus) (error : Value) (duration : Int)
    (now : String) : (Entries.merge entries (ending status error duration now)).get? "status" = some (.str status.name) := by
  cases status <;> simp [ending, Entries.merge, Entries.get?_set]

/-- A record that was changed is what is returned. -/
theorem Store.Executions.wrote_of_update {id : String} {fields : Entries Value} {y : Execution}
    (h : run (update id fields) w = (.ok y, w')) : ∃ entries now,
      Execution.load now (.map (Entries.merge entries fields)) = .ok y ∧ Wrote (place id) y.toValue w w' := by
  unfold update at h
  obtain ⟨_, u, he, h₁⟩ := eq_ok_of_bind h
  have hq := hushed_entering .updateExecution w
  rw [he] at hq
  obtain ⟨_, u₁, hu, h₂⟩ := eq_ok_of_bind h₁
  obtain ⟨data, u₂, hdata, h₃⟩ := eq_ok_of_bind h₂
  rw [run_readFile, (eq_ok_of_ofExcept hu).2, Prod.mk.injEq] at hdata
  rw [← hdata.2] at h₃
  dsimp only at h₃
  split at h₃
  · cases h₃
  · cases data with
    | map entries =>
      obtain ⟨now, u₃, hnow, h₄⟩ := eq_ok_of_bind h₃
      obtain ⟨x, u₄, hx, h₅⟩ := eq_ok_of_bind h₄
      obtain ⟨hload, hsame⟩ := eq_ok_of_ofExcept hx
      rw [hsame, ← (Prod.mk.inj hnow).2] at h₅
      have hp := (Posted.writeFile (place id) x.toValue u).returning x
      rw [h₅] at hp
      cases hp with
      | done hw => exact ⟨entries, now, hload, hw.before hq⟩
    | null | bool | num | str | list => cases h₃

namespace Journal

variable {id : String} {status : RunStatus} {error : Value} {duration : Int}

/-- What is done behind the end of an execution does not change its record. -/
theorem finishExecution_eq (id : String) (status : RunStatus) (error : Value) (duration : Int) :
    ∃ report : Execution → Engine Execution, (∀ x, Hushed (report x)) ∧
      ∀ w, run (finishExecution id status error duration) w =
        run (Store.Executions.update id (Execution.ending status error duration w.clock.stamp) >>= report) w := by
  refine ⟨fun x => do
    Engine.log (if status == .failed then .warning else .info) "recorder" "execution_finished"
      [("execution_id", .str id), ("status", .str x.status.name), ("duration_ms", .int x.durationMs),
        ("error_message", error)]
    audited do Audit.workflowCompleted (← sessionFor id) (.str x.workflowId) (.str x.status.name) error
    return x, fun x => ?_, fun w => ?_⟩
  · exact hushed_bind (hushed_log (by decide)) fun _ => hushed_bind (hushed_report fun _ => Audit.hushed_append _ _ _)
      fun _ => hushed_pure _
  · unfold finishExecution
    rw [run_bind_ok (run_stamp w)]
    rfl

/-- An end that was written stands, even where it cannot be reported. -/
theorem hasRecord_of_update {y : Execution} {v : World}
    (h : run (Store.Executions.update id (Execution.ending status error duration w.clock.stamp)) w = (.ok y, v)) :
    HasRecord (run (finishExecution id status error duration) w).2.storage id y ∧ y.status = status := by
  obtain ⟨entries, now, hload, hw⟩ := Store.Executions.wrote_of_update h
  refine ⟨?_, Execution.status_of_load (Execution.get?_ending entries status error duration w.clock.stamp) hload⟩
  obtain ⟨report, hreport, heq⟩ := finishExecution_eq id status error duration
  rw [heq, run_bind_ok h]
  exact (hreport y v).hasRecord hw.read_self

/-- An execution that was finished is on record with the status that it was given. -/
theorem hasRecord_of_finish {y : Execution} (h : run (finishExecution id status error duration) w = (.ok y, w')) :
    ∃ x, HasRecord w'.storage id x ∧ x.status = status := by
  obtain ⟨report, -, heq⟩ := finishExecution_eq id status error duration
  obtain ⟨x, v, hx, -⟩ := eq_ok_of_bind (heq w ▸ h)
  have hrecord := hasRecord_of_update hx
  rw [h] at hrecord
  exact ⟨x, hrecord⟩

end Journal

/-- What is returned of a run is the id of an execution that runs or succeeded. -/
theorem Invocation.hasRecord_of_finalize {r : Run} {duration : Int} {id : String}
    (h : run (finalize r duration) w = (.ok (some id), w')) :
    ∃ x, HasRecord w'.storage id x ∧ (x.status = .success ∨ x.status = .running) := by
  rw [finalize_eq] at h
  obtain ⟨_, u, -, h₁⟩ := eq_ok_of_bind h
  obtain ⟨y, v, hfinish, h₂⟩ := eq_ok_of_bind h₁
  obtain ⟨x, hx, hstatus⟩ := Journal.hasRecord_of_finish hfinish
  rw [run_pure, Prod.mk.injEq] at h₂
  obtain ⟨hanswer, rfl⟩ := h₂
  rw [Run.answer] at hanswer
  split at hanswer
  · cases hanswer
  · next hne =>
    obtain rfl := Option.some.inj (Except.ok.inj hanswer)
    refine ⟨x, hx, ?_⟩
    rw [hstatus]
    cases hr : r.status with
    | running => exact .inr rfl
    | success => exact .inl rfl
    | failed => exact absurd hr hne

/-! ## Where faults come from -/

namespace Continuation

/-- A run that went on for a click and was interrupted by a fault, in some world. -/
structure Breakdown where
  admission : Admission
  fault : Fault
  world : World

namespace Breakdown

/-- What is said of it. -/
def failure (b : Breakdown) : ResumeFailure :=
  ⟨.interrupted b.fault.message, b.admission.execution.id, some b.admission.node.id⟩

/-- The execution is recorded as failed. -/
def close (b : Breakdown) : Engine Execution := do
  let duration ← totalDuration b.admission.execution b.admission.start
  Engine.logFault "continuation" b.failure.message
  let now ← Engine.stamp
  Store.Executions.update b.admission.execution.id (Execution.ending .failed (.str b.failure.message) duration now)

end Breakdown

/-- What is found for a click before its message is claimed. -/
inductive Found (mapping : ButtonMapping) (button : Value) (w : World) (x : Execution) (node : Node) (u : World) : Prop
  | intro {W : Workflow} {u₁ u₂ : World} (hworkflow : run (workflowOf mapping) w = (.ok W, u₁))
      (hexecution : run (executionOf mapping) u₁ = (.ok x, u₂)) (hnode : W.node? mapping.nodeId = some node)
      (hwarned : run (warnOfButton mapping x button) u₂ = (.ok (), u)) : Found mapping button w x node u

/-- A fault comes out of a store or an invocation while a click is worked on: before the context is restored, or while the
run that goes on breaks down. -/
inductive Escape (mapping : ButtonMapping) (message : String) (button data : Value) (w : World) :
    Option Breakdown → Prop
  | workflow {fault : Fault} {v : World} (h : run (Store.Workflows.find? mapping.workflowId) w = (.error fault, v)) :
      Escape mapping message button data w none
  | execution {W : Workflow} {fault : Fault} {u v : World} (hw : run (workflowOf mapping) w = (.ok W, u))
      (h : run (Store.Executions.find? mapping.executionId) u = (.error fault, v)) : Escape mapping message button data w none
  | claim {x : Execution} {node : Node} {fault : Fault} {u v : World} (hf : Found mapping button w x node u)
      (h : run (Store.Claims.claim message x.id) u = (.error fault, v)) : Escape mapping message button data w none
  | logs {x : Execution} {node : Node} {fault : Fault} {u u' v : World} (hf : Found mapping button w x node u)
      (hc : run (Store.Claims.claim message x.id) u = (.ok true, u'))
      (h : run (Store.NodeLogs.all x.id) u' = (.error fault, v)) : Escape mapping message button data w none
  | release {x : Execution} {node : Node} {fault fault' : Fault} {u u' u'' v : World} (hf : Found mapping button w x node u)
      (hc : run (Store.Claims.claim message x.id) u = (.ok true, u'))
      (hr : run (restore x node button data) u' = (.error fault, u''))
      (h : run (Store.Claims.release message) u'' = (.error fault', v)) : Escape mapping message button data w none
  | resume {a : Admission} {fault : Fault} {u v : World} (ha : run (admission mapping message button data) w = (.ok a, u))
      (h : run (Invocation.resume a.workflow a.execution.id a.node a.context a.execution.errorMessage) u = (.error fault, v)) :
      Escape mapping message button data w (some ⟨a, fault, v⟩)
  | finalize {a : Admission} {routing : Routing} {r s : Run} {duration : Int} {fault : Fault} {u u₁ u₂ u₃ v : World}
      (ha : run (admission mapping message button data) w = (.ok a, u))
      (hr : run (Invocation.resume a.workflow a.execution.id a.node a.context a.execution.errorMessage) u = (.ok (routing, r), u₁))
      (hn : run (noteUnrouted message a.execution a.node button routing r) u₁ = (.ok s, u₂))
      (hd : run (totalDuration a.execution a.start) u₂ = (.ok duration, u₃))
      (h : run (Invocation.finalize s duration) u₃ = (.error fault, v)) :
      Escape mapping message button data w (some ⟨a, fault, v⟩)
  | update {a : Admission} {fault fault' : Fault} {u v : World}
      (ha : run (admission mapping message button data) w = (.ok a, u))
      (hg : run (goOn message a.workflow a.execution a.node button a.context a.start) u = (.error fault, v))
      (h : (run (Breakdown.close ⟨a, fault, v⟩) v).1 = .error fault') : Escape mapping message button data w (some ⟨a, fault, v⟩)

variable {mapping : ButtonMapping} {message : String} {button data : Value}

theorem Found.admission_eq {x : Execution} {node : Node} {u : World} (h : Found mapping button w x node u)
    (message : String) (data : Value) : ∃ W, run (admission mapping message button data) w = run (do
      if !(← Store.Claims.claim message x.id) then stall (.alreadyClaimed message) x.id mapping.nodeId
      let context ← restoreOrRelease message x node button data
      Engine.log .info "continuation" "continuation_started"
        [("execution_id", .str x.id), ("node_id", .str node.id), ("button_id", button)]
      return { start := w.clock.reading, workflow := W, execution := x, node, context }) u := by
  obtain @⟨W, _, _, hworkflow, hexecution, hnode, hwarned⟩ := h
  refine ⟨W, ?_⟩
  unfold admission
  rw [run_bind_ok (run_reading w), run_bind_ok hworkflow, run_bind_ok hexecution, hnode]
  dsimp only
  rw [run_bind_ok hwarned]

/-- A context that cannot be restored is a fault, whether or not the message can be given up. -/
theorem restoreOrRelease_error {x : Execution} {node : Node} {fault : Fault} {v : World}
    (h : run (restore x node button data) w = (.error fault, v)) (message : String) :
    ∃ fault' v', run (restoreOrRelease message x node button data) w = (.error fault', v') := by
  unfold restoreOrRelease
  rw [run_bind_ok (run_attempt _ w), h]
  dsimp only
  rcases hr : run (Store.Claims.release message) v with ⟨fault' | _, v'⟩
  · exact ⟨fault', v', run_bind_error hr⟩
  · exact ⟨_, v', run_bind_ok hr⟩

/-- A fault that comes up before the context is restored keeps the click out. -/
theorem Escape.not_admitted (h : Escape mapping message button data w none) :
    ∃ fault v, run (admission mapping message button data) w = (.error fault, v) := by
  -- behind the claim, what is left to be done is to restore the context
  have hclaimed {x : Execution} {node : Node} {fault : Fault} {u u' v : World} (hf : Found mapping button w x node u)
      (hc : run (Store.Claims.claim message x.id) u = (.ok true, u'))
      (hr : run (restore x node button data) u' = (.error fault, v)) :
      ∃ fault v, run (admission mapping message button data) w = (.error fault, v) := by
    obtain ⟨W, heq⟩ := hf.admission_eq message data
    obtain ⟨fault', v', hr'⟩ := restoreOrRelease_error hr message
    refine ⟨fault', v', heq.trans ?_⟩
    rw [run_bind_ok hc]
    exact run_bind_error hr'
  cases h with
  | workflow h =>
    unfold admission workflowOf
    exact ⟨_, _, by rw [run_bind_ok (run_reading w)]; exact run_bind_error (run_bind_error h)⟩
  | execution hw h =>
    unfold admission executionOf
    exact ⟨_, _, by rw [run_bind_ok (run_reading w), run_bind_ok hw]; exact run_bind_error (run_bind_error h)⟩
  | claim hf h =>
    obtain ⟨W, heq⟩ := hf.admission_eq message data
    exact ⟨_, _, heq.trans (run_bind_error h)⟩
  | logs hf hc h => exact hclaimed hf hc (run_bind_error h)
  | release hf hc hr h => exact hclaimed hf hc hr

/-- A breakdown is one of a run that went on. -/
theorem Escape.interrupted {b : Breakdown} (h : Escape mapping message button data w (some b)) :
    ∃ u, run (admission mapping message button data) w = (.ok b.admission, u) ∧
      run (goOn message b.admission.workflow b.admission.execution b.admission.node button b.admission.context
        b.admission.start) u = (.error b.fault, b.world) := by
  cases h with
  | resume ha h =>
    unfold goOn
    exact ⟨_, ha, run_bind_error h⟩
  | finalize ha hr hn hd h =>
    unfold goOn
    refine ⟨_, ha, ?_⟩
    rw [run_bind_ok hr]
    dsimp only
    rw [run_bind_ok hn, run_bind_ok hd, h]
  | update ha hg h => exact ⟨_, ha, hg⟩

/-- Whatever fault comes up, it is one of the continuation. -/
theorem Escape.not_proceeded {found : Option Breakdown} (h : Escape mapping message button data w found) :
    ∃ fault v, run (proceed mapping message button data) w = (.error fault, v) := by
  rw [proceed_eq]
  cases found with
  | none =>
    obtain ⟨fault, v, ha⟩ := h.not_admitted
    exact ⟨fault, v, run_bind_error ha⟩
  | some b =>
    obtain ⟨u, ha, hg⟩ := h.interrupted
    rw [run_bind_ok ha]
    unfold goOnOrFail
    rw [run_bind_ok (run_attempt _ u), hg]
    dsimp only
    rcases hd : run (totalDuration b.admission.execution b.admission.start) b.world with ⟨fault | duration, v⟩
    · exact ⟨fault, v, run_bind_error hd⟩
    · rw [run_bind_ok hd, run_bind_of_fst (a := ()) rfl]
      generalize (run (Engine.logFault "continuation" _) v).2 = v'
      rcases hfinish : run (Journal.finishExecution b.admission.execution.id .failed
        (.str (ResumeFailure.message ⟨.interrupted b.fault.message, b.admission.execution.id, some b.admission.node.id⟩))
        duration) v' with ⟨fault | x, v''⟩
      · exact ⟨fault, v'', run_bind_error hfinish⟩
      · exact ⟨_, v'', run_bind_ok hfinish⟩

/-- An execution in which a run broke down has failed, if that can be recorded. -/
theorem Escape.failed {b : Breakdown} {y : Execution} (h : Escape mapping message button data w (some b))
    (hc : (run b.close b.world).1 = .ok y) :
    ∃ x, HasRecord (run (proceed mapping message button data) w).2.storage b.admission.execution.id x ∧
      x.status = .failed := by
  obtain ⟨u, ha, hg⟩ := h.interrupted
  rcases hclose : run b.close b.world with ⟨result, w'⟩
  rw [hclose] at hc
  obtain rfl := hc
  obtain ⟨duration, v, hd, h₁⟩ := eq_ok_of_bind hclose
  rw [run_bind_of_fst (a := ()) rfl, run_bind_ok (run_stamp _)] at h₁
  rw [proceed_eq, run_bind_ok ha]
  unfold goOnOrFail
  rw [run_bind_ok (run_attempt _ u), hg]
  dsimp only
  rw [run_bind_ok hd, run_bind_of_fst (a := ()) rfl]
  have hrecord := Journal.hasRecord_of_update h₁
  refine ⟨y, ?_, hrecord.2⟩
  -- the fault that is thrown behind the record leaves the world as it is
  have hthrown {v : World} (act : Engine Execution) (fault : Fault) :
      (run (act >>= fun _ => (throw fault : Engine (Option String))) v).2 = (run act v).2 := by
    rw [run_bind]
    rcases run act v with ⟨_ | _, _⟩ <;> rfl
  rw [hthrown]
  exact hrecord.1

/-- What a click returns that leads somewhere is the id of an execution that runs or succeeded. -/
theorem hasRecord_of_proceed {id : String} {v : World}
    (h : run (proceed mapping message button data) w = (.ok (some id), v)) :
    ∃ x, HasRecord v.storage id x ∧ (x.status = .success ∨ x.status = .running) := by
  rw [proceed_eq] at h
  obtain ⟨a, u, -, h₁⟩ := eq_ok_of_bind h
  unfold goOnOrFail at h₁
  rw [run_bind_ok (run_attempt _ u)] at h₁
  rcases hg : run (goOn message a.workflow a.execution a.node button a.context a.start) u with ⟨fault | answer, u'⟩ <;>
    rw [hg] at h₁
  · dsimp only at h₁
    obtain ⟨duration, u₁, -, h₂⟩ := eq_ok_of_bind h₁
    obtain ⟨_, u₂, -, h₃⟩ := eq_ok_of_bind h₂
    obtain ⟨_, u₃, -, h₄⟩ := eq_ok_of_bind h₃
    cases h₄
  · rw [show answer = some id from Except.ok.inj (Prod.mk.inj h₁).1, show u' = v from (Prod.mk.inj h₁).2] at hg
    unfold goOn at hg
    obtain ⟨⟨routing, r⟩, u₁, -, h₂⟩ := eq_ok_of_bind hg
    obtain ⟨s, u₂, -, h₃⟩ := eq_ok_of_bind h₂
    obtain ⟨duration, u₃, -, h₄⟩ := eq_ok_of_bind h₃
    exact Invocation.hasRecord_of_finalize h₄

end Continuation

/-- A click that led nowhere has left a failed row behind those that there were. -/
def Unrouted (mapping : ButtonMapping) (w w' : World) : Prop :=
  ∃ rows text details now, w'.storage.read (Store.NodeLogs.place mapping.executionId) (.list []) = .ok (.list (rows ++
      [(NodeLog.unrouted mapping.executionId (rows.length + 1) mapping.nodeId text details now).toValue])) ∧
    ∀ before, w.storage.read (Store.NodeLogs.place mapping.executionId) (.list []) = .ok (.list before) →
      before.length ≤ rows.length

/-- Whatever breaks while a click is worked on, the click is answered, if a row can be added for it should it lead nowhere.
What is returned is the id of an execution that is on record as one that runs or succeeded. Where a fault came up, nothing is
returned and there is one more failed row; if it came up behind the restored context and the record can be changed, the
execution is on record as failed. -/
theorem click_returns {message : String} {button data : Value} {mapping : ButtonMapping} {u : World}
    (hf : run (Store.Mappings.find? message) w = (.ok (some mapping), u))
    (hn : ∀ fault v, run (Continuation.proceed mapping message button (data.orElse (.map []))) u = (.error fault, v) →
      v.Notes mapping.executionId) :
    ∃ answer w', run (click message button data) w = (.ok answer, w') ∧
      (∀ id, answer = some id → ∃ x, HasRecord w'.storage id x ∧ (x.status = .success ∨ x.status = .running)) ∧
      (∀ found, Continuation.Escape mapping message button (data.orElse (.map [])) u found →
        answer = none ∧ Unrouted mapping w w' ∧ ∀ b y, found = some b → (run b.close b.world).1 = .ok y →
          ∃ x, HasRecord w'.storage b.admission.execution.id x ∧ x.status = .failed) := by
  have hq := Store.Mappings.hushed_find? message w
  rw [hf] at hq
  unfold click
  rw [run_bind_ok hf]
  dsimp only
  rw [run_bind_ok (run_attempt _ u)]
  rcases hp : run (Continuation.proceed mapping message button (data.orElse (.map []))) u with ⟨fault | answer, v⟩
  · obtain ⟨w', hr, hnoted⟩ := Continuation.refuse_noted (hn fault v hp) message button fault
    dsimp only
    rw [run_bind_ok hr]
    refine ⟨none, w', rfl, (fun id hid => by cases hid), fun found he => ⟨rfl, ?_, fun b y hb hc => ?_⟩⟩
    · obtain ⟨rows, text, details, hrows, hw⟩ := hnoted
      refine ⟨rows, text, details, v.clock.stamp, hw.read_self, fun before hbefore => ?_⟩
      have hlists : u.Lists mapping.executionId before.length := ⟨before, by rw [hq.storage]; exact hbefore, Nat.le_refl _⟩
      have hgrown := (lasting_lists mapping.executionId before.length).abiding.proceed message button
        (data.orElse (.map [])) hlists (Continuation.listed_of_find? hf hq)
      rw [hp] at hgrown
      obtain ⟨rows', hrows', hle⟩ := hgrown
      rw [hrows] at hrows'
      obtain rfl := Value.list.inj (Except.ok.inj hrows')
      exact hle
    · subst hb
      obtain ⟨x, hx, hstatus⟩ := he.failed hc
      rw [hp] at hx
      obtain ⟨rows, text, details, -, hw⟩ := hnoted
      exact ⟨x, (hw.read_ne (executions_ne_nodeLogs _ _)).trans hx, hstatus⟩
  · refine ⟨answer, v, rfl, fun id hid => ?_, fun found he => ?_⟩
    · subst hid
      exact Continuation.hasRecord_of_proceed hp
    · obtain ⟨fault, v', hfault⟩ := he.not_proceeded
      rw [hp] at hfault
      cases hfault

namespace Sample

/-- Whether a click is interrupted by a fault when its run is to go on, where that can be recorded and noted. -/
def breaksDown (message : String) (button : Value) (w : World) : Bool :=
  match run (Store.Mappings.find? message) w with
  | (.ok (some mapping), u) =>
    match run (Continuation.admission mapping message button (.map [])) u with
    | (.ok a, u') =>
      match run (Invocation.resume a.workflow a.execution.id a.node a.context a.execution.errorMessage) u' with
      | (.error fault, v) =>
        let v' := (run (Continuation.proceed mapping message button (.map [])) u).2
        (run (Continuation.Breakdown.close ⟨a, fault, v⟩) v).1.isOk && (trip .appendNodeLog v'.failpoints).1.isNone &&
          (match v'.storage.read (Store.NodeLogs.place mapping.executionId) (.list []) with
            | .ok (.list _) => true
            | _ => false) &&
          decide (Store.NodeLogs.place mapping.executionId).Fits
      | _ => false
    | _ => false
  | _ => false

/-- A message waits for a click, and the next run that goes on will be interrupted. -/
def trapped : List Session.Step :=
  asking (.str sender) ++ [.inject ⟨.resume, "disk full", 1⟩]

end Sample

/-- A fault that comes up behind the restored context: nothing is returned, there is a row for it, and the execution has
failed. -/
theorem click_returns_sample :
    let w := (Session.run Sample.trapped (.initial {} "" none)).2
    ∃ mapping u b y, run (Store.Mappings.find? "m") w = (.ok (some mapping), u) ∧
      Continuation.Escape mapping "m" (.str "yes") (.map []) u (some b) ∧ (run b.close b.world).1 = .ok y ∧
      ∃ w', run (click "m" (.str "yes") .null) w = (.ok none, w') ∧ Unrouted mapping w w' ∧
        ∃ x, HasRecord w'.storage b.admission.execution.id x ∧ x.status = .failed := by
  intro w
  have h : Sample.breaksDown "m" (.str "yes") w = true := by decide +kernel
  clear_value w
  unfold Sample.breaksDown at h
  split at h
  · next mapping u hf =>
    split at h
    · next a u' ha =>
      split at h
      · next fault v hr =>
        simp only [Bool.and_eq_true, decide_eq_true_eq, Option.isNone_iff_eq_none] at h
        obtain ⟨⟨⟨hclose, htrip⟩, hrows⟩, hfits⟩ := h
        have he : Continuation.Escape mapping "m" (.str "yes") (.map []) u (some ⟨a, fault, v⟩) := .resume ha hr
        have hn : ∀ fault v, run (Continuation.proceed mapping "m" (.str "yes") (.map [])) u = (.error fault, v) →
            v.Notes mapping.executionId := by
          intro fault v hp
          rw [hp] at htrip hrows
          refine World.notes_iff.2 ⟨htrip, ?_, hfits⟩
          split at hrows
          · next rows hread => exact ⟨rows, hread⟩
          · cases hrows
        obtain ⟨y, hy⟩ : ∃ y, (run (Continuation.Breakdown.close ⟨a, fault, v⟩) v).1 = .ok y := by
          cases hr' : (run (Continuation.Breakdown.close ⟨a, fault, v⟩) v).1 with
          | ok y => exact ⟨y, rfl⟩
          | error fault' =>
            rw [hr'] at hclose
            cases hclose
        obtain ⟨answer, w', hclick, -, hescaped⟩ := @click_returns w "m" (.str "yes") .null mapping u hf hn
        obtain ⟨rfl, hrow, hfailed⟩ := hescaped _ he
        exact ⟨mapping, u, ⟨a, fault, v⟩, y, hf, he, hy, w', hclick, hrow, hfailed _ y rfl hy⟩
      · cases h
    · cases h
  · cases h

end WorkGraph
