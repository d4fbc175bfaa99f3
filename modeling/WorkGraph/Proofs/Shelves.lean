import WorkGraph.Proofs.Published

/-!
# Workflows side by side

A workflow is kept in the place that its id leads to, and whoever saves it or sets its status writes there and nowhere else
(`Shelved`, `Session.Step.shelved`). So whatever is saved, all that lies elsewhere stays as it is. Where no id has a slash,
that is every other workflow, and all records (`saved_apart`); with slashes, two ids may lead to one place, which may also be
that of a record (`not_saved_apart`).
-/

namespace WorkGraph

open Engine

/-! ## Places without slashes -/

namespace Location

/-- The file of a workflow whose id has no slash is named by the id. -/
theorem path_ofWorkflow_eq {id : String} (h : '/' ∉ id.toList) :
    (ofWorkflow id).path = Folder.workflows.name ++ "/" ++ id ++ ".json" := by
  rw [← String.toList_inj, path_ofWorkflow h]
  simp [String.toList_append]

/-- Different ids without slashes lead to different files. -/
theorem path_ofWorkflow_inj {a b : String} (ha : '/' ∉ a.toList) (hb : '/' ∉ b.toList)
    (h : (ofWorkflow a).path = (ofWorkflow b).path) : a = b := by
  have h := congrArg String.toList h
  rw [path_ofWorkflow ha, path_ofWorkflow hb] at h
  obtain ⟨-, h⟩ := List.cons.inj (List.append_cancel_left h)
  exact String.toList_inj.1 (List.append_cancel_right h)

end Location

/-! ## One step -/

/-- Nothing has changed that lasts but the file of a workflow of an id. -/
def Shelved (id : String) (w w' : World) : Prop :=
  Quiet w w' ∨ ∃ place v, place.path = (Store.Workflows.place id).path ∧ Wrote place v w w'

namespace Shelved

variable {id : String} {w w' : World}

/-- Every other file is as before. -/
theorem get?_files (h : Shelved id w w') {path : String} (hp : path ≠ (Store.Workflows.place id).path) :
    w'.storage.files.get? path = w.storage.files.get? path := by
  rcases h with hq | ⟨place, v, hplace, hw⟩
  · rw [hq.storage]
  · have hother : (⟨path, "", true⟩ : Location).path ≠ place.path := hplace ▸ hp
    exact hw.find?_ne hother

theorem steady (h : Shelved id w w') (hs : w.Steady) : w'.Steady := by
  rcases h with hq | ⟨place, v, -, hw⟩
  · exact hq.steady hs
  · exact hw.steady hs

/-- What is written to the place of one id is written to that of every id that leads there. -/
theorem moved {other : String} {u : World} (h : Shelved other u w') (hq : Quiet w u)
    (hp : (Store.Workflows.place id).path = (Store.Workflows.place other).path) : Shelved id w w' := by
  rcases h with hq' | ⟨place, v, hplace, hw⟩
  · exact .inl (hq.trans hq')
  · exact .inr ⟨place, v, hplace.trans hp.symm, hw.before hq⟩

end Shelved

namespace Store.Workflows

theorem save_shelved (W : Workflow) (w : World) : Shelved W.id w (run (save W) w).2 := by
  rcases save_cases W w with ⟨w', hr, hw⟩ | ⟨fault, w', hr, hq⟩ <;> rw [hr]
  · exact .inr ⟨_, _, rfl, hw⟩
  · exact .inl hq

/-- What is found under an id is written to the place where it was found. -/
theorem setStatus_shelved {w : World} (h : Orderly w) (id : String) (status : WorkflowStatus) :
    Shelved id w (run (setStatus id status) w).2 := by
  unfold setStatus
  obtain ⟨u, hq, he | ⟨-, fault, he⟩⟩ := entering_cases .setWorkflowStatus w
  · rw [run_bind_ok he]
    have hfound := hushed_find? id u
    rcases hf : run (find? id) u with ⟨fault | found, v⟩ <;> rw [hf] at hfound
    · rw [run_bind_error hf]
      exact .inl (hq.trans hfound)
    · rw [run_bind_ok hf]
      cases found with
      | none => exact .inl (hq.trans hfound)
      | some W =>
        obtain ⟨document, hd, hW⟩ := eq_some_of_find? hf
        rw [hq.storage] at hd
        have hpath : (place id).path = (place W.id).path := h.path_of_decode hd hW
        show Shelved id w (run (some <$> save { W with status }) v).2
        rw [run_map_snd]
        exact (save_shelved { W with status } v).moved (hq.trans hfound) hpath
  · rw [run_bind_error he]
    exact .inl hq

end Store.Workflows

/-! ## Sessions of saves -/

/-- The id under which a step saves a workflow or sets its status. -/
def Session.Step.shelf? : Session.Step → Option String
  | .saveWorkflow W => some W.id
  | .setWorkflowStatus id _ => some id
  | _ => none

/-- A step writes to the place of its id. -/
theorem Session.Step.shelved {step : Session.Step} {id : String} (hid : step.shelf? = some id) {w : World}
    (h : Orderly w) : Shelved id w (Engine.run (Session.perform step) w).2 := by
  cases step with
  | saveWorkflow W =>
    obtain rfl := Option.some.inj hid
    have hrun : (Engine.run (Session.perform (.saveWorkflow W)) w).2 = _ := run_map_snd _ _ _
    exact hrun ▸ Store.Workflows.save_shelved W w
  | setWorkflowStatus other status =>
    obtain rfl := Option.some.inj hid
    have hrun : (Engine.run (Session.perform (.setWorkflowStatus other status)) w).2 = _ := run_map_snd _ _ _
    exact hrun ▸ Store.Workflows.setStatus_shelved h other status
  | execute | executeStored | trigger | click | register | unregister | advance | inject | forget | closeAudit => cases hid

/-- By induction on the steps: only the places of their ids are written to. -/
theorem Session.run_shelved {steps : List Session.Step} (hsteps : ∀ step ∈ steps, step.shelf?.isSome = true) {w : World}
    (h : Orderly w) :
    (∀ path, (∀ id ∈ steps.filterMap Session.Step.shelf?, path ≠ (Store.Workflows.place id).path) →
      (Session.run steps w).2.storage.files.get? path = w.storage.files.get? path) ∧
    (w.Steady → (Session.run steps w).2.Steady) := by
  induction steps generalizing w with
  | nil => exact ⟨fun _ _ => rfl, id⟩
  | cons step rest ih =>
    obtain ⟨id, hid⟩ := Option.isSome_iff_exists.1 (hsteps step List.mem_cons_self)
    have hshelved := Session.Step.shelved hid h
    obtain ⟨hfiles, hsteady⟩ := ih (fun other hm => hsteps other (List.mem_cons_of_mem _ hm))
      (enduring_orderly.perform step w h)
    rw [List.filterMap_cons_some hid]
    refine ⟨fun path hpath => ?_, fun hs => hsteady (hshelved.steady hs)⟩
    exact (hfiles path fun other hm => hpath other (List.mem_cons_of_mem _ hm)).trans
      (hshelved.get?_files (hpath id List.mem_cons_self))

/-- What is found under an id is told by its file, unless an injected fault waits. -/
theorem Store.Workflows.find?_congr {a : String} {w w' : World} (hs : w.Steady) (hs' : w'.Steady)
    (hfile : w'.storage.find? (place a) = w.storage.find? (place a)) :
    (run (find? a) w').1 = (run (find? a) w).1 := by
  unfold find?
  rw [run_bind_ok (run_entering_steady hs _), run_bind_ok (run_entering_steady hs' _), run_get_bind, run_get_bind, hfile]
  cases w.storage.find? (place a) with
  | none => rfl
  | some document =>
    dsimp only
    cases decode document <;> rfl

/-- Saving workflows and setting their status, in whatever session, changes no file but those that their ids lead to, so that
what is found under any other id is the same if it leads elsewhere. Where none of their ids has a slash, only files of the
folder of workflows are changed, each named by one of the ids: no record is, and under every other id without a slash the
same is found as before. -/
theorem saved_apart (config : Config) (root : String) (auditor : Option Auditor) (before saves : List Session.Step)
    (hsaves : ∀ step ∈ saves, step.shelf?.isSome = true) :
    let w := (Session.run before (.initial config root auditor)).2
    let w' := (Session.run saves w).2
    let ids := saves.filterMap Session.Step.shelf?
    let found (a : String) (w : World) := (run (Store.Workflows.find? a) w).1
    (∀ path, (∀ id ∈ ids, path ≠ (Store.Workflows.place id).path) →
      w'.storage.files.get? path = w.storage.files.get? path) ∧
    (w.Steady → ∀ a, (∀ id ∈ ids, (Store.Workflows.place a).path ≠ (Store.Workflows.place id).path) →
      found a w' = found a w) ∧
    ((∀ id ∈ ids, '/' ∉ id.toList) →
      (∀ path, w'.storage.files.get? path ≠ w.storage.files.get? path →
        ∃ id ∈ ids, path = Folder.workflows.name ++ "/" ++ id ++ ".json") ∧
      (w.Steady → ∀ a, '/' ∉ a.toList → a ∉ ids → found a w' = found a w) ∧
      ∀ folder, folder ≠ .workflows → ∀ other extension,
        w'.storage.find? (.ofRecord folder other extension) = w.storage.find? (.ofRecord folder other extension)) := by
  intro w w' ids found
  obtain ⟨hfiles, hsteady⟩ := Session.run_shelved hsaves (orderly_run before (orderly_initial config root auditor))
  have hfound (hs : w.Steady) (a : String)
      (ha : ∀ id ∈ ids, (Store.Workflows.place a).path ≠ (Store.Workflows.place id).path) : found a w' = found a w :=
    Store.Workflows.find?_congr hs (hsteady hs) (hfiles _ ha)
  refine ⟨hfiles, hfound, fun hslash =>
    ⟨fun path hchanged => ?_, fun hs a ha hnew => ?_, fun folder hf other extension => ?_⟩⟩
  · refine Classical.byContradiction fun hno => hchanged (hfiles path fun id hid hp => hno ⟨id, hid, ?_⟩)
    rw [hp, Store.Workflows.place, Location.path_ofWorkflow_eq (hslash id hid)]
  · exact hfound hs a fun id hid hp => hnew (Location.path_ofWorkflow_inj ha (hslash id hid) hp ▸ hid)
  · exact hfiles _ fun id hid => Location.ofWorkflow_ne_ofRecord (hslash id hid) hf other extension

/-- One workflow is saved beside another and made a draft. -/
theorem saved_apart_sample :
    let w := (Session.run [.saveWorkflow (Sample.lonely "flow")] (.initial {} "" none)).2
    let w' := (Session.run [.saveWorkflow (Sample.lonely "tide"), .setWorkflowStatus "tide" .draft] w).2
    (run (Store.Workflows.find? "flow") w').1 = (run (Store.Workflows.find? "flow") w).1 ∧
      (run (Store.Workflows.find? "flow") w).1.toOption.map (Option.map Workflow.id) = some (some "flow") ∧
      (run (Store.Workflows.find? "tide") w').1.toOption.map (Option.map Workflow.status) = some (some .draft) := by
  intro w w'
  have hsaves : ∀ step ∈ [Session.Step.saveWorkflow (Sample.lonely "tide"), .setWorkflowStatus "tide" .draft],
      step.shelf?.isSome = true := by
    decide
  obtain ⟨-, -, happart⟩ := saved_apart {} "" none [.saveWorkflow (Sample.lonely "flow")] _ hsaves
  obtain ⟨-, hfound, -⟩ := happart (by decide)
  exact ⟨hfound (fun p hp => by cases hp) "flow" (by decide) (by decide), by decide +kernel, by decide +kernel⟩

namespace Sample

/-- The id of a workflow that leads to the file of another. -/
def detour (id : String) : String :=
  "../workflows/" ++ id

/-- The id of a workflow that leads to the record of an execution. -/
def trespass (execution : String) : String :=
  "../executions/" ++ execution

end Sample

/-- A workflow is saved in the place of another, and one in the place of the record of an execution. -/
theorem not_saved_apart :
    (let w := (Session.run [.saveWorkflow (Sample.lonely "flow")] (.initial {} "" none)).2
     let w' := (Session.run [.saveWorkflow (Sample.lonely (Sample.detour "flow"))] w).2
     (run (Store.Workflows.find? "flow") w).1.toOption.map (Option.map Workflow.id) = some (some "flow") ∧
      (run (Store.Workflows.find? "flow") w').1.toOption.map (Option.map Workflow.id) = some (some "../workflows/flow")) ∧
    let w := (Session.run [.execute (Sample.lonely "flow") .null] (.initial {} "" none)).2
    let w' := (Session.run [.saveWorkflow (Sample.lonely (Sample.trespass Sample.execution))] w).2
    ((w.storage.execution? Sample.execution).map Execution.workflowId = some "flow") ∧
      (w'.storage.execution? Sample.execution).isNone = true := by
  refine ⟨⟨?_, ?_⟩, ?_, ?_⟩ <;> decide +kernel

end WorkGraph
