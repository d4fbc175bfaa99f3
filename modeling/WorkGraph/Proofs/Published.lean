import WorkGraph.Proofs.Frame
import WorkGraph.Proofs.Selected

/-!
# What is run of what is stored

A trigger means the published workflows that declare it, in the order of their files (`Chosen`). They are run one after the
other, each once, and whatever comes of one run, the next one follows (`Series`, `Trigger.fanOut_series`). Every way to run
what is stored asks first whether it is published: where a workflow is missing or a draft, nothing is done but that this is
noted, and in no session does a trigger, a stored workflow or a click run anything that is not stored and published when the
step starts (`Conducted`). So there is no call and no row of any other node (`Traced`, `only_published_run`).
-/

namespace WorkGraph

open Engine

/-! ## Files with distinct names -/

/-- What every write and every removal of a file keeps, no session breaks. -/
theorem enduring_storage {P : Storage → Prop}
    (write : ∀ {s t : Storage} {place : Location} {v : Value}, P s → s.write place v = .ok t → P t)
    (remove : ∀ {s : Storage} (place : Location), P s → P (s.remove place)) :
    Enduring fun w => Orderly w ∧ P w.storage := by
  have hquiet {w w' : World} (h : P w.storage) (hq : Quiet w w') : P w'.storage := hq.storage ▸ h
  have hhosting (execution : String) (W : Workflow) : Hosting execution W fun w => P w.storage := by
    have hposted {α : Type} {a : α} {heard : Prop} {place : Location} {v : Value} {w w' : World} {result : Except Fault α}
        (hp : Posted place v a heard w (result, w')) (h : P w.storage) : P w'.storage := by
      exact hp.keeps (I := fun u => P u.storage) (fun hw => write h hw.storage) (hquiet h)
    refine ⟨hquiet, fun p node ht _ _ _ h => ?_, fun node text details w _ h => ?_, fun status error duration w ho h => ?_⟩
    · refine ht.perform_induction (R := fun w w' => P w.storage → P w'.storage) node (fun h k => k ∘ h)
        (fun hq h => hquiet h hq) (fun hw h => write h hw.storage) (fun hw h => ?_) h
      rcases hw.storage with hs | ⟨m, -, -, -, rows, -, hs⟩
      · exact hs ▸ h
      · exact write h hs
    · by_cases hlist : ∃ rows, w.storage.read (Store.NodeLogs.place execution) (.list []) = .ok (.list rows)
      · obtain ⟨rows, hrows⟩ := hlist
        exact hposted (Journal.routingFailed_listed hrows node text details) h
      · obtain ⟨fault, w', hr, hq⟩ :=
          Journal.routingFailed_barred (fun rows hrows => hlist ⟨rows, hrows⟩) node text details
        rw [hr]
        exact hquiet h hq
    · rcases ho.finish_cases execution status error duration with ⟨x, hx, -, -⟩ | ⟨fault, w', hr, hq⟩
      · exact hposted (Journal.finishExecution_posted hx status error duration) h
      · rw [hr]
        exact hquiet h hq
  exact {
    idle := fun h hi => ⟨enduring_orderly.idle h.1 hi, hi.storage ▸ h.2⟩
    claimed := fun h hw => ⟨enduring_orderly.claimed h.1 hw, write h.2 hw.storage⟩
    released := fun message _ h => ⟨enduring_orderly.released message h.1, remove _ h.2⟩
    launch := fun W payload w h =>
      have hl := (hhosting w.nextExecution W).launch payload h.1 h.2 (fun h => h) fun _ h hw => write h hw.storage
      ⟨hl.1, hl.2.1⟩
    resume := fun {_ _ _ W x _ _ _} h hr => by
      obtain ⟨r, ⟨⟨htracks, -⟩, hp⟩, -⟩ :=
        (hhosting x.id W).stable.resumed x.errorMessage ⟨⟨h.1.tracks_of_resumable hr, rfl, rfl⟩, h.2⟩
      exact ⟨htracks.orderly, hp⟩
    routed := fun execution node text details w h =>
      ⟨orderly_routingFailed execution node text details w h.1,
        (hhosting execution default).routed node text details h.1 h.2⟩
    finish := fun execution status error duration _ w h =>
      ⟨orderly_finishExecution execution status error duration w h.1,
        (hhosting execution default).finish status error duration h.1 h.2⟩
    saved := fun W w h => by
      refine ⟨enduring_orderly.saved W w h.1, ?_⟩
      rcases Store.Workflows.save_cases W w with ⟨w', hr, hw⟩ | ⟨fault, w', hr, hq⟩ <;> rw [hr]
      · exact write h.2 hw.storage
      · exact hquiet h.2 hq
    closed := fun w h => ⟨enduring_orderly.closed w h.1, h.2⟩
    armed := fun failpoint _ h => ⟨enduring_orderly.armed failpoint h.1, h.2⟩ }

theorem Storage.files_of_write {s t : Storage} {place : Location} {v : Value} (h : s.write place v = .ok t) :
    t.files = s.files.set place.path (.value v) := by
  unfold write at h
  split at h
  · cases h
  · rw [← Except.ok.inj h]

/-- In no session do two files get one name. -/
theorem nodup_keys_run (steps : List Session.Step) {w : World} (ho : Orderly w) (h : w.storage.files.keys.Nodup) :
    (Session.run steps w).2.storage.files.keys.Nodup := by
  refine ((enduring_storage (P := fun s => s.files.keys.Nodup) (fun {s t place v} h hs => ?_) fun {s} place h => ?_).run steps
    ⟨ho, h⟩).2
  · exact Storage.files_of_write hs ▸ Entries.nodup_keys_set h place.path (.value v)
  · have hsub : (s.files.erase place.path).keys.Sublist s.files.keys := (List.filter_sublist).map Prod.fst
    exact h.sublist hsub

/-! ## What a trigger means -/

/-- Whether a name is that of a file in the folder of workflows, with the ending that marks them. -/
def Storage.HasWorkflow (s : Storage) (name : String) : Prop :=
  '/' ∉ name.toList ∧ ".json".toList <:+ name.toList ∧ Folder.workflows.name ++ "/" ++ name ∈ s.files.keys

/-- The workflow that a file of the folder holds. -/
def Storage.workflow? (s : Storage) (name : String) : Option Workflow :=
  (s.files.get? (Folder.workflows.name ++ "/" ++ name)).bind fun document => (Store.Workflows.decode document).toOption

/-- The workflows that a trigger means: of those in the files of the folder, in the order of their names, the published ones
that declare it. -/
def Storage.Chosen (s : Storage) (trigger : Value) (workflows : List Workflow) : Prop :=
  ∃ (names : List String) (all : List Workflow), names.Pairwise (· < ·) ∧ (∀ name, name ∈ names ↔ s.HasWorkflow name) ∧
    names.map s.workflow? = all.map some ∧
    workflows = all.filter fun W => W.isPublished && W.triggerIds.any (·.same trigger)

/-- Distinct texts that are put in order ascend. -/
theorem pairwise_mergeSort_of_nodup {texts : List String} (h : texts.Nodup) :
    (texts.mergeSort (· ≤ ·)).Pairwise (· < ·) := by
  have hsorted := @List.pairwise_mergeSort String (fun a b => decide (a ≤ b))
    (fun a b c hab hbc => by simpa using String.le_trans (by simpa using hab) (by simpa using hbc))
    (fun a b => by simpa using String.le_total a b) texts
  refine (hsorted.and ((List.mergeSort_perm texts _).nodup_iff.2 h)).imp fun {a b} hab => String.not_le.1 fun hge => ?_
  exact hab.2 (String.le_antisymm (by simpa using hab.1) hge)

/-- A text that starts and ends as given has something between the two, unless they overlap. -/
theorem Text.exists_middle {start finish cs : List Char} (hs : start <+: cs) (hf : finish <:+ cs)
    (hl : start.length + finish.length ≤ cs.length) : ∃ middle, cs = start ++ middle ++ finish := by
  obtain ⟨rest, rfl⟩ := hs
  rw [List.length_append, Nat.add_le_add_iff_left] at hl
  obtain ⟨middle, rfl⟩ := List.suffix_of_suffix_length_le hf (List.suffix_append start rest) hl
  exact ⟨middle, (List.append_assoc _ _ _).symm⟩

namespace Storage

variable {s : Storage}

/-- What stands behind a prefix of a text. -/
theorem eq_append_of_isPrefixOf {lead path : String} (h : lead.toList.isPrefixOf path.toList = true) :
    path = lead ++ String.ofList (path.toList.drop lead.length) := by
  obtain ⟨rest, hrest⟩ := List.isPrefixOf_iff_prefix.1 h
  rw [← String.toList_inj, String.toList_append, String.toList_ofList, ← hrest, ← String.length_toList, List.drop_left]

/-- Whether a name is that of a file in a folder, and starts and ends as given. -/
structure HasFile (s : Storage) (folder : Folder) (start finish name : String) : Prop where
  direct : '/' ∉ name.toList
  named : ∃ middle, name = start ++ middle ++ finish
  present : folder.name ++ "/" ++ name ∈ s.files.keys

variable {folder : Folder} {start finish name : String}

/-- What is listed of a folder is what it has. -/
theorem mem_names : name ∈ s.names folder start finish ↔ s.HasFile folder start finish name := by
  unfold names
  simp only [List.mem_mergeSort, List.mem_filter, List.mem_map, Bool.and_eq_true, Bool.not_eq_true', decide_eq_true_eq]
  constructor
  · rintro ⟨⟨path, ⟨hpath, hlead⟩, rfl⟩, ⟨⟨hslash, hstart⟩, hfinish⟩, hlength⟩
    have hpath := eq_append_of_isPrefixOf hlead ▸ hpath
    generalize String.ofList _ = name at hslash hstart hfinish hlength hpath ⊢
    obtain ⟨middle, hmiddle⟩ := Text.exists_middle (List.isPrefixOf_iff_prefix.1 hstart)
      (List.isSuffixOf_iff_suffix.1 hfinish) (by simpa only [String.length_toList] using hlength)
    refine ⟨by simpa using hslash, ⟨String.ofList middle, ?_⟩, hpath⟩
    rw [← String.toList_inj, hmiddle, String.toList_append, String.toList_append, String.toList_ofList]
  · rintro ⟨hslash, ⟨middle, rfl⟩, hpath⟩
    refine ⟨⟨_, ⟨hpath, ?_⟩, ?_⟩, ⟨⟨by simpa using hslash, ?_⟩, ?_⟩, ?_⟩
    · exact List.isPrefixOf_iff_prefix.2 ⟨_, (String.toList_append).symm⟩
    · rw [← String.toList_inj, String.toList_ofList, String.toList_append, ← String.length_toList, List.drop_left]
    · exact List.isPrefixOf_iff_prefix.2 ⟨(middle ++ finish).toList, by simp [String.toList_append]⟩
    · exact List.isSuffixOf_iff_suffix.2 ⟨(start ++ middle).toList, by simp [String.toList_append]⟩
    · simp only [String.length_append]
      omega

theorem mem_names_iff (name : String) : name ∈ s.names .workflows "" ".json" ↔ s.HasWorkflow name := by
  rw [mem_names]
  constructor
  · rintro ⟨hslash, ⟨middle, rfl⟩, hpath⟩
    exact ⟨hslash, ⟨("" ++ middle).toList, String.toList_append.symm⟩, hpath⟩
  · rintro ⟨hslash, ⟨front, hfront⟩, hpath⟩
    refine ⟨hslash, ⟨String.ofList front, ?_⟩, hpath⟩
    rw [← String.toList_inj, ← hfront]
    simp [String.toList_append]

/-- The files of a folder are named once each, in order. -/
theorem pairwise_names (h : s.files.keys.Nodup) : (s.names folder start finish).Pairwise (· < ·) := by
  unfold names
  dsimp only
  generalize hi : List.filter _ (List.map _ _) = inside
  have hnodup : inside.Nodup := by
    rw [← hi]
    refine List.Pairwise.filter _ (List.pairwise_map.2 ((h.filter _).imp_of_mem fun {a b} ha hb hne he => hne ?_))
    rw [eq_append_of_isPrefixOf (List.mem_filter.1 ha).2, eq_append_of_isPrefixOf (List.mem_filter.1 hb).2, he]
  exact pairwise_mergeSort_of_nodup hnodup

end Storage

/-- What is read of documents that all are workflows. -/
theorem Store.Workflows.map_decode {documents : List Document} {all : List Workflow}
    (h : documents.mapM decode = .ok all) : documents.map (fun d => (decode d).toOption) = all.map some := by
  induction documents generalizing all with
  | nil =>
    obtain rfl := Except.ok.inj h
    rfl
  | cons d rest ih =>
    obtain ⟨W, Ws, hd, hrest, rfl⟩ := mapM_cons_eq_ok.1 h
    rw [List.map_cons, hd, ih hrest]
    rfl

theorem eq_ok_of_toOption {ε α : Type} {result : Except ε α} {a : α} (h : result.toOption = some a) :
    result = .ok a := by
  cases result with
  | error fault => cases h
  | ok b => exact congrArg Except.ok (Option.some.inj h)

/-- Of names that all have something, nothing is passed over. -/
theorem map_filterMap_of_isSome {α β γ : Type} {f : α → Option β} (g : β → Option γ) {names : List α}
    (h : ∀ name ∈ names, (f name).isSome = true) : (names.filterMap f).map g = names.map fun name => (f name).bind g := by
  induction names with
  | nil => rfl
  | cons name rest ih =>
    obtain ⟨b, hb⟩ := Option.isSome_iff_exists.1 (h name List.mem_cons_self)
    rw [List.filterMap_cons_some hb, List.map_cons, ih fun n hn => h n (List.mem_cons_of_mem _ hn), List.map_cons, hb]
    rfl

/-- The published workflows that declare a trigger, in one go. -/
theorem Store.Workflows.filter_published (trigger : Value) (all : List Workflow) :
    ((all.filter fun W => (some WorkflowStatus.published).all (· == W.status)).filter fun W =>
      W.triggerIds.any (·.same trigger)) = all.filter fun W => W.isPublished && W.triggerIds.any (·.same trigger) := by
  rw [List.filter_filter]
  refine congrArg (List.filter · all) (funext fun W => ?_)
  rw [Bool.and_comm]
  congr 1
  unfold Workflow.isPublished
  cases W.status <;> rfl

/-- Where no fault is injected and every file of the folder holds a workflow, a trigger can be looked up. -/
theorem Store.Workflows.run_byTrigger {w : World} {all : List Workflow} (hs : w.Steady)
    (h : ((w.storage.names .workflows "" ".json").filterMap fun name =>
      w.storage.files.get? (Folder.workflows.name ++ "/" ++ name)).mapM decode = .ok all) (trigger : Value) :
    run (byTrigger trigger) w = (.ok (all.filter fun W => W.isPublished && W.triggerIds.any (·.same trigger)), w) := by
  have hlist : run (list (some .published)) w =
      (.ok (all.filter fun W => (some WorkflowStatus.published).all (· == W.status)), w) := by
    unfold list
    rw [run_bind_ok (run_entering_steady hs _), run_get_bind]
    dsimp only
    rw [h]
    rfl
  unfold byTrigger
  rw [run_bind_ok (run_entering_steady hs _), run_bind_ok hlist, filter_published, run_pure]

/-- A trigger is looked up among the published workflows. -/
theorem Store.Workflows.chosen_of_byTrigger {trigger : Value} {workflows : List Workflow} {w u : World}
    (hn : w.storage.files.keys.Nodup) (h : run (byTrigger trigger) w = (.ok workflows, u)) :
    w.storage.Chosen trigger workflows := by
  unfold byTrigger at h
  obtain ⟨_, w₁, he, h⟩ := eq_ok_of_bind h
  have hq := hushed_entering .workflowsByTrigger w
  rw [he] at hq
  obtain ⟨published, w₂, hlist, h⟩ := eq_ok_of_bind h
  obtain rfl := Except.ok.inj (Prod.mk.inj h).1
  unfold list at hlist
  obtain ⟨_, w₃, he', hlist⟩ := eq_ok_of_bind hlist
  have hq' := hushed_entering .listWorkflows w₁
  rw [he'] at hq'
  rw [run_get_bind, hq'.storage, hq.storage] at hlist
  obtain ⟨all, w₄, hall, hlist⟩ := eq_ok_of_bind hlist
  obtain rfl := Except.ok.inj (Prod.mk.inj hlist).1
  refine ⟨w.storage.names .workflows "" ".json", all, Storage.pairwise_names hn, Storage.mem_names_iff, ?_, ?_⟩
  · rw [← map_decode (eq_ok_of_ofExcept hall).1]
    refine (map_filterMap_of_isSome _ fun name hname => ?_).symm
    exact Entries.mem_keys_iff_get?.1 ((Storage.mem_names_iff name).1 hname).2.2
  · exact filter_published trigger all

/-! ## Runs one after the other -/

/-- What a run has returned of an execution that did not fail. -/
def Trigger.answer? (outcome : Except Fault (Option String)) : Option String :=
  outcome.toOption.join

/-- Workflows are run one after the other, each once, and each run comes to what it comes to. Between the runs there are
only entries in the operators' log. -/
inductive Trigger.Series (execute : Workflow → Value → Engine (Option String)) (payload : Value) :
    List Workflow → List (Except Fault (Option String)) → World → World → Prop
  | done {w w' : World} : Quiet w w' → Series execute payload [] [] w w'
  | next {W : Workflow} {rest : List Workflow} {outcome : Except Fault (Option String)}
      {outcomes : List (Except Fault (Option String))} {w u v w' : World} : Quiet w u →
      Engine.run (execute W payload) u = (outcome, v) → Series execute payload rest outcomes v w' →
      Series execute payload (W :: rest) (outcome :: outcomes) w w'

namespace Trigger

variable {execute : Workflow → Value → Engine (Option String)} {payload : Value}

theorem Series.before {workflows : List Workflow} {outcomes : List (Except Fault (Option String))} {u w w' : World}
    (hq : Quiet u w) (h : Series execute payload workflows outcomes w w') :
    Series execute payload workflows outcomes u w' := by
  cases h with
  | done hq' => exact .done (hq.trans hq')
  | next hq' hr hrest => exact .next (hq.trans hq') hr hrest

/-- What the runs keep, the series keeps. -/
theorem Series.keeps {workflows : List Workflow} {outcomes : List (Except Fault (Option String))} {w w' : World}
    {I : World → Prop} (h : Series execute payload workflows outcomes w w') (hq : ∀ {u v : World}, I u → Quiet u v → I v)
    (hrun : ∀ W ∈ workflows, Keeps I (execute W payload)) (hw : I w) : I w' := by
  induction h with
  | done hquiet => exact hq hw hquiet
  | @next W rest outcome outcomes w u v w' hquiet hr _ ih =>
    have hv := hrun W List.mem_cons_self u (hq hw hquiet)
    rw [hr] at hv
    exact ih (fun V hV => hrun V (List.mem_cons_of_mem _ hV)) hv

variable (execute payload)

/-- One run, of whatever outcome. -/
theorem run_runOne (trigger : Value) (W : Workflow) (w : World) :
    ∃ v, Engine.run (runOne execute trigger payload W) w =
        (.ok (answer? (Engine.run (execute W payload) w).1), v) ∧ Quiet (Engine.run (execute W payload) w).2 v := by
  unfold runOne
  rw [run_bind_ok (run_attempt _ w)]
  rcases Engine.run (execute W payload) w with ⟨fault | found, v⟩
  · exact ⟨_, rfl, hushed_logFault _ _ v⟩
  · cases found with
    | none => exact ⟨_, rfl, hushed_log (by decide) v⟩
    | some id => exact ⟨v, rfl, .refl v⟩

/-- Whatever comes of the runs, every workflow has its one, and the ids that were returned are returned in order. -/
theorem runAll_series (trigger : Value) (workflows : List Workflow) (w : World) :
    ∃ outcomes w', Engine.run (runAll execute trigger payload workflows) w = (.ok (outcomes.filterMap answer?), w') ∧
      Series execute payload workflows outcomes w w' := by
  induction workflows generalizing w with
  | nil => exact ⟨[], w, rfl, .done (.refl w)⟩
  | cons W rest ih =>
    obtain ⟨v, hone, hq⟩ := run_runOne execute payload trigger W w
    obtain ⟨outcomes, w', hall, hseries⟩ := ih v
    refine ⟨(Engine.run (execute W payload) w).1 :: outcomes, w', ?_, .next (.refl w) rfl (hseries.before hq)⟩
    unfold runAll
    rw [run_bind_ok hone, run_bind_ok hall]
    cases h : answer? (Engine.run (execute W payload) w).1 <;> simp [h]

/-- A trigger whose workflows can be listed runs each of them once. -/
theorem fanOut_series {trigger : Value} {workflows : List Workflow} {w u : World}
    (h : Engine.run (Store.Workflows.byTrigger trigger) w = (.ok workflows, u)) :
    ∃ outcomes w', Engine.run (fanOut execute trigger payload) w = (.ok (outcomes.filterMap answer?), w') ∧
      Series execute (payload.orElse (.map [])) workflows outcomes w w' := by
  have hq := Store.Workflows.hushed_byTrigger trigger w
  rw [h] at hq
  unfold fanOut
  rw [run_bind_ok h]
  have hlog : Hushed (Engine.log .info "registry" "trigger_fired"
      [("trigger_id", trigger), ("matched", .int workflows.length)]) := hushed_log (by decide)
  obtain ⟨outcomes, w', hall, hseries⟩ := runAll_series execute (payload.orElse (.map [])) trigger
    workflows (Engine.run (Engine.log .info "registry" "trigger_fired"
      [("trigger_id", trigger), ("matched", .int workflows.length)]) u).2
  exact ⟨outcomes, w', (run_bind_of_fst (a := ()) rfl).trans hall, hseries.before (hq.trans (hlog u))⟩

end Trigger

/-! ## Traces of nodes -/

/-- What was added of calls and of rows is of nodes with a property. -/
structure Traced (P : Node → Prop) (w w' : World) : Prop where
  calls : ∃ more, w'.calls = w.calls ++ more ∧
    ∀ call ∈ more, ∃ origin node, call.origin = some origin ∧ P node ∧ origin.node = node.id
  rows : ∀ id, ∃ more : List NodeLog, w'.storage.rows (Store.NodeLogs.place id) =
      w.storage.rows (Store.NodeLogs.place id) ++ more.map NodeLog.toValue ∧
    ∀ row ∈ more, row.isOfNode = true → ∃ node, P node ∧ row.nodeId = node.id ∧ row.nodeType = node.type

theorem Storage.rows_congr {s t : Storage} {place other : Location} (h : t.find? other = s.find? place) :
    t.rows other = s.rows place := by
  rw [Storage.rows, Storage.read, h, Storage.rows, Storage.read]

namespace Traced

variable {P Q : Node → Prop} {u w w' : World} {execution : String} {W : Workflow}

theorem mono (h : Traced P w w') (hPQ : ∀ node, P node → Q node) : Traced Q w w' where
  calls := by
    obtain ⟨more, hc, hmore⟩ := h.calls
    refine ⟨more, hc, fun call hm => ?_⟩
    obtain ⟨origin, node, ho, hp, hn⟩ := hmore call hm
    exact ⟨origin, node, ho, hPQ node hp, hn⟩
  rows id := by
    obtain ⟨more, hr, hmore⟩ := h.rows id
    refine ⟨more, hr, fun row hm hof => ?_⟩
    obtain ⟨node, hp, hn⟩ := hmore row hm hof
    exact ⟨node, hPQ node hp, hn⟩

theorem trans (h : Traced P u w) (k : Traced P w w') : Traced P u w' where
  calls := by
    obtain ⟨more, hc, hmore⟩ := h.calls
    obtain ⟨more', hc', hmore'⟩ := k.calls
    refine ⟨more ++ more', by rw [hc', hc, List.append_assoc], fun call hm => ?_⟩
    exact (List.mem_append.1 hm).elim (hmore call) (hmore' call)
  rows id := by
    obtain ⟨more, hr, hmore⟩ := h.rows id
    obtain ⟨more', hr', hmore'⟩ := k.rows id
    refine ⟨more ++ more', by rw [hr', hr, List.append_assoc, List.map_append], fun row hm => ?_⟩
    exact (List.mem_append.1 hm).elim (hmore row) (hmore' row)

/-- Nothing was called, and the logs are as they were. -/
theorem of_find? (hc : w'.calls = w.calls)
    (hl : ∀ id, w'.storage.find? (Store.NodeLogs.place id) = w.storage.find? (Store.NodeLogs.place id)) :
    Traced P w w' where
  calls := ⟨[], by rw [hc, List.append_nil], fun _ hm => by cases hm⟩
  rows id := ⟨[], by rw [Storage.rows_congr (hl id), List.map_nil, List.append_nil], fun _ hm => by cases hm⟩

theorem of_quiet (h : Quiet w w') : Traced P w w' :=
  of_find? h.calls fun _ => by rw [h.storage]

theorem of_wrote {place : Location} {v : Value} (h : Wrote place v w w')
    (hne : ∀ id, (Store.NodeLogs.place id).path ≠ place.path) : Traced P w w' :=
  of_find? h.calls fun id => h.find?_ne (hne id)

/-- A log has got one row more, and no other file has changed. -/
theorem of_row {rows : List Value} {row : NodeLog} (hc : ∃ more, w'.calls = w.calls ++ more ∧
      ∀ call ∈ more, ∃ origin node, call.origin = some origin ∧ P node ∧ origin.node = node.id)
    (hl : w.storage.rows (Store.NodeLogs.place execution) = rows)
    (hl' : w'.storage.rows (Store.NodeLogs.place execution) = rows ++ [row.toValue])
    (hne : ∀ id, (Store.NodeLogs.place id).path ≠ (Store.NodeLogs.place execution).path →
      w'.storage.find? (Store.NodeLogs.place id) = w.storage.find? (Store.NodeLogs.place id))
    (hrow : row.isOfNode = true → ∃ node, P node ∧ row.nodeId = node.id ∧ row.nodeType = node.type) : Traced P w w' where
  calls := hc
  rows id := by
    by_cases hp : (Store.NodeLogs.place id).path = (Store.NodeLogs.place execution).path
    · have hsame (s : Storage) : s.rows (Store.NodeLogs.place id) = s.rows (Store.NodeLogs.place execution) :=
        Storage.rows_congr (Storage.find?_congr hp)
      refine ⟨[row], by rw [hsame, hsame, hl', hl]; rfl, fun row' hm => ?_⟩
      rw [List.mem_singleton.1 hm]
      exact hrow
    · exact ⟨[], by rw [Storage.rows_congr (hne id hp), List.map_nil, List.append_nil], fun _ hm => by cases hm⟩

/-- A node that is performed leaves its own traces. -/
theorem performed {p : Progress} {node : Node} (h : Tracks p) (hn : P node) :
    Traced P p.world (Running.go (Dispatch.perform node) p).2.world := by
  let R (w w' : World) : Prop := ∃ more, w'.calls = w.calls ++ more ∧
    ∀ call ∈ more, ∃ origin node, call.origin = some origin ∧ P node ∧ origin.node = node.id
  have hsilent {w w' : World} (hc : w'.calls = w.calls) : R w w' :=
    ⟨[], by rw [hc, List.append_nil], fun _ hm => by cases hm⟩
  have hcalls : R p.world (Running.go (Dispatch.perform node) p).2.world := by
    refine h.perform_induction (R := R) node ?_ (fun hq => hsilent hq.calls) (fun hw => hsilent hw.calls) fun hw => ?_
    · rintro u v w ⟨more, hc, hmore⟩ ⟨more', hc', hmore'⟩
      exact ⟨more ++ more', by rw [hc', hc, List.append_assoc],
        fun call hm => (List.mem_append.1 hm).elim (hmore call) (hmore' call)⟩
    · rcases hw.calls with hc | ⟨call, ho, hc⟩
      · exact hsilent hc
      · refine ⟨[call], hc, fun call' hm => ?_⟩
        rw [List.mem_singleton.1 hm]
        exact ⟨_, node, ho, hn, rfl⟩
  have hframed := @Framed.performed none p h node
  rcases h.orderly.logs_cases p.run.execution with ⟨logs, hl, hc, -, -⟩ | hno
  · have hrows := Storage.rows_eq hl
    have hother (id : String) (hp : (Store.NodeLogs.place id).path ≠ (Store.NodeLogs.place p.run.execution).path) :
        (Running.go (Dispatch.perform node) p).2.world.storage.find? (Store.NodeLogs.place id) =
          p.world.storage.find? (Store.NodeLogs.place id) := by
      refine hframed.same _ fun ho => ?_
      cases ho with
      | record hpath => exact executions_ne_nodeLogs _ _ hpath.symm
      | logs hpath => exact hp hpath
      | mappings m hpath => exact nodeLogs_ne_mappings _ _ hpath
      | claim hm _ => cases hm
    rcases @Dispatch.gained_perform node logs p hl hc with hsame | ⟨row, hid, ht, hrow⟩
    · refine ⟨hcalls, fun id => ⟨[], ?_, fun _ hm => by cases hm⟩⟩
      rw [List.map_nil, List.append_nil]
      refine Storage.rows_congr ?_
      by_cases hp : (Store.NodeLogs.place id).path = (Store.NodeLogs.place p.run.execution).path
      · rw [Storage.find?_congr hp, Storage.find?_congr hp, hsame]
      · exact hother id hp
    · refine of_row hcalls hrows ?_ hother fun _ => ⟨node, hn, hid, ht⟩
      rw [Storage.rows, Storage.read, hrow, List.map_append]
      rfl
  · obtain ⟨w, r⟩ := p
    obtain ⟨fault, w', hb, hq⟩ := @Dispatch.perform_barred node w r fun _ => hno
    rw [hb]
    exact of_quiet hq

/-- A click that led nowhere was noted, which is no row of a node. -/
theorem routed (execution node text : String) (details : Entries Value) (u : World) :
    Traced P u (run (Journal.routingFailed execution node text details) u).2 := by
  by_cases hlist : ∃ rows, u.storage.read (Store.NodeLogs.place execution) (.list []) = .ok (.list rows)
  · obtain ⟨rows, hrows⟩ := hlist
    have hp := Journal.routingFailed_listed hrows node text details
    have hwrote {v : World} (hw : Wrote (Store.NodeLogs.place execution) (.list (rows ++
        [(NodeLog.unrouted execution (rows.length + 1) node text details u.clock.stamp).toValue])) u v) : Traced P u v :=
      of_row ⟨[], by rw [hw.calls, List.append_nil], fun _ hm => by cases hm⟩ (Storage.rows_eq hrows)
        (Storage.rows_eq hw.read_self) (fun id hp => hw.find?_ne hp)
        fun hof => by simp [NodeLog.isOfNode, NodeLog.unrouted, NodeLog.isRouting, Value.isNull] at hof
    exact hp.keeps (I := Traced P u) hwrote of_quiet
  · obtain ⟨fault, v, hr, hq⟩ :=
      Journal.routingFailed_barred (fun rows hrows => hlist ⟨rows, hrows⟩) node text details
    rw [hr]
    exact of_quiet hq

/-- What is done for an execution leaves traces of the nodes of its workflow only. -/
theorem hosting (execution : String) (W : Workflow) (w : World) :
    Hosting execution W (Traced (· ∈ W.nodes) w) where
  quiet h hq := h.trans (of_quiet hq)
  performed p node ht _ _ hn h := h.trans (performed ht hn)
  routed node text details u _ h := h.trans (routed execution node text details u)
  finish status error duration u ho h := by
    refine h.trans ?_
    rcases ho.finish_cases execution status error duration with ⟨x, hx, -, -⟩ | ⟨fault, v, hr, hq⟩
    · exact (Journal.finishExecution_posted hx status error duration).keeps (I := Traced (· ∈ W.nodes) u)
        (fun hw => of_wrote hw fun _ => (executions_ne_nodeLogs _ _).symm) of_quiet
    · rw [hr]
      exact of_quiet hq

/-- An execution that starts. -/
theorem execute (h : Orderly w) (W : Workflow) (payload : Value) :
    Traced (· ∈ W.nodes) w (run (Invocation.execute W payload) w).2 :=
  (hosting w.nextExecution W w).execute h (of_quiet (.refl w)) (fun hu => hu.trans (of_find? rfl fun _ => rfl))
    fun _ hu hw => hu.trans (of_wrote hw fun _ => (executions_ne_nodeLogs _ _).symm)

/-- An execution that goes on. -/
theorem goOnOrFail {mapping : ButtonMapping} {button data : Value} {x : Execution} {node : Node} {context : Context}
    (h : Orderly w) (hr : Continuation.Resumable mapping button data W x node context w) (message : String) (start : Int) :
    Traced (· ∈ W.nodes) w
      (run (Continuation.goOnOrFail message W x node button context start) (w.accepting x node button)).2 :=
  (hosting x.id W w).goOnOrFail h hr (of_find? (World.calls_accepting w x node button) fun _ => rfl) message start

end Traced

/-! ## Steps that run what is published -/

/-- Whether a workflow is what is stored of its id, and published. -/
def World.Publishes (w : World) (W : Workflow) : Prop :=
  w.Stores W ∧ W.isPublished = true

/-- A workflow that a file holds has the file for its place. -/
theorem Orderly.path_of_decode {w : World} {W : Workflow} {path : String} {document : Document} (h : Orderly w)
    (hd : w.storage.files.get? path = some document) (hW : Store.Workflows.decode document = .ok W) :
    path = (Store.Workflows.place W.id).path := by
  obtain ⟨v, rfl, hv⟩ := h.files _ _ hd
  have hload : Workflow.load v = .ok W := hW
  cases hv with
  | workflow V => rw [Workflow.id_of_load hload]
  | record => exact absurd hload (Workflow.load_execution_ne _ W)
  | logs => exact absurd hload (Workflow.load_list_ne _ W)
  | mappings => exact absurd hload (Workflow.load_list_ne _ W)
  | claim => exact absurd hload (Workflow.load_claim_ne _ _ W)

/-- What a file of a workflow holds is stored in the place of its own id. -/
theorem Orderly.stores {w : World} {W : Workflow} {path : String} {document : Document} (h : Orderly w)
    (hd : w.storage.files.get? path = some document) (hW : Store.Workflows.decode document = .ok W) : w.Stores W := by
  rw [h.path_of_decode hd hW] at hd
  exact ⟨document, hd, hW⟩

/-- The workflows that a trigger means are stored and published. -/
theorem Storage.Chosen.publishes {w : World} {trigger : Value} {workflows : List Workflow} {W : Workflow}
    (h : w.storage.Chosen trigger workflows) (ho : Orderly w) (hm : W ∈ workflows) : w.Publishes W := by
  obtain ⟨names, all, -, -, hall, rfl⟩ := h
  obtain ⟨hm, hp⟩ := List.mem_filter.1 hm
  have hsome : some W ∈ names.map w.storage.workflow? := hall ▸ List.mem_map_of_mem hm
  obtain ⟨name, -, hname⟩ := List.mem_map.1 hsome
  obtain ⟨document, hd, hW⟩ := Option.bind_eq_some_iff.1 hname
  cases hdecode : Store.Workflows.decode document with
  | error fault => rw [hdecode] at hW; cases hW
  | ok V =>
    rw [hdecode] at hW
    obtain rfl : V = W := Option.some.inj hW
    exact ⟨ho.stores hd hdecode, (Bool.and_eq_true_iff.1 hp).1⟩

/-- A part of a step in which no workflow is run but those with a property. -/
inductive Conducted (P : Workflow → Prop) : World → World → Prop
  | quiet {w w' : World} : Quiet w w' → Conducted P w w'
  | claimed {message execution now : String} {w w' : World} :
      Wrote (Store.Claims.place message) (.map [("execution_id", .str execution), ("claimed_at", .str now)]) w w' →
      Conducted P w w'
  | released (message : String) (w : World) :
      Conducted P w { w with storage := w.storage.remove (Store.Claims.place message) }
  | routed (execution node text : String) (details : Entries Value) (w : World) :
      Conducted P w (run (Journal.routingFailed execution node text details) w).2
  | executed {W : Workflow} (payload : Value) (w : World) : P W → Conducted P w (run (Invocation.execute W payload) w).2
  | continued {mapping : ButtonMapping} {button data : Value} {W : Workflow} {x : Execution} {node : Node}
      {context : Context} {w : World} (message : String) (start : Int) : P W →
      Continuation.Resumable mapping button data W x node context w → Conducted P w
        (run (Continuation.goOnOrFail message W x node button context start) (w.accepting x node button)).2
  | trans {u v w : World} : Conducted P u v → Conducted P v w → Conducted P u w

namespace Conducted

variable {P : Workflow → Prop} {w w' : World}

/-- Whatever is run, its traces are of its own nodes. -/
theorem traced (h : Conducted P w w') (ho : Orderly w) :
    Orderly w' ∧ Traced (fun node => ∃ W, P W ∧ node ∈ W.nodes) w w' := by
  induction h with
  | quiet hq => exact ⟨ho.quiet hq, .of_quiet hq⟩
  | claimed hw => exact ⟨lasting_orderly.claimed ho hw, .of_wrote hw fun _ => claims_ne_nodeLogs _ _⟩
  | released message w =>
    exact ⟨ho.released message, .of_find? rfl fun id => Entries.get?_erase_ne (claims_ne_nodeLogs message id)⟩
  | routed execution node text details w =>
    exact ⟨orderly_routingFailed execution node text details w ho, .routed execution node text details w⟩
  | @executed W payload w hP =>
    exact ⟨lasting_orderly.abiding.executed W payload w ho, (Traced.execute ho W payload).mono fun _ hn => ⟨W, hP, hn⟩⟩
  | @continued mapping button data W x node context w message start hP hr =>
    exact ⟨lasting_orderly.abiding.continued message start ho hr,
      (Traced.goOnOrFail ho hr message start).mono fun _ hn => ⟨W, hP, hn⟩⟩
  | trans _ _ ih ih' =>
    obtain ⟨hv, ht⟩ := ih ho
    obtain ⟨hw, ht'⟩ := ih' hv
    exact ⟨hw, ht.trans ht'⟩

theorem hushed {α : Type} {act : Engine α} (ha : Hushed act) : Keeps (Conducted P w) act :=
  fun u hu => hu.trans (.quiet (ha u))

theorem executeStored (ho : Orderly w) (id : String) (payload : Value) :
    Conducted w.Publishes w (run (Invocation.executeStored id payload) w).2 := by
  have hq := Store.Workflows.hushed_find? id w
  unfold Invocation.executeStored
  rcases hf : run (Store.Workflows.find? id) w with ⟨fault | found, u⟩ <;> rw [hf] at hq
  · rw [run_bind_error hf]
    exact .quiet hq
  · rw [run_bind_ok hf]
    rcases hfound : found.filter Workflow.isPublished with _ | W
    · exact .quiet (hq.trans (hushed_bind (hushed_log (by decide)) (fun _ => hushed_pure _) u))
    · obtain ⟨rfl, hp⟩ := Option.filter_eq_some_iff.1 hfound
      obtain ⟨document, hd, hW⟩ := Store.Workflows.eq_some_of_find? hf
      exact (Conducted.quiet hq).trans (.executed payload u ⟨ho.stores hd hW, hp⟩)

theorem fire (ho : Orderly w) (hn : w.storage.files.keys.Nodup) (trigger payload : Value) :
    Conducted w.Publishes w (run (Trigger.fire trigger payload) w).2 := by
  unfold Trigger.fire
  rcases hb : run (Store.Workflows.byTrigger trigger) w with ⟨fault | workflows, u⟩
  · have hq := Store.Workflows.hushed_byTrigger trigger w
    rw [hb] at hq
    unfold Trigger.fanOut
    rw [run_bind_error hb]
    exact .quiet hq
  · obtain ⟨outcomes, w', hrun, hseries⟩ := Trigger.fanOut_series Invocation.execute payload hb
    rw [hrun]
    refine hseries.keeps (I := Conducted w.Publishes w) (fun hu hq => hu.trans (.quiet hq)) (fun W hW u hu => ?_)
      (.quiet (.refl w))
    exact hu.trans (.executed _ u ((Store.Workflows.chosen_of_byTrigger hn hb).publishes ho hW))

/-- Nothing that a click does before it is admitted publishes a workflow. -/
theorem heedless (w : World) :
    Heedless fun v => Orderly v ∧ Conducted P w v ∧ ∀ W, v.Publishes W → w.Publishes W where
  quiet h hq := by
    refine ⟨h.1.quiet hq, h.2.1.trans (.quiet hq), fun W hW => h.2.2 W ?_⟩
    rwa [World.Publishes, World.Stores, hq.storage] at hW
  claimed {_ execution now _ _} h hw := by
    refine ⟨lasting_orderly.claimed h.1 hw, h.2.1.trans (.claimed hw), fun W hW => h.2.2 W ⟨?_, hW.2⟩⟩
    obtain ⟨⟨document, hd, hdecode⟩, -⟩ := hW
    refine ⟨document, ?_, hdecode⟩
    rw [← hd]
    refine (hw.find?_ne fun hp => ?_).symm
    -- where the claim is, there is no workflow
    rw [Storage.find?_congr hp, hw.find?_self] at hd
    obtain rfl := Option.some.inj hd
    exact Workflow.load_claim_ne execution now W hdecode
  released message v h := by
    refine ⟨h.1.released message, h.2.1.trans (.released message v), fun W hW => h.2.2 W ⟨?_, hW.2⟩⟩
    obtain ⟨⟨document, hd, hdecode⟩, -⟩ := hW
    exact ⟨document, Entries.get?_of_erase hd, hdecode⟩

theorem refuse (mapping : ButtonMapping) (message : String) (button : Value) (fault : Fault) :
    Keeps (Conducted P w) (Continuation.refuse mapping message button fault) := by
  have hnote (text : String) (details : Entries Value) :
      Keeps (Conducted P w) (Journal.routingFailed mapping.executionId mapping.nodeId text details) :=
    fun u hu => hu.trans (.routed _ _ text details u)
  unfold Continuation.refuse
  dsimp only
  split
  · exact keeps_bind (hnote _ _) fun _ => hushed (hushed_pure _)
  · exact keeps_bind (hushed (hushed_logFault _ _)) fun _ => keeps_bind (hnote _ _) fun _ => hushed (hushed_pure _)

theorem click (ho : Orderly w) (message : String) (button data : Value) :
    Conducted w.Publishes w (run (WorkGraph.click message button data) w).2 := by
  have hq := Store.Mappings.hushed_find? message w
  rcases hf : run (Store.Mappings.find? message) w with ⟨fault | found, u⟩ <;> rw [hf] at hq
  · exact .quiet (click_unmapped fun mapping h => by rw [hf] at h; cases h)
  cases found with
  | none => exact .quiet (click_unmapped fun mapping h => by rw [hf] at h; cases h)
  | some mapping =>
    have hrefuse (fault : Fault) (v : World) (hv : Conducted w.Publishes w v) : Conducted w.Publishes w
        (run (do Continuation.refuse mapping message button fault; return (none : Option String)) v).2 :=
      keeps_bind (refuse mapping message button fault) (fun _ => hushed (hushed_pure _)) v hv
    have hstart := (heedless (P := w.Publishes) w).quiet ⟨ho, .quiet (.refl w), fun _ => id⟩ hq
    rcases (heedless w).admission message button (data.orElse (.map [])) hstart (Continuation.listed_of_find? hf hq) with
      ⟨fault, v, ha, -, hv, -⟩ | ⟨a, v, ha, -, ⟨hov, hv, hpublishes⟩, hr⟩
    · rw [run_click_refused hf ha]
      exact hrefuse fault v hv
    · obtain ⟨document, hd, hW⟩ := hr.saved
      have hgo := hv.trans (.continued message a.start (hpublishes _ ⟨hov.stores hd hW, hr.published⟩) hr)
      rw [run_click_admitted hf ha, run_bind_ok (run_attempt _ _)]
      rcases hrun : run (Continuation.goOnOrFail message a.workflow a.execution a.node button a.context a.start)
        (v.accepting a.execution a.node button) with ⟨fault | answer, v'⟩ <;> rw [hrun] at hgo
      · exact hrefuse fault v' hgo
      · exact hgo

end Conducted

/-! ## What is missing or a draft -/

section Unpublished

variable {w : World}

/-- A workflow that is looked up under an id and not found, or found as a draft, is not run. -/
theorem executeStored_unpublished {id : String} {found : Option Workflow}
    (hf : (run (Store.Workflows.find? id) w).1 = .ok found) (hp : found.filter Workflow.isPublished = none)
    (payload : Value) : ∃ w', run (Invocation.executeStored id payload) w = (.ok none, w') ∧ Quiet w w' := by
  have hq := Store.Workflows.hushed_find? id w
  rcases hr : run (Store.Workflows.find? id) w with ⟨result, u⟩
  rw [hr] at hf hq
  obtain rfl : result = .ok found := hf
  unfold Invocation.executeStored
  rw [run_bind_ok hr]
  rw [hp]
  exact ⟨_, rfl, hq.trans (hushed_log (by decide) u)⟩

/-- A click for a workflow that is not stored, or that is a draft, is noted at most. -/
theorem click_unpublished {message : String} {mapping : ButtonMapping}
    (hf : (run (Store.Mappings.find? message) w).1 = .ok (some mapping))
    (hno : ∀ document W, w.storage.find? (Store.Workflows.place mapping.workflowId) = some document →
      Store.Workflows.decode document = .ok W → W.isPublished = false) (button data : Value) :
    Noted mapping w (run (click message button data) w).2 ∨ Quiet w (run (click message button data) w).2 := by
  have hq := Store.Mappings.hushed_find? message w
  rcases hr : run (Store.Mappings.find? message) w with ⟨result, u⟩
  rw [hr] at hf hq
  obtain rfl : result = .ok (some mapping) := hf
  have hbarred : ∃ fault v, run (Continuation.admission mapping message button (data.orElse (.map []))) u = (.error fault, v) ∧
      Quiet u v := by
    unfold Continuation.admission
    rw [run_bind_ok (run_reading u)]
    have hq' := Continuation.hushed_workflowOf mapping u
    rcases hW : run (Continuation.workflowOf mapping) u with ⟨fault | W, v⟩ <;> rw [hW] at hq'
    · exact ⟨fault, v, run_bind_error hW, hq'⟩
    · obtain ⟨hp, document, hd, hdecode⟩ := Continuation.eq_ok_of_workflowOf hW
      rw [hq.storage] at hd
      rw [hno document W hd hdecode] at hp
      cases hp
  obtain ⟨fault, v, ha, hv⟩ := hbarred
  rw [run_click_refused hr ha]
  rcases Continuation.refuse_cases mapping message button fault v with ⟨v', hrefuse, hn⟩ | ⟨fault', v', hrefuse, hq'⟩
  · rw [run_bind_ok hrefuse]
    exact .inl (hn.before (hq.trans hv))
  · rw [run_bind_error hrefuse]
    exact .inr (hq.trans (hv.trans hq'))

end Unpublished

/-! ## Sessions -/

/-- Whether a step asks for what is stored, and brings no workflow itself. -/
def Session.Step.fromStore : Session.Step → Bool
  | .trigger _ _ | .executeStored _ _ | .click _ _ _ => true
  | _ => false

/-- A step that asks for what is stored runs what is published when it starts, and nothing else. -/
theorem Session.conducted_perform {w : World} (ho : Orderly w) (hn : w.storage.files.keys.Nodup) {step : Session.Step}
    (hs : step.fromStore = true) : Conducted w.Publishes w (Engine.run (Session.perform step) w).2 := by
  cases step with
  | trigger trigger payload =>
    rw [Session.perform, run_map_snd]
    exact .fire ho hn trigger payload
  | executeStored id payload =>
    rw [Session.perform, run_map_snd]
    exact .executeStored ho id payload
  | click message button data =>
    rw [Session.perform, run_map_snd]
    exact .click ho message button data
  | execute | saveWorkflow | setWorkflowStatus | register | unregister | advance | inject | forget | closeAudit => cases hs

/-- Whatever is stored, a trigger runs exactly the published workflows that declare it, each once and in the order of their
files, whatever comes of the runs, and returns the ids that they have returned. And at every point of every session, a step
that asks for what is stored runs what is published at that point only, calls nobody and writes no row on behalf of any
other node, and does nothing for a workflow that is missing or a draft, except that a click is noted. -/
theorem only_published_run :
    (∀ (w u : World) (execute : Workflow → Value → Engine (Option String)) (trigger payload : Value)
      (workflows : List Workflow), w.storage.files.keys.Nodup →
      run (Store.Workflows.byTrigger trigger) w = (.ok workflows, u) → w.storage.Chosen trigger workflows ∧
        ∃ outcomes w', run (Trigger.fanOut execute trigger payload) w = (.ok (outcomes.filterMap Trigger.answer?), w') ∧
          Trigger.Series execute (payload.orElse (.map [])) workflows outcomes w w') ∧
    ∀ (config : Config) (root : String) (auditor : Option Auditor) (steps : List Session.Step),
      let w := (Session.run steps (.initial config root auditor)).2
      w.storage.files.keys.Nodup ∧
      (∀ step : Session.Step, step.fromStore = true →
        let w' := (run (Session.perform step) w).2
        Conducted w.Publishes w w' ∧ Traced (fun node => ∃ W, w.Publishes W ∧ node ∈ W.nodes) w w') ∧
      (∀ id payload found, (run (Store.Workflows.find? id) w).1 = .ok found → found.filter Workflow.isPublished = none →
        ∃ w', run (Invocation.executeStored id payload) w = (.ok none, w') ∧ Quiet w w') ∧
      ∀ message mapping button data, (run (Store.Mappings.find? message) w).1 = .ok (some mapping) →
        (∀ document W, w.storage.find? (Store.Workflows.place mapping.workflowId) = some document →
          Store.Workflows.decode document = .ok W → W.isPublished = false) →
        Noted mapping w (run (click message button data) w).2 ∨ Quiet w (run (click message button data) w).2 := by
  refine ⟨fun w u execute trigger payload workflows hn hb =>
    ⟨Store.Workflows.chosen_of_byTrigger hn hb, Trigger.fanOut_series execute payload hb⟩, fun config root auditor steps => ?_⟩
  intro w
  have ho : Orderly w := orderly_run steps (orderly_initial config root auditor)
  have hn : w.storage.files.keys.Nodup := nodup_keys_run steps (orderly_initial config root auditor) List.nodup_nil
  refine ⟨hn, fun step hs => ?_, fun id payload found hf hp => executeStored_unpublished hf hp payload,
    fun message mapping button data hf hno => click_unpublished hf hno button data⟩
  have hconducted := Session.conducted_perform ho hn hs
  exact ⟨hconducted, (hconducted.traced ho).2⟩

namespace Sample

/-- A workflow that runs every day, if it is published. -/
def daily (id : String) (status : WorkflowStatus) : Workflow :=
  { id, title := none, status, nodes := [node "start" "trigger" [("trigger_type", .str "daily")]], edges := [] }

/-- A message waits for a click, two daily workflows are saved, and that of the message is made a draft. -/
def days : List Session.Step :=
  asking (.str sender) ++ [.saveWorkflow (daily "second" .published), .saveWorkflow (daily "first" .published),
    .setWorkflowStatus "flow" .draft]

/-- What is found then. -/
structure Found (w : World) : Prop where
  listed : ∃ workflows, run (Store.Workflows.byTrigger (.str "daily")) w = (.ok workflows, w) ∧
    workflows.map Workflow.id = ["first", "second"]
  draft : ∃ W, (run (Store.Workflows.find? "flow") w).1 = .ok (some W) ∧ W.isPublished = false
  asked : ∃ mapping, (run (Store.Mappings.find? "m") w).1 = .ok (some mapping) ∧ mapping.workflowId = "flow"

theorem found_days : Found (Session.run days (.initial {} "" none)).2 := by
  -- the world is computed once, for all of it
  have hall : let w := (Session.run days (.initial {} "" none)).2
      w.failpoints = [] ∧
      w.storage.files.keys.filter ((Folder.workflows.name ++ "/").toList.isPrefixOf ·.toList) =
        ["workflows/flow.json", "workflows/second.json", "workflows/first.json"] ∧
      ((["first.json", "flow.json", "second.json"].filterMap fun name =>
          w.storage.files.get? (Folder.workflows.name ++ "/" ++ name)).mapM Store.Workflows.decode).toOption.map (fun all =>
        (all.filter fun W => W.isPublished && W.triggerIds.any (·.same (.str "daily"))).map Workflow.id) =
          some ["first", "second"] ∧
      (run (Store.Workflows.find? "flow") w).1.toOption.join.map Workflow.isPublished = some false ∧
      (run (Store.Mappings.find? "m") w).1.toOption.join.map ButtonMapping.workflowId = some "flow" := by
    decide +kernel
  dsimp only at hall
  generalize (Session.run days (.initial {} "" none)).2 = w at hall ⊢
  obtain ⟨hnone, hkeys, hlisted, hdraft, hasked⟩ := hall
  have hnames : w.storage.names .workflows "" ".json" = ["first.json", "flow.json", "second.json"] := by
    unfold Storage.names
    dsimp only
    rw [hkeys]
    generalize hi : List.filter _ (List.map _ _) = inside
    obtain rfl : ["flow.json", "second.json", "first.json"] = inside := by rw [← hi]; decide
    simp [List.mergeSort]
  rw [← hnames] at hlisted
  obtain ⟨all, hdecoded, hids⟩ := Option.map_eq_some_iff.1 hlisted
  obtain ⟨W, hW, hp⟩ := Option.map_eq_some_iff.1 hdraft
  obtain ⟨mapping, hm, hid⟩ := Option.map_eq_some_iff.1 hasked
  exact ⟨⟨_, Store.Workflows.run_byTrigger (fun p hp => by rw [hnone] at hp; cases hp)
    (eq_ok_of_toOption hdecoded) _, hids⟩, ⟨W, eq_ok_of_toOption (Option.join_eq_some_iff.1 hW), hp⟩,
    ⟨mapping, eq_ok_of_toOption (Option.join_eq_some_iff.1 hm), hid⟩⟩

end Sample

/-- The day comes: the two published workflows run in the order of their files. The draft does not, neither by its id nor
by the click that it waits for. -/
theorem only_published_run_sample :
    let w := (Session.run Sample.days (.initial {} "" none)).2
    (∃ workflows, run (Store.Workflows.byTrigger (.str "daily")) w = (.ok workflows, w) ∧
      workflows.map Workflow.id = ["first", "second"] ∧ w.storage.Chosen (.str "daily") workflows ∧
      ∃ outcomes w', run (Trigger.fanOut Invocation.execute (.str "daily") .null) w =
          (.ok (outcomes.filterMap Trigger.answer?), w') ∧
        Trigger.Series Invocation.execute (.map []) workflows outcomes w w') ∧
      Conducted w.Publishes w (run (Session.perform (.trigger (.str "daily") .null)) w).2 ∧
      (∃ w', run (Invocation.executeStored "flow" .null) w = (.ok none, w') ∧ Quiet w w') ∧
      ∃ mapping, (run (Store.Mappings.find? "m") w).1 = .ok (some mapping) ∧
        (Noted mapping w (run (click "m" (.str "yes") .null) w).2 ∨ Quiet w (run (click "m" (.str "yes") .null) w).2) := by
  obtain ⟨hruns, hsessions⟩ := only_published_run
  obtain ⟨hn, hconducted, hstored, hclick⟩ := hsessions {} "" none Sample.days
  obtain ⟨⟨workflows, hb, hids⟩, ⟨W, hW, hp⟩, ⟨mapping, hm, hid⟩⟩ := Sample.found_days
  dsimp only at hn hconducted hstored hclick ⊢
  generalize (Session.run Sample.days (.initial {} "" none)).2 = w at hn hconducted hstored hclick hb hW hm ⊢
  obtain ⟨hchosen, hseries⟩ := hruns w w Invocation.execute (.str "daily") .null _ hn hb
  refine ⟨⟨workflows, hb, hids, hchosen, hseries⟩, (hconducted _ rfl).1,
    hstored "flow" .null (some W) hW (by rw [Option.filter, hp]; rfl), mapping, hm,
    hclick "m" mapping (.str "yes") .null hm fun document V hd hV => ?_⟩
  -- what is stored as the draft is the draft
  obtain ⟨document', hd', hW'⟩ := Store.Workflows.eq_some_of_find? (Prod.ext hW rfl)
  rw [hid] at hd
  obtain rfl := Option.some.inj (hd.symm.trans hd')
  rw [Except.ok.inj (hV.symm.trans hW'), hp]

end WorkGraph
