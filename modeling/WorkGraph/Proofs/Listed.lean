import WorkGraph.Proofs.Generated
import WorkGraph.Proofs.Published

/-!
# Executions that are listed

The executions in store are found by going through the files of their folder from the last name to the first. Where these
are files of executions under generated ids, besides files with nothing in them (`World.Archives`), the executions are found
in the order of their ids. It is so of whatever is saved under such ids (`World.Archives.saves`), and of what is started
(`World.Archives.started`). Of those that are asked for, the first so many are taken (`Store.Executions.run_collect`). The
limit is looked at behind each that is taken, so that there is one even where the limit is none (`not_within_limit`);
`listed_newest_first` says what is listed for every limit.
-/

namespace WorkGraph

open Engine

/-! ## One file after the other -/

/-- The execution on record in a file at the time, if there is anything in the file. -/
def World.recordIn (w : World) (place : Location) : Except Fault (Option Execution) := do
  let data ← w.storage.read place .null
  if data.truthy then some <$> Execution.load w.clock.stamp data else return none

namespace World

variable {w : World} {place : Location} {x : Execution}

theorem recordIn_eq_none (h : w.recordIn place = .ok none) :
    ∃ data, w.storage.read place .null = .ok data ∧ data.truthy = false := by
  obtain ⟨data, hread, hrest⟩ := exists_of_bind h
  refine ⟨data, hread, ?_⟩
  cases ht : data.truthy with
  | false => rfl
  | true =>
    rw [if_pos ht] at hrest
    cases hl : Execution.load w.clock.stamp data <;> rw [hl] at hrest <;> cases hrest

theorem recordIn_eq_some : w.recordIn place = .ok (some x) ↔
    ∃ data, w.storage.read place .null = .ok data ∧ data.truthy = true ∧ Execution.load w.clock.stamp data = .ok x := by
  constructor
  · intro h
    obtain ⟨data, hread, hrest⟩ := exists_of_bind h
    refine ⟨data, hread, ?_⟩
    cases ht : data.truthy with
    | false =>
      rw [ht] at hrest
      cases hrest
    | true =>
      rw [if_pos ht] at hrest
      cases hl : Execution.load w.clock.stamp data with
      | error fault => rw [hl] at hrest; cases hrest
      | ok y =>
        rw [hl] at hrest
        exact ⟨rfl, congrArg Except.ok (Option.some.inj (Except.ok.inj hrest))⟩
  · rintro ⟨data, hread, ht, hl⟩
    unfold recordIn
    rw [hread]
    show (if data.truthy then some <$> Execution.load w.clock.stamp data else return none) = _
    rw [if_pos ht, hl]
    rfl

/-- Where an execution is on record, there is a file. -/
theorem mem_keys_of_recordIn (h : w.recordIn place = .ok (some x)) : place.path ∈ w.storage.files.keys := by
  obtain ⟨data, hread, ht, -⟩ := recordIn_eq_some.1 h
  rw [Storage.read, Storage.find?] at hread
  cases hd : w.storage.files.get? place.path with
  | none =>
    rw [hd] at hread
    obtain rfl := Except.ok.inj hread
    cases ht
  | some document => exact Entries.mem_keys_iff_get?.2 (Option.isSome_iff_exists.2 ⟨document, hd⟩)

end World

/-- A write to another file leaves a record as it is. -/
theorem Wrote.recordIn_ne {place other : Location} {v : Value} {w w' : World} (h : Wrote place v w w')
    (hne : other.path ≠ place.path) : w'.recordIn other = w.recordIn other := by
  unfold World.recordIn
  rw [h.read_ne hne, h.clock]

namespace Store.Executions

/-- The file of a name in the folder of executions. -/
def fileOf (name : String) : Location :=
  ⟨Folder.executions.name ++ "/" ++ name, name, true⟩

theorem fileOf_path_inj {a b : String} (h : (fileOf a).path = (fileOf b).path) : a = b := by
  have h := congrArg String.toList h
  simp only [fileOf, String.toList_append] at h
  exact String.toList_inj.1 (List.append_cancel_left h)

variable {w : World} {workflow status : Value} {limit : Int} {name : String} {names : List String} {x : Execution}
  {found : List Execution}

/-- A file with nothing in it is passed over. -/
theorem run_collect_of_none (h : w.recordIn (fileOf name) = .ok none) :
    run (collect workflow status limit (name :: names) found) w = run (collect workflow status limit names found) w := by
  obtain ⟨data, hread, ht⟩ := World.recordIn_eq_none h
  unfold fileOf at hread
  rw [collect, run_readFile_bind hread, ht]
  rfl

/-- An execution that is asked for is taken, and the limit is looked at behind it. -/
theorem run_collect_of_some (h : w.recordIn (fileOf name) = .ok (some x)) :
    run (collect workflow status limit (name :: names) found) w =
      if matchesFilter workflow status x = true then
        if limit ≤ (found ++ [x]).length then (.ok (found ++ [x]), w)
        else run (collect workflow status limit names (found ++ [x])) w
      else run (collect workflow status limit names found) w := by
  obtain ⟨data, hread, ht, hl⟩ := World.recordIn_eq_some.1 h
  unfold fileOf at hread
  rw [collect, run_readFile_bind hread, ht, Bool.not_true, if_neg Bool.false_ne_true, run_bind_ok (run_stamp w),
    run_ofExcept_bind hl]
  cases matchesFilter workflow status x with
  | false => rfl
  | true =>
    simp only [Bool.not_true, Bool.false_eq_true, if_false, if_true]
    split <;> rfl

/-- By induction on the names: of the executions on record that are asked for, the first so many come behind those that
were found, and one of them in any case. -/
theorem run_collect {record : String → Option Execution} (h : ∀ name ∈ names, w.recordIn (fileOf name) = .ok (record name))
    (found : List Execution) : run (collect workflow status limit names found) w =
      (.ok (found ++ ((names.filterMap record).filter (matchesFilter workflow status)).take
        (max 1 (limit - found.length)).toNat), w) := by
  induction names generalizing found with
  | nil =>
    rw [List.filterMap_nil, List.filter_nil, List.take_nil, List.append_nil]
    rfl
  | cons name names ih =>
    have hname := h name List.mem_cons_self
    have ih := ih fun other ho => h other (List.mem_cons_of_mem name ho)
    cases hr : record name with
    | none =>
      rw [hr] at hname
      rw [run_collect_of_none hname, ih, List.filterMap_cons_none hr]
    | some x =>
      rw [hr] at hname
      rw [run_collect_of_some hname, List.filterMap_cons_some hr]
      by_cases hm : matchesFilter workflow status x = true
      · rw [if_pos hm, List.filter_cons_of_pos hm]
        split
        · next hlast =>
          have hone : (max 1 (limit - found.length)).toNat = 1 := by
            rw [List.length_append, List.length_singleton] at hlast
            omega
          rw [hone, List.take_succ_cons, List.take_zero]
        · next hmore =>
          have hnext : (max 1 (limit - found.length)).toNat = (max 1 (limit - (found ++ [x]).length)).toNat + 1 := by
            rw [List.length_append, List.length_singleton] at hmore ⊢
            omega
          rw [ih, hnext, List.take_succ_cons, List.append_assoc, List.singleton_append]
      · rw [if_neg hm, List.filter_cons_of_neg hm, ih]

end Store.Executions

/-! ## Executions in store -/

/-- Whether a name is that of a file that is looked into for an execution. -/
abbrev Storage.HasExecution (s : Storage) (name : String) : Prop :=
  s.HasFile .executions "exec_" ".json" name

/-- What is looked into after a write to another file was there before. -/
theorem Storage.HasFile.before {folder : Folder} {start finish name : String} {place : Location} {v : Value} {w w' : World}
    (h : w'.storage.HasFile folder start finish name) (hw : Wrote place v w w')
    (hne : folder.name ++ "/" ++ name ≠ place.path) : w.storage.HasFile folder start finish name where
  direct := h.direct
  named := h.named
  present := by
    have hkey := h.present
    rw [files_of_write hw.storage, Entries.mem_keys_iff_get?, Entries.get?_set_ne _ _ hne] at hkey
    exact Entries.mem_keys_iff_get?.2 hkey

namespace IsGenerated

variable {id : String}

/-- The record of a generated id is in the file that is named by it. -/
theorem place_eq (h : IsGenerated id) : Store.Executions.place id = Store.Executions.fileOf (id ++ ".json") := by
  rw [Store.Executions.place, Location.ofRecord, safeName_eq_self h.isSafeText]
  rfl

/-- If there is such a file, it is looked into. -/
theorem hasExecution (h : IsGenerated id) {s : Storage} (hf : (Store.Executions.place id).path ∈ s.files.keys) :
    s.HasExecution (id ++ ".json") where
  direct := by
    have hslash : '/' ∉ id.toList := fun hm => absurd (h.isSafeText '/' hm) (by decide)
    rw [String.toList_append, List.mem_append, not_or]
    exact ⟨hslash, by decide⟩
  named := by
    obtain ⟨rest, hrest⟩ := h.starts
    refine ⟨String.ofList rest, ?_⟩
    rw [← String.toList_inj, String.toList_append, ← hrest]
    simp [String.toList_append]
  present := by
    rw [h.place_eq] at hf
    exact hf

end IsGenerated

/-- Whether the files that are looked into hold just these executions, each under its generated id. -/
structure World.Archives (w : World) (es : List Execution) : Prop where
  /-- No two files have one name. -/
  once : w.storage.files.keys.Nodup
  generated : ∀ x ∈ es, IsGenerated x.id
  distinct : es.Pairwise (·.id ≠ ·.id)
  recorded : ∀ x ∈ es, w.recordIn (Store.Executions.place x.id) = .ok (some x)
  /-- Whatever is looked into is the file of one of the executions, or there is nothing in it. -/
  only : ∀ name, w.storage.HasExecution name →
    (∃ x ∈ es, name = x.id ++ ".json") ∨ w.recordIn (Store.Executions.fileOf name) = .ok none

/-- The execution that a file of a name is found to hold. -/
def World.recordOf (w : World) (name : String) : Option Execution :=
  (w.recordIn (Store.Executions.fileOf name)).toOption.join

/-- The executions in the order in which they are found. -/
def World.listed (w : World) : List Execution :=
  (w.storage.names .executions "exec_" ".json").reverse.filterMap w.recordOf

namespace World.Archives

variable {w w' : World} {es : List Execution} {x : Execution}

/-- What a file is found to hold is one of the executions, or nothing. -/
theorem recordIn_of_hasExecution (h : w.Archives es) {name : String} (hf : w.storage.HasExecution name) :
    w.recordIn (Store.Executions.fileOf name) = .ok (w.recordOf name) ∧
      ∀ x, w.recordOf name = some x → x ∈ es ∧ name = x.id ++ ".json" := by
  rcases h.only name hf with ⟨x, hx, rfl⟩ | hnone
  · have hrecord := (h.generated x hx).place_eq ▸ h.recorded x hx
    have hof : w.recordOf (x.id ++ ".json") = some x := by rw [recordOf, hrecord]; rfl
    refine ⟨by rw [hof, hrecord], fun y hy => ?_⟩
    obtain rfl := Option.some.inj (hof.symm.trans hy)
    exact ⟨hx, rfl⟩
  · have hof : w.recordOf name = none := by rw [recordOf, hnone]; rfl
    exact ⟨by rw [hof, hnone], fun y hy => by rw [hof] at hy; cases hy⟩

theorem mem_listed (h : w.Archives es) : x ∈ w.listed ↔ x ∈ es := by
  simp only [listed, List.mem_filterMap, List.mem_reverse, Storage.mem_names]
  constructor
  · rintro ⟨name, hf, hof⟩
    exact ((h.recordIn_of_hasExecution hf).2 x hof).1
  · intro hx
    have hrecord := h.recorded x hx
    refine ⟨x.id ++ ".json", (h.generated x hx).hasExecution (mem_keys_of_recordIn hrecord), ?_⟩
    rw [recordOf, ← (h.generated x hx).place_eq, hrecord]
    rfl

/-- Executions are found from the last id to the first. -/
theorem pairwise_listed (h : w.Archives es) : w.listed.Pairwise fun x y => y.id < x.id := by
  have hnames : (w.storage.names .executions "exec_" ".json").reverse.Pairwise fun a b =>
      w.storage.HasExecution a ∧ w.storage.HasExecution b ∧ b < a :=
    List.pairwise_reverse.2 ((Storage.pairwise_names h.once).imp_of_mem fun ha hb hab =>
      ⟨Storage.mem_names.1 hb, Storage.mem_names.1 ha, hab⟩)
  refine hnames.filterMap w.recordOf fun a b ⟨ha, hb, hab⟩ x hx y hy => ?_
  obtain ⟨hxs, rfl⟩ := (h.recordIn_of_hasExecution ha).2 x hx
  obtain ⟨hys, rfl⟩ := (h.recordIn_of_hasExecution hb).2 y hy
  exact (h.generated y hys).lt_of_file_lt (h.generated x hxs) hab

/-- Each execution is found once. -/
theorem listed_perm (h : w.Archives es) : w.listed.Perm es := by
  have hlisted : w.listed.Nodup := h.pairwise_listed.imp fun {x y} hlt => by
    rintro rfl
    exact String.lt_irrefl _ hlt
  have hes : es.Nodup := h.distinct.imp fun {x y} hne he => hne (congrArg Execution.id he)
  exact (List.perm_ext_iff_of_nodup hlisted hes).2 fun x => h.mem_listed

/-- Of the executions that are found and pass, the first so many are listed, and one of them in any case. -/
theorem run_list (h : w.Archives es) (hs : w.Steady) (workflow status : Value) (limit : Int) :
    run (Store.Executions.list workflow status limit) w =
      (.ok ((w.listed.filter (Store.Executions.matchesFilter workflow status)).take (max 1 limit).toNat), w) := by
  have hrecord : ∀ name ∈ (w.storage.names .executions "exec_" ".json").reverse,
      w.recordIn (Store.Executions.fileOf name) = .ok (w.recordOf name) := fun name hname =>
    (h.recordIn_of_hasExecution (Storage.mem_names.1 (List.mem_reverse.1 hname))).1
  unfold Store.Executions.list
  rw [run_bind_ok (run_entering_steady hs _), run_get_bind]
  dsimp only
  rw [Store.Executions.run_collect hrecord, List.nil_append, List.length_nil, Int.natCast_zero, Int.sub_zero]
  rfl

end World.Archives

/-! ## What is saved -/

/-- Executions with one more, which takes the place of an earlier one of its id. -/
def Store.Executions.including (es : List Execution) (x : Execution) : List Execution :=
  x :: es.filter (·.id != x.id)

theorem Store.Executions.mem_including {es : List Execution} {x y : Execution} :
    y ∈ including es x ↔ y = x ∨ y ∈ es ∧ y.id ≠ x.id := by
  simp [including]

/-- Where there are no files, there is no execution. -/
theorem World.archives_nil {w : World} (h : w.storage.files = []) : w.Archives [] where
  once := by rw [h]; exact List.nodup_nil
  generated := fun _ hx => nomatch hx
  distinct := .nil
  recorded := fun _ hx => nomatch hx
  only := fun name hf => by
    have hkey := hf.present
    rw [h] at hkey
    cases hkey

namespace World.Archives

open Store.Executions (including mem_including)

variable {w w' : World} {es : List Execution} {x : Execution}

/-- What is written under its generated id is in store, and all that is under other ids is as before. -/
theorem wrote (h : w.Archives es) (hx : IsGenerated x.id)
    (hw : Wrote (Store.Executions.place x.id) x.toValue w w') : w'.Archives (including es x) where
  once := by
    rw [Storage.files_of_write hw.storage]
    exact Entries.nodup_keys_set h.once _ _
  generated := fun y hy => (mem_including.1 hy).elim (fun he => he ▸ hx) fun hy => h.generated y hy.1
  distinct := List.pairwise_cons.2
    ⟨fun y hy he => bne_iff_ne.1 (List.mem_filter.1 hy).2 he.symm, h.distinct.filter _⟩
  recorded := fun y hy => by
    rcases mem_including.1 hy with rfl | ⟨hy, hne⟩
    · exact recordIn_eq_some.2 ⟨_, hw.read_self, rfl, Execution.load_toValue _ y⟩
    · have hplace : (Store.Executions.place y.id).path ≠ (Store.Executions.place x.id).path :=
        (h.generated y hy).isSafeText.path_ne hx.isSafeText hne _ _
      rw [hw.recordIn_ne hplace, h.recorded y hy]
  only := fun name hf => by
    by_cases hname : name = x.id ++ ".json"
    · exact .inl ⟨x, mem_including.2 (.inl rfl), hname⟩
    · have hne : (Store.Executions.fileOf name).path ≠ (Store.Executions.place x.id).path := fun hp =>
        hname (Store.Executions.fileOf_path_inj (hp.trans (congrArg Location.path hx.place_eq)))
      rw [hw.recordIn_ne hne]
      refine (h.only name (hf.before hw hne)).imp_left fun ⟨y, hy, he⟩ => ⟨y, mem_including.2 (.inr ⟨hy, ?_⟩), he⟩
      exact fun hid => hname (hid ▸ he)

/-- A save under a generated id goes through. -/
theorem save (h : w.Archives es) (hs : w.Steady) (hx : IsGenerated x.id) :
    ∃ w', run (Store.Executions.save x) w = (.ok (), w') ∧ w'.Steady ∧ w'.Archives (including es x) := by
  have hp : Posted (Store.Executions.place x.id) x.toValue () True w (run (Store.Executions.save x) w) :=
    .entering .saveExecution fun u _ => .writeFile _ _ u
  rcases hr : run (Store.Executions.save x) w with ⟨result, w'⟩
  rw [hr] at hp
  cases hp with
  | done hw => exact ⟨w', rfl, hw.steady hs, h.wrote hx hw⟩
  | unheard hno _ => exact absurd trivial hno
  | lost hno _ => exact absurd ⟨hs, hx.fits⟩ hno

/-- By induction on the saves: of each id, the last that was saved is in store. -/
theorem saves (h : w.Archives es) (hs : w.Steady) {xs : List Execution} (hx : ∀ x ∈ xs, IsGenerated x.id) :
    ∃ w', run (xs.forM Store.Executions.save) w = (.ok (), w') ∧ w'.Steady ∧ w'.Archives (xs.foldl including es) := by
  induction xs generalizing w es with
  | nil => exact ⟨w, rfl, hs, h⟩
  | cons x xs ih =>
    rw [List.forall_mem_cons] at hx
    obtain ⟨u, hr, hu, ha⟩ := h.save hs hx.1
    obtain ⟨w', hrest, hw'⟩ := ih ha hu hx.2
    exact ⟨w', (run_bind_ok hr).trans hrest, hw'⟩

/-- An execution that starts is in store under the id that it is given. -/
theorem started (h : w.Archives es) (hy : 0 ≤ w.clock.year ∧ w.clock.year < 10000) (hn : w.issued + 1 < 2 ^ 32)
    {workflow : String} {data : Value} (hr : run (Journal.startExecution workflow data) w = (.ok x, w')) :
    w'.Archives (including es x) := by
  rcases Journal.startExecution_cases workflow data w with ⟨session, u, hdone, hw⟩ | ⟨-, fault, u, hfault, -⟩
  · obtain ⟨hx, rfl⟩ := Prod.mk.inj (hdone.symm.trans hr)
    obtain rfl := Except.ok.inj hx
    have hissued : World.Archives { w with issued := w.issued + 1 } es :=
      ⟨h.once, h.generated, h.distinct, h.recorded, h.only⟩
    exact hissued.wrote (isGenerated_nextExecution hy hn) hw
  · cases hfault.symm.trans hr

end World.Archives

/-! ## What is listed -/

/-- Whether an execution is of the workflow and of the status that are given. What is not given, or empty, lets all
pass. -/
def Execution.Asked (workflow status : Option String) (x : Execution) : Prop :=
  (∀ id ∈ workflow, id ≠ "" → x.workflowId = id) ∧ ∀ name ∈ status, name ≠ "" → x.status.name = name

instance (workflow status : Option String) : DecidablePred (Execution.Asked workflow status) :=
  fun _ => inferInstanceAs (Decidable (_ ∧ _))

theorem Store.Executions.matchesFilter_ofText? (workflow status : Option String) (x : Execution) :
    matchesFilter (Value.ofText? workflow) (Value.ofText? status) x = decide (x.Asked workflow status) := by
  have hone (given : Option String) (text : String) :
      (!(Value.ofText? given).truthy || (Value.ofText? given).same (.str text)) =
        decide (∀ s ∈ given, s ≠ "" → text = s) := by
    cases given with
    | none => simp [Value.ofText?]
    | some s => by_cases hs : s = "" <;> simp [Value.ofText?, Value.truthy, bne, hs, eq_comm, Bool.beq_eq_decide_eq]
  rw [matchesFilter, hone, hone, ← Bool.decide_and]
  rfl

/-- Executions in store under generated ids are listed from the last id to the first. Of those of the given workflow and
status, each once, the first so many are listed as the limit says, and none of these is passed over; but one is listed in
any case, if there is one, even where the limit is none. Nothing is changed by it. -/
theorem listed_newest_first {w : World} {es : List Execution} (hs : w.Steady) (h : w.Archives es)
    (workflow status : Option String) :
    ∃ asked : List Execution, asked.Perm (es.filter (·.Asked workflow status)) ∧
      asked.Pairwise (fun x y => y.id < x.id) ∧
      ∀ limit : Int, run (Store.Executions.list (Value.ofText? workflow) (Value.ofText? status) limit) w =
        (.ok (asked.take (max 1 limit).toNat), w) := by
  refine ⟨w.listed.filter (·.Asked workflow status), h.listed_perm.filter _, h.pairwise_listed.filter _, fun limit => ?_⟩
  rw [h.run_list hs, funext (Store.Executions.matchesFilter_ofText? workflow status)]

/-- Executions that are put in the order of their ids are in one order only. -/
theorem Execution.eq_of_descending {xs ys : List Execution} (hp : xs.Perm ys) (hx : xs.Pairwise fun x y => y.id < x.id)
    (hy : ys.Pairwise fun x y => y.id < x.id) : xs = ys :=
  hp.eq_of_pairwise (fun _ _ _ _ hab hba => absurd hab (String.lt_asymm hba)) hx hy

namespace Sample

/-- An execution of which little is known. -/
def kept (id workflowId : String) (status : RunStatus) : Execution where
  id := id
  workflowId := workflowId
  status := status
  triggerData := .null
  errorMessage := none
  durationMs := 0
  startedAt := ""
  historySession := none
  completedAt := none

def oldest : Execution := kept "exec_20241231_235959_ffffffff" "flow" .success

def middle (status : RunStatus) : Execution := kept "exec_20250101_090000_0000002a" "flow" status

def newest : Execution := kept "exec_20250102_080000_00000006" "flow" .failed

/-- An execution of another workflow. -/
def foreign : Execution := kept "exec_20250102_080000_00000007" "tide" .success

end Sample

/-- Four executions are saved, and one of them again when it has ended. Three are of one workflow, and two of these have
succeeded. -/
theorem listed_newest_first_sample :
    ∃ w, run ([Sample.middle .running, Sample.foreign, Sample.newest, Sample.oldest, Sample.middle .success].forM
        Store.Executions.save) (.initial {} "" none) = (.ok (), w) ∧
      w.Steady ∧ w.Archives [Sample.middle .success, Sample.oldest, Sample.newest, Sample.foreign] ∧
      run (Store.Executions.list (.str "flow") .null 2) w = (.ok [Sample.newest, Sample.middle .success], w) ∧
      run (Store.Executions.list (.str "flow") (.str "success") 5) w =
        (.ok [Sample.middle .success, Sample.oldest], w) := by
  have hg : ∀ x ∈ [Sample.middle .running, Sample.foreign, Sample.newest, Sample.oldest, Sample.middle .success],
      IsGenerated x.id := by decide
  obtain ⟨w, hr, hs, ha⟩ := (World.archives_nil (w := .initial {} "" none) rfl).saves (fun p hp => nomatch hp) hg
  -- the second save takes the place of the first one
  have ha : w.Archives [Sample.middle .success, Sample.oldest, Sample.newest, Sample.foreign] := ha
  refine ⟨w, hr, hs, ha, ?_, ?_⟩
  · obtain ⟨asked, hp, hd, hlist⟩ := listed_newest_first hs ha (some "flow") none
    have hp : asked.Perm ([Sample.middle .success, Sample.oldest] ++ [Sample.newest]) := hp
    have hall : asked = [Sample.newest, Sample.middle .success, Sample.oldest] :=
      Execution.eq_of_descending (hp.trans List.perm_append_comm) hd (by decide)
    rw [hall] at hlist
    exact hlist 2
  · obtain ⟨asked, hp, hd, hlist⟩ := listed_newest_first hs ha (some "flow") (some "success")
    have hall : asked = [Sample.middle .success, Sample.oldest] := Execution.eq_of_descending hp hd (by decide)
    rw [hall] at hlist
    exact hlist 5

/-- With one execution in store and a limit of none, one is listed. -/
theorem not_within_limit :
    ∃ w, run (Store.Executions.save (Sample.kept Sample.execution "flow" .success)) (.initial {} "" none) = (.ok (), w) ∧
      w.Archives [Sample.kept Sample.execution "flow" .success] ∧
      run (Store.Executions.list .null .null 0) w = (.ok [Sample.kept Sample.execution "flow" .success], w) := by
  obtain ⟨w, hr, hs, ha⟩ := (World.archives_nil (w := .initial {} "" none) rfl).save (fun p hp => nomatch hp)
    (x := Sample.kept Sample.execution "flow" .success) (by decide)
  refine ⟨w, hr, ha, ?_⟩
  have hlisted : w.listed = [Sample.kept Sample.execution "flow" .success] := List.perm_singleton.1 ha.listed_perm
  rw [ha.run_list hs, hlisted]
  rfl

end WorkGraph
