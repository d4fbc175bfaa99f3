import WorkGraph.Proofs.Abreast
import WorkGraph.Proofs.Ledger

/-!
# Two worlds that differ in one row

A click that led nowhere has left a row in a log, and from then on there is one row more in it than there would be else
(`Aside.among`). Two worlds that differ in nothing but this, and in what the operators were told, are twins (`Twin`).
Almost everything does the same in twins and leaves twins behind: what does not read the log, since only this file is odd
(`twin_bond`), and what rebuilds a context, since a row of this kind is passed over (`Aside.replay_among`). What adds or
closes a row of a node answers with rows that differ in their numbers (`Ticket`).
-/

namespace WorkGraph

open Engine

/-! ## One row more -/

/-- A row that stands one place further. -/
def NodeLog.next (log : NodeLog) : NodeLog :=
  { log with id := log.id + 1 }

/-- A row for a click that led nowhere, in the log of an execution, behind so many other rows. -/
structure Aside where
  execution : String
  count : Nat
  row : NodeLog
  behind : 0 < count
  routing : row.isRouting = true
  numbered : row.id = count + 1

namespace Aside

variable {n : Aside} {logs more : List NodeLog}

/-- The file in which the row is. -/
def place (n : Aside) : Location :=
  Store.NodeLogs.place n.execution

/-- The rows with the one row among them. -/
def among (n : Aside) (logs : List NodeLog) : List NodeLog :=
  logs.take n.count ++ n.row :: (logs.drop n.count).map NodeLog.next

theorem among_append (h : n.count ≤ logs.length) (more : List NodeLog) :
    n.among (logs ++ more) = n.among logs ++ more.map NodeLog.next := by
  simp [among, List.take_append_of_le_length h, List.drop_append_of_le_length h]

theorem length_among (h : n.count ≤ logs.length) : (n.among logs).length = logs.length + 1 := by
  simp [among]
  omega

theorem counted_among (hc : Counted logs) (h : n.count ≤ logs.length) : Counted (n.among logs) := by
  intro i hi
  have hlen : (logs.take n.count).length = n.count := List.length_take_of_le h
  have hlt : i < logs.length + 1 := length_among h ▸ hi
  simp only [among] at hi ⊢
  rcases Nat.lt_trichotomy i n.count with hbefore | rfl | hbehind
  · rw [List.getElem_append_left (by omega), List.getElem_take]
    exact hc i (by omega)
  · rw [List.getElem_append_right (by omega)]
    simp [hlen, n.numbered]
  · obtain ⟨j, rfl⟩ : ∃ j, i = n.count + 1 + j := ⟨i - n.count - 1, by omega⟩
    rw [List.getElem_append_right (by omega)]
    have hj : n.count + 1 + j - (logs.take n.count).length = j + 1 := by omega
    simp only [hj, List.getElem_cons_succ, List.getElem_map, List.getElem_drop, NodeLog.next]
    rw [hc (n.count + j) (by omega)]
    push_cast
    omega

/-- The one row is passed over, and a context does not go by the numbers of rows. -/
theorem replay_among (n : Aside) (triggerData : Value) (logs : List NodeLog) :
    Context.replay triggerData (n.among logs) = Context.replay triggerData logs := by
  have hnext (c : Context) (log : NodeLog) : c.replayLog log.next = c.replayLog log := rfl
  have hrow (c : Context) : c.replayLog n.row = .ok c := by rw [Context.replayLog, if_pos n.routing]
  have hrest (c : Context) (logs : List NodeLog) :
      (logs.map NodeLog.next).foldlM Context.replayLog c = logs.foldlM Context.replayLog c := by
    rw [List.foldlM_map]
    rfl
  unfold Context.replay among
  conv => rhs; rw [← List.take_append_drop n.count logs]
  rw [List.foldlM_append, List.foldlM_append]
  congr
  funext c
  rw [List.foldlM_cons, hrow]
  exact hrest c _

/-- What may be in the file, without the one row and with it. Once the file was written over there is no difference. -/
inductive Kept (n : Aside) : Option Document → Option Document → Prop
  | same (document : Option Document) : Kept n document document
  | among {document : Document} {logs : List NodeLog} : Counted logs → n.count ≤ logs.length →
      document.readOr (.list []) = .ok (.list (logs.map NodeLog.toValue)) →
      Kept n (some document) (some (.value (.list ((n.among logs).map NodeLog.toValue))))

/-- The storage without the one row and with it. -/
structure Beside (n : Aside) (s t : Storage) : Prop where
  root : t.root = s.root
  keys : t.files.keys = s.files.keys
  find?_ne : ∀ place : Location, place.path ≠ n.place.path → t.find? place = s.find? place
  log : n.Kept (s.find? n.place) (t.find? n.place)

namespace Beside

variable {s t : Storage} {place : Location} {v v' : Value}

theorem refl (n : Aside) (s : Storage) : n.Beside s s :=
  ⟨rfl, rfl, fun _ _ => rfl, .same _⟩

theorem iff_differ : n.Beside s t ↔ s.Differ
    (fun path d d' => (path ≠ n.place.path → d' = d) ∧ (path = n.place.path → n.Kept d d')) t where
  mp h := ⟨h.root, h.keys, fun path => ⟨fun hp => h.find?_ne ⟨path, "", true⟩ hp, fun hp => hp ▸ h.log⟩⟩
  mpr h := ⟨h.root, h.keys, fun place hp => (h.files place.path).1 hp, (h.files n.place.path).2 rfl⟩

/-- A file is written on both sides, with the same content unless it is the log. -/
theorem set (h : n.Beside s t) (hne : place.path ≠ n.place.path → v' = v)
    (hlog : place.path = n.place.path → n.Kept (some (.value v)) (some (.value v'))) :
    n.Beside { s with files := s.files.set place.path (.value v) } { t with files := t.files.set place.path (.value v') } :=
  iff_differ.2 ((iff_differ.1 h).set ⟨fun hp => by rw [hne hp], hlog⟩)

/-- A file is taken away on both sides. -/
theorem remove (h : n.Beside s t) (hp : place.path ≠ n.place.path) : n.Beside (s.remove place) (t.remove place) :=
  iff_differ.2 ((iff_differ.1 h).remove ⟨fun _ => rfl, fun he => absurd he hp⟩)

/-- The one row comes to the rows that were there. -/
theorem of_write {logs : List NodeLog} (hl : HasLogs s n.execution logs) (hc : Counted logs) (hle : n.count ≤ logs.length)
    (h : s.write n.place (.list ((n.among logs).map NodeLog.toValue)) = .ok t) : n.Beside s t := by
  rw [HasLogs, Storage.read, show Store.NodeLogs.place n.execution = n.place from rfl] at hl
  cases hd : s.find? n.place with
  | none =>
    -- without a file there are no rows
    rw [hd] at hl
    have hnil : logs = [] := by simpa using hl.symm
    have := n.behind
    rw [hnil, List.length_nil] at hle
    omega
  | some document =>
    rw [hd] at hl
    rw [Storage.write_of_fits (Storage.fits_of_write h)] at h
    obtain rfl := Except.ok.inj h
    refine ⟨rfl, ?_, fun place hp => Entries.get?_set_ne _ _ hp, ?_⟩
    · have hhas : s.files.has n.place.path = true := by
        rw [Entries.has, show s.files.get? n.place.path = some document from hd]
        rfl
      rw [Entries.keys_set, if_pos hhas]
    · rw [hd, Storage.find?, Entries.get?_set_self]
      exact .among hc hle hl

end Beside

end Aside

/-- Two worlds that differ in the one row, and in what the operators were told. -/
structure Twin (n : Aside) (w w' : World) : Prop where
  config : w'.config = w.config
  clock : w'.clock = w.clock
  issued : w'.issued = w.issued
  tools : w'.tools = w.tools
  agents : w'.agents = w.agents
  failpoints : w'.failpoints = w.failpoints
  auditor : w'.auditor = w.auditor
  sessions : w'.sessions = w.sessions
  calls : w'.calls = w.calls
  storage : n.Beside w.storage w'.storage

/-! ## What does the same in twins -/

namespace Twin

variable {n : Aside} {w w' : World}

theorem registry (h : Twin n w w') (role : Role) : w'.registry role = w.registry role := by
  cases role
  · exact h.tools
  · exact h.agents

theorem setRegistry (h : Twin n w w') (role : Role) (registry : Registry) :
    Twin n (w.setRegistry role registry) (w'.setRegistry role registry) := by
  cases role
  · exact { h with tools := rfl }
  · exact { h with agents := rfl }

/-- A file is written in both worlds, with the same content unless it is the log, or there is the same obstacle. -/
theorem writeFile (h : Twin n w w') (place : Location) (v v' : Value) (hne : place.path ≠ n.place.path → v' = v)
    (hlog : place.path = n.place.path → n.Kept (some (.value v)) (some (.value v'))) :
    ∃ result u u', run (Store.writeFile place v) w = (result, u) ∧ run (Store.writeFile place v') w' = (result, u') ∧
      Twin n u u' ∧ (result = .ok () →
        u.storage.find? place = some (.value v) ∧ u'.storage.find? place = some (.value v')) := by
  rw [Store.run_writeFile, Store.run_writeFile, Storage.write, Storage.write, (Aside.Beside.iff_differ.1 h.storage).obstacle?]
  cases w.storage.obstacle? place with
  | some fault => exact ⟨_, w, w', rfl, rfl, h, fun hr => by cases hr⟩
  | none =>
    exact ⟨_, _, _, rfl, rfl, { h with storage := h.storage.set hne hlog },
      fun _ => ⟨Entries.get?_set_self _ _ _, Entries.get?_set_self _ _ _⟩⟩

end Twin

/-- A text that is no blank is read, whatever is taken for a blank. -/
theorem Document.read_of_readOr {document : Document} {default v : Value} (h : document.readOr default = .ok v)
    (hne : v ≠ default) : document.read = .ok v := by
  cases document with
  | value u => exact h
  | text source =>
    rw [readOr] at h
    split at h
    · exact absurd (Except.ok.inj h).symm hne
    · exact h

/-- A log is no workflow, however long it is. -/
theorem Aside.Kept.decoded {n : Aside} {d d' : Option Document} (h : n.Kept d d') :
    d'.map Store.Workflows.decode = d.map Store.Workflows.decode := by
  cases h with
  | same => rfl
  | @among document logs hc hle hread =>
    have hne : Value.list (logs.map NodeLog.toValue) ≠ .list [] := by
      have := n.behind
      intro he
      have : logs = [] := by simpa using he
      rw [this, List.length_nil] at hle
      omega
    have hload (rows rows' : List Value) : Workflow.load (.list rows) = Workflow.load (.list rows') := rfl
    show some (Store.Workflows.decode _) = some (Store.Workflows.decode _)
    rw [Store.Workflows.decode, Store.Workflows.decode, Document.read_of_readOr hread hne]
    exact congrArg some (hload ((n.among logs).map NodeLog.toValue) (logs.map NodeLog.toValue))

/-- The directory of the workflows holds no logs. -/
theorem Store.Workflows.path_ne_log (n : Aside) (name : String) : Folder.workflows.name ++ "/" ++ name ≠ n.place.path := by
  intro h
  have hfirst := congrArg (fun path => path.toList.head?) h
  simp [Aside.place, NodeLogs.place, Location.ofRecord, Folder.name] at hfirst

namespace Twin

variable {n : Aside} {w w' : World}

/-- Whatever is said, to the audit service too. -/
theorem said (h : Twin n w w') (effect : Effect) :
    Twin n { w with trace := w.trace ++ [effect] } { w' with trace := w'.trace ++ [effect] } := by
  have hc : w'.trace.filterMap Effect.call? = w.trace.filterMap Effect.call? := h.calls
  exact { h with calls := by simp only [World.calls, List.filterMap_append, hc] }

theorem emit (effect : Effect) : Abreast (Twin n) (Engine.emit effect) :=
  abreast_modify fun _ _ h => h.said effect

theorem entering (operation : Operation) : Abreast (Twin n) (Engine.entering operation) := by
  intro w w' h
  refine ⟨_, _, { w' with failpoints := (trip operation w.failpoints).2 }, run_entering operation w, ?_,
    { h with failpoints := rfl }⟩
  rw [run_entering, h.failpoints]

end Twin

/-- Twins differ in the log of the one row only, which is no workflow, however long it is. -/
theorem twin_bond (n : Aside) : Bond (· = n.place.path) (Twin n) where
  config h := h.config
  clock h := h.clock
  registry h := h.registry
  root h := h.storage.root
  keys h := h.storage.keys
  find? h hp := h.storage.find?_ne _ hp
  decoded := fun {w w'} h id => by
    by_cases hp : (Store.Workflows.place id).path = n.place.path
    · have hlog := h.storage.log.decoded
      unfold Storage.find? at hlog ⊢
      rw [hp, hlog]
    · rw [h.storage.find?_ne _ hp]
  said _ h := h.said _
  ticked ticks h := { h with clock := by rw [h.clock] }
  registered role registry h := h.setRegistry role registry
  entering := Twin.entering
  written v _ h := { h with storage := h.storage.set (fun _ => rfl) fun _ => .same _ }
  removed hp h := { h with storage := h.storage.remove hp }
  mappings message := (nodeLogs_ne_mappings n.execution message).symm
  claims message := (claims_ne_nodeLogs message n.execution).symm
  workflows name := Store.Workflows.path_ne_log n name

namespace Twin

variable {n : Aside}

theorem freshExecutionId : Abreast (Twin n) Engine.freshExecutionId := by
  have hmodify : Abreast (Twin n) (modify fun w => { w with issued := w.issued + 1 }) := by
    refine abreast_modify fun w w' h => { h with issued := ?_ }
    rw [h.issued]
  exact abreast_bind hmodify fun _ => abreast_get (fun _ _ h => by rw [h.clock, h.issued]) fun _ => abreast_pure _

theorem overwrite (place : Location) (v : Value) : Abreast (Twin n) (Store.writeFile place v) := by
  intro w w' h
  obtain ⟨result, u, u', hr, hr', ht, -⟩ := h.writeFile place v v (fun _ => rfl) fun _ => .same _
  exact ⟨result, u, u', hr, hr', ht⟩

theorem saveExecution (x : Execution) : Abreast (Twin n) (Store.Executions.save x) :=
  abreast_bind (entering _) fun _ => overwrite _ _

theorem findExecution (id : String) : Abreast (Twin n) (Store.Executions.find? id) := by
  refine abreast_bind (entering _) fun _ =>
    abreast_bind ((twin_bond n).readFile (executions_ne_nodeLogs id n.execution) _) fun data =>
      abreast_ite ?_ (abreast_pure _)
  exact abreast_bind (twin_bond n).stamp fun _ => abreast_map _ (abreast_ofExcept _)

theorem updateExecution (id : String) (fields : Entries Value) : Abreast (Twin n) (Store.Executions.update id fields) := by
  refine abreast_bind (entering _) fun _ => abreast_bind (abreast_ofExcept _) fun _ =>
    abreast_bind ((twin_bond n).readFile (executions_ne_nodeLogs id n.execution) _) fun data =>
      abreast_ite (abreast_bind (abreast_throw _) fun _ => ?_) ?_
  all_goals
    split
    · exact abreast_bind (twin_bond n).stamp fun _ => abreast_bind (abreast_ofExcept _) fun _ =>
        abreast_bind (overwrite _ _) fun _ => abreast_pure _
    · exact abreast_throw _

/-- A workflow may be saved in the place of the log. -/
theorem saveWorkflow (W : Workflow) : Abreast (Twin n) (Store.Workflows.save W) :=
  abreast_bind (entering _) fun _ => abreast_bind (abreast_ofExcept _) fun _ =>
    abreast_bind (overwrite _ _) fun _ => abreast_pure _

end Twin

/-! ## Node logs -/

namespace NodeLog

/-- The number of a row, and its execution, are what they are given as; the rest does not depend on them. -/
theorem load_own (now execution : String) (id : Int) (fields : Entries Value) :
    load now (.map ([("id", .int id), ("execution_id", .str execution)] ++ fields)) =
      (load now (.map ([("id", .int 0), ("execution_id", .str "")] ++ fields))).map fun log =>
        { log with id, executionId := execution } := by
  have hmap {α β γ : Type} (f : β → γ) (g : Checked (α → β)) (a : Checked α) : f <$> (g <*> a) = (f ∘ ·) <$> g <*> a := by
    cases g <;> cases a <;> rfl
  have hfault (f : NodeLog → NodeLog) (c : Checked NodeLog) :
      (f <$> c).orFault "NodeLog" = (c.orFault "NodeLog").map f := by
    cases c <;> rfl
  rw [load, load, ← hfault]
  refine congrArg (Checked.orFault "NodeLog") ?_
  simp only [Checked.record, read, List.cons_append, List.nil_append, Checked.required_cons_self,
    Checked.required_cons_ne, Checked.optional_cons_ne, hmap, ne_eq, not_false_eq_true, String.reduceEq]
  rfl

theorem load_next (now execution : String) (id : Int) (fields : Entries Value) :
    load now (.map ([("id", .int (id + 1)), ("execution_id", .str execution)] ++ fields)) =
      (load now (.map ([("id", .int id), ("execution_id", .str execution)] ++ fields))).map next := by
  rw [load_own, load_own now execution id]
  cases load now (.map ([("id", .int 0), ("execution_id", .str "")] ++ fields)) <;> rfl

theorem own_of_load {now execution : String} {id : Int} {fields : Entries Value} {log : NodeLog}
    (h : load now (.map ([("id", .int id), ("execution_id", .str execution)] ++ fields)) = .ok log) :
    log.id = id ∧ log.executionId = execution := by
  rw [load_own] at h
  cases hl : load now (.map ([("id", .int 0), ("execution_id", .str "")] ++ fields)) with
  | error fault => rw [hl] at h; cases h
  | ok other =>
    rw [hl] at h
    obtain rfl := Except.ok.inj h
    exact ⟨rfl, rfl⟩

end NodeLog

/-- Two answers about a row of a log in twins: the same row, with the same content in the file, or a row behind the one
row, and in the other world one place further. It is the last row then. -/
inductive Ticket (n : Aside) (execution : String) (s t : Storage) : NodeLog → NodeLog → Prop
  | same {log : NodeLog} : t.find? (Store.NodeLogs.place execution) = s.find? (Store.NodeLogs.place execution) →
      Ticket n execution s t log log
  | next {log : NodeLog} {init : List NodeLog} : (Store.NodeLogs.place execution).path = n.place.path →
      Counted (init ++ [log]) → n.count ≤ init.length →
      HasLogs s execution (init ++ [log]) → HasLogs t execution (n.among (init ++ [log])) →
      Ticket n execution s t log log.next

/-- What a change of a log answers in twins. -/
inductive Tickets (n : Aside) (execution : String) (s t : Storage) : Except Fault NodeLog → Except Fault NodeLog → Prop
  | error (fault : Fault) : Tickets n execution s t (.error fault) (.error fault)
  | ok {log log' : NodeLog} : Ticket n execution s t log log' → Tickets n execution s t (.ok log) (.ok log')

/-- Two computations, each in one of two worlds, leave twins behind and answer with rows that differ in their numbers at
most. -/
def Matched (n : Aside) (execution : String) (w w' : World) (act act' : Engine NodeLog) : Prop :=
  ∃ result result' u u', run act w = (result, u) ∧ run act' w' = (result', u') ∧ Twin n u u' ∧
    Tickets n execution u.storage u'.storage result result'

theorem Ticket.of_find? {n : Aside} {execution : String} {s t s' t' : Storage} {log log' : NodeLog}
    (h : Ticket n execution s t log log')
    (hs : s'.find? (Store.NodeLogs.place execution) = s.find? (Store.NodeLogs.place execution))
    (ht : t'.find? (Store.NodeLogs.place execution) = t.find? (Store.NodeLogs.place execution)) :
    Ticket n execution s' t' log log' := by
  have hread {s s' : Storage} (h : s'.find? (Store.NodeLogs.place execution) = s.find? (Store.NodeLogs.place execution))
      {logs : List NodeLog} (hl : HasLogs s execution logs) : HasLogs s' execution logs := by
    rw [HasLogs, Storage.read, h]
    exact hl
  cases h with
  | same h => exact .same (by rw [hs, ht, h])
  | next hp hc hle h h' => exact .next hp hc hle (hread hs h) (hread ht h')

/-- What the one row is among is not the same with it. -/
theorem Aside.not_hasLogs_among {n : Aside} {s : Storage} {execution : String} {logs : List NodeLog}
    (hle : n.count ≤ logs.length) (h : HasLogs s execution logs) : ¬HasLogs s execution (n.among logs) := by
  intro h'
  have hlen := length_among hle
  rw [← h.unique h'] at hlen
  omega

/-- The log of an execution in twins: there is no difference, or the one row is in it. -/
theorem Twin.log_cases {n : Aside} {w w' : World} (h : Twin n w w') (execution : String) :
    w'.storage.find? (Store.NodeLogs.place execution) = w.storage.find? (Store.NodeLogs.place execution) ∨
    (Store.NodeLogs.place execution).path = n.place.path ∧ ∃ logs, Counted logs ∧ n.count ≤ logs.length ∧
      HasLogs w.storage execution logs ∧ HasLogs w'.storage execution (n.among logs) := by
  by_cases hp : (Store.NodeLogs.place execution).path = n.place.path
  · have hfind (s : Storage) : s.find? (Store.NodeLogs.place execution) = s.find? n.place := by
      rw [Storage.find?, hp, Storage.find?]
    have hkept := h.storage.log
    rw [← hfind, ← hfind] at hkept
    generalize hd : w.storage.find? (Store.NodeLogs.place execution) = d at hkept
    generalize hd' : w'.storage.find? (Store.NodeLogs.place execution) = d' at hkept
    cases hkept with
    | same => exact .inl rfl
    | among hc hle hread => exact .inr ⟨hp, _, hc, hle, by rw [HasLogs, Storage.read, hd]; exact hread,
        by rw [HasLogs, Storage.read, hd']; rfl⟩
  · exact .inl (h.storage.find?_ne _ hp)

namespace Store.NodeLogs

variable {n : Aside} {execution : String} {w w' : World}

/-- A log is read, and written with what comes of it. -/
def edit (execution : String) (change : String → Value → Except Fault (NodeLog × Value)) : Engine NodeLog := do
  let rows ← readFile (place execution) (.list [])
  let now ← Engine.stamp
  let (log, rows) ← Engine.ofExcept (change now rows)
  writeFile (place execution) rows
  return log

theorem ofExcept_bind {α β : Type} (result : Except Fault α) (next : α → Except Fault β) :
    Engine.ofExcept (result >>= next) = Engine.ofExcept result >>= fun a => Engine.ofExcept (next a) := by
  cases result <;> rfl

theorem ofExcept_pure {α : Type} (a : α) : Engine.ofExcept (pure a) = pure a := rfl

theorem eq_of_run {α : Type} {act other : Engine α} (h : ∀ w, run act w = run other w) : act = other :=
  funext h

/-- It does not matter when the time is looked up. -/
theorem stamp_ofExcept {α β : Type} (result : Except Fault α) (next : String → α → Engine β) :
    (Engine.stamp >>= fun now => Engine.ofExcept result >>= next now) =
      Engine.ofExcept result >>= fun a => Engine.stamp >>= fun now => next now a := by
  refine eq_of_run fun w => ?_
  rw [run_bind_ok (run_stamp w)]
  cases result with
  | ok a => rw [run_ofExcept_bind rfl, run_ofExcept_bind rfl, run_bind_ok (run_stamp w)]
  | error fault => rw [run_ofExcept_bind_error rfl, run_ofExcept_bind_error rfl]

/-- The row that is added to rows, and the rows with it. -/
def appended (execution : String) (fields : Entries Value) (now : String) (rows : Value) :
    Except Fault (NodeLog × Value) := do
  let count ← rowCount rows
  unnamed ["id"] fields
  let own : Entries Value := [("id", .int (count + 1)), ("execution_id", .str execution)]
  let log ← NodeLog.load now (.map (own ++ fields))
  return (log, ← appendRow rows log.toValue)

/-- The row that is changed among rows, and the rows with the change. -/
def updated (execution : String) (id : Value) (fields : Entries Value) (now : String) (rows : Value) :
    Except Fault (NodeLog × Value) := do
  match ← change now id fields (← rows.members) with
  | some (rows, log) => return (log, .list rows)
  | none => throw (.notFound "NodeLog" (execution ++ "#" ++ id.display))

theorem append_eq (execution : String) (fields : Entries Value) :
    append execution fields = (do
      Engine.entering .appendNodeLog
      Engine.ofExcept (unnamed ["self", "execution_id"] fields)
      edit execution (appended execution fields)) := by
  unfold append edit appended
  simp only [ofExcept_bind, ofExcept_pure, bind_assoc, pure_bind, stamp_ofExcept]

theorem update_eq (execution : String) (id : Value) (fields : Entries Value) :
    update execution id fields = (do
      Engine.entering .updateNodeLog
      Engine.ofExcept (unnamed ["self", "execution_id", "log_id"] fields)
      edit execution (updated execution id fields)) := by
  unfold update edit updated
  simp only [ofExcept_bind, bind_assoc, stamp_ofExcept]
  refine bind_congr fun _ => bind_congr fun _ => bind_congr fun _ => bind_congr fun _ => bind_congr fun _ =>
    bind_congr fun found => ?_
  cases found with
  | none => rfl
  | some found => simp only [ofExcept_pure, pure_bind]

/-- Where a log is the same in twins, a change does the same. -/
theorem edit_same (h : Twin n w w')
    (hd : w'.storage.find? (place execution) = w.storage.find? (place execution))
    (change : String → Value → Except Fault (NodeLog × Value)) :
    ∃ result u u', run (edit execution change) w = (result, u) ∧ run (edit execution change) w' = (result, u') ∧
      Twin n u u' ∧ (∀ log, result = .ok log →
        u'.storage.find? (place execution) = u.storage.find? (place execution)) := by
  have hreads : w'.storage.read (place execution) (.list []) = w.storage.read (place execution) (.list []) := by
    rw [Storage.read, Storage.read, hd]
  unfold edit
  cases hr : w.storage.read (place execution) (.list []) with
  | error fault =>
    have hread : run (readFile (place execution) (.list [])) w = (.error fault, w) := by rw [run_readFile, hr]
    have hread' : run (readFile (place execution) (.list [])) w' = (.error fault, w') := by rw [run_readFile, hreads, hr]
    rw [run_bind_error hread, run_bind_error hread']
    exact ⟨_, w, w', rfl, rfl, h, fun log he => by cases he⟩
  | ok v =>
    rw [run_readFile_bind hr, run_readFile_bind (hreads.trans hr), run_bind_ok (run_stamp w), run_bind_ok (run_stamp w'),
      h.clock]
    cases hc : change w.clock.stamp v with
    | error fault => exact ⟨_, w, w', rfl, rfl, h, fun log he => by cases he⟩
    | ok changed =>
      rw [run_ofExcept_bind rfl, run_ofExcept_bind rfl]
      obtain ⟨result, u, u', hw, hw', ht, hfound⟩ := h.writeFile (place execution) changed.2 changed.2
        (fun _ => rfl) fun _ => .same _
      cases result with
      | error fault => exact ⟨_, u, u', run_bind_error hw, run_bind_error hw', ht, fun log he => by cases he⟩
      | ok _ =>
        obtain ⟨hf, hf'⟩ := hfound rfl
        exact ⟨_, u, u', run_bind_ok hw, run_bind_ok hw', ht, fun _ _ => hf'.trans hf.symm⟩

/-- A log is changed in twins. Where the one row is in it, what comes of the longer log must be what comes of the other,
one place further. -/
theorem edit_twins {change change' : String → Value → Except Fault (NodeLog × Value)} (h : Twin n w w')
    (hsame : w'.storage.find? (place execution) = w.storage.find? (place execution) → change' = change)
    (hlog : ∀ now logs, Counted logs → n.count ≤ logs.length →
      HasLogs w.storage execution logs → HasLogs w'.storage execution (n.among logs) →
      (∃ fault, change now (.list (logs.map NodeLog.toValue)) = .error fault ∧
        change' now (.list ((n.among logs).map NodeLog.toValue)) = .error fault) ∨
      ∃ init log, n.count ≤ init.length ∧ Counted (init ++ [log]) ∧
        change now (.list (logs.map NodeLog.toValue)) = .ok (log, .list ((init ++ [log]).map NodeLog.toValue)) ∧
        change' now (.list ((n.among logs).map NodeLog.toValue)) =
          .ok (log.next, .list ((n.among (init ++ [log])).map NodeLog.toValue))) :
    Matched n execution w w' (edit execution change) (edit execution change') := by
  rcases h.log_cases execution with hd | ⟨hp, logs, hc, hle, hl, hl'⟩
  · obtain rfl := hsame hd
    obtain ⟨result, u, u', hr, hr', ht, hfind⟩ := edit_same h hd change'
    refine ⟨result, result, u, u', hr, hr', ht, ?_⟩
    cases result with
    | error fault => exact .error fault
    | ok log => exact .ok (.same (hfind log rfl))
  · unfold Matched edit
    rw [run_readFile_bind hl, run_readFile_bind hl', run_bind_ok (run_stamp w), run_bind_ok (run_stamp w'), h.clock]
    rcases hlog w.clock.stamp logs hc hle hl hl' with ⟨fault, he, he'⟩ | ⟨init, log, hinit, hcounted, hok, hok'⟩
    · rw [run_ofExcept_bind_error he, run_ofExcept_bind_error he']
      exact ⟨_, _, w, w', rfl, rfl, h, .error fault⟩
    · have hlen : n.count ≤ (init ++ [log]).length := by simp; omega
      rw [run_ofExcept_bind hok, run_ofExcept_bind hok']
      obtain ⟨result, u, u', hw, hw', ht, hfound⟩ := h.writeFile (place execution)
        (.list ((init ++ [log]).map NodeLog.toValue)) (.list ((n.among (init ++ [log])).map NodeLog.toValue))
        (fun hne => absurd hp hne) fun _ => .among hcounted hlen rfl
      cases result with
      | error fault => exact ⟨_, _, u, u', run_bind_error hw, run_bind_error hw', ht, .error fault⟩
      | ok _ =>
        obtain ⟨hf, hf'⟩ := hfound rfl
        exact ⟨_, _, u, u', run_bind_ok hw, run_bind_ok hw', ht, .ok (.next hp hcounted hinit
          (by rw [HasLogs, Storage.read, hf]; rfl) (by rw [HasLogs, Storage.read, hf']; rfl))⟩

/-- What is done first in twins, and leaves the storage as it is. -/
theorem after_abreast {α β : Type} {act : Engine α} (ha : Abreast (Twin n) act) (hs : Hushed act) (h : Twin n w w')
    (next next' : α → Engine β) :
    (∃ fault u u', run (act >>= next) w = (.error fault, u) ∧ run (act >>= next') w' = (.error fault, u') ∧ Twin n u u') ∨
    ∃ a u u', run (act >>= next) w = run (next a) u ∧ run (act >>= next') w' = run (next' a) u' ∧ Twin n u u' ∧
      u.storage = w.storage ∧ u'.storage = w'.storage := by
  obtain ⟨result, u, u', hr, hr', ht⟩ := ha w w' h
  have hq := hs w
  have hq' := hs w'
  rw [hr] at hq
  rw [hr'] at hq'
  cases result with
  | error fault => exact .inl ⟨fault, u, u', run_bind_error hr, run_bind_error hr', ht⟩
  | ok a => exact .inr ⟨a, u, u', run_bind_ok hr, run_bind_ok hr', ht, hq.storage, hq'.storage⟩

/-- Both logs get a row with the same fields, numbered by its place. -/
theorem appended_twins {logs : List NodeLog} (hc : Counted logs) (hle : n.count ≤ logs.length)
    (execution : String) (fields : Entries Value) (now : String) :
    (∃ fault, appended execution fields now (.list (logs.map NodeLog.toValue)) = .error fault ∧
      appended execution fields now (.list ((n.among logs).map NodeLog.toValue)) = .error fault) ∨
    ∃ init log, n.count ≤ init.length ∧ Counted (init ++ [log]) ∧
      appended execution fields now (.list (logs.map NodeLog.toValue)) =
        .ok (log, .list ((init ++ [log]).map NodeLog.toValue)) ∧
      appended execution fields now (.list ((n.among logs).map NodeLog.toValue)) =
        .ok (log.next, .list ((n.among (init ++ [log])).map NodeLog.toValue)) := by
  unfold appended
  rw [rowCount_list, rowCount_list, List.length_map, List.length_map, Aside.length_among hle]
  cases unnamed ["id"] fields with
  | error fault => exact .inl ⟨fault, rfl, rfl⟩
  | ok _ =>
    have hnext := NodeLog.load_next now execution ((logs.length : Int) + 1) fields
    cases hl : NodeLog.load now (.map ([("id", .int ((logs.length : Int) + 1)), ("execution_id", .str execution)] ++ fields)) with
    | error fault =>
      rw [hl] at hnext
      refine .inl ⟨fault, ?_, ?_⟩
      · show (NodeLog.load now _ >>= _ : Except Fault _) = _
        rw [hl]
        rfl
      · show (NodeLog.load now _ >>= _ : Except Fault _) = _
        push_cast
        rw [hnext]
        rfl
    | ok log =>
      rw [hl] at hnext
      refine .inr ⟨logs, log, hle, hc.append (NodeLog.own_of_load hl).1, ?_, ?_⟩
      · show (NodeLog.load now _ >>= _ : Except Fault _) = _
        rw [hl, List.map_append]
        rfl
      · show (NodeLog.load now _ >>= _ : Except Fault _) = _
        push_cast
        rw [hnext, Aside.among_append hle, List.map_append]
        rfl

/-- A row is appended in twins. -/
theorem append_twins (h : Twin n w w') (execution : String) (fields : Entries Value) :
    Matched n execution w w' (append execution fields) (append execution fields) := by
  unfold Matched
  rw [append_eq]
  rcases after_abreast (Twin.entering _) (hushed_entering _) h _ _ with
    ⟨fault, u, u', hr, hr', ht⟩ | ⟨_, u, u', hr, hr', ht, -, -⟩
  · exact ⟨_, _, u, u', hr, hr', ht, .error fault⟩
  · rw [hr, hr']
    cases unnamed ["self", "execution_id"] fields with
    | error fault => exact ⟨_, _, u, u', rfl, rfl, ht, .error fault⟩
    | ok _ => exact edit_twins ht (fun _ => rfl) fun now logs hc hle _ _ => appended_twins hc hle execution fields now

/-- An appended row names its execution. -/
theorem executionId_append {execution : String} {fields : Entries Value} {log : NodeLog} {u : World}
    (h : run (append execution fields) w = (.ok log, u)) : log.executionId = execution := by
  unfold append at h
  obtain ⟨_, _, -, h⟩ := eq_ok_of_bind h
  obtain ⟨_, _, -, h⟩ := eq_ok_of_bind h
  obtain ⟨_, _, -, h⟩ := eq_ok_of_bind h
  obtain ⟨count, _, -, h⟩ := eq_ok_of_bind h
  obtain ⟨_, _, -, h⟩ := eq_ok_of_bind h
  obtain ⟨now, _, -, h⟩ := eq_ok_of_bind h
  obtain ⟨row, _, hl, h⟩ := eq_ok_of_bind h
  obtain ⟨_, _, -, h⟩ := eq_ok_of_bind h
  obtain ⟨_, _, -, h⟩ := eq_ok_of_bind h
  obtain rfl := Except.ok.inj (congrArg Prod.fst h)
  exact (NodeLog.own_of_load (eq_ok_of_ofExcept hl).1).2

/-- The row of a ticket is changed in twins. What it becomes must not depend on its number. -/
theorem update_twins {log log' : NodeLog} (h : Twin n w w') (ht : Ticket n execution w.storage w'.storage log log')
    {fields : Entries Value} {close : NodeLog → NodeLog}
    (hclose : ∀ now log, NodeLog.load now (.map (Entries.merge log.entries fields)) = .ok (close log))
    (hid : ∀ log, (close log).id = log.id) (hnext : ∀ log, close log.next = (close log).next) :
    Matched n execution w w' (update execution (.int log.id) fields) (update execution (.int log'.id) fields) := by
  unfold Matched
  rw [update_eq, update_eq]
  rcases after_abreast (Twin.entering _) (hushed_entering _) h _ _ with
    ⟨fault, u, u', hr, hr', hu⟩ | ⟨_, u, u', hr, hr', hu, hs, hs'⟩
  · exact ⟨_, _, u, u', hr, hr', hu, .error fault⟩
  · rw [hr, hr']
    rw [← hs, ← hs'] at ht
    cases unnamed ["self", "execution_id", "log_id"] fields with
    | error fault => exact ⟨_, _, u, u', rfl, rfl, hu, .error fault⟩
    | ok _ =>
      refine edit_twins hu (fun hd => ?_) fun now logs hc hle hl hl' => ?_
      · cases ht with
        | same => rfl
        | next hp hc hle hl hl' =>
          exact absurd (show HasLogs u.storage execution _ by rw [HasLogs, Storage.read, ← hd]; exact hl')
            (Aside.not_hasLogs_among (by simp; omega) hl)
      · cases ht with
        | same hd =>
          exact absurd (show HasLogs u.storage execution _ by rw [HasLogs, Storage.read, ← hd]; exact hl')
            (Aside.not_hasLogs_among hle hl)
        | @next init hp hcounted hinit hinits hinits' =>
          obtain rfl := hl.unique hinits
          refine .inr ⟨init, close log, hinit, hcounted.replace (hid log), ?_, ?_⟩
          · unfold updated
            rw [Value.members_list]
            show (change now (.int log.id) fields _ >>= _ : Except Fault _) = _
            rw [change_last hcounted.last.2 (hclose now log)]
            rfl
          · have hamong := Aside.counted_among hcounted hle
            rw [Aside.among_append hinit] at hamong ⊢
            unfold updated
            rw [Value.members_list]
            show (change now (.int log.next.id) fields _ >>= _ : Except Fault _) = _
            rw [List.map_cons, List.map_nil] at hamong ⊢
            rw [change_last hamong.last.2 (hclose now log.next), hnext, Aside.among_append hinit]
            rfl

/-- The rows of an execution in twins: the same, or the one row is among them. -/
theorem all_twins (h : Twin n w w') (execution : String) :
    ∃ result result' u u', run (all execution) w = (result, u) ∧ run (all execution) w' = (result', u') ∧ Twin n u u' ∧
      (result' = result ∨ ∃ logs, result = .ok logs ∧ result' = .ok (n.among logs)) := by
  unfold all
  rcases after_abreast (Twin.entering _) (hushed_entering _) h _ _ with
    ⟨fault, u, u', hr, hr', ht⟩ | ⟨_, u, u', hr, hr', ht, -, -⟩
  · exact ⟨_, _, u, u', hr, hr', ht, .inl rfl⟩
  rw [hr, hr']
  rcases ht.log_cases execution with hd | ⟨-, logs, hc, hle, hl, hl'⟩
  · have hreads : u'.storage.read (place execution) (.list []) = u.storage.read (place execution) (.list []) := by
      rw [Storage.read, Storage.read, hd]
    cases hread : u.storage.read (place execution) (.list []) with
    | error fault =>
      have hr : run (readFile (place execution) (.list [])) u = (.error fault, u) := by rw [run_readFile, hread]
      have hr' : run (readFile (place execution) (.list [])) u' = (.error fault, u') := by
        rw [run_readFile, hreads, hread]
      rw [run_bind_error hr, run_bind_error hr']
      exact ⟨_, _, u, u', rfl, rfl, ht, .inl rfl⟩
    | ok v =>
      rw [run_readFile_bind hread, run_readFile_bind (hreads.trans hread), run_bind_ok (run_stamp u),
        run_bind_ok (run_stamp u'), ht.clock]
      cases v.members with
      | error fault => exact ⟨_, _, u, u', rfl, rfl, ht, .inl rfl⟩
      | ok rows =>
        rw [run_ofExcept_bind rfl, run_ofExcept_bind rfl, run_ofExcept, run_ofExcept]
        exact ⟨_, _, u, u', rfl, rfl, ht, .inl rfl⟩
  · rw [run_readFile_bind hl, run_readFile_bind hl', run_bind_ok (run_stamp u), run_bind_ok (run_stamp u'),
      run_ofExcept_bind (Value.members_list _), run_ofExcept_bind (Value.members_list _), run_ofExcept, run_ofExcept,
      load_map_toValue, load_map_toValue]
    exact ⟨_, _, u, u', rfl, rfl, ht, .inr ⟨logs, rfl, rfl⟩⟩

end Store.NodeLogs

end WorkGraph
