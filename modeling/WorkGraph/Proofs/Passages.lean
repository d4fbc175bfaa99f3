import WorkGraph.Proofs.Telling

/-!
# Passages

What an audit service is told of one invocation is a `Passage`: that the execution starts, if it does, the rows of its nodes,
and what it has come to. The passages of an execution tell of it as it is on record (`Followed`), and so it stays whatever is
done in a session: an invocation adds a passage (`Followed.extend`), and what is done for no execution adds none
(`Followed.untouched`).
-/

namespace WorkGraph

open Engine

/-! ## Passages -/

/-- What an invocation has come to, and when. -/
structure Ending where
  status : RunStatus
  error : Option String
  time : String

/-- What there is to tell of one invocation. -/
structure Passage where
  execution : String
  workflow : String
  /-- Whether the execution starts with it. -/
  opens : Bool
  /-- The rows of the nodes that have run, in their order. -/
  rows : List NodeLog
  /-- There is none if the execution could not be put on record. -/
  ending : Option Ending

namespace Passage

def notices (p : Passage) : List Notice :=
  (if p.opens then [.opened p.workflow p.execution] else []) ++ p.rows.flatMap NodeLog.notices ++
    p.ending.toList.map fun e => .concluded p.execution p.workflow e.status e.error e.time

/-- The passages of an execution. -/
def of (execution : String) (passages : List Passage) : List Passage :=
  passages.filter (·.execution == execution)

variable {execution : String} {passages more : List Passage} {p : Passage}

theorem of_append : of execution (passages ++ more) = of execution passages ++ of execution more :=
  List.filter_append _ _

theorem of_append_self (h : p.execution = execution) : of execution (passages ++ [p]) = of execution passages ++ [p] := by
  simp [of, h]

theorem of_append_ne (h : p.execution ≠ execution) : of execution (passages ++ [p]) = of execution passages := by
  simp [of, h]

/-- What is told besides that the execution starts. -/
def messages (p : Passage) : List Notice :=
  p.rows.flatMap NodeLog.notices ++ p.ending.toList.map fun e => .concluded p.execution p.workflow e.status e.error e.time

theorem notices_eq (p : Passage) :
    p.notices = (if p.opens then [.opened p.workflow p.execution] else []) ++ p.messages :=
  List.append_assoc _ _ _

/-- All of it is about the execution. -/
theorem message_of_mem {n : Notice} (hc : ∀ row ∈ p.rows, row.Closed p.execution) (hn : n ∈ p.messages) :
    ∃ content metadata, n = .message p.execution content metadata := by
  rcases List.mem_append.1 hn with hn | hn
  · obtain ⟨row, hrow, hn⟩ := List.mem_flatMap.1 hn
    rw [← (hc row hrow).executionId]
    rcases List.mem_cons.1 hn with rfl | hn
    · exact ⟨_, _, rfl⟩
    · unfold NodeLog.ended at hn
      cases hs : row.status <;> simp only [hs, List.mem_singleton, List.not_mem_nil] at hn
      all_goals exact ⟨_, _, hn⟩
  · obtain ⟨e, -, rfl⟩ := List.mem_map.1 hn
    exact ⟨_, _, rfl⟩

theorem execution_of_mem {n : Notice} (hc : ∀ row ∈ p.rows, row.Closed p.execution) (hn : n ∈ p.notices) :
    n.execution = p.execution := by
  rw [notices_eq, List.mem_append] at hn
  rcases hn with hn | hn
  · split at hn
    · rw [List.mem_singleton.1 hn]
      rfl
    · cases hn
  · obtain ⟨content, metadata, rfl⟩ := message_of_mem hc hn
    rfl

/-- What is told of an execution is what its passages tell. -/
theorem filter_notices (hc : ∀ p ∈ passages, ∀ row ∈ p.rows, row.Closed p.execution) (execution : String) :
    (passages.flatMap notices).filter (·.execution == execution) = (of execution passages).flatMap notices := by
  induction passages with
  | nil => rfl
  | cons p rest ih =>
    have hp := fun n => execution_of_mem (n := n) (hc p List.mem_cons_self)
    rw [List.flatMap_cons, List.filter_append, ih fun q hq => hc q (List.mem_cons_of_mem _ hq), of, of, List.filter_cons]
    by_cases he : p.execution = execution
    · rw [if_pos (beq_iff_eq.2 he), List.flatMap_cons,
        List.filter_eq_self.2 fun n hn => beq_iff_eq.2 ((hp n hn).trans he)]
    · rw [if_neg (by simpa using he), List.filter_eq_nil_iff.2 fun n hn hb => he ((hp n hn).symm.trans (beq_iff_eq.1 hb))]
      rfl

/-- Whether executions start with the first of their passages, and with no other. -/
def Coherent (passages : List Passage) : Prop :=
  ∀ front p back, passages = front ++ p :: back → (p.opens = true ↔ of p.execution front = [])

theorem Coherent.append (h : Coherent passages) (hp : p.opens = true ↔ of p.execution passages = []) :
    Coherent (passages ++ [p]) := by
  intro front q back hsplit
  rcases List.eq_nil_or_concat back with rfl | ⟨back, last, rfl⟩
  · obtain ⟨rfl, hq⟩ := List.append_inj' hsplit rfl
    obtain rfl := (List.cons.inj hq).1
    exact hp
  · have hsplit : passages ++ [p] = (front ++ q :: back) ++ [last] := by
      rw [hsplit]
      simp
    exact h front q back (List.append_inj' hsplit rfl).1

end Passage

/-- Whether passages tell of an execution as it is on record: it has some, of its workflow, each of which came to something,
the last of them to what is on record. -/
structure Overheard (passages : List Passage) (x : Execution) : Prop where
  workflow : ∀ p ∈ Passage.of x.id passages, p.workflow = x.workflowId
  ended : ∀ p ∈ Passage.of x.id passages, p.ending.isSome = true
  outcome : ∃ p time, (Passage.of x.id passages).getLast? = some p ∧ p.ending = some ⟨x.status, x.errorMessage, time⟩

/-- Whether passages tell of all executions as they are on record. What an execution needs to go on is there besides. -/
structure Followed (passages : List Passage) (w : World) : Prop where
  logged : ∀ id, ∃ logs, HasLogs w.storage id logs
  issued : ∀ p ∈ passages, Issued w.issued p.execution
  closed : ∀ p ∈ passages, ∀ row ∈ p.rows, row.Closed p.execution
  coherent : Passage.Coherent passages
  rows : ∀ n id, Issued n id → w.storage.nodeRows id = (Passage.of id passages).flatMap Passage.rows
  recorded : ∀ x, HasRecord w.storage x.id x → (Store.Executions.place x.id).Fits ∧ Number.inRange x.durationMs = true ∧
    (x.status = .running → x.errorMessage ≠ some "") ∧ Overheard passages x

namespace Overheard

variable {passages : List Passage} {x : Execution} {p : Passage}

/-- A passage of another execution tells nothing of this one. -/
theorem append (h : Overheard passages x) (hp : p.execution ≠ x.id) : Overheard (passages ++ [p]) x := by
  have hsame : Passage.of x.id (passages ++ [p]) = Passage.of x.id passages := Passage.of_append_ne hp
  exact ⟨hsame ▸ h.workflow, hsame ▸ h.ended, hsame ▸ h.outcome⟩

theorem ne_nil (h : Overheard passages x) : Passage.of x.id passages ≠ [] := by
  obtain ⟨p, -, hp, -⟩ := h.outcome
  intro hnil
  rw [hnil] at hp
  cases hp

end Overheard

namespace Followed

variable {passages : List Passage} {w w' : World}

theorem untouched (h : Followed passages w) (ht : Touches none w w') : Followed passages w' where
  logged id := by
    obtain ⟨logs, hl⟩ := h.logged id
    exact ht.logged id logs (by simp) hl
  issued p hp := (h.issued p hp).mono ht.issued
  closed := h.closed
  coherent := h.coherent
  rows n id hi := (ht.nodeRows id (by simp)).trans (h.rows n id hi)
  recorded x hx := h.recorded x (ht.kept x hx (by simp))

/-- Nothing was told of an execution that starts. -/
theorem of_nextExecution (h : Followed passages w) : Passage.of w.nextExecution passages = [] := by
  refine List.filter_eq_nil_iff.2 fun p hp he => not_issued_nextExecution w ?_
  rw [← beq_iff_eq.1 he]
  exact h.issued p hp

/-- An execution was to start that could not be put on record. -/
theorem refused (h : Followed passages w) (ht : Touches none w w') (hi : Issued w'.issued w.nextExecution) (workflow : String) :
    Followed (passages ++ [⟨w.nextExecution, workflow, true, [], none⟩]) w' := by
  have hsame := h.untouched ht
  refine ⟨hsame.logged, fun q hq => ?_, fun q hq row hrow => ?_,
    hsame.coherent.append ⟨fun _ => h.of_nextExecution, fun _ => rfl⟩,
    fun n id hid => ?_, fun x hx => ?_⟩
  · rcases List.mem_append.1 hq with hq | hq
    · exact hsame.issued q hq
    · rw [List.mem_singleton.1 hq]
      exact hi
  · rcases List.mem_append.1 hq with hq | hq
    · exact hsame.closed q hq row hrow
    · rw [List.mem_singleton.1 hq] at hrow
      cases hrow
  · rw [hsame.rows n id hid, Passage.of_append, List.flatMap_append, Passage.of]
    by_cases he : w.nextExecution = id <;> simp [Passage.of, he]
  · obtain ⟨hf, hb, he, hoverheard⟩ := hsame.recorded x hx
    refine ⟨hf, hb, he, hoverheard.append fun hid => hoverheard.ne_nil ?_⟩
    rw [← hid]
    exact h.of_nextExecution

/-- One invocation more: nothing was done for other executions, and its passage tells of its own. -/
theorem extend {logs more : List NodeLog} {p : Passage} {y : Execution} {time : String} (h : Followed passages w)
    (ho : Orderly w') (ht : Touches (some y.id) w w') (hp : p.execution = y.id) (hworkflow : p.workflow = y.workflowId)
    (hopens : p.opens = true ↔ Passage.of y.id passages = [])
    (hbefore : ∀ q ∈ Passage.of y.id passages, q.workflow = y.workflowId ∧ q.ending.isSome = true)
    (hclosed : ∀ row ∈ p.rows, row.Closed y.id) (hending : p.ending = some ⟨y.status, y.errorMessage, time⟩)
    (hf : (Store.Executions.place y.id).Fits) (hy : HasRecord w'.storage y.id y) (hb : Number.inRange y.durationMs = true)
    (he : y.status = .running → y.errorMessage ≠ some "") (hl : HasLogs w.storage y.id logs)
    (hl' : HasLogs w'.storage y.id (logs ++ more)) (hrows : more.filter NodeLog.isOfNode = p.rows) :
    Followed (passages ++ [p]) w' where
  logged id := by
    by_cases hpath : (Store.NodeLogs.place id).path = (Store.NodeLogs.place y.id).path
    · exact ⟨_, (Storage.read_congr hpath _).trans hl'⟩
    · obtain ⟨others, ho⟩ := h.logged id
      exact ht.logged id others (fun e he => Option.some.inj he ▸ hpath) ho
  issued q hq := by
    rcases List.mem_append.1 hq with hq | hq
    · exact (h.issued q hq).mono ht.issued
    · rw [List.mem_singleton.1 hq, hp]
      exact ho.issued_of_hasRecord hy
  closed q hq := by
    rcases List.mem_append.1 hq with hq | hq
    · exact h.closed q hq
    · rw [List.mem_singleton.1 hq, hp]
      exact hclosed
  coherent := h.coherent.append (hp ▸ hopens)
  rows n id hi := by
    have hissued := ho.issued_of_hasRecord hy
    by_cases hid : id = y.id
    · rw [hid, Passage.of_append_self hp, List.flatMap_append, ← h.rows _ _ hissued, Storage.nodeRows, hl'.nodeLogs,
        Storage.nodeRows, hl.nodeLogs, List.filter_append, hrows]
      simp
    · rw [Passage.of_append_ne fun he => hid (he.symm.trans hp), ← h.rows n id hi]
      exact ht.nodeRows id fun e he => Option.some.inj he ▸ hi.path_ne hissued hid _ _
  recorded x hx := by
    by_cases hid : x.id = y.id
    · obtain rfl : x = y := Execution.hasRecord_unique (hid ▸ hx) hy
      have hmine : Passage.of x.id (passages ++ [p]) = Passage.of x.id passages ++ [p] := Passage.of_append_self hp
      refine ⟨hf, hb, he, fun q hq => ?_, fun q hq => ?_, p, time, ?_, hending⟩
      · rw [hmine, List.mem_append] at hq
        rcases hq with hq | hq
        · exact (hbefore q hq).1
        · exact List.mem_singleton.1 hq ▸ hworkflow
      · rw [hmine, List.mem_append] at hq
        rcases hq with hq | hq
        · exact (hbefore q hq).2
        · rw [List.mem_singleton.1 hq, hending]
          rfl
      · rw [hmine, List.getLast?_append]
        rfl
    · have hx' := ht.kept x hx fun he => hid (Option.some.inj he).symm
      obtain ⟨hf, hb, he, hoverheard⟩ := h.recorded x hx'
      exact ⟨hf, hb, he, hoverheard.append fun he => hid (he.symm.trans hp)⟩

end Followed

end WorkGraph
