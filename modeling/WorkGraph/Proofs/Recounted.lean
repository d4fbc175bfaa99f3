import WorkGraph.Proofs.Attended

/-!
# What an audit service is told of a session

If an audit service answers well (`Auditor.Obliges`), it is told of all passages of a session, in their order, each notice
in the session of its execution (`Recounted`), and the passages tell of all executions as they are on record, after every
step (`Mirrored`, `audit_mirrors`). Up to a request that gets no proper answer, it is told the same. Rows that a node of the
type of clicks has left are told as well, and so is what comes of an execution that a click interrupts
(`not_only_other_rows`, `not_only_finalized`).
-/

namespace WorkGraph

open Engine

/-! ## Services that answer well -/

/-- Whether an answer is a well-formed one to a request: it can be taken apart, and names a session where one is asked for. -/
def AuditAnswer.Obliges (answer : AuditAnswer) (r : Request) : Prop :=
  ∃ body data, Audit.proper? answer = some body ∧ Audit.answerData body = .ok data ∧
    ∀ arguments, r.body = .map [("tool", .str "create_session"), ("arguments", arguments)] →
      ∃ session, Audit.sessionOf data = .ok (.str session) ∧ session ≠ ""

/-- Whether a service answers these requests well. -/
def Auditor.Obliges (a : Auditor) (requests : List Request) : Prop :=
  ∀ k r, requests[k]? = some r → (a.answers (a.asked + k)).Obliges r

theorem Auditor.Obliges.of_append {a : Auditor} {requests more : List Request} (h : a.Obliges (requests ++ more)) :
    a.Obliges requests := fun k r hr =>
  h k r (by rw [List.getElem?_append_left (List.getElem?_eq_some_iff.1 hr).1, hr])

namespace Line

variable {a : Auditor} {l : Line} {n : Notice}

/-- Whether a line is open, and has come as far as its requests. -/
structure Open (a : Auditor) (l : Line) : Prop where
  enabled : l.enabled = true
  asked : l.asked = a.asked + l.requests.length

theorem requests_foldl (l : Line) (trail : List Notice) : ∃ more, (trail.foldl (post a) l).requests = l.requests ++ more := by
  induction trail generalizing l with
  | nil => exact ⟨[], (List.append_nil _).symm⟩
  | cons n rest ih =>
    obtain ⟨more, hmore⟩ := requests_post (a := a) l n
    obtain ⟨others, hothers⟩ := ih (l.post a n)
    exact ⟨more ++ others, by rw [List.foldl_cons, hothers, hmore, List.append_assoc]⟩

/-- What is sent is the next request, and it is answered well. -/
theorem Open.post (h : l.Open a) (hs : l.speaks n = true) (ho : a.Obliges (l.post a n).requests) :
    (l.post a n).Open a ∧ (l.post a n).requests = l.requests ++ [n.request a.url (l.sessions n.execution)] ∧
      (a.answers l.asked).Obliges (n.request a.url (l.sessions n.execution)) := by
  obtain ⟨hr, ha, he⟩ := post_sent (a := a) hs h.enabled
  have hanswer : (a.answers l.asked).Obliges (n.request a.url (l.sessions n.execution)) := by
    rw [h.asked]
    exact ho l.requests.length _ (by rw [hr]; simp)
  obtain ⟨body, -, hp, -⟩ := id hanswer
  refine ⟨⟨by rw [he, hp]; rfl, ?_⟩, hr, hanswer⟩
  rw [ha, hr, h.asked, List.length_append, List.length_singleton, Nat.add_assoc]

/-- A session is opened. -/
theorem Open.opened (h : l.Open a) {workflow execution : String}
    (ho : a.Obliges (l.post a (.opened workflow execution)).requests) :
    ∃ session, (l.post a (.opened workflow execution)).sessions execution = .str session ∧ session ≠ "" := by
  obtain ⟨-, -, body, data, hp, hd, hnamed⟩ := h.post rfl ho
  obtain ⟨session, hsession, hne⟩ := hnamed _ rfl
  refine ⟨session, ?_, hne⟩
  unfold Line.post ask
  simp [opening, h.enabled, hp, hd, hsession, Except.toOption]

/-- Messages are sent in the session of their execution. -/
theorem Open.messages (h : l.Open a) {execution : String} {trail : List Notice}
    (hm : ∀ n ∈ trail, ∃ content metadata, n = .message execution content metadata)
    (hs : (l.sessions execution).truthy = true) (ho : a.Obliges (trail.foldl (Line.post a) l).requests) :
    (trail.foldl (Line.post a) l).Open a ∧ (trail.foldl (Line.post a) l).sessions = l.sessions ∧
      (trail.foldl (Line.post a) l).requests = l.requests ++ trail.map fun n => n.request a.url (l.sessions n.execution) := by
  induction trail generalizing l with
  | nil => exact ⟨h, rfl, (List.append_nil _).symm⟩
  | cons n rest ih =>
    obtain ⟨content, metadata, rfl⟩ := hm n List.mem_cons_self
    have hsessions : (l.post a (.message execution content metadata)).sessions = l.sessions := sessions_message _ _ _
    obtain ⟨more, hmore⟩ := requests_foldl (a := a) (l.post a (.message execution content metadata)) rest
    rw [List.foldl_cons] at ho ⊢
    obtain ⟨hopen, hr, -⟩ := h.post (n := .message execution content metadata) hs (hmore ▸ ho).of_append
    obtain ⟨hopen', hsessions', hr'⟩ := ih hopen (fun n hn => hm n (List.mem_cons_of_mem _ hn)) (hsessions ▸ hs) ho
    refine ⟨hopen', hsessions'.trans hsessions, ?_⟩
    rw [hr', hr, hsessions, List.append_assoc]
    rfl

end Line

/-! ## Passages that are told -/

/-- Whether a line has told of passages, each notice in the session of its execution. -/
structure Recounted (a : Auditor) (passages : List Passage) (l : Line) : Prop extends l.Open a where
  requests : l.requests = (passages.flatMap Passage.notices).map fun n => n.request a.url (l.sessions n.execution)
  named : ∀ p ∈ passages, ∃ session, l.sessions p.execution = .str session ∧ session ≠ ""

namespace Recounted

variable {a : Auditor} {passages : List Passage} {p : Passage} {l : Line}

/-- An execution starts, of which nothing was told. -/
theorem opened (h : Recounted a passages l) (hc : ∀ p ∈ passages, ∀ row ∈ p.rows, row.Closed p.execution)
    {workflow execution : String} (hnew : Passage.of execution passages = [])
    (ho : a.Obliges (l.post a (.opened workflow execution)).requests) :
    let l' := l.post a (.opened workflow execution)
    l'.Open a ∧ l'.requests = (passages.flatMap Passage.notices ++ [Notice.opened workflow execution]).map (fun n =>
        n.request a.url (l'.sessions n.execution)) ∧
      (∃ session, l'.sessions execution = .str session ∧ session ≠ "") ∧
      ∀ p ∈ passages, l'.sessions p.execution = l.sessions p.execution := by
  intro l'
  have hothers (p : Passage) (hp : p ∈ passages) : p.execution ≠ execution := fun he =>
    List.not_mem_nil (hnew ▸ List.mem_filter.2 ⟨hp, beq_iff_eq.2 he⟩ : p ∈ [])
  have hsame (p : Passage) (hp : p ∈ passages) : l'.sessions p.execution = l.sessions p.execution :=
    Line.sessions_opened_ne (hothers p hp)
  obtain ⟨hopen, hr, -⟩ := h.toOpen.post (n := .opened workflow execution) rfl ho
  refine ⟨hopen, ?_, h.toOpen.opened ho, hsame⟩
  rw [List.map_append, hr, h.requests]
  refine congrArg (· ++ _) (List.map_congr_left fun n hn => ?_)
  obtain ⟨q, hq, hn⟩ := List.mem_flatMap.1 hn
  rw [Passage.execution_of_mem (hc q hq) hn, hsame q hq]

/-- One passage more. -/
theorem append (h : Recounted a passages l) (hc : ∀ q ∈ passages ++ [p], ∀ row ∈ q.rows, row.Closed q.execution)
    (hopens : p.opens = true ↔ Passage.of p.execution passages = [])
    (ho : a.Obliges (p.notices.foldl (Line.post a) l).requests) :
    Recounted a (passages ++ [p]) (p.notices.foldl (Line.post a) l) := by
  have hcp := hc p (by simp)
  have hmessages := fun n => Passage.message_of_mem (n := n) hcp
  -- the execution has a session before its messages are sent
  suffices hstarted : ∃ front l₀, p.notices.foldl (Line.post a) l = p.messages.foldl (Line.post a) l₀ ∧
      p.notices = front ++ p.messages ∧
      l₀.Open a ∧ l₀.requests = (passages.flatMap Passage.notices ++ front).map (fun n =>
        n.request a.url (l₀.sessions n.execution)) ∧
      ∀ q ∈ passages ++ [p], ∃ session, l₀.sessions q.execution = .str session ∧ session ≠ "" by
    obtain ⟨front, l₀, hl, hfront, hopen, hr, hnamed⟩ := hstarted
    rw [hl] at ho ⊢
    obtain ⟨session, hsession, hne⟩ := hnamed p (by simp)
    have htruthy : (l₀.sessions p.execution).truthy = true := by
      rw [hsession]
      simpa [Value.truthy] using hne
    obtain ⟨hopen', hsessions, hr'⟩ := hopen.messages hmessages htruthy ho
    refine ⟨hopen', ?_, hsessions ▸ hnamed⟩
    rw [hr', hr, hsessions, ← List.map_append, List.flatMap_append, List.flatMap_singleton, hfront, List.append_assoc]
  rw [Passage.notices_eq] at ho ⊢
  by_cases hp : p.opens = true
  · rw [if_pos hp] at ho ⊢
    obtain ⟨more, hmore⟩ := Line.requests_foldl (a := a) (l.post a (.opened p.workflow p.execution)) p.messages
    obtain ⟨hopen, hr, hsession, hsame⟩ := h.opened (fun q hq => hc q (List.mem_append_left _ hq)) (hopens.1 hp)
      (hmore ▸ ho : a.Obliges (_ ++ more)).of_append
    refine ⟨_, _, rfl, rfl, hopen, hr, fun q hq => ?_⟩
    rcases List.mem_append.1 hq with hq | hq
    · rw [hsame q hq]
      exact h.named q hq
    · rw [List.mem_singleton.1 hq]
      exact hsession
  · rw [if_neg hp] at ho ⊢
    obtain ⟨q, hq⟩ := List.exists_mem_of_ne_nil _ (mt hopens.2 hp)
    obtain ⟨hq, he⟩ := List.mem_filter.1 hq
    refine ⟨[], l, rfl, rfl, h.toOpen, by rw [List.append_nil, h.requests], fun r hr => ?_⟩
    rcases List.mem_append.1 hr with hr | hr
    · exact h.named r hr
    · rw [List.mem_singleton.1 hr, ← beq_iff_eq.1 he]
      exact h.named q hq

/-- By induction on the passages. -/
theorem extend (h : Recounted a passages l) {more : List Passage}
    (hc : ∀ q ∈ passages ++ more, ∀ row ∈ q.rows, row.Closed q.execution) (hcoherent : Passage.Coherent (passages ++ more))
    (ho : a.Obliges ((more.flatMap Passage.notices).foldl (Line.post a) l).requests) :
    Recounted a (passages ++ more) ((more.flatMap Passage.notices).foldl (Line.post a) l) := by
  induction more generalizing passages l with
  | nil => rwa [List.append_nil]
  | cons p rest ih =>
    rw [List.flatMap_cons, List.foldl_append] at ho ⊢
    have hsplit : passages ++ p :: rest = passages ++ [p] ++ rest := by simp
    obtain ⟨more, hmore⟩ := Line.requests_foldl (a := a) (p.notices.foldl (Line.post a) l) (rest.flatMap Passage.notices)
    have hp := h.append (p := p) (fun q hq => hc q (by rw [hsplit]; exact List.mem_append_left _ hq))
      (hcoherent passages p rest rfl) (hmore ▸ ho : a.Obliges (_ ++ more)).of_append
    rw [hsplit] at hc hcoherent ⊢
    exact ih hp hc hcoherent ho

/-- The sessions are texts. -/
theorem exists_session (h : Recounted a passages l) : ∃ session : String → String, ∀ p ∈ passages,
    l.sessions p.execution = .str (session p.execution) ∧ session p.execution ≠ "" := by
  refine ⟨fun execution => (l.sessions execution).display, fun p hp => ?_⟩
  obtain ⟨name, hname, hne⟩ := h.named p hp
  dsimp only
  rw [hname]
  exact ⟨rfl, hne⟩

end Recounted

/-- A service that answers well is told of all passages. -/
theorem Line.recounted_after {a : Auditor} {passages : List Passage} (he : a.enabled = true)
    (hc : ∀ q ∈ passages, ∀ row ∈ q.rows, row.Closed q.execution) (hcoherent : Passage.Coherent passages)
    (ho : a.Obliges (after a (passages.flatMap Passage.notices)).requests) :
    Recounted a passages (after a (passages.flatMap Passage.notices)) :=
  (⟨⟨he, rfl⟩, rfl, nofun⟩ : Recounted a [] (start a)).extend hc hcoherent ho

/-! ## Sessions that are told -/

/-- Whether what an audit service was told mirrors what is on record: it was told of passages, so many with each step, that
tell of all executions as they are on record after every step. -/
structure Mirrored (a : Auditor) (session : String → String) (stages : List (List Passage)) (after : Nat → World) : Prop where
  requests : (after stages.length).requests =
    (stages.flatten.flatMap Passage.notices).map fun n => n.request a.url (.str (session n.execution))
  /-- The requests of an execution are those of its passages. -/
  ofExecution : ∀ execution, (stages.flatten.flatMap Passage.notices).filter (·.execution == execution) =
    (Passage.of execution stages.flatten).flatMap Passage.notices
  named : ∀ p ∈ stages.flatten, session p.execution ≠ ""
  recorded : ∀ x, HasRecord (after stages.length).storage x.id x → x.historySession = some (session x.id)
  /-- No execution has two passages with a step. -/
  once : ∀ stage ∈ stages, (stage.map Passage.execution).Nodup
  coherent : Passage.Coherent stages.flatten
  closed : ∀ p ∈ stages.flatten, ∀ row ∈ p.rows, row.Closed p.execution
  overheard : ∀ i x, HasRecord (after i).storage x.id x → Overheard (stages.take i).flatten x
  rows : ∀ i x, HasRecord (after i).storage x.id x →
    (after i).storage.nodeRows x.id = (Passage.of x.id (stages.take i).flatten).flatMap Passage.rows
  ordered : ∀ i id, ((after i).storage.nodeRows id).Pairwise fun row other => row.id < other.id

/-- The rows of nodes are in the order of their ids. -/
theorem Followed.ordered {passages : List Passage} {w : World} (h : Followed passages w) (ho : Orderly w) (id : String) :
    (w.storage.nodeRows id).Pairwise fun row other => row.id < other.id := by
  obtain ⟨logs, hl⟩ := h.logged id
  rcases ho.logs_cases id with ⟨logs', hl', hc, -⟩ | hno
  · rw [Storage.nodeRows, hl'.nodeLogs]
    refine List.Pairwise.filter _ (List.pairwise_iff_getElem.2 fun i j hi hj hlt => ?_)
    rw [hc i hi, hc j hj]
    omega
  · exact absurd hl (hno _)

/-- A record names the session in which its execution was told of. -/
theorem Followed.session {a : Auditor} {passages : List Passage} {trail : List Notice} {w : World} (h : Followed passages w)
    (ht : Told (some a) trail w) {session : String → String}
    (hs : ∀ p ∈ passages, (Line.after a trail).sessions p.execution = .str (session p.execution)) {x : Execution}
    (hx : HasRecord w.storage x.id x) : x.historySession = some (session x.id) := by
  obtain ⟨p, hp⟩ := List.exists_mem_of_ne_nil _ (h.recorded x hx).2.2.2.ne_nil
  obtain ⟨hp, hid⟩ := List.mem_filter.1 hp
  have htold : Value.ofText? x.historySession = .str (session x.id) := by
    rw [ht.recorded x hx, ← beq_iff_eq.1 hid]
    exact hs p hp
  cases hsession : x.historySession with
  | none => rw [hsession] at htold; cases htold
  | some found =>
    rw [hsession] at htold
    exact congrArg some (Value.str.inj htold)

theorem Auditor.Sound.failing {a : Auditor} (h : a.Sound) {bad : AuditAnswer} (hbad : Audit.proper? bad = none) (k : Nat) :
    (a.failing k bad).Sound where
  opened := h.opened
  answers n body hp := by
    by_cases hn : n = a.asked + k
    · rw [show (a.failing k bad).answers n = bad from if_pos hn, hbad] at hp
      cases hp
    · exact h.answers n body ((show (a.failing k bad).answers n = a.answers n from if_neg hn) ▸ hp)

/-- In every session with a sound audit service, if the service answers all its requests well, these mirror what is on
record: a session is opened for each execution, then it is told of the rows that its nodes leave, in order of their ids, of
each that it starts and how it ended, and behind the rows of every invocation of what is on record then. If a request is
not answered well but fails, the requests are the same up to that one. -/
theorem audit_mirrors (config : Config) (root : String) {auditor : Auditor} (ha : auditor.Sound) (he : auditor.enabled = true)
    {steps : List Session.Step} (hs : ∀ step ∈ steps, step.Open) :
    let after (a : Auditor) (i : Nat) := (Session.run (steps.take i) (.initial config root (some a))).2
    let requests (a : Auditor) := (after a steps.length).requests
    (auditor.Obliges (requests auditor) → ∃ stages session, stages.length = steps.length ∧
      Mirrored auditor session stages (after auditor)) ∧
    ∀ k bad, Audit.proper? bad = none → requests (auditor.failing k bad) = (requests auditor).take (k + 1) := by
  intro after requests
  have hsound {a : Auditor} (ha : a.Sound) (c : Auditor) (hc : some a = some c) : c.Sound := Option.some.inj hc ▸ ha
  refine ⟨fun hobliges => ?_, fun k bad hbad => ?_⟩
  · obtain ⟨stages, hlength, honce, hat⟩ := (Attended.initial config root (hsound ha) (hsound ha)).run hs
    replace hat := fun i => (hat i).2
    simp only [List.nil_append] at hat
    obtain ⟨-, hfollowed, hkindred⟩ := hat stages.length
    rw [List.take_length] at hfollowed hkindred
    have htold : Told (some auditor) (stages.flatten.flatMap Passage.notices) (after auditor stages.length) := hkindred.told
    have hrequests : (after auditor stages.length).requests =
      (Line.after auditor (stages.flatten.flatMap Passage.notices)).requests := htold.linked.requests
    have hall : auditor.Obliges (Line.after auditor (stages.flatten.flatMap Passage.notices)).requests := by
      rw [← hrequests, hlength]
      exact hobliges
    have hrecounted := Line.recounted_after he hfollowed.closed hfollowed.coherent hall
    obtain ⟨session, hsession⟩ := hrecounted.exists_session
    refine ⟨stages, session, hlength,
      { requests := ?_
        ofExecution := Passage.filter_notices hfollowed.closed
        named := fun p hp => (hsession p hp).2
        recorded := fun x hx => hfollowed.session htold (fun p hp => (hsession p hp).1) hx
        once := honce
        coherent := hfollowed.coherent
        closed := hfollowed.closed
        overheard := fun i x hx => ((hat i).followed.recorded x hx).2.2.2
        rows := fun i x hx => (hat i).followed.rows _ _ ((hat i).forgetful.orderly.issued_of_hasRecord hx)
        ordered := fun i => (hat i).followed.ordered (hat i).forgetful.orderly }⟩
    rw [hrequests, hrecounted.requests]
    refine List.map_congr_left fun n hn => ?_
    obtain ⟨p, hp, hn⟩ := List.mem_flatMap.1 hn
    rw [Passage.execution_of_mem (hfollowed.closed p hp) hn, (hsession p hp).1]
  · obtain ⟨stages, -, -, hat⟩ := (Attended.initial config root (hsound ha) (hsound (ha.failing hbad k))).run hs
    obtain ⟨-, -, -, hkindred⟩ := hat steps.length
    have hone : requests auditor = _ := hkindred.told.linked.requests
    have hother : requests (auditor.failing k bad) = _ := hkindred.told'.linked.requests
    rw [hone, hother]
    exact Line.requests_cut hbad k _

namespace Sample

theorem obliges_named (requests : List Request) : (service named).Obliges requests :=
  fun _ _ _ => ⟨named, .map [("success", .bool true), ("session_id", .str "s")], rfl, rfl, fun _ _ => ⟨"s", rfl, by decide⟩⟩

/-- The event that a request tells of, if it tells of one. -/
def event (r : Request) : String :=
  let field (v : Value) (key : String) : Value := match v with
    | .map entries => Value.field entries key
    | _ => .null
  match field (field (field r.body "arguments") "metadata") "event" with
  | .str event => event
  | _ => ""

/-- A node of the type that the rows of clicks have. -/
def posing : Workflow :=
  { single with
    nodes := [node "start" "trigger" [], node "odd" "button_routing" []], edges := [⟨some "start", some "odd", none⟩] }

/-- A message that waits for a click, and a node behind it. -/
def brief (tool : Value) : Workflow :=
  { halfway tool with
    nodes := [node "start" "trigger" [],
      { message "ask" "yes" with config := [("tool_id", tool), ("inputs", .map [("buttons", .list [.map [("id", .str "yes")]])])] },
      node "end" "condition" []]
    edges := [⟨some "start", some "ask", none⟩, ⟨some "ask", some "end", some "yes"⟩] }

/-- A click after the workflow was saved with a tool that is none. -/
def interrupting : List Session.Step :=
  [.register .tool sender (some ⟨fun _ call => ⟨0, .ok (answer call)⟩, 0⟩), .execute (brief (.str sender)) .null,
    .saveWorkflow (brief (.list [.str sender]))] ++ clicking

end Sample

/-- A click goes on in an execution that is told of, and its third request may fail. -/
theorem audit_mirrors_sample :
    let steps := Sample.asking (.str Sample.sender) ++ Sample.clicking
    let after (a : Auditor) (i : Nat) := (Session.run (steps.take i) (.initial {} "" (some a))).2
    let a := Sample.service Sample.named
    (∃ stages session, stages.length = 4 ∧ Mirrored a session stages (after a)) ∧
      (after (a.failing 2 .unreachable) 4).requests = (after a 4).requests.take 3 := by
  intro steps after a
  obtain ⟨hmirrored, hcut⟩ := audit_mirrors {} "" Sample.sound_named rfl (Sample.open_asking (.str Sample.sender))
  exact ⟨hmirrored (Sample.obliges_named _), hcut 2 .unreachable rfl⟩

/-- The row of a node of the type of clicks is told as any other is, and what comes of an execution that a click interrupts
is told although the run that would be finalized never ends. -/
theorem told_besides :
    let posing := (Session.run [.execute Sample.posing .null] (.initial {} "" (some (Sample.service Sample.named)))).2
    let interrupted := (Session.run Sample.interrupting (.initial {} "" (some (Sample.service Sample.named)))).2
    ((posing.storage.nodeLogs Sample.execution).map NodeLog.nodeType = ["trigger", buttonRoutingType] ∧
      posing.requests.map Sample.event =
        ["", "node_start", "node_complete", "node_start", "node_error", "workflow_complete"]) ∧
    Sample.outcome interrupted = some (.failed, some "Workflow continuation failed: unhashable type: 'list'") ∧
      interrupted.requests.map Sample.event =
        ["", "node_start", "node_complete", "node_start", "node_complete", "workflow_complete", "workflow_complete"] := by
  decide +kernel

end WorkGraph
