import WorkGraph.Proofs.Abreast
import WorkGraph.Proofs.Ledger

/-!
# What the audit service is told

The journal reports what it does as `Notice`s, and whether a notice becomes a request goes by what the service has answered
so far: by the `Line` to it. Where the service is sound, a report always gets through to that line and changes nothing else
(`Journal.run_report`), so that the requests of a world are those which the line makes of the notices there were (`Told`).
If every answer is proper and names a session, all notices become requests, and if one request gets no proper answer, it is
the last one (`Line.requests_after`, `Line.requests_cut`).
-/

namespace WorkGraph

open Engine

/-! ## Notices -/

/-- Something that is reported of an execution: that it starts, or a message with its metadata. -/
inductive Notice where
  | opened (workflow execution : String)
  | message (execution content : String) (metadata : Entries Value)

namespace Notice

/-- The execution that a notice is about. -/
def execution : Notice → String
  | opened _ execution => execution
  | message execution _ _ => execution

def tool : Notice → String
  | opened .. => "create_session"
  | message .. => "append_message"

/-- What the service is told, in a session. -/
def arguments (session : Value) : Notice → Value
  | opened workflow execution => .map
    [("title", .str ("Workflow: " ++ workflow)),
      ("metadata", .map
        [("type", .str "flowrunner"), ("workflow_id", .str workflow), ("execution_id", .str execution)])]
  | message _ content metadata => .map
    [("session_id", session), ("type", .str "system"), ("content", .str content), ("metadata", .map metadata)]

def request (url : String) (session : Value) (n : Notice) : Request :=
  ⟨Audit.address url, .map [("tool", .str n.tool), ("arguments", n.arguments session)]⟩

/-- The time of a message. -/
def stamped (metadata : Entries Value) (now : String) : Entries Value :=
  metadata.set "timestamp" (.str (now ++ "+00:00"))

/-- The notice of what an invocation came to. -/
def concluded (execution workflow : String) (status : RunStatus) (error : Option String) (now : String) : Notice :=
  .message execution ("Workflow finished with status: " ++ status.name)
    (stamped [("event", .str "workflow_complete"), ("workflow_id", .str workflow), ("status", .str status.name),
      ("error_message", Value.ofText? error)] now)

end Notice

namespace NodeLog

/-- The notice of a node that starts. -/
def started (row : NodeLog) : Notice :=
  .message row.executionId ("Node '" ++ row.nodeId ++ "' started")
    (Notice.stamped [("event", .str "node_start"), ("node_id", .str row.nodeId), ("node_type", .str row.nodeType)]
      row.startedAt)

/-- The notice of a node that has ended, by the status of its row. -/
def ended (row : NodeLog) : List Notice :=
  let now := row.completedAt.getD ""
  match row.status with
  | .running => []
  | .success => [.message row.executionId ("Node '" ++ row.nodeId ++ "' completed")
      (Notice.stamped [("event", .str "node_complete"), ("node_id", .str row.nodeId), ("node_type", .str row.nodeType),
        ("duration_ms", .int row.durationMs)] now)]
  | .failed => [.message row.executionId ("Node '" ++ row.nodeId ++ "' failed: " ++ row.errorMessage.getD "")
      (Notice.stamped [("event", .str "node_error"), ("node_id", .str row.nodeId), ("node_type", .str row.nodeType),
        ("error", Value.ofText? row.errorMessage)] now)]

/-- What is told of a row. -/
def notices (row : NodeLog) : List Notice :=
  row.started :: row.ended

end NodeLog

/-! ## The line to the service -/

/-- Where there is no service, nothing is asked. -/
def Auditor.absent : Auditor := ⟨"", fun _ => .unreachable, 0, false, false⟩

/-- What has become of the notices so far: how often the service was asked, whether it still is, the session of each
execution, and the requests. -/
structure Line where
  asked : Nat
  enabled : Bool
  sessions : String → Value
  requests : List Request

namespace Line

/-- The line before the first notice. -/
def start (a : Auditor) : Line :=
  ⟨a.asked, a.enabled, fun _ => .null, []⟩

/-- What is said to a request, and the line after it. The first request without a proper answer is the last one. -/
def ask (a : Auditor) (l : Line) (r : Request) : Value × Line :=
  if l.enabled then
    let asked : Line := { l with asked := l.asked + 1, requests := l.requests ++ [r] }
    match Audit.proper? (a.answers l.asked) with
    | none => (.null, { asked with enabled := false })
    | some body => ((Audit.answerData body).toOption.getD .null, asked)
  else (.null, l)

/-- The line where an execution has a session. -/
def opening (l : Line) (execution : String) (session : Value) : Line :=
  { l with sessions := fun other => if other = execution then session else l.sessions other }

/-- One more notice. A message is sent in the session of its execution, if there is one. -/
def post (a : Auditor) (l : Line) (n : Notice) : Line :=
  let session := l.sessions n.execution
  let answer := l.ask a (n.request a.url session)
  match n with
  | .opened _ execution => answer.2.opening execution ((Audit.sessionOf answer.1).toOption.getD .null)
  | .message .. => if session.truthy then answer.2 else l

/-- The line after notices. -/
def after (a : Auditor) (trail : List Notice) : Line :=
  trail.foldl (post a) (start a)

variable {a : Auditor} {l : Line} {trail : List Notice}

theorem after_append (n : Notice) : after a (trail ++ [n]) = post a (after a trail) n := by
  simp [after]

theorem ask_disabled (h : l.enabled = false) (r : Request) : l.ask a r = (.null, l) := by
  simp [ask, h]

theorem sessions_ask (r : Request) : (l.ask a r).2.sessions = l.sessions := by
  unfold ask
  split
  · dsimp only
    split <;> rfl
  · rfl

theorem sessions_message (execution content : String) (metadata : Entries Value) :
    (l.post a (.message execution content metadata)).sessions = l.sessions := by
  unfold post
  dsimp only
  split
  · exact sessions_ask _
  · rfl

theorem sessions_opened_ne {workflow execution other : String} (h : other ≠ execution) :
    (l.post a (.opened workflow execution)).sessions other = l.sessions other := by
  simp [post, opening, h, sessions_ask]

theorem post_message_disabled (h : l.enabled = false) {execution content : String} {metadata : Entries Value} :
    l.post a (.message execution content metadata) = l := by
  simp [post, ask_disabled h]

theorem post_opened_disabled (h : l.enabled = false) (workflow execution : String) :
    l.post a (.opened workflow execution) = l.opening execution .null := by
  simp [post, ask_disabled h, Audit.sessionOf, Value.truthy]
  rfl

/-- Whether a notice is to be sent: a message is sent if there is a session for it. -/
def speaks (l : Line) : Notice → Bool
  | .opened .. => true
  | .message execution _ _ => (l.sessions execution).truthy

theorem post_silent {n : Notice} (h : l.speaks n = false) : l.post a n = l := by
  cases n with
  | opened => cases h
  | message execution =>
    have hs : (l.sessions execution).truthy = false := h
    exact if_neg (by simp [Notice.execution, hs])

/-- What is sent over a line that is open. -/
theorem post_sent {n : Notice} (h : l.speaks n = true) (he : l.enabled = true) :
    (l.post a n).requests = l.requests ++ [n.request a.url (l.sessions n.execution)] ∧
      (l.post a n).asked = l.asked + 1 ∧ (l.post a n).enabled = (Audit.proper? (a.answers l.asked)).isSome := by
  have hask (r : Request) : (l.ask a r).2.requests = l.requests ++ [r] ∧ (l.ask a r).2.asked = l.asked + 1 ∧
      (l.ask a r).2.enabled = (Audit.proper? (a.answers l.asked)).isSome := by
    unfold ask
    rw [if_pos he]
    dsimp only
    cases Audit.proper? (a.answers l.asked) <;> simp [he]
  cases n with
  | opened workflow execution => exact hask _
  | message execution content metadata =>
    rw [show l.post a (.message execution content metadata) = _ from if_pos h]
    exact hask _

/-- Nothing is sent over a line that is not. -/
theorem post_disabled (h : l.enabled = false) (n : Notice) :
    (l.post a n).requests = l.requests ∧ (l.post a n).enabled = false := by
  cases n with
  | opened workflow execution => rw [post_opened_disabled h]; exact ⟨rfl, h⟩
  | message => rw [post_message_disabled h]; exact ⟨rfl, h⟩

/-- The requests so far stay. -/
theorem requests_post (l : Line) (n : Notice) : ∃ more, (l.post a n).requests = l.requests ++ more := by
  cases he : l.enabled with
  | false => exact ⟨[], by rw [(post_disabled he n).1, List.append_nil]⟩
  | true =>
    cases hs : l.speaks n with
    | false => exact ⟨[], by rw [post_silent hs, List.append_nil]⟩
    | true => exact ⟨_, (post_sent hs he).1⟩

end Line

/-! ### A line that breaks -/

/-- The same service, but for one answer. -/
def Auditor.failing (a : Auditor) (k : Nat) (bad : AuditAnswer) : Auditor :=
  { a with answers := fun n => if n = a.asked + k then bad else a.answers n }

namespace Line

variable {a : Auditor} {l l' : Line} {k : Nat} {bad : AuditAnswer}

/-- Two lines, of which the second breaks with its k-th request. -/
def Breaks (a : Auditor) (k : Nat) (l l' : Line) : Prop :=
  l' = l ∧ l.asked = a.asked + l.requests.length ∧ l.requests.length ≤ k ∨
    l'.enabled = false ∧ k < l.requests.length ∧ l'.requests = l.requests.take (k + 1)

theorem Breaks.post (hbad : Audit.proper? bad = none) (h : Breaks a k l l') (n : Notice) :
    Breaks a k (l.post a n) (l'.post (a.failing k bad) n) := by
  rcases h with ⟨rfl, hasked, hle⟩ | ⟨hclosed, hlt, hcut⟩
  · cases he : l'.enabled with
    | false =>
      have hsame : l'.post (a.failing k bad) n = l'.post a n := by
        cases n with
        | opened => rw [post_opened_disabled he, post_opened_disabled he]
        | message => rw [post_message_disabled he, post_message_disabled he]
      refine .inl ⟨hsame, ?_, by rwa [(post_disabled he n).1]⟩
      rw [(post_disabled he n).1, ← hasked]
      cases n with
      | opened => rw [post_opened_disabled he]; rfl
      | message => rw [post_message_disabled he]
    | true =>
      cases hs : l'.speaks n with
      | false =>
        rw [post_silent hs, post_silent hs]
        exact .inl ⟨rfl, hasked, hle⟩
      | true =>
        obtain ⟨hr, ha, -⟩ := post_sent (a := a) hs he
        obtain ⟨hr', -, he'⟩ := post_sent (a := a.failing k bad) hs he
        rcases Nat.lt_or_eq_of_le hle with hlt | heq
        · -- the answer is that of the first service
          have hanswer : (a.failing k bad).answers l'.asked = a.answers l'.asked := if_neg (by omega)
          refine .inl ⟨?_, ?_, ?_⟩
          · unfold Line.post ask
            rw [hanswer]
            rfl
          · rw [ha, hr, List.length_append, List.length_singleton, hasked]
            omega
          · rw [hr, List.length_append, List.length_singleton]
            omega
        · have hanswer : (a.failing k bad).answers l'.asked = bad := if_pos (by omega)
          rw [hanswer, hbad] at he'
          refine .inr ⟨he', ?_, ?_⟩
          · rw [hr, List.length_append, List.length_singleton]
            omega
          · rw [hr', hr, List.take_of_length_le (by simp [heq])]
            rfl
  · obtain ⟨more, hmore⟩ := requests_post (a := a) l n
    obtain ⟨hr', he'⟩ := post_disabled (a := a.failing k bad) hclosed n
    refine .inr ⟨he', ?_, ?_⟩
    · rw [hmore, List.length_append]
      omega
    · rw [hr', hmore, List.take_append_of_le_length hlt, hcut]

/-- If one request gets no proper answer, it is the last one. -/
theorem requests_cut (hbad : Audit.proper? bad = none) (k : Nat) (trail : List Notice) :
    (after (a.failing k bad) trail).requests = (after a trail).requests.take (k + 1) := by
  have hfold : ∀ (trail : List Notice) {l l' : Line}, Breaks a k l l' →
      Breaks a k (trail.foldl (Line.post a) l) (trail.foldl (Line.post (a.failing k bad)) l') := by
    intro trail
    induction trail with
    | nil => exact id
    | cons n rest ih => exact fun h => ih (h.post hbad n)
  have hstart : Breaks a k (start a) (start (a.failing k bad)) := .inl ⟨rfl, rfl, Nat.zero_le _⟩
  rcases hfold trail hstart with ⟨hsame, -, hle⟩ | ⟨-, -, hcut⟩
  · exact (congrArg requests hsame).trans (List.take_of_length_le (Nat.le_succ_of_le hle)).symm
  · exact hcut

end Line

/-! ## The line of a world -/

namespace World

/-- The requests to the audit service, in order. -/
def requests (w : World) : List Request :=
  w.trace.filterMap Effect.request?

theorem requests_said (w : World) (effect : Effect) :
    World.requests { w with trace := w.trace ++ [effect] } = w.requests ++ effect.request?.toList := by
  cases h : effect.request? <;> simp [requests, h]

end World

/-- The line to a service, if there is one. -/
def Line.towards (a : Option Auditor) (trail : List Notice) : Line :=
  .after (a.getD .absent) trail

/-- Whether the connection of a world to a service is as the line tells. -/
structure Linked (a : Option Auditor) (l : Line) (w : World) : Prop where
  auditor : w.auditor = a.map fun b => { b with asked := l.asked, enabled := l.enabled }
  requests : w.requests = l.requests
  sound : ∀ b, a = some b → b.Sound
  absent : a = none → l.enabled = false

variable {a : Option Auditor} {l : Line} {trail : List Notice} {w u : World}

theorem Linked.of_same (h : Linked a l w) (ha : u.auditor = w.auditor) (hr : u.requests = w.requests) : Linked a l u :=
  ⟨ha.trans h.auditor, hr.trans h.requests, h.sound, h.absent⟩

theorem Linked.heard (h : Linked a l w) : w.Heard := by
  intro b hb
  rw [h.auditor] at hb
  obtain ⟨b', ha, rfl⟩ := Option.map_eq_some_iff.1 hb
  exact (h.sound b' ha).of_service rfl

namespace Audit

/-- A request goes along the line, and nothing else is done. -/
theorem run_callTool (h : Linked a l w) (tool : String) (arguments : Value) :
    let sent := l.ask (a.getD .absent)
      ⟨address (a.getD .absent).url, .map [("tool", .str tool), ("arguments", arguments)]⟩
    ∃ u, run (callTool tool arguments) w = (.ok sent.1, u) ∧ Linked a sent.2 u ∧ Quiet w u ∧
      u.sessions = w.sessions := by
  intro sent
  have hquiet := hushed_callTool tool arguments w
  have hgoes : ∃ u, run (callTool tool arguments) w = (.ok sent.1, u) ∧ Linked a sent.2 u ∧ u.sessions = w.sessions := by
    unfold callTool
    rw [run_get_bind]
    cases a with
    | none =>
      have hsent : sent = (.null, l) := Line.ask_disabled (h.absent rfl) _
      rw [show w.auditor = none from h.auditor, hsent]
      exact ⟨w, rfl, h, rfl⟩
    | some b =>
      rw [show w.auditor = some { b with asked := l.asked, enabled := l.enabled } from h.auditor]
      have hsound := h.sound b rfl
      cases he : l.enabled with
      | false =>
        have hsent : sent = (.null, l) := Line.ask_disabled he _
        rw [hsent]
        refine ⟨w, rfl, h, rfl⟩
      | true =>
        have hsent : sent = l.ask b ⟨address b.url, .map [("tool", .str tool), ("arguments", arguments)]⟩ := rfl
        rw [Line.ask, if_pos he] at hsent
        have hopen : b.closed = false := hsound.opened
        cases hp : proper? (b.answers l.asked) with
        | none =>
          rw [hp] at hsent
          rw [hsent]
          simp only [Bool.not_true, Bool.false_eq_true, if_false, hopen, hp]
          refine ⟨_, rfl, ⟨by simp [hopen], ?_, h.sound, fun hn => by cases hn⟩, rfl⟩
          simp [World.requests, Effect.request?, ← h.requests]
        | some body =>
          obtain ⟨data, -, hd, -⟩ := hsound.answers _ _ hp
          rw [hp] at hsent
          dsimp only at hsent
          rw [hd] at hsent
          rw [hsent]
          simp only [Bool.not_true, Bool.false_eq_true, if_false, hopen, hp, hd]
          refine ⟨_, rfl, ⟨by simp [hopen, he], ?_, h.sound, fun hn => by cases hn⟩, rfl⟩
          · simp [World.requests, Effect.request?, ← h.requests]
  obtain ⟨u, hr, hl, hs⟩ := hgoes
  rw [hr] at hquiet
  exact ⟨u, hr, hl, hquiet, hs⟩

/-- A message goes along the line in a session, if there is one. -/
theorem run_append (h : Linked a l w) (execution content : String) (metadata : Entries Value) :
    ∃ u, run (append (l.sessions execution) content metadata) w = (.ok (), u) ∧
      Linked a (l.post (a.getD .absent) (.message execution content (Notice.stamped metadata w.clock.stamp))) u ∧
      Quiet w u ∧ u.sessions = w.sessions := by
  unfold append Line.post
  dsimp only [Notice.execution]
  split
  · rw [run_bind_ok (run_stamp w)]
    obtain ⟨u, hr, hl, hq, hs⟩ := run_callTool h "append_message" (.map
      [("session_id", l.sessions execution), ("type", .str "system"), ("content", .str content),
        ("metadata", .map (metadata.set "timestamp" (.str (w.clock.stamp ++ "+00:00"))))])
    exact ⟨u, by rw [run_bind_ok hr]; rfl, hl, hq, hs⟩
  · exact ⟨w, rfl, h, .refl w, rfl⟩

/-- A session is opened along the line. -/
theorem run_createSession (h : Linked a l w) (workflow execution : String) :
    let opened := l.post (a.getD .absent) (.opened workflow execution)
    ∃ session u, run (createSession (.str workflow) (.str execution)) w = (.ok (Value.ofText? session), u) ∧
      opened.sessions execution = Value.ofText? session ∧ Linked a opened u ∧ Quiet w u ∧ u.sessions = w.sessions := by
  intro opened
  let answer := l.ask (a.getD .absent) ((Notice.opened workflow execution).request (a.getD .absent).url (l.sessions execution))
  let arguments := (Notice.opened workflow execution).arguments (l.sessions execution)
  obtain ⟨u, hr, hl, hq, hs⟩ : ∃ u, run (callTool "create_session" arguments) w = (.ok answer.1, u) ∧
      Linked a answer.2 u ∧
      Quiet w u ∧ u.sessions = w.sessions := run_callTool h _ _
  obtain ⟨data, session, hd, hsession⟩ := run_callTool_heard h.heard "create_session" arguments
  rw [hr] at hd
  obtain rfl := Except.ok.inj hd
  have hopened : opened = answer.2.opening execution (Value.ofText? session) := by
    show answer.2.opening execution ((sessionOf answer.1).toOption.getD .null) = _
    rw [hsession]
    rfl
  refine ⟨session, u, ?_, ?_, ?_, hq, hs⟩
  · show run (callTool "create_session" arguments >>= fun data => Engine.ofExcept (sessionOf data)) w = _
    rw [run_bind_ok hr, run_ofExcept, hsession]
  · rw [hopened]
    exact if_pos rfl
  · rw [hopened]
    exact ⟨hl.auditor, hl.requests, hl.sound, hl.absent⟩

end Audit

/-! ## What a world has told -/

/-- Whether a world has told a service of these notices. What it knows of a session is what the line tells. -/
structure Told (a : Option Auditor) (trail : List Notice) (w : World) : Prop where
  linked : Linked a (.towards a trail) w
  recorded : ∀ x, HasRecord w.storage x.id x → Value.ofText? x.historySession = (Line.towards a trail).sessions x.id
  cached : a.isSome = true → ∀ x session, HasRecord w.storage x.id x → w.sessions.get? x.id = some session →
    session = (Line.towards a trail).sessions x.id

theorem Line.towards_append (a : Option Auditor) (trail : List Notice) (n : Notice) :
    towards a (trail ++ [n]) = (towards a trail).post (a.getD .absent) n :=
  after_append n

namespace Told

/-- What has changed is nothing that the service is told of. -/
theorem of_same (h : Told a trail w) (ha : u.auditor = w.auditor) (hr : u.requests = w.requests)
    (hs : u.sessions = w.sessions) (hx : ∀ x, HasRecord u.storage x.id x → HasRecord w.storage x.id x) :
    Told a trail u where
  linked := h.linked.of_same ha hr
  recorded x hrecord := h.recorded x (hx x hrecord)
  cached ha x session hrecord hsession := h.cached ha x session (hx x hrecord) (hs ▸ hsession)

/-- The sessions that were known without the records were lost. -/
theorem forgotten (h : Told a trail w) : Told a trail { w with sessions := [] } where
  linked := h.linked.of_same rfl rfl
  recorded := h.recorded
  cached _ _ _ _ hsession := by cases hsession

/-- A message was told, about whatever execution. -/
theorem message {execution content : String} {metadata : Entries Value} (h : Told a trail w)
    (hl : Linked a (.towards a (trail ++ [.message execution content metadata])) u) (hs : u.storage = w.storage)
    (hc : a.isSome = true → ∀ x session, HasRecord w.storage x.id x → u.sessions.get? x.id = some session →
      session = (Line.towards a trail).sessions x.id) :
    Told a (trail ++ [.message execution content metadata]) u := by
  have hsessions : (Line.towards a (trail ++ [.message execution content metadata])).sessions =
      (Line.towards a trail).sessions := by
    rw [Line.towards_append, Line.sessions_message]
  refine ⟨hl, fun x hx => ?_, fun ha x session hx hsession => ?_⟩ <;> rw [hs] at hx <;> rw [hsessions]
  · exact h.recorded x hx
  · exact hc ha x session hx hsession

end Told

namespace Journal

/-- The session of an execution on record is the one that the line tells. -/
theorem run_sessionFor {x : Execution} (h : Told a trail w) (ha : a.isSome = true) (hs : w.Steady)
    (hx : HasRecord w.storage x.id x) :
    ∃ u, run (sessionFor x.id) w = (.ok ((Line.towards a trail).sessions x.id), u) ∧ Quiet w u ∧ Told a trail u := by
  unfold sessionFor
  rw [run_get_bind]
  cases hc : w.sessions.get? x.id with
  | some session =>
    obtain rfl := h.cached ha x session hx hc
    exact ⟨w, rfl, .refl w, h⟩
  | none =>
    dsimp only
    rw [run_bind_ok (Store.Executions.run_find? hs hx), ← h.recorded x hx]
    refine ⟨_, rfl, .noted w _, h.linked.of_same rfl rfl, h.recorded, fun _ y session hy hsession => ?_⟩
    by_cases hid : y.id = x.id
    · obtain rfl := Execution.hasRecord_unique (hid ▸ hy) hx
      rw [Entries.get?_set_self] at hsession
      rw [← Option.some.inj hsession, ← h.recorded y hx]
      rfl
    · rw [Entries.get?_set_ne _ _ hid] at hsession
      exact h.cached ha y session hy hsession

/-- What is reported of an execution on record is told, and nothing else is done. -/
theorem run_report {x : Execution} (h : Told a trail w) (hs : w.Steady) (hx : HasRecord w.storage x.id x)
    (report : Value → Engine Unit) (content : String) (metadata : Entries Value)
    (hreport : ∀ session, report session = Audit.append session content metadata) :
    ∃ u, run (audited do report (← sessionFor x.id)) w = (.ok (), u) ∧ Quiet w u ∧
      Told a (trail ++ [.message x.id content (Notice.stamped metadata w.clock.stamp)]) u := by
  unfold audited
  rw [run_get_bind, h.linked.auditor]
  cases a with
  | none =>
    have hsame : Line.towards none (trail ++ [.message x.id content (Notice.stamped metadata w.clock.stamp)]) =
        .towards none trail := by
      rw [Line.towards_append]
      exact Line.post_message_disabled (h.linked.absent rfl)
    refine ⟨w, rfl, .refl w, h.message (hsame ▸ h.linked) rfl fun ha => by cases ha⟩
  | some b =>
    obtain ⟨v, hr, hq, htells⟩ := run_sessionFor h rfl hs hx
    obtain ⟨u, happend, hl, hq', hsessions⟩ := Audit.run_append htells.linked x.id content metadata
    refine ⟨u, ?_, hq.trans hq', ?_⟩
    · show run (sessionFor x.id >>= report) w = _
      rw [run_bind_ok hr, hreport, happend]
    · rw [hq.clock, ← Line.towards_append] at hl
      refine h.message hl (hq'.storage.trans hq.storage) fun ha y session hy hsession => ?_
      rw [hsessions] at hsession
      exact htells.cached ha y session (by rwa [hq.storage]) hsession

/-- A session is opened for an execution of which nothing is on record. -/
theorem run_openSession (h : Told a trail w) (workflow : String) {execution : String}
    (hnew : ∀ x, HasRecord w.storage x.id x → x.id ≠ execution) :
    ∃ session u, run (openSession workflow execution) w = (.ok (Value.ofText? session), u) ∧ Quiet w u ∧
      Told a (trail ++ [.opened workflow execution]) u ∧
      (Line.towards a (trail ++ [.opened workflow execution])).sessions execution = Value.ofText? session ∧
      (a.isSome = true → u.sessions.get? execution = some (Value.ofText? session)) := by
  have hothers {x : Execution} (hx : HasRecord w.storage x.id x) :
      (Line.towards a (trail ++ [.opened workflow execution])).sessions x.id = (Line.towards a trail).sessions x.id := by
    rw [Line.towards_append]
    exact Line.sessions_opened_ne (hnew x hx)
  unfold openSession
  rw [run_get_bind, h.linked.auditor]
  cases a with
  | none =>
    have hline := Line.post_opened_disabled (a := .absent) (h.linked.absent rfl) workflow execution
    refine ⟨none, w, rfl, .refl w, ⟨?_, fun x hx => ?_, fun ha => by cases ha⟩, ?_, fun ha => by cases ha⟩
    · rw [Line.towards_append]
      exact hline.symm ▸ ⟨h.linked.auditor, h.linked.requests, h.linked.sound, h.linked.absent⟩
    · rw [hothers hx]
      exact h.recorded x hx
    · rw [Line.towards_append]
      exact hline.symm ▸ if_pos rfl
  | some b =>
    obtain ⟨session, v, hr, hopened, hl, hq, hsessions⟩ := Audit.run_createSession h.linked workflow execution
    rw [← Line.towards_append] at hopened hl
    refine ⟨session, { v with sessions := v.sessions.set execution (Value.ofText? session) }, ?_, hq.trans (.noted v _),
      ⟨hl.of_same rfl rfl, fun x hx => ?_, fun _ x found hx hfound => ?_⟩, hopened, fun _ => Entries.get?_set_self _ _ _⟩
    · show run (Audit.createSession (.str workflow) (.str execution) >>= _) w = _
      rw [run_bind_ok hr]
      rfl
    · have hx : HasRecord w.storage x.id x := hq.storage ▸ hx
      rw [hothers hx]
      exact h.recorded x hx
    · have hx : HasRecord w.storage x.id x := hq.storage ▸ hx
      rw [hothers hx]
      have hfound : (v.sessions.set execution (Value.ofText? session)).get? x.id = some found := hfound
      rw [Entries.get?_set_ne _ _ (hnew x hx), hsessions] at hfound
      exact h.cached rfl x found hx hfound

end Journal

/-! ## Records -/

namespace Store.Executions

/-- A record is saved, or nothing is done. -/
theorem run_save (hs : w.Steady) (x : Execution) : run (save x) w =
    match w.storage.write (place x.id) x.toValue with
    | .ok storage => (.ok (), { w with storage })
    | .error fault => (.error fault, w) := by
  exact (run_bind_ok (run_entering_steady hs _)).trans (run_writeFile _ _ _)

/-- The fields of a record are changed, and nothing else is. -/
theorem run_update {id : String} {x y : Execution} {fields : Entries Value} {storage : Storage} (hs : w.Steady)
    (h : HasRecord w.storage id x) (hf : unnamed ["self", "execution_id"] fields = .ok ())
    (hl : Execution.load w.clock.stamp (.map (Entries.merge x.entries fields)) = .ok y)
    (hw : w.storage.write (place id) y.toValue = .ok storage) :
    run (update id fields) w = (.ok y, { w with storage }) := by
  have hr : w.storage.read (place id) .null = .ok (.map x.entries) := h
  have ht : (!(Value.map x.entries).truthy) = false := rfl
  have hwrite : run (writeFile (place id) y.toValue) w = (.ok (), { w with storage }) := by
    rw [run_writeFile, hw]
  unfold update
  rw [run_bind_ok (run_entering_steady hs _), run_ofExcept_bind hf, run_readFile_bind hr, ht, if_neg Bool.false_ne_true]
  dsimp only
  rw [run_bind_ok (run_stamp w), run_ofExcept_bind hl, run_bind_ok hwrite]
  rfl

end Store.Executions

namespace Told

/-- The operators were told something. -/
theorem said {effect : Effect} (h : Told a trail w) (he : effect.request? = none) :
    Told a trail { w with trace := w.trace ++ [effect] } :=
  h.of_same rfl (by rw [World.requests_said, he, Option.toList_none, List.append_nil]) rfl fun _ => id

/-- A record was written that names the session of its execution. -/
theorem wrote {x : Execution} {storage : Storage} (h : Told a trail w)
    (hw : w.storage.write (Store.Executions.place x.id) x.toValue = .ok storage)
    (hr : Value.ofText? x.historySession = (Line.towards a trail).sessions x.id)
    (hc : a.isSome = true → ∀ session, w.sessions.get? x.id = some session →
      session = (Line.towards a trail).sessions x.id) :
    Told a trail { w with storage } := by
  have hcases {y : Execution} (hy : HasRecord storage y.id y) : y = x ∨ HasRecord w.storage y.id y := by
    by_cases hp : (Store.Executions.place y.id).path = (Store.Executions.place x.id).path
    · refine .inl (Execution.hasRecord_unique hy ?_)
      exact (Storage.read_congr hp _).trans (Storage.read_write_self hw)
    · exact .inr ((Storage.read_write_ne hw hp).symm.trans hy)
  refine ⟨h.linked.of_same rfl rfl, fun y hy => ?_, fun ha y session hy hsession => ?_⟩ <;>
    rcases hcases hy with rfl | hy
  · exact hr
  · exact h.recorded y hy
  · exact hc ha session hsession
  · exact h.cached ha y session hy hsession

end Told

namespace Journal

/-- A new execution is told of before its record is written. -/
theorem run_startExecution (h : Told a trail w) (workflow : String) (triggerData : Value)
    (hnew : ∀ x, HasRecord w.storage x.id x → x.id ≠ w.nextExecution) :
    ∃ session v, Quiet { w with issued := w.issued + 1 } v ∧
      let x := Execution.begun w.nextExecution workflow triggerData session w.clock.stamp
      run (startExecution workflow triggerData) w = run (do
        Store.Executions.save x
        Engine.log .info "recorder" "execution_started"
          [("execution_id", .str w.nextExecution), ("workflow_id", .str workflow)]
        return x) v ∧
      Told a (trail ++ [.opened workflow w.nextExecution]) v ∧
      ∀ storage, v.storage.write (Store.Executions.place w.nextExecution) x.toValue = .ok storage →
        Told a (trail ++ [.opened workflow w.nextExecution]) { v with storage } := by
  have hcounted : Told a trail { w with issued := w.issued + 1 } := h.of_same rfl rfl rfl fun _ hx => hx
  obtain ⟨session, v, hr, hq, htells, hline, hcached⟩ := run_openSession hcounted workflow hnew
  refine ⟨session, v, hq, ?_, htells, fun storage hw => ?_⟩
  · unfold startExecution
    rw [run_bind_ok (run_freshExecutionId w), run_bind_ok hr, run_bind_ok (run_stamp v), hq.clock,
      run_ofExcept_bind (Execution.load_begun _ _ _ _ _)]
  · generalize w.nextExecution = id at *
    exact htells.wrote (x := .begun id workflow triggerData session w.clock.stamp) hw hline.symm fun ha found hfound =>
      (Option.some.inj (hfound.symm.trans (hcached ha))).trans hline.symm

/-- What comes of an invocation is written to the record and told. -/
theorem run_finishExecution {x : Execution} (h : Told a trail w) (hs : w.Steady) (hx : HasRecord w.storage x.id x)
    (hf : (Store.Executions.place x.id).Fits) (status : RunStatus) (error : Option String) (duration : Int) :
    let y := x.ended status error duration w.clock.stamp
    ∃ u, run (finishExecution x.id status (Value.ofText? error) duration) w = (.ok y, u) ∧
      Wrote (Store.Executions.place x.id) y.toValue w u ∧
      Told a (trail ++ [.concluded x.id x.workflowId status error w.clock.stamp]) u := by
  intro y
  have hfields : Store.unnamed ["self", "execution_id"]
      (Execution.ending status (Value.ofText? error) duration w.clock.stamp) = .ok () := by
    cases status <;> rfl
  obtain ⟨storage, hwrite⟩ : ∃ storage, w.storage.write (Store.Executions.place x.id) y.toValue = .ok storage :=
    ⟨_, Storage.write_of_fits hf⟩
  have hupdate := Store.Executions.run_update hs hx hfields (Execution.load_ended _ x status error duration w.clock.stamp)
    hwrite
  have hwritten : Told a trail { w with storage } := h.wrote (x := y) hwrite (h.recorded x hx) fun ha session =>
    h.cached ha x session hx
  let event : Effect := .event ⟨"recorder", if status == .failed then .warning else .info, "execution_finished",
    [("execution_id", .str x.id), ("status", .str y.status.name), ("duration_ms", .int y.durationMs),
      ("error_message", Value.ofText? error)], false⟩
  have hlogged : Told a trail { w with storage, trace := w.trace ++ [event] } := hwritten.said rfl
  have hrecord : HasRecord storage y.id y := Storage.read_write_self hwrite
  obtain ⟨u, hr, hq, htells⟩ := run_report hlogged hs hrecord
    (fun session => Audit.workflowCompleted session (.str y.workflowId) (.str y.status.name) (Value.ofText? error))
    _ _ fun _ => rfl
  have hlog : run (Engine.emit event) { w with storage } = (.ok (), { w with storage, trace := w.trace ++ [event] }) := rfl
  refine ⟨u, ?_, ⟨storage, hwrite, (Quiet.said _ rfl rfl).trans hq⟩, htells⟩
  unfold finishExecution
  exact (run_bind_ok (run_stamp w)).trans <| (run_bind_ok hupdate).trans <| (run_bind_ok hlog).trans <|
    (run_bind_ok hr).trans rfl

end Journal

end WorkGraph
