import WorkGraph.Proofs.Restore

/-!
# What agents are told

The briefing of an agent node is made of its configuration, of what its templates read, and of the payload
(`Agent.prepare_congr`, `Agent.prepare_eq`). The agent is called at most once, and told the briefing and nothing else
(`Agent.run_prepared`). Where no slot is written, nothing is read (`Template.fillAll_plain`), and of a payload that tells
of a comment only the content is taken (`Agent.withPayload_comment`): a node without templates tells the agent the same of
any two comments with the same content (`Agent.comments_told_alike`).
-/

namespace WorkGraph

open Engine

/-! ## Documents without slots -/

namespace Template

mutual

/-- Whether no slot starts in any text of a document, keys included. -/
def plain : Value → Bool
  | .str template => !hasSlotStart template.toList
  | .list items => plainItems items
  | .map entries => plainEntries entries
  | _ => true

def plainItems : List Value → Bool
  | [] => true
  | v :: rest => plain v && plainItems rest

def plainEntries : List (String × Value) → Bool
  | [] => true
  | (key, v) :: rest => !hasSlotStart key.toList && plain v && plainEntries rest

end

variable {s t : Scope}

theorem fillText_plain {template : String} (h : hasSlotStart template.toList = false) (s : Scope) :
    fillText s template = .ok template := by
  rw [fillText, h, if_neg Bool.false_ne_true]

/-- A prompt without slots is read from nowhere. -/
theorem fill_plain {v : Value} (h : plain v = true) : fill s v = fill t v := by
  cases v with
  | str template =>
    rw [plain, Bool.not_eq_true'] at h
    rw [fill, fill, fillText_plain h, fillText_plain h]
  | null | bool | num | list | map => rfl

mutual

/-- A document without slots is filled from nowhere. -/
theorem fillAll_plain : ∀ {v : Value}, plain v = true → fillAll s v = fillAll t v
  | .str template, h => by
    rw [plain, Bool.not_eq_true'] at h
    rw [fillAll, fillAll, fillText_plain h, fillText_plain h]
  | .list items, h => by
    rw [plain] at h
    rw [fillAll, fillAll, fillItems_plain h]
  | .map entries, h => by
    rw [plain] at h
    rw [fillAll, fillAll, fillEntries_plain h]
  | .null, _ => by simp only [fillAll]
  | .bool _, _ => by simp only [fillAll]
  | .num _, _ => by simp only [fillAll]

theorem fillItems_plain : ∀ {items : List Value}, plainItems items = true → fillItems s items = fillItems t items
  | [], _ => rfl
  | v :: rest, h => by
    rw [plainItems, Bool.and_eq_true] at h
    rw [fillItems, fillItems, fillAll_plain h.1, fillItems_plain h.2]

theorem fillEntries_plain : ∀ {entries : List (String × Value)} {filled : Entries Value},
    plainEntries entries = true → fillEntries s entries filled = fillEntries t entries filled
  | [], _, _ => rfl
  | (key, v) :: rest, filled, h => by
    rw [plainEntries, Bool.and_eq_true, Bool.and_eq_true, Bool.not_eq_true'] at h
    have hrest : fillEntries s rest = fillEntries t rest := funext fun filled => fillEntries_plain h.2
    rw [fillEntries, fillEntries, fillText_plain h.1.1, fillText_plain h.1.1, fillAll_plain h.1.2, hrest]

end

/-- What is found in a document without slots has none either. -/
theorem plain_field {entries : Entries Value} (h : plainEntries entries = true) (key : String) :
    plain (Value.field entries key) = true := by
  induction entries with
  | nil => rfl
  | cons entry rest ih =>
    obtain ⟨k, v⟩ := entry
    rw [plainEntries, Bool.and_eq_true, Bool.and_eq_true] at h
    rw [Value.field, Entries.get?]
    split
    · exact h.1.2
    · exact ih h.2

theorem plain_orElse {v w : Value} (hv : plain v = true) (hw : plain w = true) : plain (v.orElse w) = true := by
  rw [Value.orElse]
  split
  · exact hv
  · exact hw

end Template

namespace Agent

/-! ## Payloads that tell of comments -/

/-- Whether two payloads tell of comments that have the same content, or none. -/
structure SameComment (p p' : Entries Value) : Prop where
  comment : isComment p = true
  comment' : isComment p' = true
  content : Value.field p "content" = Value.field p' "content" ∨
    (Value.field p "content").truthy = false ∧ (Value.field p' "content").truthy = false

variable {p p' : Entries Value}

theorem SameComment.commentContent_eq (h : SameComment p p') : commentContent p = commentContent p' := by
  unfold commentContent
  rcases h.content with h | ⟨h, h'⟩
  · rw [h]
  · simp [h, h']

/-- Of a comment only the content is added to what the author wrote. -/
theorem withPayload_comment (h : isComment p = true) (own : Value) :
    withPayload own (.map p) = .map (Entries.merge (commentContent p) (own.entries?.getD [])) := by
  have htruthy : (Value.map p).truthy = true := by
    cases p with
    | nil => cases h
    | cons => rfl
  cases own <;> simp [withPayload, htruthy, h, Value.entries?, Entries.merge]

theorem SameComment.withPayload_eq (h : SameComment p p') (own : Value) :
    withPayload own (.map p) = withPayload own (.map p') := by
  rw [withPayload_comment h.comment, withPayload_comment h.comment', h.commentContent_eq]

/-! ## Briefings -/

/-- The agent that a node names. -/
def named (node : Node) : Value :=
  (Value.ofText? node.agentId).orElse (node.setting "agent_id")

/-- The inputs of an agent node as they are written. -/
def written (node : Node) : Entries Value :=
  (node.setting "inputs").entries?.getD []

/-- The prompt of an agent node as it is written. -/
def asked (node : Node) : Value :=
  (node.setting "prompt").orElse ((Value.field (written node) "prompt").orElse (.str ""))

section Plain

variable {node : Node}

theorem plain_written (h : Template.plain (node.setting "inputs") = true) :
    Template.plainEntries (written node) = true := by
  unfold written
  cases hv : node.setting "inputs" with
  | map entries =>
    rw [hv, Template.plain] at h
    exact h
  | null | bool | num | str | list => rfl

theorem plain_asked (hprompt : Template.plain (node.setting "prompt") = true)
    (hinputs : Template.plain (node.setting "inputs") = true) : Template.plain (asked node) = true :=
  Template.plain_orElse hprompt
    (Template.plain_orElse (Template.plain_field (plain_written hinputs) "prompt") rfl)

end Plain

/-- Two contexts in which the templates of a node read the same, and the payloads add the same, make the same briefing. -/
theorem prepare_congr {node : Node} {c c' : Context}
    (hprompt : Template.fill (.live c) (asked node) = Template.fill (.live c') (asked node))
    (hinputs : Template.fillEntries (.live c) (written node) [] = Template.fillEntries (.live c') (written node) [])
    (hpayload : ∀ own, withPayload own c.triggerData = withPayload own c'.triggerData) :
    Briefing.prepare node c = Briefing.prepare node c' := by
  unfold asked written at hprompt
  unfold written at hinputs
  unfold Briefing.prepare
  simp only [hprompt, hinputs, hpayload]

/-- The briefing of a node, from its prompt and its inputs with their templates filled. -/
def briefing (node : Node) (c : Context) (prompt : String) (filled : Entries Value) : Briefing :=
  let inputs := filled.set "prompt" (.str prompt)
  let merged := withPayload (Value.field inputs "context") c.triggerData
  { agent := named node
    prompt
    inputs := if merged.isNull then inputs else inputs.set "context" merged
    options := Decision.options (node.setting "custom_decisions")
    config := node.config.filter fun entry => entry.1 != "inputs" }

section Prepared

variable {node : Node} {c : Context} {prompt : String}

/-- A node that names an agent and says something to it is briefed if its inputs can be filled. -/
theorem prepare_eq (hagent : (named node).truthy = true) (hprompt : Template.fill (.live c) (asked node) = .ok prompt)
    (hblank : Text.isBlankText prompt = false) :
    Briefing.prepare node c = briefing node c prompt <$> Template.fillEntries (.live c) (written node) [] := by
  unfold named at hagent
  unfold asked written at hprompt
  unfold Briefing.prepare written
  simp only [hagent, hprompt]
  show (if Text.isBlankText prompt = true then _ else _) = _
  rw [hblank]
  cases Template.fillEntries (.live c) ((node.setting "inputs").entries?.getD []) [] <;> rfl

/-- The prompt is sent with the inputs. -/
theorem prompt_sent (filled : Entries Value) :
    (briefing node c prompt filled).sent.get? "prompt" = some (.str prompt) := by
  unfold Briefing.sent briefing
  rw [Entries.get?_set_ne _ _ (by decide)]
  dsimp only
  split
  · exact Entries.get?_set_self _ _ _
  · rw [Entries.get?_set_ne _ _ (by decide), Entries.get?_set_self]

end Prepared

/-- The call of an agent with a briefing. -/
def Briefing.call (b : Briefing) (name : String) (origin : Origin) : Call :=
  { role := .agent, id := name, origin := some origin, first := .map b.sent, second := .map b.config }

end Agent

/-! ## Who is called -/

namespace Registry

/-- The name under which a collaborator of an id is held. -/
def nameOf? (r : Registry) : Value → Option String
  | .str name => if (r.get? name).join.isSome then some name else none
  | _ => none

/-- Who is asked for is held under the name, or a fault. -/
theorem require_cases (r : Registry) (role : Role) (id : Value) :
    (∃ fault, r.require role id = .error fault ∧ r.nameOf? id = none) ∨
      ∃ name collaborator, r.require role id = .ok (name, collaborator) ∧ r.nameOf? id = some name := by
  unfold require find? nameOf?
  cases id with
  | str name =>
    dsimp only
    cases (r.get? name).join with
    | none => exact .inl ⟨_, rfl, rfl⟩
    | some collaborator => exact .inr ⟨name, collaborator, rfl, rfl⟩
  | null | bool | num | list | map => exact .inl ⟨_, rfl, rfl⟩

theorem nameOf?_congr {r r' : Registry} (h : ∀ name, (r'.get? name).join.isSome = (r.get? name).join.isSome) (id : Value) :
    r'.nameOf? id = r.nameOf? id := by
  cases id with
  | str name => rw [nameOf?, nameOf?, h]
  | null | bool | num | list | map => rfl

end Registry

namespace Agent

/-- The fault of an answer that came too late. -/
def tooLate (node : Node) (limit : Number) (elapsed : Span) : Fault :=
  .failed
    { kind := .timeout
      node := node.id
      type := NodeType.agent.name
      message := "Execution exceeded timeout (" ++ limit.text ++ "s, took " ++ elapsed.seconds ++ "s)"
      output := .null }

variable (node : Node) (c : Context) (execution : String) (b : Briefing) (w : World)

/-- An answer counts unless the time is up. -/
theorem run_inTime (limit : Number) (start : Int) (answer : Value) :
    Engine.run (do
        let elapsed ← Engine.since start
        if elapsed.exceeds limit then throw (tooLate node limit elapsed)
        return answer) w =
      (if (w.clock.since start).exceeds limit then .error (tooLate node limit (w.clock.since start)) else .ok answer,
        w) := by
  rw [run_bind_ok (run_since start w)]
  cases (w.clock.since start).exceeds limit <;> rfl

/-- What comes of asking the agent of a briefing: that no such agent is held, its fault, that it took too long, or its
answer. -/
def reply : Except Fault Value :=
  match w.agents.require .agent b.agent with
  | .error fault => .error fault
  | .ok (name, collaborator) =>
    let reply := collaborator.answer collaborator.answered (b.call name ⟨execution, node.id⟩)
    match reply.outcome with
    | .error fault => .error fault
    | .ok answer =>
      let elapsed := (w.clock.advance reply.ticks).since w.clock.reading
      if elapsed.exceeds w.config.agentTimeout then .error (tooLate node w.config.agentTimeout elapsed) else .ok answer

/-- Where the agents, the time and the configuration are the same, the same comes of it. -/
theorem reply_congr {w w' : World} (ha : w'.agents = w.agents) (ht : w'.clock = w.clock) (hc : w'.config = w.config) :
    reply node execution b w' = reply node execution b w := by
  rw [reply, reply, ha, ht, hc]

/-- An agent that is held is called once. -/
theorem run_ask :
    ∃ u, Engine.run (ask node execution b) w = (reply node execution b w, u) ∧
      u.calls = w.calls ++ ((w.agents.nameOf? b.agent).map (b.call · ⟨execution, node.id⟩)).toList := by
  have hagents : w.registry .agent = w.agents := rfl
  unfold ask reply
  rw [run_bind_ok (run_config w)]
  dsimp only
  rw [run_bind_ok (run_reading w), run_bind, Registry.run_call, hagents]
  rcases w.agents.require_cases .agent b.agent with ⟨fault, hr, hn⟩ | ⟨name, collaborator, hr, hn⟩
  · rw [hr, hn]
    exact ⟨w, rfl, (List.append_nil _).symm⟩
  · rw [hr, hn]
    dsimp only
    refine ⟨w.called (b.call name ⟨execution, node.id⟩) collaborator, ?_, World.calls_called _ _ _⟩
    dsimp only [Briefing.call]
    cases (collaborator.answer collaborator.answered _).outcome with
    | error fault => rfl
    | ok answer => exact run_inTime node _ _ _ answer

/-- What becomes of the answer of an agent, or of the fault instead. -/
inductive Reported (b : Briefing) : (asked reported : Except Fault Value) → Prop
  | answered (answer : Value) : Reported b (.ok answer) (.ok (b.answered answer))
  | refused {fault : Fault} {f : NodeFailure} : f.message = fault.message → f.output = b.refused fault.message →
      Reported b (.error fault) (.error (.failed f))

/-- A fault keeps its message, and gets the record of what was sent. -/
theorem run_failure (fault : Fault) :
    ∃ f u, Engine.run (failure node b fault) w = (.ok (.failed f), u) ∧ Quiet w u ∧ f.message = fault.message ∧
      f.output = b.refused fault.message := by
  unfold failure
  cases fault with
  | failed f => exact ⟨_, w, rfl, .refl w, rfl, rfl⟩
  | _ => exact ⟨_, _, rfl, hushed_log (by decide) w, rfl, rfl⟩

variable {node c b} in
/-- A node with a briefing asks its agent, once if it is held, and reports what comes of that. -/
theorem run_prepared (hb : Briefing.prepare node c = .ok b) :
    ∃ result u, Engine.run (run node c execution) w = (result, u) ∧
      u.calls = w.calls ++ ((w.agents.nameOf? b.agent).map (b.call · ⟨execution, node.id⟩)).toList ∧
      Reported b (reply node execution b w) result := by
  obtain ⟨v, hask, hcalls⟩ := run_ask node execution b w
  unfold run
  rw [run_ofExcept_bind hb, run_bind_ok (run_attempt _ w), hask]
  cases reply node execution b w with
  | ok answer => exact ⟨_, v, rfl, hcalls, .answered answer⟩
  | error fault =>
    obtain ⟨f, u, hf, hq, hmessage, houtput⟩ := run_failure node b v fault
    dsimp only
    rw [run_bind_ok hf]
    exact ⟨_, u, rfl, hq.calls.trans hcalls, .refused hmessage houtput⟩

/-- The calls of a node are told by its briefing. -/
theorem calls_run : (Engine.run (run node c execution) w).2.calls =
    w.calls ++ match Briefing.prepare node c with
      | .error _ => []
      | .ok b => ((w.agents.nameOf? b.agent).map (b.call · ⟨execution, node.id⟩)).toList := by
  cases hb : Briefing.prepare node c with
  | error fault =>
    unfold run
    rw [run_ofExcept_bind_error hb]
    exact (List.append_nil _).symm
  | ok b =>
    obtain ⟨result, u, hr, hcalls, -⟩ := run_prepared execution w hb
    rw [hr, hcalls]

/-! ## Comments -/

/-- Of a comment nothing but the content is told: a node without templates makes the same briefing of two comments with the
same content, whatever else their payloads and contexts hold, and either calls the agent with the same inputs and
configuration for both, or for neither. -/
theorem comments_told_alike {node : Node} {p p' : Entries Value} {c c' : Context} {w w' : World}
    (hprompt : Template.plain (node.setting "prompt") = true) (hinputs : Template.plain (node.setting "inputs") = true)
    (hp : SameComment p p') (hc : c.triggerData = .map p) (hc' : c'.triggerData = .map p')
    (hagents : ∀ name, (w'.agents.get? name).join.isSome = (w.agents.get? name).join.isSome)
    (execution execution' : String) :
    let left := Engine.run (run node c execution) w
    let right := Engine.run (run node c' execution') w'
    Briefing.prepare node c = Briefing.prepare node c' ∧
    (left.2.calls = w.calls ∧ right.2.calls = w'.calls ∨
      ∃ name inputs config,
        left.2.calls = w.calls ++ [⟨.agent, name, some ⟨execution, node.id⟩, inputs, config⟩] ∧
        right.2.calls = w'.calls ++ [⟨.agent, name, some ⟨execution', node.id⟩, inputs, config⟩]) := by
  intro left right
  have hbriefing : Briefing.prepare node c = Briefing.prepare node c' := by
    refine prepare_congr (Template.fill_plain (plain_asked hprompt hinputs))
      (Template.fillEntries_plain (plain_written hinputs)) fun own => ?_
    rw [hc, hc', hp.withPayload_eq]
  refine ⟨hbriefing, ?_⟩
  have hleft : left.2.calls = _ := calls_run node c execution w
  have hright : right.2.calls = _ := calls_run node c' execution' w'
  rw [← hbriefing] at hright
  cases hb : Briefing.prepare node c with
  | error fault =>
    rw [hb, List.append_nil] at hleft hright
    exact .inl ⟨hleft, hright⟩
  | ok b =>
    rw [hb] at hleft hright
    dsimp only at hleft hright
    rw [Registry.nameOf?_congr hagents] at hright
    cases hn : w.agents.nameOf? b.agent with
    | none =>
      rw [hn, Option.map_none, Option.toList_none, List.append_nil] at hleft hright
      exact .inl ⟨hleft, hright⟩
    | some name =>
      rw [hn, Option.map_some, Option.toList_some] at hleft hright
      exact .inr ⟨name, .map b.sent, .map b.config, hleft, hright⟩

end Agent

namespace Sample

/-- A node that asks an agent for an answer. -/
def replying : Node :=
  node "reply" "agent"
    [("agent_id", .str "helper"), ("prompt", .str "Reply"), ("inputs", .map [("tone", .str "kind")])]

/-- A world with the agent that answers. -/
def helped : World :=
  { World.initial {} "" none with agents := [("helper", some (Script.collaborator []))] }

end Sample

namespace Agent

/-- Of two comments with the same content the agent is told the content, and neither who wrote the one nor where the other
stands. -/
theorem comments_told_alike_sample :
    let p : Entries Value := [("comment_id", .int 7), ("content", .str "Hi"), ("email", .str "x@y")]
    let p' : Entries Value := [("post", .int 3), ("comment", .map []), ("content", .str "Hi")]
    let asked (payload : Entries Value) :=
      Engine.run (run Sample.replying (.start (.map payload)) "x") Sample.helped
    let told := [("tone", .str "kind"), ("prompt", .str "Reply"), ("context", .map [("content", .str "Hi")]),
      ("decision_options", .list [.str "yes", .str "no", .str "maybe"])]
    let config := [("agent_id", .str "helper"), ("prompt", .str "Reply")]
    Template.plain (Sample.replying.setting "prompt") = true ∧ Template.plain (Sample.replying.setting "inputs") = true ∧
      SameComment p p' ∧
      (asked p).2.calls = [⟨.agent, "helper", some ⟨"x", "reply"⟩, .map told, .map config⟩] ∧
      (asked p').2.calls = (asked p).2.calls := by
  intro p p' asked told config
  have hprompt : Template.plain (Sample.replying.setting "prompt") = true := by decide
  have hinputs : Template.plain (Sample.replying.setting "inputs") = true := by decide
  have hp : SameComment p p' := ⟨rfl, rfl, .inl rfl⟩
  have hcalls : (asked p).2.calls = [⟨.agent, "helper", some ⟨"x", "reply"⟩, .map told, .map config⟩] := by
    have hbriefing := @prepare_eq Sample.replying (.start (.map p)) "Reply" rfl rfl rfl
    exact (calls_run _ _ _ _).trans (by rw [hbriefing]; rfl)
  obtain ⟨-, halike⟩ := @comments_told_alike Sample.replying p p' (.start (.map p)) (.start (.map p')) Sample.helped
    Sample.helped hprompt hinputs hp rfl rfl (fun _ => rfl) "x" "x"
  refine ⟨hprompt, hinputs, hp, hcalls, ?_⟩
  rcases halike with ⟨hnone, -⟩ | ⟨name, inputs, config, hleft, hright⟩
  · exact absurd (hcalls.symm.trans hnone) (by rintro ⟨⟩)
  · exact hright.trans hleft.symm

end Agent

end WorkGraph
