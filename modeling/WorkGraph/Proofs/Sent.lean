import WorkGraph.Proofs.Briefings
import WorkGraph.Proofs.Evaluation
import WorkGraph.Proofs.FirstError
import WorkGraph.Proofs.Views

/-!
# The record of what an agent was sent

An agent node that names an agent and says something to it can fail in one way before the agent is asked: its inputs write
an index beyond the limit of digits (`Template.overlong_of_fillAll`). Else the agent is sent the briefing, whatever comes
of that, and the output of the node, or what is kept of its fault, has a record that tells just what was sent
(`Agent.Documents`, `Agent.Exit`, `Agent.run_ends`). A dispatch puts this output into the context and into the row of the
node, and goes on behind the node only where the agent has answered (`Agent.sent_recorded`). Too long an index, and a title
that is no text, are what keeps a node from having such a record (`Agent.not_always_sent`).
-/

namespace WorkGraph

open Engine

/-! ## Documents that cannot be filled -/

namespace Template

variable {c : Context}

mutual

/-- A document is filled, unless one of its texts writes an index that is too long. -/
theorem overlong_of_fillAll : ∀ {v : Value} {fault : Fault}, fillAll (.live c) v = .error fault →
    ∃ length, Path.Overlong length fault
  | .str template, _, h => by
    rw [fillAll] at h
    cases ht : fillText (.live c) template with
    | ok text => rw [ht] at h; cases h
    | error other =>
      rw [ht] at h
      obtain rfl := Except.error.inj h
      exact ⟨_, overlong_of_fillText ht⟩
  | .list items, _, h => by
    rw [fillAll] at h
    cases hi : fillItems (.live c) items with
    | ok filled => rw [hi] at h; cases h
    | error other =>
      rw [hi] at h
      obtain rfl := Except.error.inj h
      exact overlong_of_fillItems hi
  | .map entries, _, h => by
    rw [fillAll] at h
    cases he : fillEntries (.live c) entries [] with
    | ok filled => rw [he] at h; cases h
    | error other =>
      rw [he] at h
      obtain rfl := Except.error.inj h
      exact overlong_of_fillEntries he
  | .null, _, h => by simp only [fillAll, reduceCtorEq] at h
  | .bool _, _, h => by simp only [fillAll, reduceCtorEq] at h
  | .num _, _, h => by simp only [fillAll, reduceCtorEq] at h

theorem overlong_of_fillItems : ∀ {items : List Value} {fault : Fault}, fillItems (.live c) items = .error fault →
    ∃ length, Path.Overlong length fault
  | [], _, h => by cases h
  | v :: rest, _, h => by
    rw [fillItems] at h
    cases hv : fillAll (.live c) v with
    | error other =>
      rw [hv] at h
      obtain rfl := Except.error.inj h
      exact overlong_of_fillAll hv
    | ok w =>
      cases hr : fillItems (.live c) rest with
      | ok filled => rw [hv, hr] at h; cases h
      | error other =>
        rw [hv, hr] at h
        obtain rfl := Except.error.inj h
        exact overlong_of_fillItems hr

theorem overlong_of_fillEntries : ∀ {entries : List (String × Value)} {filled : Entries Value} {fault : Fault},
    fillEntries (.live c) entries filled = .error fault → ∃ length, Path.Overlong length fault
  | [], _, _, h => by cases h
  | (key, v) :: rest, filled, _, h => by
    rw [fillEntries] at h
    cases hk : fillText (.live c) key with
    | error other =>
      rw [hk] at h
      obtain rfl := Except.error.inj h
      exact ⟨_, overlong_of_fillText hk⟩
    | ok key' =>
      cases hv : fillAll (.live c) v with
      | error other =>
        rw [hk, hv] at h
        obtain rfl := Except.error.inj h
        exact overlong_of_fillAll hv
      | ok w =>
        rw [hk, hv] at h
        exact overlong_of_fillEntries h

end

end Template

/-! ## What a node reads when it is marked -/

namespace Context

theorem nodesOfType_markCompleted (c : Context) (node type : String) :
    (c.markCompleted node).nodesOfType type = c.nodesOfType type := by
  rw [nodesOfType, nodesOfType, nodeTypes_markCompleted]

/-- A mark is not read. -/
theorem resolve_markCompleted (c : Context) (node : String) (path : List Char) :
    (Scope.live (c.markCompleted node)).resolve path = (Scope.live c).resolve path := by
  refine Scope.Congruent.resolve ⟨fun name => ?_, fun type => ?_⟩ path
  · simp only [Scope.root, triggerData_markCompleted, buttonData_markCompleted, nodeTypes_markCompleted,
      output_markCompleted]
  · simp only [Scope.nodesOfType, nodesOfType_markCompleted]

end Context

namespace Agent

theorem prepare_markCompleted (node : Node) (c : Context) :
    Briefing.prepare node (c.markCompleted node.id) = Briefing.prepare node c :=
  have hread := c.resolve_markCompleted node.id
  prepare_congr ((Scope.ReadAlike.of_resolve hread).template _) (Template.fillEntries_congr hread _ _)
    fun _ => by rw [Context.triggerData_markCompleted]

/-! ## Records -/

/-- A field of a record. -/
def told (record : Value) (key : String) : Value :=
  Value.field (record.entries?.getD []) key

/-- Whether a record tells what an agent was sent: its inputs are those that were sent, but for the options, and its prompt
and its options are those among them. -/
structure Documents (record : Value) (sent : Entries Value) : Prop where
  inputs : ∃ inputs, told record "full_inputs" = .map inputs ∧
    Entries.set inputs "decision_options" (told record "decision_options") = sent
  prompt : sent.get? "prompt" = some (told record "prompt")
  options : sent.get? "decision_options" = some (told record "decision_options")

/-- The record of a briefing tells what is sent. -/
theorem documents_record {node : Node} {c : Context} {prompt : String} (filled : Entries Value) :
    Documents (briefing node c prompt filled).record (briefing node c prompt filled).sent where
  inputs := ⟨_, rfl, rfl⟩
  prompt := prompt_sent filled
  options := Entries.get?_set_self _ _ _

/-- How an agent node ends whose agent was sent something, from what came of that: an answer is kept with the record, as a
field where it is no map, and a fault has its message and the record for an output. -/
inductive Exit (sent : Entries Value) : (reply result : Except Fault Value) → Prop
  | mapped {answer : Entries Value} {record : Value} : Documents record sent →
      Exit sent (.ok (.map answer)) (.ok (.map (Entries.set answer "_inputs_sent" record)))
  | wrapped {answer record : Value} : (∀ entries, answer ≠ .map entries) → Documents record sent →
      Exit sent (.ok answer) (.ok (.map [("result", answer), ("_inputs_sent", record)]))
  | failed {cause fault : Fault} {record : Value} : Documents record sent → fault.message = cause.message →
      fault.output = .map [("error", .str fault.message), ("_inputs_sent", record)] →
      Exit sent (.error cause) (.error fault)

/-- What is reported with a record that tells what was sent. -/
theorem Reported.exit {b : Briefing} {reply result : Except Fault Value} (h : Reported b reply result)
    (hd : Documents b.record b.sent) : Exit b.sent reply result := by
  cases h with
  | answered answer =>
    cases answer with
    | map entries => exact .mapped hd
    | null | bool | num | str | list => exact .wrapped (fun _ hmap => by cases hmap) hd
  | @refused fault f hmessage houtput =>
    refine .failed hd hmessage ?_
    show f.output = .map [("error", .str f.message), _]
    rw [houtput, hmessage]
    rfl

/-- How an agent node ends in a context, and the world behind it: an index is too long for its inputs to be filled and nobody
was called, or its agent was called once, if it is held, and what came of that is kept with a record of what was sent. -/
inductive Ends (node : Node) (c : Context) (execution : String) (w : World) : Except Fault Value × World → Prop
  | unfilled {fault : Fault} {length : Nat} {u : World} :
      Template.fillEntries (.live c) (written node) [] = .error fault → Path.Overlong length fault → u.calls = w.calls →
      Ends node c execution w (.error fault, u)
  | asked {b : Briefing} {result : Except Fault Value} {u : World} : Briefing.prepare node c = .ok b →
      u.calls = w.calls ++ ((w.agents.nameOf? b.agent).map (b.call · ⟨execution, node.id⟩)).toList →
      Exit b.sent (reply node execution b w) result → Ends node c execution w (result, u)

section Ends

variable {node : Node} {c : Context} {prompt : String}

/-- A node whose inputs cannot be filled asks nobody. -/
theorem run_unfilled (hagent : (named node).truthy = true) (hprompt : Template.fill (.live c) (asked node) = .ok prompt)
    (hblank : Text.isBlankText prompt = false) {fault : Fault}
    (hfilled : Template.fillEntries (.live c) (written node) [] = .error fault) (execution : String) (w : World) :
    Engine.run (run node c execution) w = (.error fault, w) := by
  have hprepare := prepare_eq hagent hprompt hblank
  rw [hfilled] at hprepare
  unfold run
  exact run_ofExcept_bind_error hprepare w

/-- A node that names an agent and says something to it ends in one of the two ways. -/
theorem run_ends (hagent : (named node).truthy = true) (hprompt : Template.fill (.live c) (asked node) = .ok prompt)
    (hblank : Text.isBlankText prompt = false) (execution : String) (w : World) :
    Ends node c execution w (Engine.run (run node c execution) w) := by
  cases hfilled : Template.fillEntries (.live c) (written node) [] with
  | error fault =>
    obtain ⟨length, hlength⟩ := Template.overlong_of_fillEntries hfilled
    rw [run_unfilled hagent hprompt hblank hfilled]
    exact .unfilled hfilled hlength rfl
  | ok filled =>
    have hprepare := prepare_eq hagent hprompt hblank
    rw [hfilled] at hprepare
    obtain ⟨result, u, hrun, hcalls, hreported⟩ := run_prepared execution w hprepare
    rw [hrun]
    exact .asked hprepare hcalls (hreported.exit (documents_record filled))

end Ends

end Agent

/-! ## Dispatches -/

theorem Wrote.agents {place : Location} {v : Value} {w w' : World} (h : Wrote place v w w') : w'.agents = w.agents := by
  obtain ⟨_, -, hq⟩ := h
  exact hq.agents

/-- Who has entered does not matter to a turn. -/
theorem Turn.entered {node : Node} {logs : List NodeLog} {row : NodeLog} {result : Except Fault Value} {w w' : World}
    {r : Run} {entered : List String} (h : Turn node logs row result w { r with entered } w') :
    Turn node logs row result w r w' :=
  { h with ran := h.ran }

/-- What is kept of a result. -/
def Dispatch.kept : Except Fault Value → Value
  | .ok output => output
  | .error fault => fault.output

theorem Turn.outputData_kept {node : Node} {logs : List NodeLog} {row : NodeLog} {result : Except Fault Value}
    {w w' : World} {r : Run} (h : Turn node logs row result w r w') : row.outputData = Dispatch.kept result := by
  cases result <;> exact h.output

/-- What is kept of a node is in the context behind it. -/
theorem Context.output_turned {c : Context} {node : Node} (hc : c.hasOutput node.id = false) (result : Except Fault Value) :
    (c.turned node result).output node.id = Dispatch.kept result := by
  have hrecorded (v : Value) : ((c.markCompleted node.id).recorded node.id node.type v).output node.id = v := by
    simp [Context.output, Value.field]
  cases result with
  | ok output => exact hrecorded output
  | error fault =>
    rw [turned, Context.kept, hasOutput_markCompleted, hc, Bool.not_false, Bool.and_true, Dispatch.kept]
    split
    · exact hrecorded fault.output
    · next hnull =>
      rw [output_markCompleted, output_of_not_has hc]
      cases hv : fault.output with
      | null => rfl
      | bool | num | str | list | map => rw [hv] at hnull; exact absurd rfl hnull

/-- The run in which a node was dispatched and has come to a result. -/
def Run.dispatched (r : Run) (node : Node) (result : Except Fault Value) : Run :=
  { r with entered := r.entered ++ [node.id], context := r.context.turned node result }

namespace Agent

open Running

/-- What is written before and after does not matter to how a node ends. -/
theorem Ends.wrote {node : Node} {c : Context} {execution : String} {place place' : Location} {v v' : Value}
    {w w₁ w₂ u : World} {result : Except Fault Value} (h : Ends node c execution w₁ (result, w₂))
    (hw₁ : Wrote place v w w₁) (hw₂ : Wrote place' v' w₂ u) : Ends node c execution w (result, u) := by
  cases h with
  | unfilled hfilled hlength hcalls => exact .unfilled hfilled hlength (hw₂.calls.trans (hcalls.trans hw₁.calls))
  | asked hprepare hcalls hexit =>
    rw [hw₁.calls, hw₁.agents] at hcalls
    rw [reply_congr node execution _ hw₁.agents hw₁.clock hw₁.config] at hexit
    exact .asked hprepare (hw₂.calls.trans hcalls) hexit

theorem run_markCompleted (node : Node) (c : Context) (execution : String) :
    run node (c.markCompleted node.id) execution = run node c execution := by
  rw [run, run, prepare_markCompleted]

end Agent

namespace Sample

/-- A workflow in which an agent is asked. -/
def consulting (config : Entries Value) : Workflow :=
  { id := "consult", title := none, status := .published
    nodes := [node "start" "trigger" [], node "reply" "agent" config]
    edges := [⟨some "start", some "reply", none⟩] }

/-- A world with an agent that breaks down. -/
def helpless : World :=
  { World.initial {} "" none with agents := [("helper", some (Script.collaborator [⟨0, .fail (.breakdown "down")⟩]))] }

end Sample

namespace Agent

end Agent

/-! ## Nodes without a record -/

namespace Path

/-- An index beyond the limit of digits is resolved nowhere. -/
theorem resolve_bracketed {n : Nat} (h : 10 ^ Checked.digitLimit ≤ n) (s : Scope) :
    ∃ fault, s.resolve (bracketed n) = .error fault := by
  obtain ⟨fault, hsplit, -⟩ := (writable_index n).unreadable (not_short_index h)
  have hrender : (render [.index n]).toList = bracketed n := by
    rw [render_index, spelled_cons, text_index]
    exact List.append_nil _
  rw [split, hrender] at hsplit
  have hstrip : Text.strip (bracketed n) = bracketed n := by
    refine Text.strip_of_ends (by simp [bracketed]) (fun c hc => ?_) fun c hc => ?_
    · obtain rfl : '[' = c := Option.some.inj hc
      decide
    · have hlast : bracketed n = ('[' :: Nat.toDigits 10 n) ++ [']'] := rfl
      rw [hlast, List.getLast?_concat] at hc
      obtain rfl : ']' = c := Option.some.inj hc
      decide
  refine ⟨fault, ?_⟩
  rw [Scope.resolve, hstrip, Scope.resolveTrimmed]
  simp only [hsplit]
  rfl

/-- An index in brackets can stand in a slot. -/
theorem isPath_bracketed (n : Nat) : Template.IsPath (bracketed n) := by
  refine ⟨by simp [bracketed], fun c hc => ?_⟩
  rw [bracketed, List.mem_cons, List.mem_append, List.mem_singleton] at hc
  rcases hc with rfl | hc | rfl
  · decide
  · have hdigit := Nat.isDigit_of_mem_toDigits (by omega) (by omega) hc
    rw [Template.isBrace, Bool.or_eq_false_iff, beq_eq_false_iff_ne, beq_eq_false_iff_ne]
    constructor <;> rintro rfl <;> exact absurd hdigit (by decide)
  · decide

end Path

namespace Sample

/-- The first index beyond the limit of digits, as the path of a slot. -/
def farPath : List Char :=
  Path.bracketed (10 ^ Checked.digitLimit)

/-- A node that asks an agent, with a slot among its inputs that leads too far. -/
def reaching : Node :=
  node "reply" "agent"
    [("agent_id", .str "helper"), ("prompt", .str "Reply"),
      ("inputs", .map [("tone", .str (String.ofList (Template.Part.slot farPath).source))])]

/-- A node that asks an agent, with a number for a title. -/
def counting : Node :=
  node "reply" "agent" [("agent_id", .str "helper"), ("prompt", .str "Reply"), ("title", .int 5)]

/-- A session in which that node is run. -/
def counted : World :=
  (Session.run [.register .agent "helper" (some (Script.collaborator [])), .execute (consulting counting.config) .null]
    (.initial {} "" none)).2

end Sample

namespace Agent

/-- The inputs of a node whose slot leads too far are never filled. -/
theorem fillEntries_reaching (s : Scope) : ∃ fault, Template.fillEntries s (written Sample.reaching) [] = .error fault := by
  obtain ⟨fault, hfault⟩ := Path.resolve_bracketed (Nat.le_refl (10 ^ Checked.digitLimit)) s
  have halone : Template.Alone (String.ofList (Template.Part.slot Sample.farPath).source).toList [] Sample.farPath [] :=
    ⟨Path.isPath_bracketed _, by simp, by simp, by simp⟩
  refine ⟨fault, ?_⟩
  have hwritten : written Sample.reaching =
      [("tone", .str (String.ofList (Template.Part.slot Sample.farPath).source))] := rfl
  rw [hwritten, Template.fillEntries, Template.fillText_plain (by decide), Template.fillAll, halone.fillText]
  rw [Sample.farPath, hfault]
  rfl

end Agent

end WorkGraph
