import WorkGraph.Dispatch
import WorkGraph.Proofs.Writes

/-!
# What a node does to the world

A node that runs makes at most one call, on its own behalf, and adds at most one mapping, to itself (`Worked`,
`runNode_worked`). A mapping is added only where a tool for messages with buttons has sent a message that waits for a
click.
-/

namespace WorkGraph

/-! ## One call -/

/-- The world after a collaborator was called. -/
def World.called (w : World) (call : Call) (collaborator : Collaborator) : World :=
  let reply := collaborator.answer collaborator.answered call
  let counted : Collaborator := { collaborator with answered := collaborator.answered + 1 }
  let noted : World := { w with trace := w.trace ++ [.call call] }
  let w := noted.setRegistry call.role ((w.registry call.role).set call.id (some counted))
  { w with clock := w.clock.advance reply.ticks }

/-- Who is called, with what, and what comes of it. -/
theorem Registry.run_call (role : Role) (id : Value) (origin : Option Origin) (first second : Value) (w : World) :
    Engine.run (call role id origin first second) w =
      match (w.registry role).require role id with
      | .error fault => (.error fault, w)
      | .ok (name, collaborator) =>
        let call : Call := { role, id := name, origin, first, second }
        ((collaborator.answer collaborator.answered call).outcome, w.called call collaborator) := by
  unfold call
  rw [Engine.run_get_bind, Engine.run_bind, Engine.run_ofExcept]
  cases (w.registry role).require role id with
  | error fault => rfl
  | ok found =>
    obtain ⟨name, collaborator⟩ := found
    cases role <;> exact Engine.run_ofExcept _ _

/-- A mapping was added to those of its message. -/
def Mapped (mapping : ButtonMapping) (s t : Storage) : Prop :=
  ∃ rows, s.read (Store.Mappings.place mapping.messageId) (.list []) = .ok (.list rows) ∧
    s.write (Store.Mappings.place mapping.messageId) (.list (rows ++ [mapping.toValue])) = .ok t

/-- What a node may have done to the world. -/
structure Worked (origin : Origin) (workflow : String) (w w' : World) : Prop where
  config : w'.config = w.config
  issued : w'.issued = w.issued
  steady : w.Steady → w'.Steady
  service : w'.auditor.map Auditor.service = w.auditor.map Auditor.service
  accepted : w'.accepted = w.accepted
  calls : w'.calls = w.calls ∨ ∃ call, call.origin = some origin ∧ w'.calls = w.calls ++ [call]
  storage : w'.storage = w.storage ∨ ∃ mapping, mapping.executionId = origin.execution ∧
    mapping.nodeId = origin.node ∧ mapping.workflowId = workflow ∧ Mapped mapping w.storage w'.storage

/-- A call is noted. -/
theorem World.calls_called (w : World) (call : Call) (collaborator : Collaborator) :
    (w.called call collaborator).calls = w.calls ++ [call] := by
  unfold called calls
  cases call.role <;> simp [setRegistry, Effect.call?]

namespace Worked

variable {origin : Origin} {workflow : String} {u w w' : World}

theorem of_quiet (h : Quiet w w') : Worked origin workflow w w' :=
  ⟨h.config, h.issued, h.steady, h.auditor, h.accepted, .inl h.calls, .inl h.storage⟩

theorem after (h : Worked origin workflow u w) (k : Quiet w w') : Worked origin workflow u w' where
  config := k.config.trans h.config
  issued := k.issued.trans h.issued
  steady := k.steady ∘ h.steady
  service := k.auditor.trans h.service
  accepted := k.accepted.trans h.accepted
  calls := by rw [k.calls]; exact h.calls
  storage := by rw [k.storage]; exact h.storage

/-- A call on behalf of the node. -/
theorem of_called {call : Call} (h : call.origin = some origin) (collaborator : Collaborator) (w : World) :
    Worked origin workflow w (w.called call collaborator) := by
  have hc := w.calls_called call collaborator
  have ha : (w.called call collaborator).accepted = w.accepted := by
    unfold World.called World.accepted
    cases call.role <;> simp [World.setRegistry, Effect.acceptance?]
  unfold World.called at *
  cases hr : call.role <;> rw [hr] at hc ha
  · exact ⟨rfl, rfl, id, rfl, ha, .inr ⟨call, h, hc⟩, .inl rfl⟩
  · exact ⟨rfl, rfl, id, rfl, ha, .inr ⟨call, h, hc⟩, .inl rfl⟩

/-- One mapping more, of the node. -/
theorem of_wrote {mapping : ButtonMapping} {rows : List Value} (h : Worked origin workflow u w)
    (hs : w.storage = u.storage) (he : mapping.executionId = origin.execution) (hn : mapping.nodeId = origin.node)
    (hw : mapping.workflowId = workflow)
    (hr : w.storage.read (Store.Mappings.place mapping.messageId) (.list []) = .ok (.list rows))
    (hp : Wrote (Store.Mappings.place mapping.messageId) (.list (rows ++ [mapping.toValue])) w w') :
    Worked origin workflow u w' where
  config := hp.config.trans h.config
  issued := hp.issued.trans h.issued
  steady := hp.steady ∘ h.steady
  service := hp.service.trans h.service
  accepted := hp.accepted.trans h.accepted
  calls := by rw [hp.calls]; exact h.calls
  storage := by
    obtain ⟨storage, hst, hq⟩ := hp
    rw [hs] at hr hst
    exact .inr ⟨mapping, he, hn, hw, rows, hr, hq.storage ▸ hst⟩

end Worked

/-- A call changes no file. -/
@[simp] theorem World.storage_called (w : World) (call : Call) (collaborator : Collaborator) :
    (w.called call collaborator).storage = w.storage := by
  unfold called
  cases call.role <;> rfl

/-- A call on behalf of a node, whatever comes of it. -/
theorem Registry.call_worked (role : Role) (id : Value) (origin : Origin) (workflow : String) (first second : Value)
    (w : World) :
    Worked origin workflow w (Engine.run (call role id (some origin) first second) w).2 ∧
      (Engine.run (call role id (some origin) first second) w).2.storage = w.storage := by
  rw [run_call]
  cases (w.registry role).require role id with
  | error fault => exact ⟨.of_quiet (.refl w), rfl⟩
  | ok found => exact ⟨.of_called rfl _ w, World.storage_called _ _ _⟩

/-! ## Mappings -/

open Engine

namespace Store.Mappings

variable {mapping : ButtonMapping} {w : World} {rows : List Value}

/-- A mapping is added to those of its message, numbered by its place. -/
theorem save_posted (h : w.storage.read (place mapping.messageId) (.list []) = .ok (.list rows)) :
    let stored : ButtonMapping := { mapping with id := rows.length + 1 }
    Posted (place mapping.messageId) (.list (rows ++ [stored.toValue])) stored True w (run (save mapping) w) := by
  intro stored
  refine .entering _ fun u hq => ?_
  rw [← hq.storage] at h
  have hw := Posted.writeFile (place mapping.messageId) (.list (rows ++ [stored.toValue])) u
  rw [run_readFile_bind h, run_ofExcept_bind (rowCount_list _)]
  dsimp only
  rw [run_ofExcept_bind (appendRow_list _ _)]
  exact hw.returning stored

/-- Nothing is added to a file that holds something else. -/
theorem save_barred (h : ∀ rows, w.storage.read (place mapping.messageId) (.list []) ≠ .ok (.list rows)) :
    Barred (save mapping) w := by
  refine barred_bind (hushed_entering _) fun _ u _ hq => barred_readFile fun v hv => barred_ofExcept fun count _ =>
    barred_ofExcept fun value hvalue => ?_
  rw [hq.storage] at hv
  cases v with
  | list rows => exact absurd hv (h rows)
  | null | bool | num | str | map => simp [appendRow] at hvalue

end Store.Mappings

/-- Of a message that says under which id it was sent one mapping of the node is kept, if the node declares buttons. -/
theorem ButtonMessage.remember_sent (node : Node) (output : Value) (workflow execution : String) (w : World) :
    let message := (output.entries?.map (Value.field · "message_id")).getD .null
    let out := run (remember node output workflow execution) w
    (Quiet w out.2 ∧ ∀ found, out.1 = .ok found → message.truthy = true → declared node = .ok []) ∨
      (∃ button rest, declared node = .ok (button :: rest)) ∧
      ∃ (m : ButtonMapping) (rows : List Value) (w' : World), m.messageId = message.display ∧ m.executionId = execution ∧
        m.nodeId = node.id ∧ m.workflowId = workflow ∧
        w.storage.read (Store.Mappings.place m.messageId) (.list []) = .ok (.list rows) ∧ out = (.ok (some m), w') ∧
        Wrote (Store.Mappings.place m.messageId) (.list (rows ++ [m.toValue])) w w' := by
  intro message out
  have hout : out = run (remember node output workflow execution) w := rfl
  unfold remember at hout
  dsimp only at hout
  split at hout
  · next hm => exact .inl ⟨hout ▸ .refl w, fun _ _ ht => by simp [message, ht] at hm⟩
  · cases hd : declared node with
    | error fault =>
      rw [hd] at hout
      exact .inl ⟨hout ▸ .refl w, fun _ hf => by rw [hout] at hf; cases hf⟩
    | ok buttons =>
      rw [hd, run_ofExcept_bind rfl] at hout
      cases buttons with
      | nil => exact .inl ⟨hout ▸ hushed_bind (hushed_log (by decide)) (fun _ => hushed_pure _) w, fun _ _ _ => rfl⟩
      | cons button rest =>
        rw [List.isEmpty_cons, if_neg Bool.false_ne_true, run_bind_ok (run_stamp w)] at hout
        generalize hm : ButtonMapping.mk 0 _ _ _ _ _ _ = m at hout
        by_cases hr : ∃ rows, w.storage.read (Store.Mappings.place m.messageId) (.list []) = .ok (.list rows)
        · obtain ⟨rows, hr⟩ := hr
          have hp := Store.Mappings.save_posted hr
          cases hs : run (Store.Mappings.save m) w with
          | mk result w' =>
            rw [hs] at hp
            cases hp with
            | done hw =>
              rw [run_bind_ok hs] at hout
              refine .inr ⟨⟨button, rest, rfl⟩, { m with id := rows.length + 1 }, rows, _, by rw [← hm], by rw [← hm],
                by rw [← hm], by rw [← hm], hr, hout, ?_⟩
              exact hw.after (hushed_log (by decide) w')
            | unheard hn _ => exact absurd trivial hn
            | lost _ hq =>
              rw [run_bind_error hs] at hout
              exact .inl ⟨hout ▸ hq, fun _ hf => by rw [hout] at hf; cases hf⟩
        · obtain ⟨fault, w', hb, hq⟩ := Store.Mappings.save_barred fun rows hrows => hr ⟨rows, hrows⟩
          rw [run_bind_error hb] at hout
          exact .inl ⟨hout ▸ hq, fun _ hf => by rw [hout] at hf; cases hf⟩

/-- What is remembered of an output: nothing, or one mapping of the node. -/
theorem ButtonMessage.remember_cases (node : Node) (output : Value) (workflow execution : String) (w : World) :
    Quiet w (run (remember node output workflow execution) w).2 ∨
      ∃ (m : ButtonMapping) (rows : List Value) (w' : World), m.executionId = execution ∧ m.nodeId = node.id ∧
        m.workflowId = workflow ∧ w.storage.read (Store.Mappings.place m.messageId) (.list []) = .ok (.list rows) ∧
        run (remember node output workflow execution) w = (.ok (some m), w') ∧
        Wrote (Store.Mappings.place m.messageId) (.list (rows ++ [m.toValue])) w w' := by
  rcases remember_sent node output workflow execution w with ⟨hq, -⟩ | ⟨-, m, rows, w', -, hm⟩
  · exact .inl hq
  · exact .inr ⟨m, rows, w', hm⟩

/-! ## Nodes -/

/-- An agent node makes one call at most and changes no file. -/
theorem Agent.run_worked (node : Node) (context : Context) (execution workflow : String) (w : World) :
    Worked ⟨execution, node.id⟩ workflow w (Engine.run (run node context execution) w).2 ∧
      (Engine.run (run node context execution) w).2.storage = w.storage := by
  unfold run
  cases Briefing.prepare node context with
  | error fault => exact ⟨.of_quiet (.refl w), rfl⟩
  | ok b =>
    rw [run_ofExcept_bind rfl, run_bind_ok (run_attempt _ w)]
    have hask : Worked ⟨execution, node.id⟩ workflow w (Engine.run (ask node execution b) w).2 ∧
        (Engine.run (ask node execution b) w).2.storage = w.storage := by
      unfold ask
      rw [run_bind_ok (run_config w)]
      dsimp only
      rw [run_bind_ok (run_reading w)]
      have hcall := Registry.call_worked .agent b.agent ⟨execution, node.id⟩ workflow (.map b.sent) (.map b.config) w
      cases hr : Engine.run (Registry.call .agent b.agent (some ⟨execution, node.id⟩) (.map b.sent) (.map b.config)) w with
      | mk result u =>
        rw [hr] at hcall
        cases result with
        | error fault => rw [run_bind_error hr]; exact hcall
        | ok answer =>
          rw [run_bind_ok hr, run_bind_ok (run_since _ u)]
          split <;> exact hcall
    have hfail : ∀ fault, Hushed (failure node b fault >>= fun f => (throw f : Engine Value)) := by
      intro fault
      refine hushed_bind ?_ fun _ => hushed_throw _
      unfold failure
      split
      · exact hushed_pure _
      · exact hushed_bind (hushed_log (by decide)) fun _ => hushed_pure _
    cases hr : Engine.run (ask node execution b) w with
    | mk result u =>
      rw [hr] at hask
      cases result with
      | ok answer => exact hask
      | error fault => exact ⟨hask.1.after (hfail fault u), (hfail fault u).storage.trans hask.2⟩

namespace Action

/-- A plain action makes one call at most. It adds a mapping only to what waits for a click. -/
theorem runPlain_worked (node : Node) (context : Context) (workflow execution : String) (w : World) :
    let p := Engine.run (runPlain node context workflow execution) w
    Worked ⟨execution, node.id⟩ workflow w p.2 ∧ (p.2.storage = w.storage ∨ ∃ output, p.1 = .ok output ∧
      w.config.isButtonTool (node.setting "tool_id") = true ∧ awaitsClick output = true) := by
  unfold runPlain
  rw [run_bind_ok (run_config w)]
  dsimp only
  split
  · exact ⟨.of_quiet (.refl w), .inl rfl⟩
  · cases inputs w.config node (node.setting "tool_id") context with
    | error fault => exact ⟨.of_quiet (.refl w), .inl rfl⟩
    | ok inputs =>
      rw [run_ofExcept_bind rfl]
      have hcall := Registry.call_worked .tool (node.setting "tool_id") ⟨execution, node.id⟩ workflow (.map inputs)
        (.map context.flat) w
      cases hr : Engine.run (Registry.call .tool (node.setting "tool_id") (some ⟨execution, node.id⟩) (.map inputs)
        (.map context.flat)) w with
      | mk result u =>
        rw [hr] at hcall
        obtain ⟨hworked, hstorage⟩ := hcall
        cases result with
        | error fault => rw [run_bind_error hr]; exact ⟨hworked, .inl hstorage⟩
        | ok output =>
          rw [run_bind_ok hr]
          split
          · next hb =>
            rw [Bool.and_eq_true] at hb
            rcases ButtonMessage.remember_cases node output workflow execution u with
              hq | ⟨m, rows, w', he, hn, hwf, hrows, hres, hw⟩
            · cases hm : Engine.run (ButtonMessage.remember node output workflow execution) u with
              | mk result w' =>
                rw [hm] at hq
                cases result with
                | ok _ => rw [run_bind_ok hm]; exact ⟨hworked.after hq, .inl (hq.storage.trans hstorage)⟩
                | error _ => rw [run_bind_error hm]; exact ⟨hworked.after hq, .inl (hq.storage.trans hstorage)⟩
            · rw [run_bind_ok hres]
              exact ⟨hworked.of_wrote hstorage he hn hwf hrows hw, .inr ⟨output, rfl, hb⟩⟩
          · exact ⟨hworked, .inl hstorage⟩

/-- A conditional action makes one call at most and changes no file. -/
theorem runConditional_worked (node : Node) (context : Context) (execution workflow : String) (w : World) :
    let p := Engine.run (runConditional node context execution) w
    Worked ⟨execution, node.id⟩ workflow w p.2 ∧ p.2.storage = w.storage := by
  have quiet : Worked ⟨execution, node.id⟩ workflow w w ∧ w.storage = w.storage := ⟨.of_quiet (.refl w), rfl⟩
  unfold runConditional
  cases decision? context with
  | none => exact quiet
  | some decision =>
    dsimp only
    cases ((node.setting "conditions").orElse (.list [])).members with
    | error fault => exact quiet
    | ok conditions =>
      rw [run_ofExcept_bind rfl]
      cases chosenTool decision.display conditions with
      | error fault => exact quiet
      | ok tool =>
        rw [run_ofExcept_bind rfl]
        split
        · exact quiet
        · cases (payloadComment context.triggerData).magnitude with
          | error fault => exact quiet
          | ok comment =>
            rw [run_ofExcept_bind rfl]
            exact Registry.call_worked _ _ _ _ _ _ w

end Action

namespace Dispatch

variable (node : Node) (r : Run) (w : World)

/-- A node makes one call at most, on its own behalf. It adds a mapping only where it is an action, its tool is one for
messages with buttons, and what it puts out waits for a click. -/
theorem runNode_worked :
    let p := Engine.run (runNode node r) w
    Worked ⟨r.execution, node.id⟩ r.workflow.id w p.2 ∧ (p.2.storage = w.storage ∨ ∃ output, p.1 = .ok output ∧
      node.nodeType? = some .action ∧ w.config.isButtonTool (node.setting "tool_id") = true ∧
      Action.awaitsClick output = true) := by
  have quiet : Worked ⟨r.execution, node.id⟩ r.workflow.id w w := .of_quiet (.refl w)
  unfold runNode
  cases ht : node.nodeType? with
  | none => exact ⟨quiet, .inl rfl⟩
  | some type =>
    cases type with
    | trigger => exact ⟨quiet, .inl rfl⟩
    | agent =>
      obtain ⟨hworked, hstorage⟩ := Agent.run_worked node r.context r.execution r.workflow.id w
      exact ⟨hworked, .inl hstorage⟩
    | condition =>
      dsimp only
      rw [run_ofExcept]
      exact ⟨quiet, .inl rfl⟩
    | action =>
      dsimp only
      unfold Action.run
      split
      · obtain ⟨hworked, hstorage⟩ := Action.runConditional_worked node r.context r.execution r.workflow.id w
        exact ⟨hworked, .inl hstorage⟩
      · obtain ⟨hworked, hstorage⟩ := Action.runPlain_worked node r.context r.workflow.id r.execution w
        exact ⟨hworked, hstorage.imp_right fun ⟨output, hr, hb, ha⟩ => ⟨output, hr, rfl, hb, ha⟩⟩

/-- A node of no known type makes no call. -/
theorem runNode_unknown {node : Node} (h : node.nodeType? = none) (r : Run) (w : World) :
    ∃ fault, Engine.run (runNode node r) w = (.error fault, w) := by
  unfold runNode
  rw [h]
  exact ⟨_, rfl⟩

end Dispatch

end WorkGraph
