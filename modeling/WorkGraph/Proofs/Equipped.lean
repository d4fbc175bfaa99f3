import WorkGraph.Proofs.Briefings
import WorkGraph.Proofs.Messages
import WorkGraph.Proofs.Numbered

/-!
# What nodes come to

Where collaborators answer a call the same however often they were called before (`World.Constant`), what a node comes to
is decided by the context in which it runs (`World.comes`): a world in which other nodes have run differs from the one
before in nothing that a node can tell (`Equipped`, `Dispatch.equips_runNode`, `World.Constant.comes_eq`). Where the tools
add fields to what they answer to one node (`World.extended`), every other node comes to the same
(`World.Constant.comes_extended_ne`), and this one to what it put out before with the fields (`Node.comes_extended`).
-/

namespace WorkGraph

open Engine

/-! ## Answers that do not depend on when they are asked for -/

namespace Reply

/-- How long an answer takes that comes too late, as it is told, if the call is made at some time. -/
def excess? (limit : Number) (reply : Reply) (c : Clock) : Option String :=
  let span := (c.advance reply.ticks).since c.reading
  if span.exceeds limit then some span.seconds else none

/-- Whether it does not matter at what time the call is made. -/
def Timely (limit : Number) (reply : Reply) : Prop :=
  ∀ c c' : Clock, reply.excess? limit c = reply.excess? limit c'

end Reply

/-- Whether what collaborators answer is decided by the call alone. -/
structure World.Constant (w : World) : Prop where
  answers : ∀ role id c, ((w.registry role).get? id).join = some c → ∀ m n call, c.answer m call = c.answer n call
  timely : ∀ id c, (w.agents.get? id).join = some c → ∀ n call, (c.answer n call).Timely w.config.agentTimeout

theorem World.Constant.quiet {w w' : World} (h : w.Constant) (hq : Quiet w w') : w'.Constant where
  answers role id c hc := h.answers role id c (by cases role <;> simpa only [registry, hq.tools, hq.agents] using hc)
  timely id c hc := hq.config ▸ h.timely id c (hq.agents ▸ hc)

/-- Whether a call is made on behalf of a node. -/
def Call.isFor (node : String) (call : Call) : Bool :=
  call.origin.any (·.node == node)

/-! ## Mappings that can be added -/

namespace Store.Mappings

/-- Whether a mapping can be added to those of a message, or the fault in its place. -/
def accepts (s : Storage) (message : String) : Except Fault Unit := do
  let rows ← s.read (place message) (.list [])
  let _ ← rowCount rows
  let _ ← appendRow rows .null
  match s.obstacle? (place message) with
  | some fault => .error fault
  | none => return

theorem accepts_of_list {s : Storage} {message : String} {rows : List Value}
    (h : s.read (place message) (.list []) = .ok (.list rows)) :
    accepts s message = match s.obstacle? (place message) with
      | some fault => .error fault
      | none => .ok () := by
  unfold accepts
  rw [h]
  rfl

/-- What is read as rows is a list, or no row can be added to it, whichever it is. -/
theorem appendRow_cases (rows : Value) :
    (∃ items, rows = .list items) ∨ ∃ fault, ∀ row, appendRow rows row = .error fault := by
  cases rows with
  | list items => exact .inl ⟨items, rfl⟩
  | null | bool | num | str | map => exact .inr ⟨_, fun _ => rfl⟩

/-- Whether a mapping is added is decided by its message. -/
theorem run_save {w : World} (hs : w.Steady) (m : ButtonMapping) :
    (run (save m) w).1.map (fun _ => ()) = accepts w.storage m.messageId := by
  unfold save
  rw [run_bind_ok (run_entering_steady hs _)]
  cases hr : w.storage.read (place m.messageId) (.list []) with
  | error fault =>
    have hread : run (readFile (place m.messageId) (.list [])) w = (.error fault, w) := by rw [run_readFile, hr]
    rw [run_bind_error hread, accepts, hr]
    rfl
  | ok rows =>
    rw [run_readFile_bind hr]
    rcases appendRow_cases rows with ⟨items, rfl⟩ | ⟨fault, hf⟩
    · rw [run_ofExcept_bind (rowCount_list _)]
      dsimp only
      rw [run_ofExcept_bind (appendRow_list _ _), run_bind, run_writeFile, Storage.write, accepts_of_list hr]
      cases w.storage.obstacle? (place m.messageId) <;> rfl
    · rw [accepts, hr]
      show _ = (rowCount rows >>= fun _ => appendRow rows .null >>= _)
      rw [hf]
      cases hc : rowCount rows with
      | error fault =>
        rw [run_ofExcept_bind_error rfl]
        rfl
      | ok count =>
        rw [run_ofExcept_bind rfl]
        dsimp only
        rw [run_ofExcept_bind_error (hf _)]
        rfl

end Store.Mappings

/-! ## Worlds that nodes leave behind -/

/-- A world in which a node finds what it did in another: the collaborators answer as they did, and mappings can be added
as they could. -/
structure Equipped (w w' : World) : Prop where
  config : w'.config = w.config
  steady : w.Steady → w'.Steady
  answers : ∀ role id, ((w'.registry role).get? id).join.map Collaborator.answer =
    ((w.registry role).get? id).join.map Collaborator.answer
  accepts : ∀ message, Store.Mappings.accepts w'.storage message = Store.Mappings.accepts w.storage message

namespace Equipped

variable {u w w' : World}

theorem refl (w : World) : Equipped w w :=
  ⟨rfl, id, fun _ _ => rfl, fun _ => rfl⟩

theorem trans (h : Equipped u w) (k : Equipped w w') : Equipped u w' where
  config := k.config.trans h.config
  steady := k.steady ∘ h.steady
  answers role id := (k.answers role id).trans (h.answers role id)
  accepts message := (k.accepts message).trans (h.accepts message)

theorem of_quiet (h : Quiet w w') : Equipped w w' where
  config := h.config
  steady := h.steady
  answers role id := by
    have hrole : w'.registry role = w.registry role := by cases role <;> simp only [World.registry, h.tools, h.agents]
    rw [hrole]
  accepts message := by rw [h.storage]

/-- A file was written that is none of mappings, or a list of them. -/
theorem of_wrote {place : Location} {v : Value} (h : Wrote place v w w')
    (ha : ∀ message, Store.Mappings.accepts w'.storage message = Store.Mappings.accepts w.storage message) :
    Equipped w w' := by
  obtain ⟨storage, hs, hq⟩ := h
  have hsame := of_quiet hq
  exact ⟨hsame.config, hsame.steady, hsame.answers, ha⟩

/-- A collaborator was called. -/
theorem of_called (call : Call) {collaborator : Collaborator}
    (h : ((w.registry call.role).get? call.id).join = some collaborator) : Equipped w (w.called call collaborator) where
  config := by
    unfold World.called
    cases call.role <;> rfl
  steady hs := by
    unfold World.called
    cases call.role <;> exact hs
  answers role id := by
    have hregistry : (w.called call collaborator).registry role = if role = call.role then
        (w.registry call.role).set call.id (some { collaborator with answered := collaborator.answered + 1 })
      else w.registry role := by
      unfold World.called
      cases hr : call.role <;> cases role <;> rfl
    rw [hregistry]
    split
    · next hr =>
      subst hr
      rw [Entries.get?_set]
      split
      · next hid =>
        subst hid
        rw [h]
        rfl
      · rfl
    · rfl
  accepts message := by rw [World.storage_called]

end Equipped

namespace Store.Mappings

variable {s t : Storage} {place : Location} {v : Value}

/-- The directory keeps its name. -/
theorem obstacle?_of_write (h : s.write place v = .ok t) (other : Location) : t.obstacle? other = s.obstacle? other := by
  obtain rfl := Except.ok.inj (h.symm.trans (Storage.write_of_fits (Storage.fits_of_write h)))
  rfl

/-- What is written elsewhere does not matter to mappings. -/
theorem accepts_of_write_ne (h : s.write place v = .ok t) {message : String}
    (hne : (Mappings.place message).path ≠ place.path) : accepts t message = accepts s message := by
  unfold accepts
  rw [Storage.read_write_ne h hne, obstacle?_of_write h]

/-- One mapping more does not matter either. -/
theorem accepts_of_mapped {m : ButtonMapping} (h : Mapped m s t) (message : String) : accepts t message = accepts s message := by
  obtain ⟨rows, hread, hwrite⟩ := h
  by_cases hp : (Mappings.place message).path = (Mappings.place m.messageId).path
  · have hbefore := (Storage.read_congr hp (.list [])).trans hread
    have hafter := (Storage.read_congr hp (.list [])).trans (Storage.read_write_self hwrite)
    rw [accepts_of_list hbefore, accepts_of_list hafter, obstacle?_of_write hwrite]
  · exact accepts_of_write_ne hwrite hp

end Store.Mappings

namespace Engine

variable {α β : Type}

/-- Whatever comes of a computation, nodes find what they did before. -/
def Equips (act : Engine α) : Prop :=
  ∀ w, Equipped w (run act w).2

theorem Hushed.equips {act : Engine α} (h : Hushed act) : Equips act :=
  fun w => .of_quiet (h w)

theorem equips_bind {act : Engine α} {next : α → Engine β} (h : Equips act) (k : ∀ a, Equips (next a)) :
    Equips (act >>= next) := by
  intro w
  have hw := h w
  rw [run_bind]
  rcases hr : run act w with ⟨_ | a, w'⟩ <;> rw [hr] at hw
  · exact hw
  · exact hw.trans (k a w')

theorem equips_attempt {act : Engine α} (h : Equips act) : Equips (attempt act) :=
  h

theorem equips_config : Equips config :=
  fun w => .refl w

theorem equips_ite {c : Prop} [Decidable c] {act other : Engine α} (h : Equips act) (k : Equips other) :
    Equips (if c then act else other) := by
  split
  · exact h
  · exact k

end Engine

/-- Who is found is held under the name. -/
theorem Registry.get?_of_require {r : Registry} {role : Role} {id : Value} {name : String} {collaborator : Collaborator}
    (h : r.require role id = .ok (name, collaborator)) : id = .str name ∧ (r.get? name).join = some collaborator := by
  unfold require find? at h
  cases id with
  | str id =>
    cases hj : (r.get? id).join with
    | none =>
      simp only [hj] at h
      cases h
    | some found =>
      simp only [hj] at h
      obtain ⟨rfl, rfl⟩ := Prod.mk.inj (Except.ok.inj h)
      exact ⟨rfl, hj⟩
  | null | bool | num | list | map => cases h

theorem Registry.equips_call (role : Role) (id : Value) (origin : Option Origin) (first second : Value) :
    Equips (call role id origin first second) := by
  intro w
  rw [run_call]
  rcases hr : (w.registry role).require role id with fault | ⟨name, collaborator⟩
  · exact .refl w
  · exact .of_called ⟨role, name, origin, first, second⟩ (get?_of_require hr).2

theorem ButtonMessage.equips_remember (node : Node) (output : Value) (workflow execution : String) :
    Equips (remember node output workflow execution) := by
  intro w
  rcases remember_cases node output workflow execution w with hq | ⟨m, rows, w', -, -, -, hread, hr, hw⟩
  · exact .of_quiet hq
  · rw [hr]
    exact .of_wrote hw (Store.Mappings.accepts_of_mapped ⟨rows, hread, hw.storage⟩)

theorem Agent.equips_run (node : Node) (context : Context) (execution : String) : Equips (run node context execution) := by
  refine equips_bind (hushed_ofExcept _).equips fun b => equips_bind (equips_attempt ?_) fun result => ?_
  · exact equips_bind equips_config fun _ => equips_bind hushed_reading.equips fun _ =>
      equips_bind (Registry.equips_call _ _ _ _ _) fun _ => equips_bind (hushed_since _).equips fun _ =>
        equips_ite (equips_bind (hushed_throw _).equips fun _ => (hushed_pure _).equips) (hushed_pure _).equips
  · cases result with
    | ok answer => exact (hushed_pure _).equips
    | error fault =>
      intro w
      obtain ⟨f, u, hf, hq, -⟩ := run_failure node b w fault
      dsimp only
      rw [run_bind_ok hf]
      exact .of_quiet hq

theorem Action.equips_runPlain (node : Node) (context : Context) (workflow execution : String) :
    Equips (runPlain node context workflow execution) := by
  refine equips_bind equips_config fun config => equips_ite (equips_bind (hushed_throw _).equips fun _ => ?_) ?_
  all_goals
    exact equips_bind (hushed_ofExcept _).equips fun _ => equips_bind (Registry.equips_call _ _ _ _ _) fun _ =>
      equips_ite (equips_bind (ButtonMessage.equips_remember _ _ _ _) fun _ => (hushed_pure _).equips) (hushed_pure _).equips

theorem Action.equips_runConditional (node : Node) (context : Context) (execution : String) :
    Equips (runConditional node context execution) := by
  unfold runConditional
  split
  · exact (hushed_pure _).equips
  · exact equips_bind (hushed_ofExcept _).equips fun _ => equips_bind (hushed_ofExcept _).equips fun _ =>
      equips_ite (hushed_pure _).equips <| equips_bind (hushed_ofExcept _).equips fun _ => Registry.equips_call _ _ _ _ _

/-- Nodes that run leave to others what they found. -/
theorem Dispatch.equips_runNode (node : Node) (r : Run) : Equips (runNode node r) := by
  unfold runNode
  split
  · exact (hushed_pure _).equips
  · exact Agent.equips_run _ _ _
  · exact equips_ite (Action.equips_runConditional _ _ _) (Action.equips_runPlain _ _ _ _)
  · exact (hushed_ofExcept _).equips
  · exact (hushed_throw _).equips

/-! ## Worlds that serve a node alike -/

/-- Two worlds in which a node finds the same: the collaborators answer to its calls the same, however often they were
called, and mappings can be added alike. -/
structure World.Serves (node : String) (w w' : World) : Prop where
  config : w'.config = w.config
  steady : w.Steady ∧ w'.Steady
  answers : ∀ role id, Option.Rel
    (fun c c' => ∀ m n call, Call.isFor node call = true → c'.answer n call = c.answer m call)
    ((w.registry role).get? id).join ((w'.registry role).get? id).join
  timely : ∀ id c, (w.agents.get? id).join = some c → ∀ n call, (c.answer n call).Timely w.config.agentTimeout
  accepts : ∀ message, Store.Mappings.accepts w'.storage message = Store.Mappings.accepts w.storage message

/-- Where answers are decided by the calls alone, nodes that ran before do not matter to a node. -/
theorem World.Constant.serves {w w' : World} (h : w.Constant) (hs : w.Steady) (he : Equipped w w') (node : String) :
    World.Serves node w w' where
  config := he.config
  steady := ⟨hs, he.steady hs⟩
  answers role id := by
    have hanswers := he.answers role id
    cases hc : ((w.registry role).get? id).join with
    | none =>
      rw [hc, Option.map_none, Option.map_eq_none_iff] at hanswers
      rw [hanswers]
      exact .none
    | some c =>
      rw [hc, Option.map_some] at hanswers
      obtain ⟨c', hc', hsame⟩ := Option.map_eq_some_iff.1 hanswers
      rw [hc']
      exact .some fun m n call _ => by rw [hsame]; exact h.answers role id c hc n m call
  timely := h.timely
  accepts := he.accepts

/-- What follows a computation that returns nothing of use. -/
theorem Engine.run_bind_const {α β : Type} (act : Engine α) (b : β) (w : World) :
    (run (act >>= fun _ => pure b) w).1 = ((run act w).1.map fun _ => ()).map fun _ => b := by
  rw [run_bind]
  rcases run act w with ⟨_ | _, _⟩ <;> rfl

namespace World.Serves

variable {node : Node} {w w' : World} (h : World.Serves node.id w w')

include h

theorem require (role : Role) (id : Value) :
    (∃ fault, (w.registry role).require role id = .error fault ∧ (w'.registry role).require role id = .error fault) ∨
      ∃ name c c', (w.registry role).require role id = .ok (name, c) ∧
        (w'.registry role).require role id = .ok (name, c') ∧
        ∀ call : Call, call.isFor node.id = true → c'.answer c'.answered call = c.answer c.answered call := by
  unfold Registry.require Registry.find?
  cases id with
  | str name =>
    have hrel := h.answers role name
    dsimp only
    generalize ((w.registry role).get? name).join = found, ((w'.registry role).get? name).join = found' at hrel
    cases hrel with
    | none => exact .inl ⟨_, rfl, rfl⟩
    | some hsame => exact .inr ⟨name, _, _, rfl, rfl, fun call hcall => hsame _ _ call hcall⟩
  | null | bool | num | list | map => exact .inl ⟨_, rfl, rfl⟩

/-- A call on behalf of the node is answered the same. -/
theorem call (role : Role) (id : Value) (execution : String) (first second : Value) :
    (run (Registry.call role id (some ⟨execution, node.id⟩) first second) w').1 =
      (run (Registry.call role id (some ⟨execution, node.id⟩) first second) w).1 := by
  rw [Registry.run_call, Registry.run_call]
  rcases h.require role id with ⟨fault, hr, hr'⟩ | ⟨name, c, c', hr, hr', hsame⟩
  · rw [hr, hr']
  · rw [hr, hr']
    dsimp only
    rw [hsame _ (by simp [Call.isFor])]

/-- An agent comes to the same. -/
theorem reply (execution : String) (b : Agent.Briefing) : Agent.reply node execution b w' = Agent.reply node execution b w := by
  unfold Agent.reply
  have hrequire := h.require .agent b.agent
  rcases hrequire with ⟨fault, hr, hr'⟩ | ⟨name, c, c', hr, hr', hsame⟩
  · rw [show w.agents.require .agent b.agent = _ from hr, show w'.agents.require .agent b.agent = _ from hr']
  · rw [show w.agents.require .agent b.agent = _ from hr, show w'.agents.require .agent b.agent = _ from hr']
    dsimp only
    rw [hsame _ (by simp [Call.isFor, Agent.Briefing.call]), h.config]
    have htimely := h.timely name c (Registry.get?_of_require hr).2 c.answered (b.call name ⟨execution, node.id⟩)
      w'.clock w.clock
    generalize c.answer c.answered (b.call name ⟨execution, node.id⟩) = reply at htimely ⊢
    unfold Reply.excess? at htimely
    dsimp only at htimely
    cases reply.outcome with
    | error fault => rfl
    | ok answer =>
      dsimp only
      unfold Agent.tooLate
      split at htimely <;> split at htimely <;> simp_all

end World.Serves

/-- What is remembered of an output is decided by its message. -/
theorem ButtonMessage.run_remember {w : World} (hs : w.Steady) (node : Node) (output : Value) (workflow execution : String) :
    (run (remember node output workflow execution) w).1.map (fun _ => ()) =
      let message := (output.entries?.map (Value.field · "message_id")).getD .null
      if !message.truthy then .ok ()
      else match declared node with
        | .error fault => .error fault
        | .ok buttons => if buttons.isEmpty then .ok () else Store.Mappings.accepts w.storage message.display := by
  unfold remember
  dsimp only
  split
  · rfl
  · cases declared node with
    | error fault => rfl
    | ok buttons =>
      rw [run_ofExcept_bind rfl]
      dsimp only
      split
      · rfl
      · rw [run_bind_ok (run_stamp w)]
        generalize hm : ButtonMapping.mk 0 _ _ _ _ _ _ = m
        have hid : m.messageId = ((output.entries?.map (Value.field · "message_id")).getD .null).display := by rw [← hm]
        rw [← hid, ← Store.Mappings.run_save hs m, run_bind]
        rcases run (Store.Mappings.save m) w with ⟨_ | _, _⟩ <;> rfl

/-- The fault of a node whose agent failed does not depend on the world. -/
theorem Agent.failure_fst (node : Node) (b : Briefing) (fault : Fault) (w w' : World) :
    (Engine.run (failure node b fault) w').1 = (Engine.run (failure node b fault) w).1 := by
  unfold failure
  cases fault <;> rfl

namespace World.Serves

variable {node : Node} {w w' : World} (h : World.Serves node.id w w')

include h

theorem runAgent (context : Context) (execution : String) :
    (run (Agent.run node context execution) w').1 = (run (Agent.run node context execution) w).1 := by
  unfold Agent.run
  cases Agent.Briefing.prepare node context with
  | error fault => rfl
  | ok b =>
    obtain ⟨u, hask, -⟩ := Agent.run_ask node execution b w
    obtain ⟨u', hask', -⟩ := Agent.run_ask node execution b w'
    rw [h.reply] at hask'
    rw [run_ofExcept_bind rfl, run_ofExcept_bind rfl, run_bind_ok (run_attempt _ w), run_bind_ok (run_attempt _ w'), hask,
      hask']
    cases Agent.reply node execution b w with
    | ok answer => rfl
    | error fault =>
      obtain ⟨f, v, hf, -⟩ := Agent.run_failure node b u fault
      have hf' := Agent.failure_fst node b fault u u'
      rw [hf] at hf'
      dsimp only
      rw [run_bind_ok hf, run_bind_of_fst hf']
      rfl

theorem runPlain (context : Context) (workflow execution : String) :
    (run (Action.runPlain node context workflow execution) w').1 =
      (run (Action.runPlain node context workflow execution) w).1 := by
  unfold Action.runPlain
  rw [run_bind_ok (run_config w), run_bind_ok (run_config w'), h.config]
  dsimp only
  split
  · rfl
  · cases Action.inputs w.config node (node.setting "tool_id") context with
    | error fault => rfl
    | ok inputs =>
      rw [run_ofExcept_bind rfl, run_ofExcept_bind rfl]
      have hcall := h.call .tool (node.setting "tool_id") execution (.map inputs) (.map context.flat)
      have hequips := Registry.equips_call .tool (node.setting "tool_id") (some ⟨execution, node.id⟩) (.map inputs)
        (.map context.flat)
      rcases hr : run (Registry.call .tool (node.setting "tool_id") (some ⟨execution, node.id⟩) (.map inputs)
        (.map context.flat)) w with ⟨result, u⟩
      rcases hr' : run (Registry.call .tool (node.setting "tool_id") (some ⟨execution, node.id⟩) (.map inputs)
        (.map context.flat)) w' with ⟨result', u'⟩
      have hu := hequips w
      have hu' := hequips w'
      rw [hr] at hcall hu
      rw [hr'] at hcall hu'
      obtain rfl : result' = result := hcall
      cases result' with
      | error fault => rw [run_bind_error hr, run_bind_error hr']
      | ok output =>
        rw [run_bind_ok hr, run_bind_ok hr']
        split
        · have hkept := ButtonMessage.run_remember (hu.steady h.steady.1) node output workflow execution
          have hkept' := ButtonMessage.run_remember (hu'.steady h.steady.2) node output workflow execution
          dsimp only at hkept hkept'
          rw [hu'.accepts, h.accepts, ← hu.accepts, ← hkept] at hkept'
          rw [run_bind_const, run_bind_const, hkept']
        · rfl

theorem runConditional (context : Context) (execution : String) :
    (run (Action.runConditional node context execution) w').1 =
      (run (Action.runConditional node context execution) w).1 := by
  unfold Action.runConditional
  cases Action.decision? context with
  | none => rfl
  | some decision =>
    dsimp only
    cases ((node.setting "conditions").orElse (.list [])).members with
    | error fault => rfl
    | ok conditions =>
      rw [run_ofExcept_bind rfl, run_ofExcept_bind rfl]
      cases Action.chosenTool decision.display conditions with
      | error fault => rfl
      | ok tool =>
        rw [run_ofExcept_bind rfl, run_ofExcept_bind rfl]
        split
        · rfl
        · cases (Action.payloadComment context.triggerData).magnitude with
          | error fault => rfl
          | ok comment =>
            rw [run_ofExcept_bind rfl, run_ofExcept_bind rfl]
            exact h.call _ _ _ _ _

/-- A node comes to the same in worlds that serve it alike. -/
theorem runNode (r : Run) : (run (Dispatch.runNode node r) w').1 = (run (Dispatch.runNode node r) w).1 := by
  unfold Dispatch.runNode
  split
  · rfl
  · exact h.runAgent _ _
  · unfold Action.run
    split
    · exact h.runConditional _ _
    · exact h.runPlain _ _ _
  · rw [run_ofExcept, run_ofExcept]
  · rfl

end World.Serves

/-! ## What a node comes to -/

/-- What a node comes to in a context. -/
def World.comes (w : World) (W : Workflow) (execution : String) (node : Node) (c : Context) : Except Fault Value :=
  (run (Dispatch.runNode node (.start execution W c)) w).1

/-- What a node comes to in a run is decided by the context of the run: nodes that ran before do not matter, but for what
they left in the context. -/
theorem World.Constant.comes_eq {w v : World} (h : w.Constant) (hs : w.Steady) (he : Equipped w v) (node : Node) (r : Run) :
    (run (Dispatch.runNode node r) v).1 = w.comes r.workflow r.execution node r.context :=
  (h.serves hs he node.id).runNode r

/-! ## Tools that add to what they answer -/

/-- The values of a map, each changed by a function. -/
theorem Entries.get?_map {α β : Type} (m : Entries α) (f : α → β) (key : String) :
    Entries.get? (m.map fun entry => (entry.1, f entry.2)) key = (m.get? key).map f := by
  induction m with
  | nil => rfl
  | cons e rest ih =>
    obtain ⟨k, v⟩ := e
    by_cases h : k = key <;> simp [get?, h, ih]

/-- A map with more fields. What is no map stays as it is. -/
def Value.extended (fields : Entries Value) : Value → Value
  | .map entries => .map (Entries.merge entries fields)
  | v => v

/-- A collaborator that adds fields to what it answers to one node. -/
def Collaborator.extended (node : String) (fields : Entries Value) (c : Collaborator) : Collaborator where
  answer earlier call :=
    let reply := c.answer earlier call
    if call.isFor node then { reply with outcome := reply.outcome.map (Value.extended fields) } else reply
  answered := c.answered

/-- A world in which all tools add fields to what they answer to one node. -/
def World.extended (w : World) (node : String) (fields : Entries Value) : World :=
  { w with tools := w.tools.map fun entry => (entry.1, entry.2.map (Collaborator.extended node fields)) }

section Extended

variable {w : World} {node : String} {fields : Entries Value}

theorem Collaborator.answer_extended_of_ne {call : Call} (h : call.isFor node = false) (c : Collaborator) (n : Nat) :
    (c.extended node fields).answer n call = c.answer n call := by
  unfold extended
  dsimp only
  rw [h, if_neg Bool.false_ne_true]

theorem World.tools_extended (id : String) : ((w.extended node fields).tools.get? id).join =
    ((w.tools.get? id).join).map (Collaborator.extended node fields) := by
  unfold extended
  dsimp only
  rw [Entries.get?_map]
  rcases w.tools.get? id with _ | _ | _ <;> rfl

theorem World.Constant.extended (h : w.Constant) (node : String) (fields : Entries Value) :
    (w.extended node fields).Constant where
  answers role id c hc m n call := by
    cases role with
    | agent => exact h.answers .agent id c hc m n call
    | tool =>
      obtain ⟨d, hd, rfl⟩ := Option.map_eq_some_iff.1 ((World.tools_extended id).symm.trans hc)
      unfold Collaborator.extended
      dsimp only
      rw [h.answers .tool id d hd m n call]
  timely := h.timely

/-- Other nodes are answered as before. -/
theorem World.Constant.serves_extended (h : w.Constant) (hs : w.Steady) {other : String} (hne : other ≠ node) :
    World.Serves other w (w.extended node fields) where
  config := rfl
  steady := ⟨hs, hs⟩
  answers role id := by
    cases role with
    | agent =>
      show Option.Rel _ ((w.registry .agent).get? id).join ((w.registry .agent).get? id).join
      cases hc : ((w.registry .agent).get? id).join with
      | none => exact .none
      | some c => exact .some fun m n call _ => h.answers .agent id c hc n m call
    | tool =>
      show Option.Rel _ (w.tools.get? id).join ((w.extended node fields).tools.get? id).join
      rw [World.tools_extended]
      cases hc : (w.tools.get? id).join with
      | none => exact .none
      | some c =>
        refine .some fun m n call hcall => ?_
        have hnot : call.isFor node = false := by
          unfold Call.isFor at hcall ⊢
          cases ho : call.origin with
          | none => rfl
          | some origin =>
            rw [ho, Option.any_some, beq_iff_eq] at hcall
            rw [Option.any_some, beq_eq_false_iff_ne, hcall]
            exact hne
        rw [Collaborator.answer_extended_of_ne hnot]
        exact h.answers .tool id c hc n m call
  timely := h.timely
  accepts _ := rfl

/-- Other nodes come to the same. -/
theorem World.Constant.comes_extended_ne (h : w.Constant) (hs : w.Steady) {other : Node} (hne : other.id ≠ node)
    (W : Workflow) (execution : String) (c : Context) :
    (w.extended node fields).comes W execution other c = w.comes W execution other c :=
  (h.serves_extended hs hne).runNode _

end Extended

/-- A tool that was called for the node adds the fields. -/
theorem Registry.call_extended {w u : World} {id first second v : Value} {execution node : String} (fields : Entries Value)
    (h : run (call .tool id (some ⟨execution, node⟩) first second) w = (.ok v, u)) :
    (run (call .tool id (some ⟨execution, node⟩) first second) (w.extended node fields)).1 = .ok (v.extended fields) := by
  obtain ⟨name, rfl⟩ := str_of_call h
  rw [run_call] at h ⊢
  unfold require find? World.registry at h ⊢
  dsimp only at h ⊢
  rw [World.tools_extended]
  cases hc : (w.tools.get? name).join with
  | none =>
    rw [hc] at h
    cases h
  | some c =>
    rw [hc] at h
    obtain ⟨houtcome, -⟩ := Prod.mk.inj h
    have hfor : Call.isFor node ⟨.tool, name, some ⟨execution, node⟩, first, second⟩ = true := by simp [Call.isFor]
    show ((c.extended node fields).answer c.answered ⟨.tool, name, some ⟨execution, node⟩, first, second⟩).outcome = _
    unfold Collaborator.extended
    dsimp only
    rw [if_pos hfor]
    dsimp only
    rw [houtcome]
    rfl

/-- A node that asked for an answer puts out what it did, with the fields that the answer adds. -/
theorem Node.comes_extended {w : World} {W : Workflow} {execution message : String} {node : Node} {c : Context}
    {o fields : Entries Value} (hasks : node.asks? w.config (.map o) = some message)
    (hb : (Value.field (o.merge fields) "button_id").truthy = true)
    (h : w.comes W execution node c = .ok (.map o)) :
    (w.extended node.id fields).comes W execution node c = .ok (.map (o.merge fields)) := by
  unfold asks? at hasks
  split at hasks
  · next hcond =>
    simp only [Bool.and_eq_true, bne_iff_ne] at hcond
    obtain ⟨⟨⟨haction, hplain⟩, -⟩, -⟩ := hcond
    have hnode (v : World) : v.comes W execution node c = (run (Action.runPlain node c W.id execution) v).1 := by
      unfold World.comes Dispatch.runNode
      rw [isOfType_iff.1 haction]
      dsimp only
      unfold Action.run
      rw [if_neg (by simpa using hplain)]
      rfl
    rw [hnode] at h ⊢
    obtain ⟨v, hr⟩ : ∃ v, run (Action.runPlain node c W.id execution) w = (.ok (.map o), v) := ⟨_, Prod.ext h rfl⟩
    unfold Action.runPlain at hr ⊢
    rw [run_bind_ok (run_config _)] at hr ⊢
    rw [show (w.extended node.id fields).config = w.config from rfl]
    dsimp only at hr ⊢
    split at hr
    · cases hr
    · next htruthy =>
      obtain ⟨inputs, u, hinputs, hr⟩ := eq_ok_of_bind hr
      obtain ⟨hinputs, rfl⟩ := eq_ok_of_ofExcept hinputs
      obtain ⟨answer, u', hcall, hr⟩ := eq_ok_of_bind hr
      have hanswer : answer = .map o := by
        split at hr
        · obtain ⟨_, _, -, hr⟩ := eq_ok_of_bind hr
          exact Except.ok.inj (Prod.mk.inj hr).1
        · exact Except.ok.inj (Prod.mk.inj hr).1
      subst hanswer
      have hsettled : (u.config.isButtonTool (node.setting "tool_id") &&
          Action.awaitsClick (.map (o.merge fields))) = false := by
        rw [Action.awaitsClick, hb]
        simp
      have hrest := Registry.call_extended fields hcall
      rw [if_neg htruthy, run_ofExcept_bind hinputs, run_bind_of_fst hrest]
      show (run (if (u.config.isButtonTool (node.setting "tool_id") &&
        Action.awaitsClick (.map (o.merge fields))) = true then _ else _) _).1 = _
      rw [hsettled, if_neg Bool.false_ne_true]
      rfl
  · cases hasks

end WorkGraph
