import WorkGraph.Proofs.Extent
import WorkGraph.Proofs.FirstError
import WorkGraph.Proofs.Messages

/-!
# Failures in the log

A dispatch that a fault ends is a `Fall` of the tree of its run. How far it got decides what the log says of its node
(`Fall.row?`): nothing if the node has no title that is a text, since no row can be opened for it; that it failed, if it
failed while it ran; and that it succeeded if it could not be routed, which comes about where the tool id of a conditional
action is a list or a map (`Node.Falls`, `Dispatch.falls_within`). As no node is run twice, what the log says of a fall is
all that it says of the node (`Branch.filter_rows`). So an execution that failed has a row that failed, and each of its
falls has just one, as long as each node can be recorded (`failures_logged`), and not in general (`not_every_failure`).
-/

namespace WorkGraph

open Engine Running

/-! ## Falls of a tree -/

/-- A dispatch that a fault ended. -/
structure Fall where
  node : String
  stage : Stage
  fault : Fault

/-- What the log says of the node. -/
def Fall.row? : Fall → Option Verdict
  | ⟨_, .opening, _⟩ => none
  | ⟨node, .running, fault⟩ => some ⟨node, .failed, some fault.message⟩
  | ⟨node, .routing, _⟩ => some ⟨node, .success, none⟩

namespace Branch

mutual

/-- The dispatches of a tree that a fault ended. -/
def falls : Branch → List Fall
  | skipped => []
  | fell node stage fault => [⟨node, stage, fault⟩]
  | grew _ _ behind => fallsOf behind

def fallsOf : List Branch → List Fall
  | [] => []
  | b :: rest => b.falls ++ fallsOf rest

end

variable {fall : Fall} {v : Verdict}

theorem rows_fell (node : String) (stage : Stage) (fault : Fault) :
    (fell node stage fault).rows = (Fall.mk node stage fault).row?.toList := by
  cases stage <;> rfl

theorem Fall.node_of_row? (h : v ∈ fall.row?) : v.node = fall.node := by
  obtain ⟨node, stage, fault⟩ := fall
  cases stage with
  | opening => cases h
  | running | routing =>
    obtain rfl := Option.some.inj h
    rfl

mutual

/-- Rows are of nodes that were run. -/
theorem mem_ran_of_mem_rows : ∀ {b : Branch}, v ∈ b.rows → v.node ∈ b.ran
  | fell node stage fault, h => by
    rw [rows_fell, Option.mem_toList] at h
    rw [Fall.node_of_row? h]
    exact List.mem_cons_self
  | grew node _ behind, h => by
    rw [rows, List.mem_cons] at h
    rcases h with rfl | h
    · exact List.mem_cons_self
    · exact List.mem_cons_of_mem _ (mem_ranOf_of_mem_rowsOf h)

theorem mem_ranOf_of_mem_rowsOf : ∀ {bs : List Branch}, v ∈ rowsOf bs → v.node ∈ ranOf bs
  | b :: rest, h => by
    rw [rowsOf, List.mem_append] at h
    rw [ranOf, List.mem_append]
    exact h.imp mem_ran_of_mem_rows mem_ranOf_of_mem_rowsOf

end

mutual

theorem mem_ran_of_mem_falls : ∀ {b : Branch}, fall ∈ b.falls → fall.node ∈ b.ran
  | fell _ _ _, h => by
    rw [List.mem_singleton.1 h]
    exact List.mem_cons_self
  | grew _ _ _, h => List.mem_cons_of_mem _ (mem_ranOf_of_mem_fallsOf h)

theorem mem_ranOf_of_mem_fallsOf : ∀ {bs : List Branch}, fall ∈ fallsOf bs → fall.node ∈ ranOf bs
  | b :: rest, h => by
    rw [fallsOf, List.mem_append] at h
    rw [ranOf, List.mem_append]
    exact h.imp mem_ran_of_mem_falls mem_ranOf_of_mem_fallsOf

end

/-- Of a node that was not run there is no row. -/
theorem filter_rows_eq_nil {b : Branch} {node : String} (h : node ∉ b.ran) : b.rows.filter (·.node == node) = [] :=
  List.filter_eq_nil_iff.2 fun _ hv he => h (beq_iff_eq.1 he ▸ mem_ran_of_mem_rows hv)

theorem filter_rowsOf_eq_nil {bs : List Branch} {node : String} (h : node ∉ ranOf bs) :
    (rowsOf bs).filter (·.node == node) = [] :=
  List.filter_eq_nil_iff.2 fun _ hv he => h (beq_iff_eq.1 he ▸ mem_ranOf_of_mem_rowsOf hv)

mutual

/-- As each node is run once, the rows of one that fell are what its fall left. -/
theorem filter_rows : ∀ {b : Branch}, b.ran.Nodup → fall ∈ b.falls → b.rows.filter (·.node == fall.node) = fall.row?.toList
  | fell node stage fault, _, h => by
    rw [rows_fell, ← List.mem_singleton.1 h]
    refine List.filter_eq_self.2 fun v hv => beq_iff_eq.2 (Fall.node_of_row? (Option.mem_toList.1 hv))
  | grew node _ behind, hn, h => by
    obtain ⟨hnew, hn⟩ := List.nodup_cons.1 (show (node :: ranOf behind).Nodup from hn)
    have hne : node ≠ fall.node := fun he => hnew (he ▸ mem_ranOf_of_mem_fallsOf h)
    rw [rows, List.filter_cons_of_neg (by simpa using hne)]
    exact filter_rowsOf hn h

theorem filter_rowsOf : ∀ {bs : List Branch}, (ranOf bs).Nodup → fall ∈ fallsOf bs →
    (rowsOf bs).filter (·.node == fall.node) = fall.row?.toList
  | b :: rest, hn, h => by
    rw [ranOf, List.nodup_append] at hn
    obtain ⟨hfirst, hrest, hapart⟩ := hn
    rw [fallsOf, List.mem_append] at h
    rw [rowsOf, List.filter_append]
    rcases h with h | h
    · rw [filter_rows hfirst h, filter_rowsOf_eq_nil fun hm => hapart _ (mem_ran_of_mem_falls h) _ hm rfl, List.append_nil]
    · rw [filter_rowsOf hrest h, filter_rows_eq_nil fun hm => hapart _ hm _ (mem_ranOf_of_mem_fallsOf h) rfl,
        List.nil_append]

end

mutual

/-- A row tells of a failure only if it is that of a fall. -/
theorem exists_fall (hv : v.status = .failed) : ∀ {b : Branch}, v ∈ b.rows → ∃ fall ∈ b.falls, fall.row? = some v
  | fell node stage fault, h => by
    rw [rows_fell, Option.mem_toList] at h
    exact ⟨_, List.mem_singleton_self _, h⟩
  | grew node _ behind, h => by
    rw [rows, List.mem_cons] at h
    rcases h with rfl | h
    · cases hv
    · exact exists_fallOf hv h

theorem exists_fallOf (hv : v.status = .failed) : ∀ {bs : List Branch}, v ∈ rowsOf bs →
    ∃ fall ∈ fallsOf bs, fall.row? = some v
  | b :: rest, h => by
    rw [rowsOf, List.mem_append] at h
    rcases h with h | h
    · obtain ⟨fall, hf, hrow⟩ := exists_fall hv h
      exact ⟨fall, List.mem_append_left _ hf, hrow⟩
    · obtain ⟨fall, hf, hrow⟩ := exists_fallOf hv h
      exact ⟨fall, List.mem_append_right _ hf, hrow⟩

end

mutual

/-- Failures are noted of falls, and of each fall one. -/
theorem falls_eq_nil_iff : ∀ b : Branch, b.falls = [] ↔ b.fault? = none ∧ b.noted = []
  | skipped => ⟨fun _ => ⟨rfl, rfl⟩, fun _ => rfl⟩
  | fell _ _ _ => ⟨(fun h => by cases h), fun h => by cases h.1⟩
  | grew _ _ behind => by
    rw [falls, fallsOf_eq_nil_iff behind, noted, List.append_eq_nil_iff, Option.toList_eq_nil_iff]
    exact ⟨fun h => ⟨rfl, h.2, h.1⟩, fun h => ⟨h.2.2, h.2.1⟩⟩

theorem fallsOf_eq_nil_iff : ∀ bs : List Branch, fallsOf bs = [] ↔ bs.findSome? fall? = none ∧ notedOf bs = []
  | [] => ⟨fun _ => ⟨rfl, rfl⟩, fun _ => rfl⟩
  | b :: rest => by
    have hfall : b.fall? = none ↔ b.fault? = none := by cases b <;> simp [fall?, fault?]
    rw [fallsOf, List.append_eq_nil_iff, falls_eq_nil_iff b, fallsOf_eq_nil_iff rest, notedOf, List.append_eq_nil_iff,
      ← hfall, List.findSome?_cons]
    cases b.fall? with
    | none => exact ⟨fun h => ⟨h.2.1, h.1.2, h.2.2⟩, fun h => ⟨⟨rfl, h.2.1⟩, h.1, h.2.2⟩⟩
    | some message => exact ⟨(fun h => by cases h.1.1), fun h => by cases h.1⟩

end

@[simp] theorem fallsOf_append (bs cs : List Branch) : fallsOf (bs ++ cs) = fallsOf bs ++ fallsOf cs := by
  induction bs with
  | nil => rfl
  | cons b rest ih => rw [List.cons_append, fallsOf, ih, fallsOf, List.append_assoc]

theorem failures_eq_nil_iff (b : Branch) : b.failures = [] ↔ b.falls = [] := by
  rw [failures, List.append_eq_nil_iff, Option.toList_eq_nil_iff, Option.map_eq_none_iff, falls_eq_nil_iff, and_comm]

end Branch

/-! ## What ends a dispatch -/

/-- Whether an action looks for a decision. -/
def Node.isConditional (node : Node) : Bool :=
  node.isOfType .action && (node.setting "action_type").str? == some "conditional"

/-- How far the dispatch of a node can get when a fault ends it. -/
inductive Node.Falls (node : Node) : Stage → Prop where
  | opening (h : ¬node.Titled) : Falls node .opening
  | running (h : node.Titled) : Falls node .running
  | routing (hc : node.isConditional = true) (hk : (node.setting "tool_id").isKey = false) : Falls node .routing

/-- A plain action that has put out something has called a tool, whose id is a text. -/
theorem Action.isKey_of_runPlain {node : Node} {context : Context} {workflow execution : String} {w w' : World}
    {output : Value} (h : Engine.run (runPlain node context workflow execution) w = (.ok output, w')) :
    (node.setting "tool_id").isKey = true := by
  unfold runPlain at h
  rw [run_bind_ok (run_config w)] at h
  dsimp only at h
  split at h
  · cases h
  · obtain ⟨inputs, u, -, h⟩ := eq_ok_of_bind h
    obtain ⟨answer, u', hcall, -⟩ := eq_ok_of_bind h
    obtain ⟨name, hname⟩ := Registry.str_of_call hcall
    rw [hname]
    rfl

namespace Dispatch

/-- What came to an end went through every step. -/
theorem eq_ok_of_go_bind {α β : Type} {act : Running α} {next : α → Running β} {p q : Progress} {b : β}
    (h : go (act >>= next) p = (.ok b, q)) : ∃ a s, go act p = (.ok a, s) ∧ go (next a) s = (.ok b, q) := by
  rcases hact : go act p with ⟨fault | a, s⟩
  · rw [go_bind_error hact] at h
    cases h
  · exact ⟨a, s, rfl, by rwa [go_bind_ok hact] at h⟩

/-- A node that was performed has put out what its run gave. -/
theorem runNode_of_perform {node : Node} {p q : Progress} {output : Value} (h : go (perform node) p = (.ok output, q)) :
    ∃ w w', Engine.run (runNode node (p.run.marked node)) w = (.ok output, w') := by
  obtain ⟨w, r⟩ := p
  unfold perform at h
  rw [go_bind_ok (go_marked node w r), go_lift_bind (Engine.run_reading _), go_bind_ok (go_run _ _),
    r.execution_marked] at h
  rcases hs : Engine.run (Journal.startNode r.execution node (.map (r.marked node).context.flat)) w with ⟨fault | log, w₁⟩
  · rw [go_lift_bind_error hs] at h
    cases h
  rw [go_lift_bind hs, go_lift_bind (Engine.run_attempt _ _)] at h
  rcases hn : Engine.run (runNode node (r.marked node)) w₁ with ⟨fault | value, w₂⟩
  · rw [hn] at h
    dsimp only at h
    rw [go_bind] at h
    split at h <;> cases h
  · rw [hn] at h
    dsimp only at h
    obtain ⟨-, s, -, h⟩ := eq_ok_of_go_bind h
    obtain ⟨start, s, -, h⟩ := eq_ok_of_go_bind h
    obtain ⟨closed, s, -, h⟩ := eq_ok_of_go_bind h
    obtain rfl := Except.ok.inj (Prod.mk.inj h).1
    exact ⟨w₁, w₂, hn⟩

/-- A node that has succeeded and cannot be routed is a conditional action with a tool id that it does not use. -/
theorem falls_of_choose {node : Node} {p q : Progress} {output : Value} (h : go (perform node) p = (.ok output, q))
    {tools : List Value} {fault : Fault} (hf : Router.choose tools node output = .error fault) : node.Falls .routing := by
  have hkey : node.isOfType .action = true ∧ (node.setting "tool_id").isKey = false := by
    by_contra hno
    rw [Router.choose_eq fun ha => by simpa [ha] using hno] at hf
    cases hf
  obtain ⟨ha, hk⟩ := hkey
  obtain ⟨w, w', hrun⟩ := runNode_of_perform h
  unfold runNode at hrun
  rw [Node.isOfType_iff.1 ha] at hrun
  dsimp only at hrun
  unfold Action.run at hrun
  split at hrun
  · next hc => exact .routing (by rw [Node.isConditional, ha, hc]; rfl) hk
  · rw [Action.isKey_of_runPlain hrun] at hk
    cases hk

end Dispatch

/-- Whether each of some falls is one of a node of the workflow, at a stage at which this node can fall. -/
def Workflow.Explains (W : Workflow) (falls : List Fall) : Prop :=
  ∀ fall ∈ falls, ∃ node ∈ W.nodes, node.id = fall.node ∧ node.Falls fall.stage

namespace Dispatch

open Routing

/-- Whether the falls of trees, where fewer than some ids are left, are explained. -/
def Explained (depth : Nat) (grow : Node → Progress → Branch) : Prop :=
  ∀ (node : Node) (p : Progress), node ∈ p.run.workflow.nodes → p.run.remaining < depth →
    p.run.workflow.Explains (grow node p).falls

section Behind

variable {grow : Node → Progress → Branch} {dispatch dispatch' : Node → Running Unit} {depth : Nat}
  (hc : Covers depth grow dispatch dispatch') (h : Explained depth grow)

include hc h

theorem explains_branches (links : List Link) {p : Progress} (hp : p.run.remaining < depth) :
    p.run.workflow.Explains (Branch.fallsOf (branches grow dispatch links p)) := by
  induction links generalizing p with
  | nil => exact fun fall hm => by cases hm
  | cons link rest ih =>
    intro fall hm
    rw [branches, Branch.fallsOf_append, List.mem_append] at hm
    rcases hm with hm | hm
    · cases hn : p.run.workflow.node? link.target with
      | none => rw [hn] at hm; cases hm
      | some target =>
        rw [hn] at hm
        exact h target p (List.mem_of_find?_eq_some hn) hp fall (by simpa [Branch.fallsOf] using hm)
    · obtain ⟨hspread, -⟩ := followLink_spread hc link hp
      exact hspread.workflow ▸ ih (Nat.lt_of_le_of_lt hspread.remaining_le hp) fall hm

theorem explains_behind (router : Option Router) (node : Node) (output : Value) (links : List Link) {p : Progress}
    (hp : p.run.remaining < depth) :
    p.run.workflow.Explains (Branch.fallsOf (behind grow dispatch router node output links p)) := by
  obtain ⟨q, tidy, hsteered⟩ := exists_steered router node output links p
  rw [hsteered.behind]
  exact hsteered.still.workflow ▸
    explains_branches hc h _ (Nat.lt_of_le_of_lt hsteered.still.remaining_le hp)

end Behind

/-- The falls of a dispatch that may go deep enough are those of its nodes. -/
theorem falls_within (depth : Nat) : Explained depth (branch depth) := by
  induction depth with
  | zero => exact fun node p _ hp => absurd hp (Nat.not_lt_zero _)
  | succ depth ih =>
    rintro node ⟨w, r⟩ hn hp
    unfold branch
    split
    · exact fun fall hm => by cases hm
    · next hc =>
      have hentered := entered_perform (w := w) hn (by simpa using hc)
      rcases hgo : go (perform node) ⟨w, { r with entered := r.entered ++ [node.id] }⟩ with ⟨fault | output, v, s⟩ <;>
        rw [hgo] at hentered <;> dsimp only
      · intro fall hm
        rw [List.mem_singleton.1 hm]
        refine ⟨node, hn, rfl, ?_⟩
        by_cases ht : node.Titled
        · rw [if_pos ht]
          exact .running ht
        · rw [if_neg ht]
          exact .opening ht
      · cases hf : Router.choose v.config.buttonTools node output with
        | error fault =>
          intro fall hm
          rw [List.mem_singleton.1 hm]
          exact ⟨node, hn, rfl, falls_of_choose hgo hf⟩
        | ok router =>
          have hleft : s.remaining < depth := Nat.lt_of_lt_of_le hentered.remaining_lt (Nat.le_of_lt_succ hp)
          exact hentered.workflow ▸ explains_behind (covers_within depth 0) ih router node output _ (p := ⟨v, s⟩) hleft

theorem falls_tree {node : Node} {p : Progress} (hn : node ∈ p.run.workflow.nodes) :
    p.run.workflow.Explains (tree node p).falls :=
  falls_within p.run.depth node p hn p.run.remaining_lt_depth

/-- In a dispatch no node is run twice. -/
theorem nodup_ran_tree {node : Node} {p : Progress} (hn : node ∈ p.run.workflow.nodes) : (tree node p).ran.Nodup := by
  obtain ⟨hspread, -⟩ := covers_within p.run.depth 0 node p hn p.run.remaining_lt_depth
  have hnodup := hspread.nodup
  rwa [Branch.ranOf, Branch.ranOf, List.append_nil] at hnodup

end Dispatch

/-! ## Executions -/

/-- Whether the failure of each node can be recorded: the titles are texts, and the tool ids that conditional actions have
and do not use can be looked up. -/
def Workflow.Recordable (W : Workflow) : Prop :=
  ∀ node ∈ W.nodes, node.Titled ∧ (node.isConditional = true → (node.setting "tool_id").isKey = true)

/-- In such a workflow a fall leaves a row that has failed. -/
theorem Workflow.Recordable.row?_eq {W : Workflow} (h : W.Recordable) {falls : List Fall} (he : W.Explains falls)
    {fall : Fall} (hf : fall ∈ falls) : fall.row? = some ⟨fall.node, .failed, some fall.fault.message⟩ := by
  obtain ⟨node, hn, -, hstage⟩ := he fall hf
  obtain ⟨htitled, hkey⟩ := h node hn
  obtain ⟨id, stage, fault⟩ := fall
  cases hstage with
  | opening hno => exact absurd htitled hno
  | running => rfl
  | routing hc hk =>
    rw [hkey hc] at hk
    cases hk

theorem RunStatus.ending_eq_failed_iff {suspends : Bool} {failures : List String} :
    RunStatus.ending suspends failures = .failed ↔ suspends = false ∧ failures ≠ [] := by
  cases suspends <;> cases failures <;> simp [ending]

namespace Invocation

/-- The falls of a run that starts. -/
def falls (p : Progress) : List Fall :=
  (tree? p).elim [] Branch.falls

theorem failures_eq_nil_iff {p : Progress} {node : Node} (hn : p.run.workflow.triggerNode? = some node) :
    failures p = [] ↔ falls p = [] := by
  rw [failures, falls, tree?, hn]
  exact Branch.failures_eq_nil_iff _

theorem explains_falls (p : Progress) : p.run.workflow.Explains (falls p) := by
  unfold falls tree?
  cases hn : p.run.workflow.triggerNode? with
  | none => exact fun fall hm => by cases hm
  | some node => exact Dispatch.falls_tree (List.mem_of_find?_eq_some hn)

/-- The rows of the node of a fall are what the fall has left. -/
theorem filter_rows {p : Progress} {fall : Fall} (h : fall ∈ falls p) :
    (rows p).filter (·.node == fall.node) = fall.row?.toList := by
  unfold falls tree? at h
  unfold rows tree?
  cases hn : p.run.workflow.triggerNode? with
  | none => rw [hn] at h; cases h
  | some node =>
    rw [hn] at h
    exact Branch.filter_rows (Dispatch.nodup_ran_tree (List.mem_of_find?_eq_some hn)) h

theorem exists_fall {p : Progress} {v : Verdict} (hv : v.status = .failed) (hm : v ∈ rows p) :
    ∃ fall ∈ falls p, fall.row? = some v := by
  unfold rows at hm
  unfold falls
  cases ht : tree? p with
  | none => rw [ht] at hm; cases hm
  | some b => rw [ht] at hm; exact Branch.exists_fall hv hm

end Invocation

/-- Of an execution that starts in whatever session, unless something is refused to it, each node that could not be
dispatched to its end has in the log what its fall has left: no row, or one that tells of the failure, or one that
tells of success. Every row that tells of a failure is one of these, and the execution has failed if there are any falls
and no node waits. In a workflow of which each node can be recorded, there is a row for each of its failures, and one
if the execution has failed. -/
theorem failures_logged (config : Config) (root : String) (auditor : Option Auditor) (steps : List Session.Step)
    (W : Workflow) (payload : Value) :
    let w := (Session.run steps (.initial config root auditor)).2
    let w' := (run (Invocation.execute W payload) w).2
    W.validate = .ok () → w.Steady → w.Heard → (Store.Executions.place w.nextExecution).Fits →
    (∃ logs, HasLogs w.storage w.nextExecution logs) →
    ∃ r u, run (Invocation.opening W payload) w = (.ok r, u) ∧
      ∃ x logs more, x.id = w.nextExecution ∧ HasRecord w'.storage x.id x ∧
        HasLogs w'.storage x.id (logs ++ more) ∧ attempts logs = [] ∧
        (x.status = .failed ↔ Invocation.suspends ⟨u, r⟩ = false ∧ Invocation.falls ⟨u, r⟩ ≠ []) ∧
        W.Explains (Invocation.falls ⟨u, r⟩) ∧
        (∀ fall ∈ Invocation.falls ⟨u, r⟩,
          (more.filter (·.nodeId == fall.node)).map NodeLog.verdict = fall.row?.toList) ∧
        (∀ row ∈ more, row.status = .failed → ∃ fall ∈ Invocation.falls ⟨u, r⟩, fall.row? = some row.verdict) ∧
        (W.Recordable →
          (x.status = .failed → ∃ row ∈ more, row.status = .failed) ∧
          ∀ fall ∈ Invocation.falls ⟨u, r⟩,
            (more.filter (·.nodeId == fall.node)).map NodeLog.verdict =
              [⟨fall.node, .failed, some fall.fault.message⟩]) := by
  intro w w' hvalid hs hh hf ⟨logs, hl⟩
  have ho : Orderly w := orderly_run steps (orderly_initial config root auditor)
  obtain ⟨r, u, hopen, x, v, hid, hrun, hconcluded, hrows⟩ := Invocation.execute_ends ho hs hh hf W payload
  obtain ⟨more, hmore, hverdicts⟩ := hrows logs hl
  have hv : w' = v := congrArg Prod.snd hrun
  rw [← hv] at hmore hconcluded
  obtain ⟨execution, rfl⟩ := Invocation.eq_of_opening hopen
  obtain ⟨first, hfirst⟩ := Option.isSome_iff_exists.1 (Workflow.triggerNode?_isSome_of_validate hvalid)
  generalize hp : (⟨u, .start execution W (.start payload)⟩ : Progress) = p at hconcluded hverdicts
  have hworkflow : p.run.workflow = W := by rw [← hp]; rfl
  have hexplains : W.Explains (Invocation.falls p) := hworkflow ▸ Invocation.explains_falls p
  have hstatus : x.status = .failed ↔ Invocation.suspends p = false ∧ Invocation.falls p ≠ [] := by
    rw [hconcluded.status, RunStatus.ending_eq_failed_iff, Ne, Invocation.failures_eq_nil_iff (hworkflow.symm ▸ hfirst)]
  have hleft : ∀ fall ∈ Invocation.falls p,
      (more.filter (·.nodeId == fall.node)).map NodeLog.verdict = fall.row?.toList := by
    intro fall hfall
    rw [← Invocation.filter_rows hfall, ← hverdicts, List.filter_map]
    rfl
  refine ⟨_, u, hopen, x, logs, more, hid, hconcluded.record, hmore, (ho.attempts_eq_nil hl).2, ?_⟩
  rw [hp]
  refine ⟨hstatus, hexplains, hleft, fun row hrow hfailed => ?_, fun hrecordable => ⟨fun hfailed => ?_, fun fall hfall => ?_⟩⟩
  · exact Invocation.exists_fall hfailed (hverdicts ▸ List.mem_map_of_mem hrow)
  · obtain ⟨fall, rest, hfalls⟩ := List.exists_cons_of_ne_nil (hstatus.1 hfailed).2
    have hfall : fall ∈ Invocation.falls p := hfalls ▸ List.mem_cons_self
    have hrow := hleft fall hfall
    rw [hrecordable.row?_eq hexplains hfall] at hrow
    obtain ⟨row, hsingle, hverdict⟩ := List.map_eq_singleton_iff.1 hrow
    have hm : row ∈ more.filter (·.nodeId == fall.node) := hsingle ▸ List.mem_singleton_self row
    exact ⟨row, (List.mem_filter.1 hm).1, congrArg Verdict.status hverdict⟩
  · rw [hleft fall hfall, hrecordable.row?_eq hexplains hfall]
    rfl

/-- Two nodes that fail, one behind the other's neighbour: each has its row. -/
theorem failures_logged_sample :
    let w := (Session.run [] (.initial {} "" none)).2
    let w' := (run (Invocation.execute Sample.crossing .null) w).2
    Sample.crossing.validate = .ok () ∧ w.Steady ∧ w.Heard ∧ (Store.Executions.place w.nextExecution).Fits ∧
      Sample.crossing.Recordable ∧
      ∃ x logs more, x.id = w.nextExecution ∧ HasRecord w'.storage x.id x ∧ HasLogs w'.storage x.id (logs ++ more) ∧
        x.status = .failed ∧ (∃ row ∈ more, row.status = .failed) ∧
        (more.filter (·.nodeId == "second")).map NodeLog.verdict =
          [⟨"second", .failed, some "Tool not found: missing"⟩] := by
  dsimp only
  have hsteady : (Session.run [] (.initial {} "" none)).2.Steady := fun p hp => by cases hp
  have hheard : (Session.run [] (.initial {} "" none)).2.Heard := fun a ha => by cases ha
  have hfits : (Store.Executions.place (Session.run [] (.initial {} "" none)).2.nextExecution).Fits := by decide +kernel
  have hrecordable : Sample.crossing.Recordable := by
    intro node hn
    simp only [Sample.crossing, List.mem_cons, List.not_mem_nil, or_false] at hn
    rcases hn with rfl | rfl | rfl | rfl <;> exact ⟨⟨_, rfl⟩, by decide⟩
  obtain ⟨r, u, hopen, x, logs, more, hid, hrecord, hlogs, -, hstatus, -, -, -, hall⟩ :=
    failures_logged {} "" none [] Sample.crossing .null rfl hsteady hheard hfits ⟨[], rfl⟩
  obtain ⟨hfailed, hrows⟩ := hall hrecordable
  have hfalls : (run (Invocation.opening Sample.crossing .null) (Session.run [] (.initial {} "" none)).2).1.toOption.map
      (fun r =>
        let p : Progress := ⟨(run (Invocation.opening Sample.crossing .null) (Session.run [] (.initial {} "" none)).2).2, r⟩
        (Invocation.suspends p, (Invocation.falls p).map fun fall => (fall.node, fall.fault.message))) =
      some (false, [("first", "Tool not found: absent"), ("second", "Tool not found: missing")]) := by
    decide +kernel
  rw [hopen] at hfalls
  simp only [Except.toOption, Option.map_some, Option.some.injEq, Prod.mk.injEq] at hfalls
  obtain ⟨hsuspends, hnodes⟩ := hfalls
  obtain ⟨fall, hfall, hsecond⟩ := List.mem_map.1
    (show ("second", "Tool not found: missing") ∈ (Invocation.falls ⟨u, r⟩).map _ by rw [hnodes]; simp)
  obtain ⟨hnode, hmessage⟩ := Prod.mk.inj hsecond
  have hx : x.status = .failed := hstatus.2 ⟨hsuspends, List.ne_nil_of_mem hfall⟩
  have hrow := hrows fall hfall
  rw [hnode, hmessage] at hrow
  exact ⟨rfl, hsteady, hheard, hfits, hrecordable, x, logs, more, hid, hrecord, hlogs, hx, hfailed hx, hrow⟩

namespace Sample

/-- A trigger node whose title is a number. -/
def untitled : Workflow :=
  { id := "flow", title := none, status := .published
    nodes := [node "start" "trigger" [("title", .int 5)]]
    edges := [] }

/-- A conditional action that has a list for a tool id. -/
def unroutable : Workflow :=
  { id := "flow", title := none, status := .published
    nodes := [node "start" "trigger" [], node "act" "action"
      [("action_type", .str "conditional"), ("tool_id", .list [.str "hide"])]]
    edges := [⟨some "start", some "act", none⟩] }

end Sample

/-- An execution has failed without a row, since one could not be opened, and another with rows of success only, one of
which is that of the node that failed. -/
theorem not_every_failure :
    let w := (Session.run [.execute Sample.untitled .null] (.initial {} "" none)).2
    let w' := (Session.run [.execute Sample.unroutable .null] (.initial {} "" none)).2
    (Sample.untitled.validate = .ok () ∧ w.storage.nodeLogs Sample.execution = [] ∧
      ∃ x, HasRecord w.storage Sample.execution x ∧ x.status = .failed) ∧
    Sample.unroutable.validate = .ok () ∧
      (w'.storage.nodeLogs Sample.execution).map NodeLog.verdict =
        [⟨"start", .success, none⟩, ⟨"act", .success, none⟩] ∧
      ∃ x, HasRecord w'.storage Sample.execution x ∧ x.status = .failed ∧
        x.errorMessage = some "Node 'act' failed: unhashable type: 'list'" := by
  intro w w'
  have hw : Orderly w := orderly_run _ (orderly_initial {} "" none)
  have hw' : Orderly w' := orderly_run _ (orderly_initial {} "" none)
  have hrun : ((w.storage.nodeLogs Sample.execution).map NodeLog.verdict,
      (w.storage.execution? Sample.execution).map Execution.status) = ([], some .failed) := by
    decide +kernel
  have hrun' : ((w'.storage.nodeLogs Sample.execution).map NodeLog.verdict,
      (w'.storage.execution? Sample.execution).map fun x => (x.status, x.errorMessage)) =
      ([⟨"start", .success, none⟩, ⟨"act", .success, none⟩],
        some (.failed, some "Node 'act' failed: unhashable type: 'list'")) := by
    decide +kernel
  obtain ⟨hrows, hstatus⟩ := Prod.mk.inj hrun
  obtain ⟨hrows', hstatus'⟩ := Prod.mk.inj hrun'
  obtain ⟨x, hx, hfailed⟩ := Option.map_eq_some_iff.1 hstatus
  obtain ⟨x', hx', htold⟩ := Option.map_eq_some_iff.1 hstatus'
  obtain ⟨hfailed', hmessage⟩ := Prod.mk.inj htold
  exact ⟨⟨rfl, List.map_eq_nil_iff.1 hrows, x, (hw.hasRecord_iff _ _).2 hx, hfailed⟩, rfl, hrows',
    x', (hw'.hasRecord_iff _ _).2 hx', hfailed', hmessage⟩

end WorkGraph
