import WorkGraph.Proofs.Smooth

/-!
# The tree of a dispatch

The dispatch of a node leads to dispatches of the nodes behind it, and so to a tree (`Branch`), which `Dispatch.branch`
reads off the run. Rows stand in the log in the order in which their nodes were entered (`Branch.rows`). Failures are
noted in another order (`Branch.noted`): by the node that led to the one that failed, once all that it leads to is over,
so that a failure further down is noted before an earlier one at the top. What a dispatch does to the run and to the log
is what its tree says (`Dispatch.tree_tells`), and so it is with the nodes behind a click (`Routing.along_went`).
-/

namespace WorkGraph

open Running

/-! ## Trees -/

/-- How far a dispatch got before a fault ended it. -/
inductive Stage where
  /-- The node has no row. -/
  | opening
  /-- The node was run, and failed. -/
  | running
  /-- The node succeeded, and could not be routed. -/
  | routing
  deriving DecidableEq, Repr

/-- What became of the dispatch of a node. -/
inductive Branch where
  /-- The node had been dispatched before. -/
  | skipped
  | fell (node : String) (stage : Stage) (fault : Fault)
  /-- The node succeeded: whether it waits for a click, and what it led to. -/
  | grew (node : String) (suspended : Bool) (behind : List Branch)

/-- What a row says of a node. -/
structure Verdict where
  node : String
  status : RunStatus
  error : Option String
  deriving DecidableEq, Repr

def NodeLog.verdict (row : NodeLog) : Verdict :=
  ⟨row.nodeId, row.status, row.errorMessage⟩

namespace Branch

/-- The fault that ended a dispatch. -/
def fault? : Branch → Option Fault
  | fell _ _ fault => some fault
  | _ => none

/-- What is noted of a dispatch that a fault ended. -/
def fall? : Branch → Option String
  | fell node _ fault => some ("Node '" ++ node ++ "' failed: " ++ fault.message)
  | _ => none

mutual

/-- The rows that a dispatch leaves, in order. -/
def rows : Branch → List Verdict
  | skipped => []
  | fell _ .opening _ => []
  | fell node .running fault => [⟨node, .failed, some fault.message⟩]
  | fell node .routing _ => [⟨node, .success, none⟩]
  | grew node _ behind => ⟨node, .success, none⟩ :: rowsOf behind

def rowsOf : List Branch → List Verdict
  | [] => []
  | b :: rest => b.rows ++ rowsOf rest

end

mutual

/-- The failures that are noted in the course of a dispatch, in order. Of the nodes that a node leads to, the first that
fails is noted, and that when all of them are over. -/
def noted : Branch → List String
  | skipped => []
  | fell _ _ _ => []
  | grew _ _ behind => notedOf behind ++ (behind.findSome? fall?).toList

def notedOf : List Branch → List String
  | [] => []
  | b :: rest => b.noted ++ notedOf rest

end

mutual

/-- Whether a node waits for a click. -/
def suspends : Branch → Bool
  | skipped => false
  | fell _ _ _ => false
  | grew _ suspended behind => suspended || suspendsOf behind

def suspendsOf : List Branch → Bool
  | [] => false
  | b :: rest => b.suspends || suspendsOf rest

end

section Append

variable (bs cs : List Branch)

@[simp] theorem rowsOf_append : rowsOf (bs ++ cs) = rowsOf bs ++ rowsOf cs := by
  induction bs with
  | nil => rfl
  | cons b rest ih => rw [List.cons_append, rowsOf, ih, rowsOf, List.append_assoc]

@[simp] theorem notedOf_append : notedOf (bs ++ cs) = notedOf bs ++ notedOf cs := by
  induction bs with
  | nil => rfl
  | cons b rest ih => rw [List.cons_append, notedOf, ih, notedOf, List.append_assoc]

@[simp] theorem suspendsOf_append : suspendsOf (bs ++ cs) = (suspendsOf bs || suspendsOf cs) := by
  induction bs with
  | nil => rfl
  | cons b rest ih => rw [List.cons_append, suspendsOf, ih, suspendsOf, Bool.or_assoc]

end Append

end Branch

/-! ## Reading a tree off a run -/

/-- The links that are followed behind an output. -/
def Routing.selected (router : Option Router) (output : Value) (links : List Link) : List Link :=
  match router, output with
  | some .condition, .map output => ofOutlet links (if (Value.field output "result").truthy then "true" else "false")
  | some .pendingSend, .map _ => []
  | some .buttonClick, .map output => ofOutlet links (Value.field output "button_id").display
  | _, _ => links

/-- Whether a node waits for a click. -/
def Routing.suspends (router : Option Router) (output : Value) (links : List Link) : Bool :=
  match router, output with
  | some .pendingSend, .map _ => !links.isEmpty
  | _, _ => false

namespace Dispatch

section Behind

variable (grow : Node → Progress → Branch) (dispatch : Node → Running Unit)

/-- What links lead to that are followed one after the other. -/
def branches : List Link → Progress → List Branch
  | [], _ => []
  | link :: rest, p =>
    ((p.run.workflow.node? link.target).map (grow · p)).toList ++
      branches rest (go (Routing.followLink dispatch link) p).2

/-- What a node leads to, from where the router has done all that it does apart from following links. -/
def behind (router : Option Router) (node : Node) (output : Value) (links : List Link) (p : Progress) : List Branch :=
  branches grow dispatch (Routing.selected router output links)
    (go (Routing.along router (fun _ => pure ()) node output links) p).2

end Behind

/-- What a dispatch comes to. -/
def branch : (depth : Nat) → Node → Progress → Branch
  | 0, node, _ => .fell node.id .opening (.engine "Dispatch is nested too deeply")
  | depth + 1, node, p =>
    if p.run.context.isCompleted node.id then .skipped
    else
      match go (perform node) ⟨p.world, { p.run with entered := p.run.entered ++ [node.id] }⟩ with
      | (.error fault, _) => .fell node.id (if node.Titled then .running else .opening) fault
      | (.ok output, q) =>
        match Router.choose q.world.config.buttonTools node output with
        | .error fault => .fell node.id .routing fault
        | .ok router =>
          let links := q.run.graph.links node.id
          .grew node.id (Routing.suspends router output links) (behind (branch depth) (within depth) router node output links q)

end Dispatch

/-! ## What is done to a run -/

/-- The first message is kept. -/
def Run.firstOf (error message : String) : String :=
  if error == "" then message else error

/-- A part of a run: what was noted, whether a node came to wait, and the rows that were left where nothing is refused. -/
structure Went (noted : List String) (suspends : Bool) (rows : List Verdict) (p q : Progress) : Prop where
  execution : q.run.execution = p.run.execution
  failed : q.run.failed = (p.run.failed || !noted.isEmpty)
  firstError : q.run.firstError = noted.foldl Run.firstOf p.run.firstError
  suspended : q.run.suspended = (p.run.suspended || suspends)
  rows : ∀ logs, Fluent p logs → ∃ more, Fluent q (logs ++ more) ∧ more.map NodeLog.verdict = rows

namespace Went

variable {noted others : List String} {s t : Bool} {rows more : List Verdict} {p q u : Progress} {w w' : World} {r : Run}

theorem trans (h : Went noted s rows p q) (k : Went others t more q u) :
    Went (noted ++ others) (s || t) (rows ++ more) p u where
  execution := k.execution.trans h.execution
  failed := by
    rw [k.failed, h.failed]
    cases noted <;> simp
  firstError := by rw [k.firstError, h.firstError, List.foldl_append]
  suspended := by rw [k.suspended, h.suspended, Bool.or_assoc]
  rows logs hp := by
    obtain ⟨first, hq, hfirst⟩ := h.rows logs hp
    obtain ⟨second, hu, hsecond⟩ := k.rows _ hq
    exact ⟨first ++ second, by rwa [← List.append_assoc], by rw [List.map_append, hfirst, hsecond]⟩

/-- The run was not changed but for its context and the nodes that it has entered. -/
theorem of_run {c : Context} {entered : List String} (hq : q.run = { p.run with context := c, entered })
    (hrows : ∀ logs, Fluent p logs → ∃ more, Fluent q (logs ++ more) ∧ more.map NodeLog.verdict = rows) :
    Went [] false rows p q where
  execution := by rw [hq]
  failed := by rw [hq]; simp
  firstError := by rw [hq]; rfl
  suspended := by rw [hq]; simp
  rows := hrows

theorem of_quiet (hq : Quiet w w') : Went [] false [] ⟨w, r⟩ ⟨w', r⟩ :=
  of_run rfl fun logs h => ⟨[], by rw [List.append_nil]; exact h.quiet hq, rfl⟩

theorem refl (p : Progress) : Went [] false [] p p :=
  of_quiet (.refl p.world)

/-- A failure was noted, if there was any, and whether the node waits. -/
theorem noteIn (routing : Routing) (w : World) (r : Run) :
    Went routing.error.toList routing.suspend [] ⟨w, r⟩ ⟨w, routing.noteIn r⟩ := by
  have hrows : ∀ {s : Run}, s.execution = r.execution → s.context = r.context → ∀ logs, Fluent ⟨w, r⟩ logs →
      ∃ more, Fluent ⟨w, s⟩ (logs ++ more) ∧ more.map NodeLog.verdict = [] :=
    fun he hc logs h => ⟨[], by rw [List.append_nil]; exact h.rerun he hc, rfl⟩
  obtain ⟨routed, error, suspend⟩ := routing
  cases error <;> cases suspend <;>
    exact ⟨rfl, by simp [Routing.noteIn, Run.recordFailure], by simp [Routing.noteIn, Run.recordFailure, Run.firstOf],
      by simp [Routing.noteIn, Run.recordFailure], hrows rfl rfl⟩

end Went

namespace Dispatch

/-- The rows of a node that was performed. -/
def verdicts (node : Node) : Except Fault Value → List Verdict
  | .ok _ => [⟨node.id, .success, none⟩]
  | .error fault => if node.Titled then [⟨node.id, .failed, some fault.message⟩] else []

theorem perform_went (node : Node) (p : Progress) (hnew : p.run.context.isCompleted node.id = false) :
    let out := go (perform node) p
    Went [] false (verdicts node out.1) p out.2 := by
  obtain ⟨w, r⟩ := p
  obtain ⟨c, hc⟩ := run_perform node ⟨w, r⟩
  replace hc : (go (perform node) ⟨w, r⟩).2.run = { r with context := c, entered := r.entered } := hc
  refine .of_run hc fun logs h => ?_
  by_cases ht : node.Titled
  · obtain ⟨row, result, w', hgo, hturn⟩ := h.perform ht hnew
    rw [hgo]
    refine ⟨[row], h.turned hturn, ?_⟩
    rw [List.map_singleton, NodeLog.verdict, hturn.nodeId, hturn.status, hturn.error]
    cases result with
    | ok output => rfl
    | error fault => rw [verdicts, if_pos ht]; rfl
  · obtain ⟨fault, w', hgo, -, hfluent⟩ := h.untitled ht
    rw [hgo]
    exact ⟨[], by rwa [List.append_nil], by rw [verdicts, if_neg ht]; rfl⟩

end Dispatch

/-! ## Following links -/

/-- Whether what dispatches come to is what the trees say. -/
def Branch.Tells (grow : Node → Progress → Branch) (dispatch : Node → Running Unit) : Prop :=
  ∀ node p, (go (dispatch node) p).1 = (grow node p).fault?.elim (.ok ()) .error ∧
    (grow node p).fall? =
      (grow node p).fault?.map (fun fault => "Node '" ++ node.id ++ "' failed: " ++ fault.message) ∧
    Went (grow node p).noted (grow node p).suspends (grow node p).rows p (go (dispatch node) p).2

namespace Routing

open Branch Dispatch

variable {grow : Node → Progress → Branch} {dispatch : Node → Running Unit}

section Follow

variable (h : Tells grow dispatch)

include h

theorem followLink_went (link : Link) (p : Progress) :
    let kids := ((p.run.workflow.node? link.target).map (grow · p)).toList
    ∃ q, go (followLink dispatch link) p = (.ok (kids.findSome? fall?), q) ∧
      Went (notedOf kids) (suspendsOf kids) (rowsOf kids) p q := by
  obtain ⟨w, r⟩ := p
  unfold followLink
  rw [go_bind_ok (go_run w r)]
  cases hn : r.workflow.node? link.target with
  | none => exact ⟨_, rfl, .refl _⟩
  | some target =>
    obtain ⟨hresult, hfall, hwent⟩ := h target ⟨w, r⟩
    have hid : target.id = link.target := by simpa using List.find?_some hn
    refine ⟨(go (dispatch target) ⟨w, r⟩).2, ?_, ?_⟩
    · show go (faultOf (dispatch target) >>= _) ⟨w, r⟩ = (.ok ([grow target ⟨w, r⟩].findSome? fall?), _)
      rw [List.findSome?_cons, hfall, go_bind, go_faultOf]
      rcases hgo : go (dispatch target) ⟨w, r⟩ with ⟨result, q⟩
      rw [hgo] at hresult
      cases hf : (grow target ⟨w, r⟩).fault? with
      | none =>
        rw [hf] at hresult
        obtain rfl : result = .ok () := hresult
        rfl
      | some fault =>
        rw [hf] at hresult
        obtain rfl : result = .error fault := hresult
        rw [hid]
        rfl
    · show Went (notedOf [grow target ⟨w, r⟩]) (suspendsOf [grow target ⟨w, r⟩]) (rowsOf [grow target ⟨w, r⟩]) ⟨w, r⟩ _
      simpa only [notedOf, suspendsOf, rowsOf, List.append_nil, Bool.or_false] using hwent

/-- What links lead to, each from where the one before has left the run. -/
theorem follow_went : ∀ (links : List Link) (p : Progress),
    let kids := branches grow dispatch links p
    ∃ q, go (follow dispatch links) p = (.ok ⟨!links.isEmpty, kids.findSome? fall?, false⟩, q) ∧
      Went (notedOf kids) (suspendsOf kids) (rowsOf kids) p q
  | [], p => ⟨p, rfl, .refl p⟩
  | link :: rest, p => by
    obtain ⟨q, hlink, hfirst⟩ := followLink_went h link p
    obtain ⟨u, hrest, hothers⟩ := follow_went rest q
    have hq : (go (followLink dispatch link) p).2 = q := by rw [hlink]
    refine ⟨u, ?_, ?_⟩
    · unfold follow
      rw [go_bind_ok hlink, go_bind_ok hrest, go_pure, branches, hq, List.findSome?_append]
      rfl
    · rw [branches, hq, notedOf_append, suspendsOf_append, rowsOf_append]
      exact hfirst.trans hothers

end Follow

/-- Links that lead to nothing leave all as it is. -/
theorem go_follow_nothing (links : List Link) (p : Progress) :
    go (follow (fun _ => pure ()) links) p = (.ok ⟨!links.isEmpty, none, false⟩, p) := by
  induction links with
  | nil => rfl
  | cons link rest ih =>
    obtain ⟨w, r⟩ := p
    have hlink : go (followLink (fun _ => pure ()) link) ⟨w, r⟩ = (.ok none, ⟨w, r⟩) := by
      unfold followLink
      rw [go_bind_ok (go_run w r)]
      cases r.workflow.node? link.target <;> rfl
    unfold follow
    rw [go_bind_ok hlink, go_bind_ok ih]
    rfl

section Along

variable (h : Tells grow dispatch) {node : Node} {links : List Link} {p : Progress}

include h

/-- Links that are followed from where a router has left the run. -/
theorem followed_went {router : Option Router} {output : Value} {selected : List Link} {q : Progress}
    (hsel : Routing.selected router output links = selected) (hq : Went [] false [] p q)
    (hstart : selected ≠ [] → ∃ result, go (along router (fun _ => pure ()) node output links) p = (result, q)) :
    let kids := behind grow dispatch router node output links p
    ∃ u, go (follow dispatch selected) q = (.ok ⟨!selected.isEmpty, kids.findSome? fall?, false⟩, u) ∧
      Went (notedOf kids) (suspendsOf kids) (rowsOf kids) p u := by
  have hkids : behind grow dispatch router node output links p = branches grow dispatch selected q := by
    unfold behind
    rw [hsel]
    cases selected with
    | nil => rfl
    | cons link rest =>
      obtain ⟨result, hgo⟩ := hstart (List.cons_ne_nil _ _)
      rw [hgo]
  obtain ⟨u, hgo, hwent⟩ := follow_went h selected q
  dsimp only
  rw [hkids]
  exact ⟨u, hgo, hq.trans hwent⟩

variable (links) in
/-- Routing a node does to the run what the trees behind it say. -/
theorem along_went (router : Option Router) {output : Value} (ho : p.run.context.outputs.get? node.id = some output) :
    let kids := behind grow dispatch router node output links p
    ∃ routing q, go (along router dispatch node output links) p = (.ok routing, q) ∧
      routing.error = kids.findSome? fall? ∧ routing.suspend = suspends router output links ∧
      (router = some .buttonClick → routing.routed = !(selected router output links).isEmpty) ∧
      Went (notedOf kids) (suspendsOf kids) (rowsOf kids) p q := by
  intro kids
  have hplain (hsel : selected router output links = links) (hsus : suspends router output links = false)
      (halong : ∀ dispatch, along router dispatch node output links = follow dispatch links) :
      ∃ routing q, go (along router dispatch node output links) p = (.ok routing, q) ∧
        routing.error = kids.findSome? fall? ∧ routing.suspend = suspends router output links ∧
        (router = some .buttonClick → routing.routed = !(selected router output links).isEmpty) ∧
        Went (notedOf kids) (suspendsOf kids) (rowsOf kids) p q := by
    obtain ⟨u, hgo, hwent⟩ := followed_went h hsel (.refl p) fun _ => ⟨_, by rw [halong]; exact go_follow_nothing links p⟩
    rw [halong, hsel, hsus]
    exact ⟨_, u, hgo, rfl, rfl, fun _ => rfl, hwent⟩
  cases router with
  | none => exact hplain rfl rfl fun _ => rfl
  | some router =>
    cases output with
    | null | bool | num | str | list => cases router <;> exact hplain rfl rfl fun _ => rfl
    | map output =>
      cases router with
      | condition =>
        generalize hsel : selected (some .condition) (.map output) links = taken
        let warning : Engine Unit := Engine.log .warning "handlers.condition" "condition_branch_unconnected"
          [("node_id", .str node.id), ("branch", .str (if (Value.field output "result").truthy then "true" else "false")),
            ("available_ports", outletList links)]
        have hwarning : Engine.Hushed warning := Engine.hushed_log (by decide)
        have hrun (dispatch : Node → Running Unit) : go (along (some .condition) dispatch node (.map output) links) p =
            go (follow dispatch taken >>= fun routing => do
              if !routing.routed && !links.isEmpty then liftM warning
              return routing) p := by
          rw [← hsel]
          rfl
        have hstart (hne : taken ≠ []) :
            ∃ result, go (along (some .condition) (fun _ => pure ()) node (.map output) links) p = (result, p) := by
          have hfull : (!taken.isEmpty) = true := by simpa using hne
          rw [hrun, go_bind_ok (go_follow_nothing taken p), hfull]
          exact ⟨.ok ⟨true, none, false⟩, rfl⟩
        obtain ⟨u, hgo, hwent⟩ := followed_went h hsel (.refl p) hstart
        rw [hrun, go_bind_ok hgo]
        dsimp only
        split
        · refine ⟨_, ⟨(Engine.run warning u.world).2, u.run⟩, rfl, rfl, rfl, (fun hb => by cases hb), ?_⟩
          simpa only [List.append_nil, Bool.or_false] using hwent.trans (.of_quiet (r := u.run) (hwarning u.world))
        · exact ⟨_, _, rfl, rfl, rfl, (fun hb => by cases hb), hwent⟩
      | pendingSend =>
        -- nothing is followed
        have hwent {q : Progress} (hq : Went [] false [] p q) : Went (notedOf kids) (suspendsOf kids) (rowsOf kids) p q := hq
        show ∃ routing q, go (pendingSend node output links) p = (.ok routing, q) ∧ _
        unfold pendingSend
        cases hl : links.isEmpty with
        | true => exact ⟨_, _, rfl, rfl, by simp [suspends, hl], (fun hb => by cases hb), hwent (.refl p)⟩
        | false => exact ⟨_, _, rfl, rfl, by simp [suspends, hl], (fun hb => by cases hb),
            hwent (.of_quiet (Engine.hushed_log (by decide) p.world))⟩
      | buttonClick =>
        generalize hsel : selected (some .buttonClick) (.map output) links = taken
        have htaken : ofOutlet links (Value.field output "button_id").display = taken := hsel
        show ∃ routing q, go (buttonClick dispatch node output links) p = (.ok routing, q) ∧ _
        cases hl : taken.isEmpty with
        | true =>
          have hkids : kids = [] := by
            show behind grow dispatch _ node _ links p = []
            unfold behind
            rw [hsel, List.isEmpty_iff.1 hl]
            rfl
          have hgo : go (buttonClick dispatch node output links) p = (.ok nowhere, p) := by
            unfold buttonClick
            dsimp only
            rw [htaken, hl]
            rfl
          rw [hgo, hkids]
          exact ⟨_, p, rfl, rfl, rfl, fun _ => rfl, .refl p⟩
        | false =>
          obtain ⟨w, r⟩ := p
          obtain ⟨w', hq, hrun⟩ := go_buttonClick node (htaken ▸ hl) w r
          rw [htaken] at hrun
          have hclicked : Went [] false [] ⟨w, r⟩ ⟨w', { r with context := clickedContext node output r.context }⟩ :=
            .of_run rfl fun logs hf => ⟨[], by rw [List.append_nil]; exact (hf.spliced _ ho).quiet hq, rfl⟩
          obtain ⟨u, hgo, hwent⟩ := followed_went h hsel hclicked fun _ => ⟨_, (hrun _).trans (go_follow_nothing taken _)⟩
          rw [hrun, hgo, hl]
          exact ⟨_, u, rfl, rfl, rfl, fun _ => rfl, hwent⟩

end Along

end Routing

namespace Dispatch

open Branch

/-- A dispatch comes to what its tree says. -/
theorem within_tells (depth : Nat) : Tells (branch depth) (within depth) := by
  induction depth with
  | zero => exact fun node p => ⟨rfl, rfl, .refl p⟩
  | succ depth ih =>
    rintro node ⟨w, r⟩
    have hentered : Went [] false [] ⟨w, r⟩ ⟨w, { r with entered := r.entered ++ [node.id] }⟩ :=
      .of_run rfl fun logs h => ⟨[], by rw [List.append_nil]; exact h.rerun rfl rfl, rfl⟩
    unfold branch within
    rw [go_bind_ok (go_modifyRun _ w r), go_bind_ok (go_run _ _)]
    dsimp only
    split
    · exact ⟨rfl, rfl, hentered.trans (.of_quiet (Engine.hushed_log (by decide) w))⟩
    · next hc =>
      have hperform := perform_went node ⟨w, { r with entered := r.entered ++ [node.id] }⟩ (by simpa using hc)
      rcases hp : go (perform node) ⟨w, { r with entered := r.entered ++ [node.id] }⟩ with ⟨fault | output, v, s⟩ <;>
        rw [hp] at hperform
      · rw [go_bind_error hp]
        have hrows : verdicts node (.error fault) =
            (fell node.id (if node.Titled then .running else .opening) fault).rows := by
          rw [verdicts]
          by_cases ht : node.Titled
          · rw [if_pos ht, if_pos ht]
            rfl
          · rw [if_neg ht, if_neg ht]
            rfl
        exact ⟨rfl, rfl, hrows ▸ hentered.trans hperform⟩
      · rw [go_bind_ok hp]
        unfold route
        rw [go_bind_ok (go_run v s), go_lift_bind (Engine.run_config v)]
        dsimp only
        cases Router.choose v.config.buttonTools node output with
        | error fault =>
          rw [go_lift_bind_error (Engine.run_ofExcept _ v)]
          exact ⟨rfl, rfl, hentered.trans hperform⟩
        | ok router =>
          obtain ⟨routing, ⟨w', t⟩, hgo, herror, hsuspend, -, hwent⟩ :=
            Routing.along_went ih (s.graph.links node.id) router (output_of_perform hp)
          rw [go_lift_bind (Engine.run_ofExcept _ v), go_bind_ok hgo]
          refine ⟨rfl, rfl, ?_⟩
          rw [go_modifyRun]
          have hall := hentered.trans (hperform.trans (hwent.trans (.noteIn routing w' t)))
          rw [herror, hsuspend] at hall
          simpa [verdicts, rows, noted, suspends, Bool.or_comm] using hall

/-- The tree of a node that is dispatched in a run. -/
def tree (node : Node) (p : Progress) : Branch :=
  branch p.run.depth node p

theorem tree_tells : Tells tree dispatch := by
  rintro node ⟨w, r⟩
  have hgo : go (dispatch node) ⟨w, r⟩ = go (within r.depth node) ⟨w, r⟩ := by
    unfold dispatch
    rw [go_bind_ok (go_run w r)]
  rw [hgo]
  exact within_tells r.depth node ⟨w, r⟩

end Dispatch

end WorkGraph
