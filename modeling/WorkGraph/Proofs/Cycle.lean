import Mathlib.Data.Fintype.Card
import Mathlib.Data.Set.Finite.List
import Mathlib.Logic.Relation
import WorkGraph.Proofs.Published
import WorkGraph.Proofs.Reach

/-!
# Cycles of a graph

A graph has the links of its edges (`Graph.links_ofEdges`). `Graph.cycle?` takes vertices away, each once no edge leads
to it any more, and counts for every vertex the edges that are left. `Graph.Stage` is what holds whenever a vertex or
one edge of it has been taken away (`Graph.Passes`): the counts are those of the edges from the vertices that are left,
so that none of them falls below zero, and nothing that is taken away is behind a cycle. When no vertex is ready, each
that is left has another one that is left before it, and is behind a cycle, as there are finitely many
(`Graph.Stage.mem_gone`). So the removal leaves just the vertices on a cycle or behind one (`cycle?_exact`).
-/

namespace WorkGraph

/-- Whether an edge with both ends leads from a vertex to another. -/
def Joined (edges : List Edge) (source target : String) : Prop :=
  ∃ edge ∈ edges, Graph.endpoint? edge.source = some source ∧ Graph.endpoint? edge.target = some target

theorem Entries.get?_of_mem {α : Type} {m : Entries α} (h : m.keys.Nodup) {key : String} {value : α}
    (hm : (key, value) ∈ m) : m.get? key = some value := by
  induction m with
  | nil => cases hm
  | cons e rest ih =>
    obtain ⟨k, v⟩ := e
    rw [Entries.keys, List.map_cons, List.nodup_cons] at h
    rcases List.mem_cons.1 hm with he | hrest
    · obtain ⟨rfl, rfl⟩ := Prod.mk.inj he
      simp [get?]
    · have hin : key ∈ rest.map (·.1) := List.mem_map_of_mem hrest
      have hne : k ≠ key := fun hk => h.1 (hk ▸ hin)
      rw [get?, if_neg hne]
      exact ih h.2 hrest

theorem nodup_eraseDups {α : Type} [BEq α] [LawfulBEq α] : ∀ l : List α, l.eraseDups.Nodup
  | [] => by simp
  | a :: rest => by
    rw [List.eraseDups_cons, List.nodup_cons]
    constructor
    · simp
    · have : (rest.filter fun b => !b == a).length ≤ rest.length := List.length_filter_le _ _
      exact nodup_eraseDups _
termination_by l => l.length

namespace Graph

/-! ## The links of edges -/

/-- The link that an edge with both ends is for its source. -/
def linkFrom? (source : String) (edge : Edge) : Option Link :=
  if endpoint? edge.source = some source then (endpoint? edge.target).map fun target => ⟨target, edge.outlet⟩ else none

theorem links_addEdge (g : Graph) (edge : Edge) (source : String) :
    (g.addEdge edge).links source = g.links source ++ (linkFrom? source edge).toList := by
  unfold addEdge linkFrom? links
  cases hs : endpoint? edge.source with
  | none => simp
  | some s =>
    cases ht : endpoint? edge.target with
    | none => simp
    | some t =>
      by_cases hv : s = source
      · subst hv
        simp
      · simp [Entries.get?_set, Ne.symm hv, hv]

/-- The links of a vertex are those of its edges, in the order in which they are drawn. -/
theorem links_ofEdges (edges : List Edge) (source : String) :
    (ofEdges edges).links source = edges.filterMap (linkFrom? source) := by
  have hfold : ∀ (edges : List Edge) (g : Graph),
      (edges.foldl addEdge g).links source = g.links source ++ edges.filterMap (linkFrom? source) := by
    intro edges
    induction edges with
    | nil => simp
    | cons edge rest ih =>
      intro g
      rw [List.foldl_cons, ih, links_addEdge]
      cases h : linkFrom? source edge <;> simp [h]
  exact hfold edges []

theorem nodup_keys_ofEdges (edges : List Edge) : (ofEdges edges).keys.Nodup := by
  have hfold : ∀ (edges : List Edge) (g : Graph), g.keys.Nodup → (edges.foldl addEdge g).keys.Nodup := by
    intro edges
    induction edges with
    | nil => exact fun g hg => hg
    | cons edge rest ih =>
      intro g hg
      apply ih
      unfold addEdge
      split
      · exact Entries.nodup_keys_set hg _ _
      · exact hg
  exact hfold edges [] List.nodup_nil

/-- Whether a link leads from a vertex to another. -/
def Arc (g : Graph) (source target : String) : Prop :=
  ∃ link ∈ g.links source, link.target = target

theorem arc_ofEdges (edges : List Edge) : (ofEdges edges).Arc = Joined edges := by
  funext source target
  apply propext
  unfold Arc Joined
  rw [links_ofEdges]
  constructor
  · rintro ⟨link, hl, rfl⟩
    obtain ⟨edge, he, hlink⟩ := List.mem_filterMap.1 hl
    unfold linkFrom? at hlink
    split at hlink
    · next hs =>
      obtain ⟨target, ht, rfl⟩ := Option.map_eq_some_iff.1 hlink
      exact ⟨edge, he, hs, ht⟩
    · cases hlink
  · rintro ⟨edge, he, hs, ht⟩
    exact ⟨⟨target, edge.outlet⟩, List.mem_filterMap.2 ⟨edge, he, by simp [linkFrom?, hs, ht]⟩, rfl⟩

section Arcs

variable {g : Graph} {source target vertex : String}

theorem mem_vertices : vertex ∈ g.vertices ↔
    vertex ∈ g.keys ∨ ∃ entry ∈ g, ∃ link ∈ entry.2, link.target = vertex := by
  simp [vertices]

theorem Arc.entry (h : g.Arc source target) :
    ∃ entry ∈ g, entry.1 = source ∧ ∃ link ∈ entry.2, link.target = target := by
  obtain ⟨link, hl, ht⟩ := h
  unfold links at hl
  cases hg : g.get? source with
  | none => simp [hg] at hl
  | some ls =>
    rw [hg, Option.getD_some] at hl
    exact ⟨(source, ls), Entries.mem_of_get? hg, rfl, link, hl, ht⟩

theorem Arc.source_mem (h : g.Arc source target) : source ∈ g.vertices := by
  obtain ⟨entry, he, rfl, -⟩ := h.entry
  exact mem_vertices.2 (.inl (List.mem_map_of_mem he))

theorem Arc.target_mem (h : g.Arc source target) : target ∈ g.vertices := by
  obtain ⟨entry, he, -, hl⟩ := h.entry
  exact mem_vertices.2 (.inr ⟨entry, he, hl⟩)

/-- Whether a vertex lies on a cycle or behind one. -/
def Trapped (g : Graph) (vertex : String) : Prop :=
  ∃ start, Relation.TransGen g.Arc start start ∧ Relation.ReflTransGen g.Arc start vertex

theorem Trapped.next (h : g.Trapped source) (ha : g.Arc source target) : g.Trapped target := by
  obtain ⟨start, hc, hr⟩ := h
  exact ⟨start, hc, hr.tail ha⟩

/-- Before a vertex on a cycle or behind one there is another one. -/
theorem Trapped.before (h : g.Trapped target) : ∃ source, g.Trapped source ∧ g.Arc source target := by
  obtain ⟨start, hc, hr⟩ := h
  rcases hr.cases_tail with rfl | ⟨source, hr, ha⟩
  · obtain ⟨source, hr, ha⟩ := Relation.TransGen.tail'_iff.1 hc
    exact ⟨source, ⟨target, hc, hr⟩, ha⟩
  · exact ⟨source, ⟨start, hc, hr⟩, ha⟩

theorem Trapped.mem_vertices (h : g.Trapped vertex) : vertex ∈ g.vertices := by
  obtain ⟨_, -, ha⟩ := h.before
  exact ha.target_mem

end Arcs

/-! ## The edges that are left -/

/-- The number of edges to a vertex from those that are not gone. -/
def incoming (g : Graph) (gone : List String) (vertex : String) : Nat :=
  ((g.filter fun entry => !gone.contains entry.1).flatMap fun entry => entry.2.map Link.target).count vertex

section Incoming

variable {g : Graph} {gone : List String} {source vertex : String}

theorem incoming_cons (ls : List Link) (rest : Graph) : incoming ((source, ls) :: rest) gone vertex =
    (if source ∈ gone then 0 else (ls.map Link.target).count vertex) + incoming rest gone vertex := by
  unfold incoming
  by_cases hs : source ∈ gone <;> simp [hs]

theorem links_cons (other : String) (ls : List Link) (rest : Graph) :
    links ((other, ls) :: rest) source = if other = source then ls else links rest source := by
  unfold links
  rw [Entries.get?]
  split <;> rfl

/-- One vertex more is gone: the edges from it are fewer. -/
theorem incoming_concat (hk : g.keys.Nodup) (hs : source ∉ gone) :
    g.incoming gone vertex =
      ((g.links source).map Link.target).count vertex + g.incoming (gone ++ [source]) vertex := by
  induction g with
  | nil => simp [incoming, links]
  | cons entry rest ih =>
    obtain ⟨other, ls⟩ := entry
    rw [Entries.keys, List.map_cons, List.nodup_cons] at hk
    rw [incoming_cons, incoming_cons, links_cons, ih hk.2]
    by_cases ho : other = source
    · subst ho
      have habsent : Entries.get? rest other = none := by
        rw [← Option.not_isSome_iff_eq_none, ← Entries.mem_keys_iff_get?]
        exact hk.1
      simp [hs, links, habsent]
    · simp only [List.mem_append, List.mem_singleton, ho, or_false, if_false]
      omega

/-- No edge is left to a vertex that only those lead to that are gone. -/
theorem incoming_eq_zero_iff (hk : g.keys.Nodup) :
    g.incoming gone vertex = 0 ↔ ∀ source, g.Arc source vertex → source ∈ gone := by
  unfold incoming
  rw [List.count_eq_zero]
  constructor
  · intro h source ha
    obtain ⟨entry, he, rfl, link, hl, rfl⟩ := ha.entry
    by_contra hs
    exact h (List.mem_flatMap.2 ⟨entry, List.mem_filter.2 ⟨he, by simpa using hs⟩, List.mem_map_of_mem hl⟩)
  · intro h hm
    obtain ⟨⟨source, ls⟩, he, htarget⟩ := List.mem_flatMap.1 hm
    obtain ⟨link, hl, rfl⟩ := List.mem_map.1 htarget
    obtain ⟨he, hs⟩ := List.mem_filter.1 he
    have ha : g.Arc source link.target := by
      refine ⟨link, ?_, rfl⟩
      rw [links, Entries.get?_of_mem hk he]
      simpa using hl
    simp [h source ha] at hs

end Incoming

/-! ## Stages of the removal -/

/-- What is done to the counts where more edges than one lead to a vertex, and where it is the last one. -/
theorem Peeling.drop_eq {p : Peeling} {target : String} {left : Nat}
    (h : p.degree.get? target = some ((left + 1 : Nat) : Int)) :
    p.drop target = { p with
      degree := p.degree.set target left, ready := if left = 0 then p.ready ++ [target] else p.ready } := by
  have hleft : ((left + 1 : Nat) : Int) - 1 = left := by omega
  unfold drop
  rw [h, Option.getD_some, hleft]
  simp

/-- What the removal of vertices goes through: where it starts, each vertex that it takes, and each link of that vertex
that it takes away. The links are those still to be taken away. -/
inductive Passes (g : Graph) : List Link → Peeling → Prop
  | start : Passes g [] g.peeling
  | take {p : Peeling} {vertex : String} {rest : List String} : Passes g [] p → p.ready = vertex :: rest →
      Passes g (g.links vertex) { p with ready := rest, removed := p.removed + 1 }
  | drop {p : Peeling} {link : Link} {rest : List Link} : Passes g (link :: rest) p → Passes g rest (p.drop link.target)

theorem Passes.foldl {g : Graph} {todo : List Link} {p : Peeling} (h : g.Passes todo p) :
    g.Passes [] (todo.foldl (fun p link => p.drop link.target) p) := by
  induction todo generalizing p with
  | nil => exact h
  | cons link rest ih => exact ih h.drop

/-- The removal goes through nothing else. -/
theorem Passes.peel {g : Graph} {p : Peeling} (h : g.Passes [] p) (steps : Nat) : g.Passes [] (g.peel steps p) := by
  induction steps generalizing p with
  | zero => exact h
  | succ steps ih =>
    unfold Graph.peel
    split
    · exact h
    · next vertex rest hr => exact ih (h.take hr).foldl

/-- How the counts stand once some vertices are gone, and all links of the last one but some. -/
structure Stage (g : Graph) (gone : List String) (todo : List Link) (p : Peeling) : Prop where
  keys : p.degree.keys = g.vertices
  removed : p.removed = gone.length
  once : (gone ++ p.ready).Nodup
  inside : ∀ link ∈ todo, link.target ∈ g.vertices
  counted : ∀ vertex ∈ g.vertices,
    p.degree.get? vertex = some (((todo.map Link.target).count vertex + g.incoming gone vertex : Nat) : Int)
  bare : ∀ vertex, vertex ∈ gone ++ p.ready ↔ p.degree.get? vertex = some 0
  free : ∀ vertex ∈ gone, ¬g.Trapped vertex

namespace Stage

variable {g : Graph} {gone : List String} {todo : List Link} {link : Link} {p : Peeling} {vertex : String}

theorem mem_vertices (h : g.Stage gone todo p) {count : Int} (hv : p.degree.get? vertex = some count) :
    vertex ∈ g.vertices := by
  rw [← h.keys, Entries.mem_keys_iff_get?, hv]
  rfl

/-- The counts at the start are those of all edges. -/
theorem get?_degree (g : Graph) (vertex : String) :
    g.peeling.degree.get? vertex = if vertex ∈ g.vertices then some (g.incoming [] vertex : Int) else none := by
  have hget : ∀ (vertices : List String) (count : String → Int),
      Entries.get? (vertices.map fun v => (v, count v)) vertex =
        if vertex ∈ vertices then some (count vertex) else none := by
    intro vertices count
    induction vertices with
    | nil => rfl
    | cons v rest ih =>
      rw [List.map_cons, Entries.get?, ih]
      by_cases hv : v = vertex
      · simp [hv]
      · simp [hv, Ne.symm hv]
  have hin : (g.filter fun entry => !([] : List String).contains entry.1) = g := by simp
  unfold peeling incoming
  rw [hget, hin]

theorem start (g : Graph) : g.Stage [] [] g.peeling where
  keys := by simp [peeling, Entries.keys, Function.comp_def]
  removed := rfl
  once := by
    have hkeys : (g.peeling.degree.map (·.1)).Nodup := by
      simpa [peeling, vertices, Function.comp_def] using nodup_eraseDups (α := String) _
    exact hkeys.sublist (List.filter_sublist.map _)
  inside := by simp
  counted vertex hv := by
    rw [get?_degree, if_pos hv]
    simp
  bare vertex := by
    rw [get?_degree]
    simp [peeling, incoming]
  free := by simp

/-- The first ready vertex is taken. All that leads to it is gone, so it is not behind a cycle. -/
theorem take (hk : g.keys.Nodup) (h : g.Stage gone [] p) {rest : List String} (hr : p.ready = vertex :: rest) :
    g.Stage (gone ++ [vertex]) (g.links vertex) { p with ready := rest, removed := p.removed + 1 } := by
  have hready : vertex ∈ gone ++ p.ready := by simp [hr]
  have hmoved : gone ++ p.ready = (gone ++ [vertex]) ++ rest := by simp [hr]
  have hnew : vertex ∉ gone := by
    have honce := h.once
    rw [hr, List.nodup_append] at honce
    exact fun hg => honce.2.2 vertex hg vertex List.mem_cons_self rfl
  have hzero : p.degree.get? vertex = some 0 := (h.bare vertex).1 hready
  have hin : g.incoming gone vertex = 0 := by
    have hcount := h.counted vertex (h.mem_vertices hzero)
    rw [hzero] at hcount
    simpa using hcount.symm
  exact
    { keys := h.keys
      removed := by simp [h.removed]
      once := hmoved ▸ h.once
      inside := fun link hl => Arc.target_mem ⟨link, hl, rfl⟩
      counted := by
        intro v hv
        rw [← incoming_concat hk hnew]
        simpa using h.counted v hv
      bare := fun v => hmoved ▸ h.bare v
      free := by
        intro v hv ht
        rcases List.mem_append.1 hv with hv | hv
        · exact h.free v hv ht
        · rw [List.mem_singleton.1 hv] at ht
          obtain ⟨source, hs, ha⟩ := ht.before
          exact h.free source ((incoming_eq_zero_iff hk).1 hin source ha) hs }

/-- One edge is taken away. The vertex that it leads to was not ready, and is so if this was its last one. -/
theorem drop (h : g.Stage gone (link :: todo) p) : g.Stage gone todo (p.drop link.target) := by
  obtain ⟨left, hleft⟩ :
      ∃ left, (todo.map Link.target).count link.target + g.incoming gone link.target = left := ⟨_, rfl⟩
  have hin : link.target ∈ g.vertices := h.inside link List.mem_cons_self
  have hcount : p.degree.get? link.target = some ((left + 1 : Nat) : Int) := by
    rw [h.counted link.target hin, List.map_cons, List.count_cons_self, ← hleft]
    congr 2
    omega
  have hbusy : link.target ∉ gone ++ p.ready := by
    rw [h.bare, hcount]
    simp
    omega
  rw [Peeling.drop_eq hcount]
  refine ⟨?_, h.removed, ?_, fun l hl => h.inside l (List.mem_cons_of_mem _ hl), ?_, ?_, h.free⟩
  · have hhas : p.degree.has link.target = true := by simp [Entries.has, hcount]
    rw [Entries.keys_set, if_pos hhas, h.keys]
  · dsimp only
    split
    · rw [← List.append_assoc, List.nodup_append]
      refine ⟨h.once, by simp, fun a ha b hb hab => hbusy ?_⟩
      rw [← List.mem_singleton.1 hb, ← hab]
      exact ha
    · exact h.once
  · intro v hv
    rw [Entries.get?_set]
    split
    · next hv => rw [hv, hleft]
    · next hv =>
      have hold := h.counted v ‹_›
      rwa [List.map_cons, List.count_cons_of_ne (Ne.symm hv)] at hold
  · intro v
    rw [Entries.get?_set]
    by_cases hv : v = link.target
    · subst hv
      by_cases hzero : left = 0
      · simp [hzero]
      · simp only [if_neg hzero, if_true]
        constructor
        · exact fun hm => absurd hm hbusy
        · simp
          omega
    · have hold := h.bare v
      rw [if_neg hv, ← hold]
      split <;> simp [hv]

theorem nodup_degree (h : g.Stage gone todo p) : p.degree.keys.Nodup := by
  rw [h.keys]
  exact nodup_eraseDups _

theorem subset_vertices (h : g.Stage gone todo p) : gone ++ p.ready ⊆ g.vertices :=
  fun v hv => h.mem_vertices ((h.bare v).1 hv)

/-- All links of a vertex are taken away. -/
theorem foldl (h : g.Stage gone todo p) : g.Stage gone [] (todo.foldl (fun p link => p.drop link.target) p) := by
  induction todo generalizing p with
  | nil => exact h
  | cons link rest ih => exact ih h.drop

/-- As many steps as there are vertices leave none ready. -/
theorem peel (hk : g.keys.Nodup) {steps : Nat} (h : g.Stage gone [] p) (hs : g.vertices.length ≤ gone.length + steps) :
    ∃ gone', g.Stage gone' [] (g.peel steps p) ∧ (g.peel steps p).ready = [] := by
  induction steps generalizing gone p with
  | zero =>
    have hlength := h.once.length_le_of_subset h.subset_vertices
    rw [List.length_append] at hlength
    have hr : p.ready = [] := List.length_eq_zero_iff.1 (by omega)
    exact ⟨gone, h, hr⟩
  | succ steps ih =>
    unfold Graph.peel
    split
    · next hr => exact ⟨gone, h, hr⟩
    · next vertex rest hr =>
      refine ih (h.take hk hr).foldl ?_
      simp
      omega

/-- What is left when no vertex is ready is behind a cycle: otherwise it would have to have another one before it that
is left and behind no cycle, and so on without end. -/
theorem mem_gone (hk : g.keys.Nodup) (h : g.Stage gone [] p) (hr : p.ready = []) (hv : vertex ∈ g.vertices) :
    vertex ∈ gone ↔ ¬g.Trapped vertex := by
  constructor
  · exact h.free vertex
  · intro hfree
    let Free := {v : String // v ∈ g.vertices ∧ ¬g.Trapped v}
    let before (u v : Free) : Prop := Relation.TransGen g.Arc u.1 v.1
    have : Finite Free := (g.vertices.finite_toSet.subset fun v hv => hv.1).to_subtype
    have : IsTrans Free before := ⟨fun _ _ _ => Relation.TransGen.trans⟩
    have : Std.Irrefl before := ⟨fun v hc => v.2.2 ⟨v.1, hc, .refl⟩⟩
    refine (Finite.wellFounded_of_trans_of_irrefl before).induction (C := fun v => v.1 ∈ gone) ⟨vertex, hv, hfree⟩ ?_
    rintro ⟨v, hv, hfree⟩ ih
    have hzero : g.incoming gone v = 0 := by
      rw [incoming_eq_zero_iff hk]
      intro source ha
      exact ih ⟨source, ha.source_mem, fun ht => hfree (ht.next ha)⟩ (.single ha)
    have hbare := h.bare v
    rw [hr, List.append_nil, h.counted v hv, hzero] at hbare
    simpa using hbare

end Stage

theorem Passes.stage {g : Graph} (hk : g.keys.Nodup) {todo : List Link} {p : Peeling} (h : g.Passes todo p) :
    ∃ gone, g.Stage gone todo p := by
  induction h with
  | start => exact ⟨[], .start g⟩
  | take _ hr ih =>
    obtain ⟨gone, h⟩ := ih
    exact ⟨_, h.take hk hr⟩
  | drop _ ih =>
    obtain ⟨gone, h⟩ := ih
    exact ⟨gone, h.drop⟩

/-- Whenever anything has been taken away, no count has fallen below zero. -/
theorem Passes.nonneg {g : Graph} (hk : g.keys.Nodup) {todo : List Link} {p : Peeling} (h : g.Passes todo p)
    {vertex : String} {count : Int} (hc : p.degree.get? vertex = some count) : 0 ≤ count := by
  obtain ⟨gone, h⟩ := h.stage hk
  rw [h.counted vertex (h.mem_vertices hc)] at hc
  obtain rfl := Option.some.inj hc
  omega

/-! ## What is found -/

section Found

variable {g : Graph} {vertex : String}

/-- The removal comes to its end: there is nothing left that it could take. -/
theorem exists_stage (hk : g.keys.Nodup) : ∃ gone, g.Stage gone [] (g.peel g.vertices.length g.peeling) ∧
    (g.peel g.vertices.length g.peeling).ready = [] :=
  (Stage.start g).peel hk (by simp)

theorem cycle?_eq_none_iff (hk : g.keys.Nodup) : g.cycle? = none ↔ ∀ vertex, ¬g.Trapped vertex := by
  obtain ⟨gone, h, hr⟩ := exists_stage hk
  have honce : gone.Nodup := (List.nodup_append.1 h.once).1
  have hsub : gone ⊆ g.vertices := fun v hv => h.subset_vertices (List.mem_append_left _ hv)
  have hall : g.cycle? = none ↔ gone.length = g.vertices.length := by
    unfold cycle?
    dsimp only
    rw [h.removed]
    by_cases he : gone.length = g.vertices.length <;> simp [he]
  rw [hall]
  constructor
  · intro he vertex ht
    have hin : vertex ∈ gone := ((honce.subperm hsub).perm_of_length_le he.ge).mem_iff.2 ht.mem_vertices
    exact h.free vertex hin ht
  · intro hfree
    have hsup : g.vertices ⊆ gone := fun v hv => (h.mem_gone hk hr hv).2 (hfree v)
    exact le_antisymm (honce.length_le_of_subset hsub) ((nodup_eraseDups _).length_le_of_subset hsup)

theorem eq_of_cycle? {found : List String} (hc : g.cycle? = some found) :
    found = (((g.peel g.vertices.length g.peeling).degree.filter (0 < ·.2)).map (·.1)).mergeSort (· ≤ ·) := by
  unfold cycle? at hc
  dsimp only at hc
  split at hc
  · cases hc
  · exact (Option.some.inj hc).symm

theorem pairwise_of_cycle? (hk : g.keys.Nodup) {found : List String} (hc : g.cycle? = some found) :
    found.Pairwise (· < ·) := by
  obtain ⟨gone, h, -⟩ := exists_stage hk
  rw [eq_of_cycle? hc]
  apply pairwise_mergeSort_of_nodup
  exact h.nodup_degree.sublist (List.filter_sublist.map _)

theorem mem_of_cycle? (hk : g.keys.Nodup) {found : List String} (hc : g.cycle? = some found) :
    vertex ∈ found ↔ g.Trapped vertex := by
  obtain ⟨gone, h, hr⟩ := exists_stage hk
  have hmem : vertex ∈ found ↔
      ∃ count, (g.peel g.vertices.length g.peeling).degree.get? vertex = some count ∧ 0 < count := by
    rw [eq_of_cycle? hc]
    simp only [List.mem_mergeSort, List.mem_map, List.mem_filter, decide_eq_true_eq]
    constructor
    · rintro ⟨⟨v, count⟩, ⟨hv, hpos⟩, rfl⟩
      exact ⟨count, Entries.get?_of_mem h.nodup_degree hv, hpos⟩
    · rintro ⟨count, hv, hpos⟩
      exact ⟨(vertex, count), ⟨Entries.mem_of_get? hv, hpos⟩, rfl⟩
  rw [hmem]
  constructor
  · rintro ⟨count, hv, hpos⟩
    by_contra hfree
    have hin : vertex ∈ gone := (h.mem_gone hk hr (h.mem_vertices hv)).2 hfree
    rw [(h.bare vertex).1 (List.mem_append_left _ hin)] at hv
    obtain rfl := Option.some.inj hv
    exact absurd hpos (lt_irrefl 0)
  · intro ht
    refine ⟨_, h.counted vertex ht.mem_vertices, ?_⟩
    have hleft : vertex ∉ gone ++ (g.peel g.vertices.length g.peeling).ready := by
      rw [hr, List.append_nil]
      exact fun hin => h.free vertex hin ht
    rw [h.bare, h.counted vertex ht.mem_vertices] at hleft
    simp at hleft ⊢
    omega

end Found

end Graph

/-- Of any edges, with loops, with several from one vertex to another and with parts apart: no cycle is found just if
there is none, and otherwise the vertices on a cycle and behind one are, in ascending order. The removal ends with
nothing left to take, and no count falls below zero on the way. -/
theorem cycle?_exact (edges : List Edge) :
    let g := Graph.ofEdges edges
    (g.cycle? = none ↔ ∀ vertex, ¬Relation.TransGen (Joined edges) vertex vertex) ∧
      (∀ found, g.cycle? = some found → found.Pairwise (· < ·) ∧
        ∀ vertex, vertex ∈ found ↔
          ∃ start, Relation.TransGen (Joined edges) start start ∧ Relation.ReflTransGen (Joined edges) start vertex) ∧
      (g.peel g.vertices.length g.peeling).ready = [] ∧ (∀ steps, g.Passes [] (g.peel steps g.peeling)) ∧
      ∀ todo p, g.Passes todo p → ∀ vertex count, p.degree.get? vertex = some count → 0 ≤ count := by
  intro g
  have hk : g.keys.Nodup := Graph.nodup_keys_ofEdges edges
  have harc : g.Arc = Joined edges := Graph.arc_ofEdges edges
  refine ⟨?_, ?_, ?_, ?_, ?_⟩
  · rw [Graph.cycle?_eq_none_iff hk, ← harc]
    constructor
    · intro hfree vertex hc
      exact hfree vertex ⟨vertex, hc, .refl⟩
    · rintro hfree vertex ⟨start, hc, -⟩
      exact hfree start hc
  · intro found hc
    rw [← harc]
    exact ⟨Graph.pairwise_of_cycle? hk hc, fun vertex => Graph.mem_of_cycle? hk hc⟩
  · obtain ⟨-, -, hr⟩ := Graph.exists_stage hk
    exact hr
  · exact fun steps => Graph.Passes.start.peel steps
  · exact fun todo p h vertex count hc => h.nonneg hk hc

/-- A loop, two edges between the same vertices, one behind the loop and one before it. -/
example : (Graph.ofEdges [⟨some "a", some "c", none⟩, ⟨some "c", some "c", none⟩, ⟨some "c", some "b", none⟩,
    ⟨some "c", some "b", some "ok"⟩]).cycle? = some ["b", "c"] := by
  cbv

end WorkGraph
