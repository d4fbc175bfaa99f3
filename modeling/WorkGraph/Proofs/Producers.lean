import WorkGraph.Proofs.Address
import WorkGraph.Proofs.Mirror

/-!
# Which node a field comes from

A path below the parents names a type and a field. Over every history of outputs and clicks (`Regular`), it leads to the
field of the node of the type that was recorded last among those whose output holds it, and to null if none does; nodes
of other types, and nodes without the field, make no difference (`grouped_latest`). A field that is no readable path is
the exception: it is found as a literal key alone, and the first map without that key is a fault (`not_every_field`).
-/

namespace WorkGraph

/-! ## Readable paths are followed to their end -/

theorem mem_of_mapM {α β : Type} {f : α → Except Fault β} {as : List α} {bs : List β} (h : as.mapM f = .ok bs) :
    ∀ b ∈ bs, ∃ a ∈ as, f a = .ok b := by
  induction as generalizing bs with
  | nil =>
    obtain rfl : [] = bs := Except.ok.inj h
    intro b hb
    cases hb
  | cons a as ih =>
    obtain ⟨b, rest, ha, has, rfl⟩ := mapM_cons_eq_ok.1 h
    intro d hd
    rcases List.mem_cons.1 hd with rfl | hd
    · exact ⟨a, List.mem_cons_self, ha⟩
    · obtain ⟨x, hx, hxd⟩ := ih has d hd
      exact ⟨x, List.mem_cons_of_mem a hx, hxd⟩

namespace Path

/-- Indexes in brackets count from the front. -/
theorem nonneg_of_pieceTokens {piece : List Char} {tokens : List Token} (h : pieceTokens piece = .ok tokens) :
    ∀ i, .index i ∈ tokens → 0 ≤ i := by
  intro i hi
  unfold pieceTokens at h
  dsimp only at h
  split at h
  · obtain rfl := Except.ok.inj h
    simp at hi
  · next runs _ =>
    cases hruns : runs.mapM index with
    | error fault => rw [hruns] at h; cases h
    | ok indexes =>
      rw [hruns] at h
      obtain rfl := Except.ok.inj h
      have hindex : Token.index i ∈ indexes := by
        rcases List.mem_append.1 hi with hi | hi
        · split at hi <;> simp at hi
        · exact hi
      obtain ⟨digits, -, hdigits⟩ := mem_of_mapM hruns _ hindex
      unfold index at hdigits
      split at hdigits
      · cases hdigits
      · obtain rfl := Token.index.inj (Except.ok.inj hdigits)
        exact Int.natCast_nonneg _

theorem nonneg_of_split {path : String} {tokens : List Token} (h : split path = .ok tokens) :
    ∀ i, .index i ∈ tokens → 0 ≤ i := by
  intro i hi
  unfold split splitChars at h
  cases hpieces : (Text.pieces '.' (Text.strip path.toList)).mapM pieceTokens with
  | error fault => rw [hpieces] at h; cases h
  | ok parts =>
    rw [hpieces] at h
    obtain rfl := Except.ok.inj h
    obtain ⟨part, hpart, hi⟩ := List.mem_flatten.1 hi
    obtain ⟨piece, -, hpiece⟩ := mem_of_mapM hpieces part hpart
    exact nonneg_of_pieceTokens hpiece i hi

/-- No walk from the front of lists is a fault. -/
theorem exists_walk {tokens : List Token} (hpos : ∀ i, .index i ∈ tokens → 0 ≤ i) (v : Value) :
    ∃ w, walk v tokens = .ok w := by
  by_cases h : ∃ w, Position v tokens w
  · obtain ⟨w, hw⟩ := h
    exact ⟨w, walk_of_position hw⟩
  · exact ⟨.null, walk_of_no_position hpos fun w hw => h ⟨w, hw⟩⟩

theorem exists_get {path : String} {tokens : List Token} (h : split path = .ok tokens) (v : Value) :
    ∃ w, get v path = .ok w := by
  obtain ⟨w, hw⟩ := exists_walk (nonneg_of_split h) v
  refine ⟨w, ?_⟩
  rw [get, h]
  exact hw

theorem get_unreadable {path : String} {fault : Fault} (h : split path = .error fault) (v : Value) :
    get v path = .error fault := by
  rw [get, h]
  rfl

end Path

/-! ## The field of an output -/

/-- What an output holds in a field: what is under the literal key, or else at the end of the path. -/
inductive Holds (field : String) : Value → Value → Prop where
  | literal {entries : Entries Value} {v : Value} (h : entries.get? field = some v) (hv : v ≠ .null) :
      Holds field (.map entries) v
  | path {entries : Entries Value} {v : Value} (hno : Value.field entries field = .null)
      (h : Path.get (.map entries) field = .ok v) (hv : v ≠ .null) : Holds field (.map entries) v

theorem Holds.ne_null {field : String} {output v : Value} (h : Holds field output v) : v ≠ .null := by
  cases h with
  | literal _ hv => exact hv
  | path _ _ hv => exact hv

namespace Scope

variable {field : String} {output v : Value}

/-- What is found in an output; null in one that is no map. -/
def found (field : String) : Value → Except Fault Value
  | .map entries => fieldOf entries field
  | _ => .ok .null

theorem found_literal {entries : Entries Value} (h : Value.field entries field ≠ .null) :
    found field (.map entries) = .ok (Value.field entries field) := by
  show fieldOf entries field = _
  unfold fieldOf
  cases hv : Value.field entries field with
  | null => exact absurd hv h
  | bool | num | str | list | map => rfl

theorem found_path {entries : Entries Value} (h : Value.field entries field = .null) :
    found field (.map entries) = Path.get (.map entries) field := by
  show fieldOf entries field = _
  rw [fieldOf, h]
  rfl

theorem found_of_not_map (h : output.entries? = none) : found field output = .ok .null := by
  cases output with
  | map entries => cases h
  | null | bool | num | str | list => rfl

theorem found_of_holds (h : Holds field output v) : found field output = .ok v := by
  cases h with
  | @literal entries _ h hv =>
    have hfield : Value.field entries field = v := by rw [Value.field, h, Option.getD_some]
    rw [found_literal (by rw [hfield]; exact hv), hfield]
  | path hno h hv => rw [found_path hno, h]

theorem not_holds_of_found (h : found field output = .ok .null) (v : Value) : ¬Holds field output v := by
  intro hv
  rw [found_of_holds hv] at h
  exact hv.ne_null (Except.ok.inj h)

theorem field_eq_null_of_not_holds {entries : Entries Value} (h : ∀ v, ¬Holds field (.map entries) v) :
    Value.field entries field = .null := by
  cases hget : Entries.get? entries field with
  | none => rw [Value.field, hget, Option.getD_none]
  | some w =>
    rw [Value.field, hget, Option.getD_some]
    exact Classical.byContradiction fun hne => h w (.literal hget hne)

/-- Where a readable field is not held, nothing is found. -/
theorem found_of_not_holds {tokens : List Path.Token} (hread : Path.split field = .ok tokens)
    (h : ∀ v, ¬Holds field output v) : found field output = .ok .null := by
  cases output with
  | map entries =>
    have hno := field_eq_null_of_not_holds h
    obtain ⟨w, hw⟩ := Path.exists_get hread (.map entries)
    have hnull : w = .null := Classical.byContradiction fun hne => h w (.path hno hw hne)
    rw [found_path hno, hw, hnull]
  | null | bool | num | str | list => rfl

theorem found_unreadable {fault : Fault} (hread : Path.split field = .error fault) {entries : Entries Value}
    (h : ∀ v, ¬Holds field (.map entries) v) : found field (.map entries) = .error fault := by
  rw [found_path (field_eq_null_of_not_holds h), Path.get_unreadable hread]

/-! ## The nodes of a type, the last one first -/

variable {s : Scope} {r : Except Fault Value}

theorem firstField_cons_null {node : String} (h : found field (s.root node) = .ok .null) (rest : List String) :
    s.firstField field (node :: rest) = s.firstField field rest := by
  rw [firstField]
  cases hroot : s.root node with
  | map entries =>
    rw [hroot] at h
    show (fieldOf entries field >>= _) = _
    rw [show fieldOf entries field = .ok .null from h]
    rfl
  | null | bool | num | str | list => rfl

theorem firstField_cons {node : String} (h : found field (s.root node) = r) (hr : r ≠ .ok .null) (rest : List String) :
    s.firstField field (node :: rest) = r := by
  rw [firstField]
  cases hroot : s.root node with
  | map entries =>
    rw [hroot] at h
    show (fieldOf entries field >>= _) = _
    rw [show fieldOf entries field = r from h]
    cases r with
    | error fault => rfl
    | ok v =>
      cases v with
      | null => exact absurd rfl hr
      | bool | num | str | list | map => rfl
  | null | bool | num | str | list =>
    rw [hroot] at h
    exact absurd h.symm hr

/-- Nodes in which nothing is found are passed over. -/
theorem firstField_append {front : List String} (h : ∀ node ∈ front, found field (s.root node) = .ok .null)
    (back : List String) : s.firstField field (front ++ back) = s.firstField field back := by
  induction front with
  | nil => rfl
  | cons node rest ih =>
    rw [List.cons_append, firstField_cons_null (h node List.mem_cons_self)]
    exact ih fun n hn => h n (List.mem_cons_of_mem node hn)

theorem root_of_not_reserved {c : Context} {node : String} (h : node ∉ Context.reserved) :
    (live c).root node = c.output node := by
  simp only [Context.reserved, List.mem_cons, List.not_mem_nil, or_false, not_or] at h
  rw [root, if_neg h.1, if_neg h.2.1, if_neg h.2.2]

end Scope

namespace Context

variable {c : Context} {type field : String}

theorem mem_nodesOfType {nodes : Entries String} {node : String}
    (h : node ∈ ((nodes.filter (·.2 == type)).map (·.1)).reverse) : (node, type) ∈ nodes := by
  simpa using h

/-- The last node of the type with something to find decides. -/
theorem parents_of_last {before after : Entries String} {node : String} {r : Except Fault Value}
    (hnodes : c.nodeTypes = before ++ (node, type) :: after) (hfree : ∀ node ∈ c.nodeTypes.keys, node ∉ reserved)
    (hfound : Scope.found field (c.output node) = r) (hr : r ≠ .ok .null)
    (hlater : ∀ other, (other, type) ∈ after → Scope.found field (c.output other) = .ok .null) :
    (Scope.live c).parents type field = r := by
  have hkey {other : String} (h : (other, type) ∈ c.nodeTypes) : other ∉ reserved :=
    hfree other (List.mem_map_of_mem h)
  have hroot : (Scope.live c).root node = c.output node :=
    Scope.root_of_not_reserved (hkey (by rw [hnodes]; simp))
  have horder : (c.nodesOfType type).reverse =
      ((after.filter (·.2 == type)).map (·.1)).reverse ++ node :: ((before.filter (·.2 == type)).map (·.1)).reverse := by
    simp [nodesOfType, hnodes, List.filter_append]
  show (Scope.live c).firstField field (c.nodesOfType type).reverse = r
  rw [horder, Scope.firstField_append, Scope.firstField_cons (by rw [hroot, hfound]) hr]
  intro other hother
  have hafter := mem_nodesOfType hother
  rw [Scope.root_of_not_reserved (hkey (by rw [hnodes]; simp [hafter])), hlater other hafter]

theorem parents_of_none (hfree : ∀ node ∈ c.nodeTypes.keys, node ∉ reserved)
    (h : ∀ node, (node, type) ∈ c.nodeTypes → Scope.found field (c.output node) = .ok .null) :
    (Scope.live c).parents type field = .ok .null := by
  show (Scope.live c).firstField field (c.nodesOfType type).reverse = _
  rw [← List.append_nil (c.nodesOfType type).reverse, Scope.firstField_append]
  · rfl
  · intro node hnode
    have hmem := mem_nodesOfType hnode
    rw [Scope.root_of_not_reserved (hfree node (List.mem_map_of_mem hmem)), h node hmem]

section Recorded

variable {node other : String} {output : Value}

/-- A new node comes last among those of its type. -/
theorem nodesOfType_recorded (hnew : c.nodeTypes.has node = false) :
    (c.recorded node other output).nodesOfType type = c.nodesOfType type ++ if other = type then [node] else [] := by
  rw [nodesOfType, nodeTypes_recorded, Entries.set_of_not_has hnew, List.filter_append, List.map_append, nodesOfType]
  by_cases ht : other = type <;> simp [ht]

/-- What is found in other nodes stays. -/
theorem firstField_recorded {nodes : List String} (hfree : ∀ old ∈ nodes, old ∉ reserved)
    (hne : ∀ old ∈ nodes, old ≠ node) :
    (Scope.live (c.recorded node other output)).firstField field nodes = (Scope.live c).firstField field nodes := by
  induction nodes with
  | nil => rfl
  | cons old rest ih =>
    have hold := hfree old List.mem_cons_self
    have hroot : (Scope.live (c.recorded node other output)).root old = (Scope.live c).root old := by
      rw [Scope.root_of_not_reserved hold, Scope.root_of_not_reserved hold, output_recorded,
        if_neg (hne old List.mem_cons_self)]
    rw [Scope.firstField, Scope.firstField, hroot,
      ih (fun n hn => hfree n (List.mem_cons_of_mem old hn)) fun n hn => hne n (List.mem_cons_of_mem old hn)]

/-- One more node makes no difference if nothing is found in it. -/
theorem parents_recorded (hnew : c.nodeTypes.has node = false) (hfree : ∀ node ∈ c.nodeTypes.keys, node ∉ reserved)
    (hnode : node ∉ reserved) (h : other = type → Scope.found field output = .ok .null) :
    (Scope.live (c.recorded node other output)).parents type field = (Scope.live c).parents type field := by
  have hkey : ∀ old ∈ (c.nodesOfType type).reverse, old ∈ c.nodeTypes.keys := fun old hold =>
    List.mem_map_of_mem (mem_nodesOfType hold)
  have hsame : (Scope.live (c.recorded node other output)).firstField field (c.nodesOfType type).reverse =
      (Scope.live c).firstField field (c.nodesOfType type).reverse := by
    refine firstField_recorded (fun old hold => hfree old (hkey old hold)) ?_
    rintro old hold rfl
    rw [Entries.has, Entries.mem_keys_iff_get?.1 (hkey old hold)] at hnew
    cases hnew
  show (Scope.live (c.recorded node other output)).firstField field
      ((c.recorded node other output).nodesOfType type).reverse =
    (Scope.live c).firstField field (c.nodesOfType type).reverse
  rw [nodesOfType_recorded hnew, List.reverse_append]
  split
  · next ht =>
    have hfound : Scope.found field ((Scope.live (c.recorded node other output)).root node) = .ok .null := by
      rw [Scope.root_of_not_reserved hnode, output_recorded, if_pos rfl, h ht]
    rw [List.reverse_singleton, List.singleton_append, Scope.firstField_cons_null hfound, hsame]
  · rw [List.reverse_nil, List.nil_append, hsame]

end Recorded

end Context

/-! ## Paths below the parents -/

/-- The path that asks for a field of the last node of a type. -/
def parentsPath (type field : String) : String :=
  "parents." ++ type ++ "." ++ field

theorem toList_parentsPath (type field : String) :
    (parentsPath type field).toList = "parents.".toList ++ (type.toList ++ '.' :: field.toList) := by
  simp only [parentsPath, String.toList_append, List.append_assoc]
  rfl

/-- Whether a type and a field can be named by a path: neither is empty, no point is in the type, and no blank ends the
field. -/
structure Nameable (type field : String) : Prop where
  type_ne_nil : type.toList ≠ []
  no_point : '.' ∉ type.toList
  field_ne_nil : field.toList ≠ []
  last : ∀ c, field.toList.getLast? = some c → Text.isBlank c = false

theorem Scope.cutAtPoint_append {type : List Char} (h : '.' ∉ type) (field : List Char) :
    cutAtPoint (type ++ '.' :: field) = (type, field) := by
  have hhead : (type ++ '.' :: field).takeWhile (· != '.') = type := by
    rw [List.takeWhile_append_of_pos]
    · simp
    · intro c hc
      simpa using fun he : c = '.' => h (he ▸ hc)
  rw [cutAtPoint, hhead]
  simp

namespace Nameable

variable {type field : String}

/-- Such a path has no blanks around it. -/
theorem strip_eq (h : Nameable type field) :
    Text.strip (parentsPath type field).toList = (parentsPath type field).toList := by
  have hhead : "parents.".toList = 'p' :: "arents.".toList := rfl
  apply Text.strip_of_ends
  · rw [toList_parentsPath, hhead]
    exact List.cons_ne_nil _ _
  · intro c hc
    rw [toList_parentsPath, hhead] at hc
    obtain rfl : 'p' = c := Option.some.inj hc
    decide
  · intro c hc
    rw [toList_parentsPath, List.getLast?_append_of_ne_nil _ (by simp), List.getLast?_append_of_ne_nil _ (by simp),
      List.getLast?_cons_of_ne_nil h.field_ne_nil] at hc
    exact h.last c hc

theorem resolve (h : Nameable type field) (s : Scope) :
    s.resolve (parentsPath type field).toList = s.parents type field := by
  have hprefix : "parents.".toList.isPrefixOf (parentsPath type field).toList = true := by
    rw [toList_parentsPath]
    exact List.isPrefixOf_iff_prefix.2 (List.prefix_append _ _)
  have hdrop : (parentsPath type field).toList.drop "parents.".toList.length = type.toList ++ '.' :: field.toList := by
    rw [toList_parentsPath]
    exact List.drop_left
  have hne : (parentsPath type field).toList.isEmpty = false := by
    rw [toList_parentsPath]
    rfl
  have htype : type.toList.isEmpty = false := by simpa using h.type_ne_nil
  have hfield : field.toList.isEmpty = false := by simpa using h.field_ne_nil
  rw [Scope.resolve, h.strip_eq, Scope.resolveTrimmed]
  simp only [hne, hprefix, hdrop, Scope.cutAtPoint_append h.no_point, htype, hfield, Bool.or_self, Bool.false_eq_true,
    if_false, if_true, String.ofList_toList]

end Nameable

/-! ## Histories -/

/-- What is done to a context while nodes run: the output of a node is recorded, or a click is added to one. -/
inductive Happening where
  | record (node type : String) (output : Value)
  | splice (node : String) (fields : Entries Value)

namespace Happening

def apply (c : Context) : Happening → Except Fault Context
  | record node type output => c.record node type output
  | splice node fields => .ok (c.spliceButton node fields)

/-- The context after a history that begins with a payload. -/
def run (payload : Value) (history : List Happening) : Except Fault Context :=
  history.foldlM apply (.start payload)

theorem run_append (payload : Value) (history : List Happening) (last : Happening) :
    run payload (history ++ [last]) = run payload history >>= (apply · last) := by
  rw [run, List.foldlM_append]
  congr 1
  funext c
  exact bind_pure (apply c last)

/-- The nodes that a history records, with their types, in its order. -/
def nodes (history : List Happening) : Entries String :=
  history.filterMap fun
    | record node type _ => some (node, type)
    | splice _ _ => none

/-- Whether each node of a history is recorded once and under no reserved name, and clicks come after their node. -/
inductive Regular : List Happening → Prop where
  | start : Regular []
  | record {history : List Happening} (h : Regular history) (node type : String) (output : Value)
      (hfresh : node ∉ (nodes history).keys) (hfree : node ∉ Context.reserved) :
      Regular (history ++ [.record node type output])
  | splice {history : List Happening} (h : Regular history) (node : String) (fields : Entries Value)
      (hnode : node ∈ (nodes history).keys) : Regular (history ++ [.splice node fields])

/-- What a context keeps of a regular history: the types of its nodes in its order, and an output of each. -/
structure Told (history : List Happening) (c : Context) : Prop where
  nodeTypes : c.nodeTypes = nodes history
  outputs : c.outputs.keys = (nodes history).keys
  free : ∀ node ∈ (nodes history).keys, node ∉ Context.reserved

theorem nodes_record (history : List Happening) (node type : String) (output : Value) :
    nodes (history ++ [.record node type output]) = nodes history ++ [(node, type)] :=
  List.filterMap_append

theorem nodes_splice (history : List Happening) (node : String) (fields : Entries Value) :
    nodes (history ++ [.splice node fields]) = nodes history := by
  rw [nodes, List.filterMap_append]
  exact List.append_nil _

namespace Told

variable {history : List Happening} {c : Context} {node type : String} {output : Value}

theorem has_nodeTypes (h : Told history c) (hfresh : node ∉ (nodes history).keys) : c.nodeTypes.has node = false := by
  rw [← Bool.not_eq_true, h.nodeTypes]
  exact fun hin => hfresh (Entries.mem_keys_iff_get?.2 hin)

theorem hasOutput (h : Told history c) (hfresh : node ∉ (nodes history).keys) : c.hasOutput node = false := by
  rw [← Bool.not_eq_true]
  intro hin
  have hkey : node ∈ c.outputs.keys := Entries.mem_keys_iff_get?.2 hin
  exact hfresh (h.outputs ▸ hkey)

/-- A new node goes to the end. -/
theorem recorded (h : Told history c) (hfresh : node ∉ (nodes history).keys) (hfree : node ∉ Context.reserved) :
    Told (history ++ [.record node type output]) (c.recorded node type output) where
  nodeTypes := by
    rw [Context.nodeTypes_recorded, Entries.set_of_not_has (h.has_nodeTypes hfresh), h.nodeTypes, nodes_record]
  outputs := by
    rw [Context.outputs_recorded, Entries.keys_set, show c.outputs.has node = false from h.hasOutput hfresh, h.outputs,
      nodes_record]
    simp [Entries.keys]
  free other hother := by
    rw [nodes_record] at hother
    rw [Entries.keys, List.map_append, List.mem_append] at hother
    rcases hother with hother | hother
    · exact h.free other hother
    · obtain rfl : other = node := by simpa using hother
      exact hfree

/-- A click leaves the nodes as they are. -/
theorem spliced (h : Told history c) (hnode : node ∈ (nodes history).keys) (fields : Entries Value) :
    Told (history ++ [.splice node fields]) (c.spliceButton node fields) where
  nodeTypes := by
    rw [nodes_splice]
    exact h.nodeTypes
  outputs := by
    have hhas : c.outputs.has node = true := Entries.mem_keys_iff_get?.1 (h.outputs ▸ hnode)
    rw [nodes_splice]
    show (c.outputs.set node _).keys = _
    rw [Entries.keys_set, if_pos hhas, h.outputs]
  free := by
    rw [nodes_splice]
    exact h.free

end Told

/-- Nothing in a regular history is refused. -/
theorem Regular.run {history : List Happening} (h : Regular history) (payload : Value) :
    ∃ c, Happening.run payload history = .ok c ∧ Told history c := by
  induction h with
  | start => exact ⟨.start payload, rfl, rfl, rfl, fun node h => by cases h⟩
  | @record history _ node type output hfresh hfree ih =>
    obtain ⟨c, hrun, htold⟩ := ih
    refine ⟨c.recorded node type output, ?_, htold.recorded hfresh hfree⟩
    rw [run_append, hrun]
    exact Context.record_eq _ _ (htold.hasOutput hfresh)
  | @splice history _ node fields hnode ih =>
    obtain ⟨c, hrun, htold⟩ := ih
    refine ⟨c.spliceButton node fields, ?_, htold.spliced hnode fields⟩
    rw [run_append, hrun]
    rfl

/-! ## The last producer -/

namespace Told

variable {history : List Happening} {c : Context} {type field : String}

/-- The last node of the type that holds the field is the one that is read. -/
theorem resolve_of_last (h : Told history c) (hname : Nameable type field) {tokens : List Path.Token}
    (hread : Path.split field = .ok tokens) {before after : Entries String} {node : String} {v : Value}
    (hnodes : nodes history = before ++ (node, type) :: after) (hholds : Holds field (c.output node) v)
    (hlater : ∀ other, (other, type) ∈ after → ∀ w, ¬Holds field (c.output other) w) :
    (Scope.live c).resolve (parentsPath type field).toList = .ok v := by
  have hne : (Except.ok v : Except Fault Value) ≠ .ok .null := fun he => hholds.ne_null (Except.ok.inj he)
  rw [hname.resolve]
  exact Context.parents_of_last (h.nodeTypes.trans hnodes) (h.nodeTypes ▸ h.free) (Scope.found_of_holds hholds) hne
    fun other hother => Scope.found_of_not_holds hread (hlater other hother)

theorem resolve_of_not_found (h : Told history c) (hname : Nameable type field)
    (hnone : ∀ node, (node, type) ∈ nodes history → Scope.found field (c.output node) = .ok .null) :
    (Scope.live c).resolve (parentsPath type field).toList = .ok .null := by
  rw [hname.resolve]
  exact Context.parents_of_none (h.nodeTypes ▸ h.free) fun node hnode => hnone node (h.nodeTypes ▸ hnode)

/-- The last map of the type decides on a field that is no readable path. -/
theorem resolve_unreadable (h : Told history c) (hname : Nameable type field) {fault : Fault}
    (hread : Path.split field = .error fault) {before after : Entries String} {node : String} {entries : Entries Value}
    (hnodes : nodes history = before ++ (node, type) :: after) (hmap : c.output node = .map entries)
    (hlater : ∀ other, (other, type) ∈ after → (c.output other).entries? = none) :
    (∀ v, Holds field (.map entries) v →
      (Scope.live c).resolve (parentsPath type field).toList = .ok v) ∧
    ((∀ v, ¬Holds field (.map entries) v) →
      (Scope.live c).resolve (parentsPath type field).toList = .error fault) := by
  have hlast {r : Except Fault Value} (hfound : Scope.found field (.map entries) = r) (hr : r ≠ .ok .null) :
      (Scope.live c).parents type field = r :=
    Context.parents_of_last (h.nodeTypes.trans hnodes) (h.nodeTypes ▸ h.free) (by rw [hmap]; exact hfound) hr
      fun other hother => Scope.found_of_not_map (hlater other hother)
  rw [hname.resolve]
  constructor
  · intro v hv
    exact hlast (Scope.found_of_holds hv) fun he => hv.ne_null (Except.ok.inj he)
  · intro hno
    exact hlast (Scope.found_unreadable hread hno) (by intro he; cases he)

/-- A further node of another type, or without the field, changes nothing. -/
theorem resolve_recorded (h : Told history c) (hname : Nameable type field) {node other : String} {output : Value}
    (hfresh : node ∉ (nodes history).keys) (hfree : node ∉ Context.reserved)
    (hother : other = type → (∃ tokens, Path.split field = .ok tokens) ∧ ∀ w, ¬Holds field output w) :
    (Scope.live (c.recorded node other output)).resolve (parentsPath type field).toList =
      (Scope.live c).resolve (parentsPath type field).toList := by
  rw [hname.resolve, hname.resolve]
  refine Context.parents_recorded (h.has_nodeTypes hfresh) (h.nodeTypes ▸ h.free) hfree fun ht => ?_
  obtain ⟨⟨tokens, hread⟩, hno⟩ := hother ht
  exact Scope.found_of_not_holds hread hno

end Told

/-- In the context of every regular history, a readable field of a type is that of the last node of the type that holds
it, and null if none does. A field that is no readable path depends on the last map of the type alone, and where that
does not hold it under its literal key, there is a fault. Further nodes of other types, and further nodes of the type
that do not hold a readable field, change nothing. -/
theorem grouped_latest {history : List Happening} (h : Regular history) (payload : Value) :
    ∃ c, run payload history = .ok c ∧ ∀ {type field : String}, Nameable type field →
      (∀ tokens, Path.split field = .ok tokens →
        (∀ before node after v, nodes history = before ++ (node, type) :: after → Holds field (c.output node) v →
          (∀ other, (other, type) ∈ after → ∀ w, ¬Holds field (c.output other) w) →
            (Scope.live c).resolve (parentsPath type field).toList = .ok v) ∧
        ((∀ node, (node, type) ∈ nodes history → ∀ w, ¬Holds field (c.output node) w) →
          (Scope.live c).resolve (parentsPath type field).toList = .ok .null)) ∧
      (∀ fault, Path.split field = .error fault →
        (∀ before node after entries, nodes history = before ++ (node, type) :: after → c.output node = .map entries →
          (∀ other, (other, type) ∈ after → (c.output other).entries? = none) →
            (∀ v, Holds field (.map entries) v → (Scope.live c).resolve (parentsPath type field).toList = .ok v) ∧
            ((∀ v, ¬Holds field (.map entries) v) →
              (Scope.live c).resolve (parentsPath type field).toList = .error fault)) ∧
        ((∀ node, (node, type) ∈ nodes history → (c.output node).entries? = none) →
          (Scope.live c).resolve (parentsPath type field).toList = .ok .null)) ∧
      ∀ node other output, node ∉ (nodes history).keys → node ∉ Context.reserved →
        (other = type → (∃ tokens, Path.split field = .ok tokens) ∧ ∀ w, ¬Holds field output w) →
          ∃ d, run payload (history ++ [.record node other output]) = .ok d ∧
            (Scope.live d).resolve (parentsPath type field).toList =
              (Scope.live c).resolve (parentsPath type field).toList := by
  obtain ⟨c, hrun, htold⟩ := h.run payload
  refine ⟨c, hrun, fun {type field} hname => ⟨?_, ?_, ?_⟩⟩
  · intro tokens hread
    constructor
    · intro before node after v hnodes hholds hlater
      exact htold.resolve_of_last hname hread hnodes hholds hlater
    · intro hnone
      exact htold.resolve_of_not_found hname fun node hnode => Scope.found_of_not_holds hread (hnone node hnode)
  · intro fault hread
    constructor
    · intro before node after entries hnodes hmap hlater
      exact htold.resolve_unreadable hname hread hnodes hmap hlater
    · intro hnone
      exact htold.resolve_of_not_found hname fun node hnode => Scope.found_of_not_map (hnone node hnode)
  · intro node other output hfresh hfree hother
    refine ⟨c.recorded node other output, ?_, htold.resolve_recorded hname hfresh hfree hother⟩
    rw [run_append, hrun]
    exact Context.record_eq _ _ (htold.hasOutput hfresh)

/-- Three agents and a tool. The second agent puts out a text, and a click adds a reply to it; the third has no reply. -/
def sampleHistory : List Happening :=
  [.record "a" "agent" (.map [("reply", .map [("text", .str "first")])]), .record "b" "agent" (.str "done"),
    .splice "b" [("reply", .map [("text", .str "second")])], .record "c" "agent" (.map [("reply", .null)]),
    .record "d" "tool" (.map [("reply", .map [("text", .str "third")])])]

/-- The context after it. -/
def sampleContext : Context where
  triggerData := .map []
  outputs :=
    [("a", .map [("reply", .map [("text", .str "first")])]),
      ("b", .map [("result", .str "done"), ("reply", .map [("text", .str "second")])]), ("c", .map [("reply", .null)]),
      ("d", .map [("reply", .map [("text", .str "third")])])]
  nodeTypes := [("a", "agent"), ("b", "agent"), ("c", "agent"), ("d", "tool")]
  buttonData := none
  completed := ["a", "b", "c", "d"]

theorem regular_sampleHistory : Regular sampleHistory := by
  have ha := Regular.start.record "a" "agent" (.map [("reply", .map [("text", .str "first")])]) (by decide) (by decide)
  have hb := ha.record "b" "agent" (.str "done") (by decide) (by decide)
  have hclick := hb.splice "b" [("reply", .map [("text", .str "second")])] (by decide)
  have hc := hclick.record "c" "agent" (.map [("reply", .null)]) (by decide) (by decide)
  exact hc.record "d" "tool" (.map [("reply", .map [("text", .str "third")])]) (by decide) (by decide)

/-- The reply of an agent is that of the second, and no agent has a summary. -/
theorem grouped_latest_sample :
    Regular sampleHistory ∧ Nameable "agent" "reply.text" ∧ Nameable "agent" "summary" ∧
      ∃ c, run .null sampleHistory = .ok c ∧
        (Scope.live c).resolve "parents.agent.reply.text".toList = .ok (.str "second") ∧
        (Scope.live c).resolve "parents.agent.summary".toList = .ok .null := by
  have hreply : Nameable "agent" "reply.text" := by
    refine ⟨by decide, by decide, by decide, fun c hc => ?_⟩
    obtain rfl : 't' = c := by simpa using hc
    decide
  have hsummary : Nameable "agent" "summary" := by
    refine ⟨by decide, by decide, by decide, fun c hc => ?_⟩
    obtain rfl : 'y' = c := by simpa using hc
    decide
  obtain ⟨c, hrun, hread⟩ := grouped_latest regular_sampleHistory .null
  have hc : run .null sampleHistory = .ok sampleContext := rfl
  obtain rfl : c = sampleContext := Except.ok.inj (hrun.symm.trans hc)
  refine ⟨regular_sampleHistory, hreply, hsummary, sampleContext, hrun, ?_, ?_⟩
  · have hsplit : Path.split "reply.text" = .ok [.key "reply", .key "text"] := rfl
    refine ((hread hreply).1 _ hsplit).1 [("a", "agent")] "b" [("c", "agent"), ("d", "tool")] _ rfl
      (.path rfl rfl (by intro h; cases h)) ?_
    intro other hother
    obtain rfl : other = "c" := by simpa using hother
    exact Scope.not_holds_of_found rfl
  · have hsplit : Path.split "summary" = .ok [.key "summary"] := rfl
    refine ((hread hsummary).1 _ hsplit).2 fun node hnode => ?_
    have hagent : node = "a" ∨ node = "b" ∨ node = "c" := by
      simpa [nodes, sampleHistory] using hnode
    rcases hagent with rfl | rfl | rfl <;> exact Scope.not_holds_of_found rfl

/-- The one agent has put out an empty map. A field with an index beyond the limit of digits is nowhere in it, yet its
path does not lead to null. -/
theorem not_every_field :
    Regular [.record "a" "agent" (.map [])] ∧ Nameable "agent" (Path.render Path.longTokens) ∧
      ∃ c, run .null [.record "a" "agent" (.map [])] = .ok c ∧
        (∀ v, ¬Holds (Path.render Path.longTokens) (c.output "a") v) ∧
        (Scope.live c).resolve (parentsPath "agent" (Path.render Path.longTokens)).toList ≠ .ok .null := by
  have hregular : Regular [.record "a" "agent" (.map [])] :=
    Regular.start.record "a" "agent" (.map []) (by decide) (by decide)
  have hwritable : Path.Writable Path.longTokens := Path.writable_index _
  have hname : Nameable "agent" (Path.render Path.longTokens) :=
    ⟨by decide, by decide, hwritable.render_ne_nil, hwritable.getLast_render⟩
  obtain ⟨fault, hsplit, -⟩ := hwritable.unreadable (Path.not_short_index (Nat.le_refl _))
  obtain ⟨c, hrun, htold⟩ := hregular.run .null
  have hc : c.output "a" = .map [] := by
    obtain rfl := Except.ok.inj hrun
    rfl
  have hno : ∀ v, ¬Holds (Path.render Path.longTokens) (.map []) v := by
    intro v hv
    cases hv with
    | literal h _ => cases h
    | path _ h _ =>
      rw [Path.get_unreadable hsplit] at h
      cases h
  refine ⟨hregular, hname, c, hrun, by rwa [hc], ?_⟩
  have hnodes : nodes [.record "a" "agent" (.map [])] = [] ++ ("a", "agent") :: [] := rfl
  rw [(htold.resolve_unreadable hname hsplit hnodes hc fun other hother => absurd hother List.not_mem_nil).2 hno]
  intro h
  cases h

end Happening

end WorkGraph
