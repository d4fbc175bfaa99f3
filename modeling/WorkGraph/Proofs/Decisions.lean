import WorkGraph.Decision
import WorkGraph.Proofs.Restore
import WorkGraph.Proofs.Slots

/-!
# Decisions and the tools they are mapped to

A condition quotes the option that it is about, and the option is read back from the text of the condition by taking out
what stands around it (`Action.expected`). Options are trimmed (`Decision.trimmed_of_mem`), so an option without an
apostrophe is read back as it was written (`Action.expected_quoted`). Apostrophes are taken out wherever they stand
(`Action.apostrophe_not_mem_expected`), so no other option is read back as itself. A conditional action calls the tool
of the option that is read back (`Action.tool_of_decision`), which need not be the decision that was made
(`Action.not_tool_of_decision`).
-/

namespace WorkGraph

/-! ## Removing parts of a text -/

namespace Text

theorem withoutFrom_skip (part : List Char) {skipped : List Char} (rest : List Char) :
    withoutFrom part skipped.length (skipped ++ rest) = withoutFrom part 0 rest := by
  induction skipped with
  | nil => rfl
  | cons c skipped ih => exact ih

/-- A part at the front is taken out. -/
theorem without_append {part : List Char} (hne : part ≠ []) (rest : List Char) :
    without part (part ++ rest) = without part rest := by
  obtain ⟨c, tail, rfl⟩ := List.exists_cons_of_ne_nil hne
  rw [without, List.cons_append, withoutFrom, if_pos (by simp [List.isPrefixOf_iff_prefix])]
  exact withoutFrom_skip (c :: tail) rest

/-- A text of which the part is no part stays as it is. -/
theorem without_of_not_infix {part cs : List Char} (h : ¬part <:+: cs) : without part cs = cs := by
  unfold without
  induction cs with
  | nil => rfl
  | cons c rest ih =>
    have hprefix : ¬part.isPrefixOf (c :: rest) = true := fun hp => h (List.isPrefixOf_iff_prefix.1 hp).isInfix
    rw [withoutFrom, if_neg hprefix, ih fun hr => h (List.infix_cons hr)]

/-- Taking out a character takes out each of its occurrences. -/
theorem without_singleton (c : Char) (cs : List Char) : without [c] cs = cs.filter (· != c) := by
  unfold without
  induction cs with
  | nil => rfl
  | cons d rest ih =>
    by_cases hd : d = c
    · rw [withoutFrom, if_pos (by simp [List.isPrefixOf, hd]), List.filter_cons_of_neg (by simp [hd])]
      exact ih
    · rw [withoutFrom, if_neg (by simp [List.isPrefixOf, Ne.symm hd]), List.filter_cons_of_pos (by simp [hd]), ih]

theorem mem_of_mem_strip {c : Char} {cs : List Char} (h : c ∈ strip cs) : c ∈ cs := by
  obtain ⟨before, after, -, -, hcs⟩ := exists_strip cs
  rw [hcs]
  exact List.mem_append_left _ (List.mem_append_right _ h)

theorem not_isBlank_of_head?_dropWhile {c : Char} {cs : List Char} (h : (cs.dropWhile isBlank).head? = some c) :
    isBlank c = false := by
  have hnot := List.head?_dropWhile_not isBlank cs
  rw [h] at hnot
  exact hnot

theorem not_isBlank_of_getLast?_strip {c : Char} {cs : List Char} (h : (strip cs).getLast? = some c) :
    isBlank c = false := by
  rw [strip, stripEnd, List.getLast?_reverse] at h
  exact not_isBlank_of_head?_dropWhile h

theorem strip_strip (cs : List Char) : strip (strip cs) = strip cs := by
  by_cases hne : strip cs = []
  · rw [hne, strip_nil]
  refine strip_of_ends hne (fun c hc => ?_) fun c hc => not_isBlank_of_getLast?_strip hc
  obtain ⟨after, hafter⟩ : strip cs <+: cs.dropWhile isBlank := by
    rw [strip, stripEnd, ← List.reverse_suffix, List.reverse_reverse]
    exact List.dropWhile_suffix _
  have hkept : (cs.dropWhile isBlank).head? = some c := by rw [← hafter, List.head?_append, hc, Option.some_or]
  exact not_isBlank_of_head?_dropWhile hkept

end Text

/-! ## Options -/

namespace Decision

/-- A text with something in it and no blanks around it. -/
def Trimmed (option : String) : Prop :=
  option ≠ "" ∧ Text.strip option.toList = option.toList

theorem trimmed_of_mem_add {options : List String} (h : ∀ option ∈ options, Trimmed option) {option : String}
    (ho : Text.strip option.toList = option.toList) : ∀ other ∈ add options option, Trimmed other := by
  intro other hm
  unfold add at hm
  split at hm
  · exact h other hm
  · next hn =>
    simp only [Bool.or_eq_true, not_or, beq_iff_eq] at hn
    rcases List.mem_append.1 hm with hm | hm
    · exact h other hm
    · rw [List.mem_singleton.1 hm]
      exact ⟨hn.1, ho⟩

theorem strip_of_mem_custom {listed : Value} {option : String} (h : option ∈ custom listed) :
    Text.strip option.toList = option.toList := by
  cases listed with
  | null | bool | num | map => cases h
  | str s =>
    obtain ⟨piece, -, rfl⟩ := List.mem_map.1 h
    rw [String.toList_ofList, Text.strip_strip]
  | list items =>
    obtain ⟨item, -, rfl⟩ := List.mem_map.1 h
    rw [Text.trim, String.toList_ofList, Text.strip_strip]

/-- Every option is trimmed. -/
theorem trimmed_of_mem {listed : Value} {option : String} (h : option ∈ options listed) : Trimmed option := by
  have hfold : ∀ (more start : List String), (∀ option ∈ start, Trimmed option) →
      (∀ option ∈ more, Text.strip option.toList = option.toList) → ∀ option ∈ more.foldl add start, Trimmed option := by
    intro more
    induction more with
    | nil => exact fun _ hstart _ => hstart
    | cons first rest ih =>
      intro start hstart hmore
      exact ih _ (trimmed_of_mem_add hstart (hmore first List.mem_cons_self)) fun option hm =>
        hmore option (List.mem_cons_of_mem _ hm)
  have hdefaults : ∀ option ∈ defaults, Trimmed option := by
    intro option hm
    simp only [defaults, List.mem_cons, List.not_mem_nil, or_false] at hm
    rcases hm with rfl | rfl | rfl <;> exact ⟨by decide, by decide⟩
  exact hfold _ _ hdefaults (fun _ hm => strip_of_mem_custom hm) option h

end Decision

namespace Action

/-! ## Conditions about an option -/

/-- The condition that quotes an option. -/
def quoted (option : String) : String :=
  "decision == '" ++ option ++ "'"

/-- Behind its first quotation mark, the condition about an option does not have its beginning again: the option would
have to end with a blank. -/
theorem not_infix_quoted {option : String} (h : Decision.Trimmed option) (hq : '\'' ∉ option.toList) :
    ¬"decision == '".toList <:+: option.toList ++ ['\''] := by
  rintro ⟨before, after, heq⟩
  rw [show "decision == '".toList = "decision == ".toList ++ ['\''] by decide] at heq
  rcases List.eq_nil_or_concat after with rfl | ⟨rest, c, rfl⟩
  · rw [List.append_nil, ← List.append_assoc] at heq
    have hoption : before ++ "decision == ".toList = option.toList := List.append_cancel_right heq
    have hlast : (Text.strip option.toList).getLast? = some ' ' := by
      rw [h.2, ← hoption, List.getLast?_append]
      rfl
    exact absurd (Text.not_isBlank_of_getLast?_strip hlast) (by decide)
  · rw [List.concat_eq_append, ← List.append_assoc] at heq
    have hoption := (List.append_inj' heq rfl).1
    exact hq (hoption ▸ by simp)

/-- An option without an apostrophe is read back from its condition. -/
theorem expected_quoted {option : String} (h : Decision.Trimmed option) (hq : '\'' ∉ option.toList) :
    expected (quoted option) = option := by
  have hbare : Text.without "decision == '".toList (quoted option).toList = option.toList ++ ['\''] := by
    rw [quoted, String.toList_append, String.toList_append, List.append_assoc, Text.without_append (by decide)]
    exact Text.without_of_not_infix (not_infix_quoted h hq)
  have hkept : option.toList.filter (· != '\'') = option.toList :=
    List.filter_eq_self.2 fun c hc => by
      rw [bne_iff_ne]
      exact fun he => hq (he ▸ hc)
  have hfree : Text.without "'".toList (option.toList ++ ['\'']) = option.toList := by
    rw [show "'".toList = ['\''] from rfl, Text.without_singleton, List.filter_append, hkept]
    exact List.append_nil _
  rw [expected, hbare, hfree, h.2, String.ofList_toList]

/-- Whatever is read back has no apostrophe. -/
theorem apostrophe_not_mem_expected (condition : String) : '\'' ∉ (expected condition).toList := by
  intro h
  rw [expected, String.toList_ofList] at h
  have hmem := Text.mem_of_mem_strip h
  rw [show "'".toList = ['\''] from rfl, Text.without_singleton] at hmem
  simp at hmem

/-! ## The tool of a decision -/

/-- The first output whose decision counts as one has this decision. -/
def Decides (context : Context) (decision : Value) : Prop :=
  decision.truthy = true ∧ ∃ before node output after, context.outputs = before ++ (node, .map output) :: after ∧
    Value.field output "decision" = decision ∧
    ∀ entry ∈ before, ∀ other, entry.2 = .map other → (Value.field other "decision").truthy = false

/-- A conditional action with one condition, which quotes an option and names a tool. -/
structure Maps (node : Node) (option tool : String) : Prop where
  conditional : node.setting "action_type" = .str "conditional"
  condition : node.setting "conditions" = .list [.map [("if", .str (quoted option)), ("then", .str tool)]]

variable {node : Node} {option decision tool : String} {context : Context} {w : World} {collaborator : Collaborator}

theorem decision?_of_decides {decision : Value} (h : Decides context decision) : decision? context = some decision := by
  obtain ⟨htruthy, before, node, output, after, houtputs, hfield, hbefore⟩ := h
  rw [decision?, houtputs, List.findSome?_append, List.findSome?_eq_none_iff.2, Option.none_or, List.findSome?_cons]
  · have hsome : decision.some? = some decision := by
      cases decision with
      | null => cases htruthy
      | bool | num | str | list | map => rfl
    simp [Value.entries?, hfield, hsome, Option.filter, htruthy]
  · rintro ⟨name, v⟩ hm
    cases v with
    | null | bool | num | str | list => rfl
    | map other =>
      have hfalse := hbefore _ hm other rfl
      cases hother : Value.field other "decision" <;> simp_all [Value.entries?, Value.some?, Option.filter]

theorem chosenTool_quoted (option decision tool : String) :
    chosenTool decision [.map [("if", .str (quoted option)), ("then", .str tool)]] =
      .ok (if expected (quoted option) = decision ∧ tool ≠ "" then .str tool else .null) := by
  have hthen : Value.field [("if", .str (quoted option)), ("then", .str tool)] "then" = .str tool := rfl
  have hif : Entries.get? [("if", Value.str (quoted option)), ("then", .str tool)] "if" = some (.str (quoted option)) := rfl
  have htruthy : (Value.str tool).truthy = (tool != "") := rfl
  rw [chosenTool, hthen, hif, htruthy, Option.getD_some, Value.display_str, chosenTool]
  by_cases h : expected (quoted option) = decision ∧ tool ≠ ""
  · rw [if_pos h, if_pos (by simpa using h)]
  · rw [if_neg h, if_neg (by simpa using h)]

/-- The only condition is met by the option that is read back from it. -/
theorem run_of_maps (hc : Decides context (.str decision)) (hn : Maps node option tool) (workflow execution : String) :
    Engine.run (run node context workflow execution) w =
      if expected (quoted option) = decision ∧ tool ≠ "" then
        Engine.run (do
          let comment ← Engine.ofExcept (payloadComment context.triggerData).magnitude
          Registry.call .tool (.str tool) (some ⟨execution, node.id⟩) (.map [("comment_id", .int comment)])
            (.map context.flat)) w
      else (.ok (nothingDone "No matching condition"), w) := by
  have hmembers : ((Value.list [.map [("if", .str (quoted option)), ("then", .str tool)]]).orElse (.list [])).members =
      .ok [.map [("if", .str (quoted option)), ("then", .str tool)]] := rfl
  rw [run, hn.conditional, if_pos (by decide), runConditional, decision?_of_decides hc, hn.condition]
  dsimp only
  rw [Engine.run_ofExcept_bind hmembers, Value.display_str,
    Engine.run_ofExcept_bind (chosenTool_quoted option decision tool)]
  by_cases h : expected (quoted option) = decision ∧ tool ≠ ""
  · rw [if_pos h, if_pos h, if_neg (by simpa [Value.truthy] using h.2)]
  · rw [if_neg h, if_neg h]
    rfl

/-- The call of a tool with the comment of the payload. -/
def commentCall (node : Node) (context : Context) (execution tool : String) (comment : Int) : Call :=
  { role := .tool
    id := tool
    origin := some ⟨execution, node.id⟩
    first := .map [("comment_id", .int comment)]
    second := .map context.flat }

/-- The option that is read back has its tool called, as long as the payload tells of a readable comment. -/
theorem run_of_expected (hc : Decides context (.str (expected (quoted option)))) (hn : Maps node option tool)
    (hne : tool ≠ "") (ht : w.tools.get? tool = some (some collaborator)) (workflow execution : String) :
    Engine.run (run node context workflow execution) w =
      match (payloadComment context.triggerData).magnitude with
      | .error fault => (.error fault, w)
      | .ok n =>
        let call := commentCall node context execution tool n
        ((collaborator.answer collaborator.answered call).outcome, w.called call collaborator) := by
  rw [run_of_maps hc hn, if_pos ⟨rfl, hne⟩]
  cases hm : (payloadComment context.triggerData).magnitude with
  | error fault => rw [Engine.run_ofExcept_bind_error rfl]
  | ok n =>
    have hrequire : (w.registry .tool).require .tool (.str tool) = .ok (tool, collaborator) := by
      have hfind : (w.registry .tool).find? (.str tool) = .ok (some (tool, collaborator)) := by
        rw [Registry.find?, show w.registry .tool = w.tools from rfl, ht]
        rfl
      rw [Registry.require, hfind]
      rfl
    rw [Engine.run_ofExcept_bind rfl, Registry.run_call, hrequire]
    rfl

/-- A conditional action whose only condition quotes an option calls its tool on the decision for this option, and does
nothing on any other, if the option has no apostrophe and the tool a name. In general it goes by the option that is read
back from the condition: on this decision the tool is called, or the payload tells of an unreadable comment, and on any
other nothing is done. What is read back has no apostrophe, so that on a decision with one nothing is done. -/
theorem tool_of_decision {listed : Value} (ho : option ∈ Decision.options listed) (hc : Decides context (.str decision))
    (hn : Maps node option tool) (ht : w.tools.get? tool = some (some collaborator)) (workflow execution : String) :
    let out := Engine.run (run node context workflow execution) w
    let comment := (payloadComment context.triggerData).magnitude
    let called (n : Int) : Except Fault Value × World :=
      let call := commentCall node context execution tool n
      ((collaborator.answer collaborator.answered call).outcome, w.called call collaborator)
    let nothing : Except Fault Value × World := (.ok (nothingDone "No matching condition"), w)
    ('\'' ∉ option.toList → tool ≠ "" →
      (decision = option → ∀ n, comment = .ok n → out = called n) ∧ (decision ≠ option → out = nothing)) ∧
      (decision = expected (quoted option) → tool ≠ "" →
        (∀ n, comment = .ok n → out = called n) ∧ ∀ fault, comment = .error fault → out = (.error fault, w)) ∧
      (decision ≠ expected (quoted option) ∨ tool = "" → out = nothing) ∧
      ('\'' ∈ decision.toList → out = nothing) := by
  intro out comment called nothing
  have hcalled : decision = expected (quoted option) → tool ≠ "" →
      (∀ n, comment = .ok n → out = called n) ∧ ∀ fault, comment = .error fault → out = (.error fault, w) := by
    rintro rfl hne
    have hout : out = _ := run_of_expected hc hn hne ht workflow execution
    exact ⟨fun n h => by rw [hout, show (payloadComment context.triggerData).magnitude = _ from h],
      fun fault h => by rw [hout, show (payloadComment context.triggerData).magnitude = _ from h]⟩
  have hnothing : decision ≠ expected (quoted option) ∨ tool = "" → out = nothing := by
    intro h
    rw [show out = _ from run_of_maps hc hn workflow execution, if_neg]
    rintro ⟨hexpected, hne⟩
    exact h.elim (fun hdiffers => hdiffers hexpected.symm) hne
  refine ⟨fun hq hne => ?_, hcalled, hnothing, fun hq => hnothing (.inl fun hread => ?_)⟩
  · rw [expected_quoted (Decision.trimmed_of_mem ho) hq] at hcalled hnothing
    exact ⟨fun he => (hcalled he hne).1, fun hdiffers => hnothing (.inl hdiffers)⟩
  · exact apostrophe_not_mem_expected (quoted option) (hread ▸ hq)

end Action

namespace Sample

/-- A conditional action that hides a comment on a decision for an option. -/
def moderating (option : String) : Node :=
  node "act" "action"
    [("action_type", .str "conditional"),
      ("conditions", .list [.map [("if", .str (Action.quoted option)), ("then", .str "hide")]])]

/-- A comment about which an agent has made a decision. -/
def moderated (decision : String) : Context :=
  { Context.start (.map [("comment_id", .int 7)]) with outputs := [("agent", .map [("decision", .str decision)])] }

/-- A world with the tool that hides comments. -/
def moderator : World :=
  { World.initial {} "" none with tools := [("hide", some (Script.collaborator []))] }

theorem decides_moderated {decision : String} (h : (Value.str decision).truthy = true) :
    Action.Decides (moderated decision) (.str decision) :=
  ⟨h, [], "agent", [("decision", .str decision)], [], rfl, rfl, fun _ hm => by cases hm⟩

theorem maps_moderating (option : String) : Action.Maps (moderating option) option "hide" :=
  ⟨rfl, rfl⟩

end Sample

namespace Action

/-- An agent decides for an option among those that the author listed. -/
theorem tool_of_decision_sample :
    "spam" ∈ Decision.options (.str "spam, rude") ∧
      Decides (Sample.moderated "spam") (.str "spam") ∧ Maps (Sample.moderating "spam") "spam" "hide" ∧
      Sample.moderator.tools.get? "hide" = some (some (Script.collaborator [])) ∧
      (Engine.run (run (Sample.moderating "spam") (Sample.moderated "spam") "w" "x") Sample.moderator).1 = .ok .null ∧
      (Engine.run (run (Sample.moderating "spam") (Sample.moderated "spam") "w" "x") Sample.moderator).2.calls =
        [commentCall (Sample.moderating "spam") (Sample.moderated "spam") "x" "hide" 7] := by
  have ho : "spam" ∈ Decision.options (.str "spam, rude") := by decide +kernel
  have hc : Decides (Sample.moderated "spam") (.str "spam") := Sample.decides_moderated rfl
  have hn := Sample.maps_moderating "spam"
  obtain ⟨hplain, -⟩ := tool_of_decision ho hc hn (w := Sample.moderator) rfl "w" "x"
  have hout := (hplain (by decide) (by decide)).1 rfl 7 rfl
  exact ⟨ho, hc, hn, rfl, by rw [hout]; rfl, by rw [hout]; rfl⟩

/-- Of two options one of which has an apostrophe, the condition about this one is met by the other. -/
theorem not_tool_of_decision :
    "it's" ∈ Decision.options (.str "it's, its") ∧ "its" ∈ Decision.options (.str "it's, its") ∧
      Engine.run (run (Sample.moderating "it's") (Sample.moderated "it's") "w" "x") Sample.moderator =
        (.ok (nothingDone "No matching condition"), Sample.moderator) ∧
      (Engine.run (run (Sample.moderating "it's") (Sample.moderated "its") "w" "x") Sample.moderator).2.calls =
        [commentCall (Sample.moderating "it's") (Sample.moderated "its") "x" "hide" 7] := by
  have hread : expected (quoted "it's") = "its" := by decide +kernel
  refine ⟨by decide +kernel, by decide +kernel, ?_, ?_⟩
  · rw [run_of_maps (Sample.decides_moderated rfl) (Sample.maps_moderating "it's"), hread, if_neg (by decide)]
  · have hc : Decides (Sample.moderated "its") (.str (expected (quoted "it's"))) := hread ▸ Sample.decides_moderated rfl
    rw [run_of_expected hc (Sample.maps_moderating "it's") (by decide) rfl]
    rfl

end Action

end WorkGraph
