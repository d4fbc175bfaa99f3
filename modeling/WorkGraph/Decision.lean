import WorkGraph.Text.Blank
import WorkGraph.Text.Pieces
import WorkGraph.Value.Display

/-!
# Decisions

An agent is asked to choose among options: three that are always there, and those that the author of the node lists,
separated by commas. Options are trimmed, and each stands once (`nodup_options`).
-/

namespace WorkGraph.Decision

/-- The options that every agent has. -/
def defaults : List String := ["yes", "no", "maybe"]

/-- The options that an author lists, in one text or one by one. -/
def custom : Value → List String
  | .str s => (Text.pieces ',' s.toList).map fun piece => String.ofList (Text.strip piece)
  | .list items => items.map fun item => Text.trim item.display
  | _ => []

/-- An option added unless it is empty or there. -/
def add (options : List String) (option : String) : List String :=
  if option == "" || options.contains option then options else options ++ [option]

/-- The options of an agent. -/
def options (listed : Value) : List String :=
  (custom listed).foldl add defaults

theorem nodup_add {options : List String} (h : options.Nodup) (option : String) : (add options option).Nodup := by
  unfold add
  split
  · exact h
  · next hn =>
    simp only [Bool.or_eq_true, not_or, List.contains_eq_mem, decide_eq_true_eq] at hn
    rw [List.nodup_append]
    exact ⟨h, by simp, fun a ha b hb hab => hn.2 (by simp_all)⟩

/-- Each option stands once. -/
theorem nodup_options (listed : Value) : (options listed).Nodup := by
  have : ∀ (more : List String) (start : List String), start.Nodup → (more.foldl add start).Nodup := by
    intro more
    induction more with
    | nil => exact fun _ h => h
    | cons o rest ih => exact fun _ h => ih _ (nodup_add h o)
  exact this _ _ (by decide)

end WorkGraph.Decision
