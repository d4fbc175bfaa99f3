import WorkGraph.Proofs.Pending

/-!
# Messages that share a file

Mappings and claims are kept in files that are named after messages, and a name keeps the letters and the digits of an id but
not its separators. So what the stores know they know of names and not of messages: a mapping that is found is the last that
was saved for any message of that name, and a message can be claimed if no message of its name is (`mailbox_of_name`). Where
no two messages have one name, this is a store for each message; where two have, they are taken for one another
(`not_by_message`).
-/

namespace WorkGraph

open Engine

/-! ## What is done with messages -/

/-- What is done with a message: a mapping is saved for it, it is claimed for an execution, or given up. -/
inductive Handling where
  | save (mapping : ButtonMapping)
  | claim (message execution : String)
  | release (message : String)

namespace Handling

def message : Handling → String
  | save mapping => mapping.messageId
  | claim message _ | release message => message

/-- The file that it is done to. -/
def place : Handling → Location
  | save mapping => Store.Mappings.place mapping.messageId
  | claim message _ | release message => Store.Claims.place message

def perform : Handling → Engine Unit
  | save mapping => do let _ ← Store.Mappings.save mapping
  | claim message execution => do let _ ← Store.Claims.claim message execution
  | release message => Store.Claims.release message

/-- The world after so many of them. A fault does not keep the next from being done. -/
def run : List Handling → World → World
  | [], w => w
  | h :: rest, w => run rest (Engine.run h.perform w).2

/-- Whether it is done to a file that a message has as well, and the file can be written. -/
def reaches (message : String) (h : Handling) : Bool :=
  safeName h.message == safeName message && decide h.place.Fits

end Handling

/-- What is known of a message: its mappings in order, and whether it is claimed. -/
structure Mailbox where
  mappings : List ButtonMapping
  claimed : Bool

namespace Mailbox

/-- A mapping is numbered by its place. -/
def after (b : Mailbox) : Handling → Mailbox
  | .save mapping => { b with mappings := b.mappings ++ [{ mapping with id := b.mappings.length + 1 }] }
  | .claim _ _ => { b with claimed := true }
  | .release _ => { b with claimed := false }

/-- What is known after so much was done. -/
def of (steps : List Handling) : Mailbox :=
  steps.foldl after ⟨[], false⟩

/-- The mapping that counts. -/
def current (b : Mailbox) : Option ButtonMapping :=
  b.mappings.getLast?

/-- Whether the files of a message tell what is known. -/
structure Kept (message : String) (b : Mailbox) (w : World) : Prop where
  steady : w.Steady
  rows : w.storage.read (Store.Mappings.place message) (.list []) = .ok (.list (b.mappings.map ButtonMapping.toValue))
  claim : (w.storage.find? (Store.Claims.place message)).isSome = b.claimed
  fits : b.claimed = true → (Store.Claims.place message).Fits

end Mailbox

/-! ## One thing that is done -/

theorem mappings_ne_claims (message other : String) :
    (Store.Mappings.place message).path ≠ (Store.Claims.place other).path := by
  intro h
  cases Location.folder_eq_of_path h

/-- Messages of one name have one place. -/
theorem Location.ofRecord_eq {message other : String} (h : safeName message = safeName other) (folder : Folder)
    (extension : String) : ofRecord folder message extension = ofRecord folder other extension := by
  unfold ofRecord
  rw [h]

namespace Mailbox.Kept

variable {message other : String} {b : Mailbox} {w w' : World}

/-- Nothing is known of a message that has no files. -/
theorem start (hs : w.Steady) (hm : w.storage.find? (Store.Mappings.place message) = none)
    (hc : w.storage.find? (Store.Claims.place message) = none) : Kept message ⟨[], false⟩ w where
  steady := hs
  rows := by
    rw [Storage.read, hm]
    rfl
  claim := by
    rw [hc]
    rfl
  fits h := by cases h

theorem of_files (h : Kept message b w) (hs : w.Steady → w'.Steady)
    (hm : w'.storage.find? (Store.Mappings.place message) = w.storage.find? (Store.Mappings.place message))
    (hc : w'.storage.find? (Store.Claims.place message) = w.storage.find? (Store.Claims.place message)) :
    Kept message b w' where
  steady := hs h.steady
  rows := by
    rw [Storage.read, hm]
    exact h.rows
  claim := by
    rw [hc]
    exact h.claim
  fits := h.fits

theorem quiet (h : Kept message b w) (hq : Quiet w w') : Kept message b w' :=
  h.of_files hq.steady (by rw [hq.storage]) (by rw [hq.storage])

/-- What is written for another name does not matter. -/
theorem wrote_ne {folder : Folder} {extension : String} {v : Value} (h : Kept message b w)
    (hw : Wrote (Location.ofRecord folder other extension) v w w') (hne : safeName other ≠ safeName message)
    (hm : folder = .mappings → extension = ".json") (hc : folder = .claims → extension = ".claim") : Kept message b w' := by
  refine h.of_files hw.steady (hw.find?_ne fun hp => ?_) (hw.find?_ne fun hp => ?_)
  · obtain rfl := Location.folder_eq_of_path hp
    rw [hm rfl] at hp
    exact hne (Location.path_inj hp).symm
  · obtain rfl := Location.folder_eq_of_path hp
    rw [hc rfl] at hp
    exact hne (Location.path_inj hp).symm

/-- A mapping is saved behind those that there are. -/
theorem save (h : Kept message b w) (mapping : ButtonMapping) :
    Kept message (if (Handling.save mapping).reaches message then b.after (.save mapping) else b)
      (run (Handling.save mapping).perform w).2 := by
  show Kept message _ (run (Store.Mappings.save mapping >>= fun _ => pure ()) w).2
  by_cases hname : safeName mapping.messageId = safeName message
  · have hplace : Store.Mappings.place mapping.messageId = Store.Mappings.place message :=
      Location.ofRecord_eq hname .mappings ".json"
    have hrows := h.rows
    rw [← hplace] at hrows
    have hp := (Store.Mappings.save_posted hrows).returning ()
    rcases hr : run (Store.Mappings.save mapping >>= fun _ => pure ()) w with ⟨result, w'⟩
    rw [hr] at hp
    cases hp with
    | done hw =>
      have hreach : (Handling.save mapping).reaches message = true := by
        simp [Handling.reaches, Handling.message, Handling.place, hname, hw.fits]
      rw [if_pos hreach]
      refine ⟨hw.steady h.steady, ?_, ?_, h.fits⟩
      · rw [← hplace]
        have hread : w'.storage.read _ (.list []) = _ := hw.read_self
        rw [List.length_map] at hread
        rw [hread, after, List.map_append]
        rfl
      · show (w'.storage.find? _).isSome = b.claimed
        rw [hw.find?_ne (mappings_ne_claims _ _).symm]
        exact h.claim
    | unheard hno _ => exact absurd trivial hno
    | lost hno hq =>
      have hreach : (Handling.save mapping).reaches message = false := by
        simp only [Handling.reaches, Handling.place, Bool.and_eq_false_iff]
        exact .inr (decide_eq_false fun hf => hno ⟨h.steady, hf⟩)
      rw [hreach, if_neg Bool.false_ne_true]
      exact h.quiet hq
  · have hreach : (Handling.save mapping).reaches message = false := by
      simp [Handling.reaches, Handling.message, hname]
    rw [hreach, if_neg Bool.false_ne_true]
    by_cases hlist : ∃ rows, w.storage.read (Store.Mappings.place mapping.messageId) (.list []) = .ok (.list rows)
    · obtain ⟨rows, hrows⟩ := hlist
      have hp := (Store.Mappings.save_posted hrows).returning ()
      rcases hr : run (Store.Mappings.save mapping >>= fun _ => pure ()) w with ⟨result, w'⟩
      rw [hr] at hp
      cases hp with
      | done hw => exact h.wrote_ne hw hname (fun _ => rfl) fun hf => by cases hf
      | unheard hno _ => exact absurd trivial hno
      | lost _ hq => exact h.quiet hq
    · obtain ⟨fault, w', hr, hq⟩ := Store.Mappings.save_barred fun rows hrows => hlist ⟨rows, hrows⟩
      rw [run_bind_error hr]
      exact h.quiet hq

/-- A message is claimed if it is not claimed yet. -/
theorem claimed (h : Kept message b w) (execution : String) :
    Kept message (if (Handling.claim other execution).reaches message then b.after (.claim other execution) else b)
      (run (Handling.claim other execution).perform w).2 := by
  show Kept message _ (run ((fun _ => ()) <$> Store.Claims.claim other execution) w).2
  rw [run_map_snd]
  rcases Store.Claims.claim_cases other execution w with ⟨w', hr, -, now, hw⟩ | ⟨result, w', hr, hne, hq⟩ <;> rw [hr]
  · by_cases hname : safeName other = safeName message
    · have hplace : Store.Claims.place other = Store.Claims.place message := Location.ofRecord_eq hname .claims ".claim"
      have hreach : (Handling.claim other execution).reaches message = true := by
        simp [Handling.reaches, Handling.message, Handling.place, hname, hw.fits]
      rw [if_pos hreach]
      rw [hplace] at hw
      refine ⟨hw.steady h.steady, (hw.read_ne (mappings_ne_claims _ _)).trans h.rows, ?_, fun _ => hw.fits⟩
      rw [hw.find?_self]
      rfl
    · have hreach : (Handling.claim other execution).reaches message = false := by
        simp [Handling.reaches, Handling.message, hname]
      rw [hreach, if_neg Bool.false_ne_true]
      exact h.wrote_ne hw hname (fun hf => by cases hf) fun _ => rfl
  · split
    · next hreach =>
      simp only [Handling.reaches, Handling.message, Handling.place, Bool.and_eq_true, beq_iff_eq] at hreach
      have hplace : Store.Claims.place other = Store.Claims.place message :=
        Location.ofRecord_eq hreach.1 .claims ".claim"
      -- were it not claimed, the claim would have been made
      have hclaimed : b.claimed = true := by
        refine Decidable.by_contra fun hno => ?_
        rw [← h.claim, ← hplace] at hno
        obtain ⟨u, now, hok, -⟩ := Store.Claims.run_claim h.steady (of_decide_eq_true hreach.2) hno execution
        rw [hr] at hok
        exact hne (Prod.mk.inj hok).1
      have hafter : b.after (.claim other execution) = b := by rw [after, ← hclaimed]
      rw [hafter]
      exact h.quiet hq
    · exact h.quiet hq

/-- A message that is given up can be claimed again. -/
theorem released (h : Kept message b w) :
    Kept message (if (Handling.release other).reaches message then b.after (.release other) else b)
      (run (Handling.release other).perform w).2 := by
  have hr : run (Store.Claims.release other) w =
      (.ok (), { w with storage := w.storage.remove (Store.Claims.place other) }) := by
    unfold Store.Claims.release
    rw [run_bind_ok (run_entering_steady h.steady _)]
    rfl
  show Kept message _ (run (Store.Claims.release other) w).2
  rw [hr]
  have hrows : (w.storage.remove (Store.Claims.place other)).read (Store.Mappings.place message) (.list []) = _ :=
    (Storage.read_remove_ne (mappings_ne_claims message other)).trans h.rows
  by_cases hname : safeName other = safeName message
  · have hplace : Store.Claims.place other = Store.Claims.place message := Location.ofRecord_eq hname .claims ".claim"
    have hnone : ((w.storage.remove (Store.Claims.place other)).find? (Store.Claims.place message)).isSome = false := by
      rw [hplace, Storage.find?, Storage.remove, Entries.get?_erase_self]
      rfl
    split
    · exact ⟨h.steady, hrows, hnone, fun hc => by cases hc⟩
    · next hreach =>
      -- a claim for which there is no place was never made
      have hclaimed : b.claimed = false := by
        refine Bool.not_eq_true _ ▸ fun hc => hreach ?_
        simp [Handling.reaches, Handling.message, Handling.place, hname, hplace, h.fits hc]
      exact ⟨h.steady, hrows, hnone.trans hclaimed.symm, h.fits⟩
  · have hreach : (Handling.release other).reaches message = false := by
      simp [Handling.reaches, Handling.message, hname]
    rw [hreach, if_neg Bool.false_ne_true]
    have hne : (Store.Claims.place message).path ≠ (Store.Claims.place other).path := fun hp =>
      hname (Location.path_inj hp).symm
    exact ⟨h.steady, hrows, by rw [Storage.find?, Storage.remove, Entries.get?_erase_ne hne]; exact h.claim, h.fits⟩

/-- What is done to the files of a message is known of it, and nothing else is. -/
theorem step (h : Kept message b w) (act : Handling) :
    Kept message (if act.reaches message then b.after act else b) (run act.perform w).2 := by
  cases act with
  | save mapping => exact h.save mapping
  | claim other execution => exact h.claimed execution
  | release other => exact h.released

/-- So it is after any number of things that are done. -/
theorem run (h : Kept message b w) (steps : List Handling) :
    Kept message ((steps.filter (Handling.reaches message)).foldl after b) (Handling.run steps w) := by
  induction steps generalizing b w with
  | nil => exact h
  | cons act rest ih =>
    have hrest := ih (h.step act)
    rw [List.filter_cons]
    split
    · next hreach =>
      rw [if_pos hreach] at hrest
      exact hrest
    · next hreach =>
      rw [if_neg hreach] at hrest
      exact hrest

/-- The mapping that counts is found. -/
theorem find?_eq (h : Kept message b w) : (Engine.run (Store.Mappings.find? message) w).1 = .ok b.current := by
  rcases List.eq_nil_or_concat b.mappings with hnil | ⟨init, last, hlast⟩
  · have hr := h.rows
    rw [hnil, List.map_nil] at hr
    unfold Store.Mappings.find?
    rw [run_bind_ok (run_entering_steady h.steady _), Store.run_readFile_bind hr, current, hnil]
    rfl
  · have hr := h.rows
    rw [hlast, List.concat_eq_append, List.map_append] at hr
    rw [Store.Mappings.run_find?_last h.steady hr, current, hlast, List.concat_eq_append, List.getLast?_concat]

/-- A message can be claimed if it is not claimed. -/
theorem claim_eq (h : Kept message b w) (hf : (Store.Claims.place message).Fits) (execution : String) :
    (Engine.run (Store.Claims.claim message execution) w).1 = .ok !b.claimed := by
  cases hc : b.claimed with
  | false =>
    have hno : ¬w.Holds (Store.Claims.place message) := by
      rw [World.Holds, h.claim, hc]
      exact Bool.false_ne_true
    obtain ⟨u, now, hr, -⟩ := Store.Claims.run_claim h.steady hf hno execution
    rw [hr]
    rfl
  | true =>
    unfold Store.Claims.claim
    rw [run_bind_ok (run_entering_steady h.steady _), run_get_bind, h.claim, hc]
    rfl

/-- Where there is no place for the claim of a message, it cannot be claimed. -/
theorem claim_unfit (h : Kept message b w) (hf : ¬(Store.Claims.place message).Fits) (execution : String) :
    ∃ fault, (Engine.run (Store.Claims.claim message execution) w).1 = .error fault := by
  have hno : ¬(w.storage.find? (Store.Claims.place message)).isSome = true := fun hc => hf (h.fits (h.claim ▸ hc))
  unfold Store.Claims.claim
  rw [run_bind_ok (run_entering_steady h.steady _), run_get_bind, if_neg hno, run_bind_ok (run_stamp w), run_bind,
    Store.run_writeFile]
  split
  · next hw =>
    split at hw
    · next hs => exact absurd (Storage.fits_of_write hs) hf
    · cases hw
  · exact ⟨_, rfl⟩

end Mailbox.Kept

/-! ## Whatever is done -/

/-- Of a message of which nothing is known yet, the stores know at any time what was done to messages of its file name, and
nothing else: the last mapping that was saved for one of them is found, and it can be claimed if none of them is claimed. What
is done to messages of other names changes neither, and where no other message has the name this is what was done to the
message itself. -/
theorem mailbox_of_name {message : String} {w : World} (hs : w.Steady)
    (hm : w.storage.find? (Store.Mappings.place message) = none) (hc : w.storage.find? (Store.Claims.place message) = none)
    (steps : List Handling) :
    let w' := Handling.run steps w
    let own := steps.filter (Handling.reaches message)
    (Engine.run (Store.Mappings.find? message) w').1 = .ok (Mailbox.of own).current ∧
      (∀ execution, (Store.Claims.place message).Fits →
        (Engine.run (Store.Claims.claim message execution) w').1 = .ok !(Mailbox.of own).claimed) ∧
      (∀ execution, ¬(Store.Claims.place message).Fits →
        ∃ fault, (Engine.run (Store.Claims.claim message execution) w').1 = .error fault) ∧
      ((∀ act ∈ steps, safeName act.message = safeName message → act.message = message) →
        own = steps.filter fun act => act.message == message && decide act.place.Fits) := by
  intro w' own
  have hend : Mailbox.Kept message (Mailbox.of own) w' := (Mailbox.Kept.start hs hm hc).run steps
  refine ⟨hend.find?_eq, fun execution hf => hend.claim_eq hf execution,
    fun execution hf => hend.claim_unfit hf execution, fun hown => ?_⟩
  refine List.filter_congr fun act hact => ?_
  rw [Handling.reaches]
  congr 1
  rw [Bool.eq_iff_iff, beq_iff_eq, beq_iff_eq]
  exact ⟨hown act hact, congrArg safeName⟩

namespace Sample

/-- A mapping of a message. -/
def mappingOf (message : String) : ButtonMapping :=
  { id := 0, messageId := message, workflowId := "flow", executionId := "first", nodeId := "ask", buttonIds := []
    createdAt := "2025-01-01T00:00:00" }

/-- Two mappings are saved for a message, another one for another message, and both messages are claimed. -/
def handled (message other : String) : List Handling :=
  [.save (mappingOf message), .save (mappingOf other), .save { mappingOf message with nodeId := "again" },
    .claim message "first", .claim other "first", .release other]

end Sample

/-- The second mapping of a message is found, and the message stays claimed when another one is given up. -/
theorem mailbox_of_name_sample :
    let w : World := .initial {} "" none
    let w' := Handling.run (Sample.handled "wamid.1" "wamid.2") w
    (w.Steady ∧ w.storage.find? (Store.Mappings.place "wamid.1") = none ∧
      w.storage.find? (Store.Claims.place "wamid.1") = none) ∧
    (Engine.run (Store.Mappings.find? "wamid.1") w').1 =
      .ok (some { Sample.mappingOf "wamid.1" with id := 2, nodeId := "again" }) ∧
    (Engine.run (Store.Claims.claim "wamid.1" "second") w').1 = .ok false ∧
    (Engine.run (Store.Claims.claim "wamid.2" "second") w').1 = .ok true := by
  intro w w'
  have hs : w.Steady := fun p hp => by cases hp
  have hfits : (Store.Claims.place "wamid.1").Fits ∧ (Store.Claims.place "wamid.2").Fits := by decide +kernel
  obtain ⟨hfind, hclaim, -, -⟩ := @mailbox_of_name "wamid.1" w hs rfl rfl (Sample.handled "wamid.1" "wamid.2")
  obtain ⟨-, hother, -, -⟩ := @mailbox_of_name "wamid.2" w hs rfl rfl (Sample.handled "wamid.1" "wamid.2")
  have hboxes : (Mailbox.of ((Sample.handled "wamid.1" "wamid.2").filter (Handling.reaches "wamid.1"))).current =
      some { Sample.mappingOf "wamid.1" with id := 2, nodeId := "again" } ∧
      (Mailbox.of ((Sample.handled "wamid.1" "wamid.2").filter (Handling.reaches "wamid.1"))).claimed = true ∧
      (Mailbox.of ((Sample.handled "wamid.1" "wamid.2").filter (Handling.reaches "wamid.2"))).claimed = false := by
    decide +kernel
  refine ⟨⟨hs, rfl, rfl⟩, hfind.trans (by rw [hboxes.1]), (hclaim _ hfits.1).trans (by rw [hboxes.2.1]; rfl),
    (hother _ hfits.2).trans (by rw [hboxes.2.2]; rfl)⟩

/-- What was done to one message, another one has as well: its mapping is found for it, and the claim keeps it from being
claimed. -/
theorem not_by_message :
    let steps := [Handling.save (Sample.mappingOf "a/b"), .claim "a/b" "first"]
    let w' := Handling.run steps (.initial {} "" none)
    (∀ act ∈ steps, act.message ≠ "a_b") ∧
    (Engine.run (Store.Mappings.find? "a_b") w').1 = .ok (some { Sample.mappingOf "a/b" with id := 1 }) ∧
    (Engine.run (Store.Claims.claim "a_b" "second") w').1 = .ok false := by
  intro steps w'
  have hend : Mailbox.Kept "a_b" (Mailbox.of (steps.filter (Handling.reaches "a_b"))) w' :=
    (Mailbox.Kept.start (w := .initial {} "" none) (fun p hp => by cases hp) rfl rfl).run steps
  have hfits : (Store.Claims.place "a_b").Fits := by decide +kernel
  have hbox : (Mailbox.of (steps.filter (Handling.reaches "a_b"))).current = some { Sample.mappingOf "a/b" with id := 1 } ∧
      (Mailbox.of (steps.filter (Handling.reaches "a_b"))).claimed = true := by
    decide +kernel
  refine ⟨by decide +kernel, hend.find?_eq.trans (by rw [hbox.1]), (hend.claim_eq hfits _).trans (by rw [hbox.2]; rfl)⟩

end WorkGraph
