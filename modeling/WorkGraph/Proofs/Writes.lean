import WorkGraph.Proofs.Identifier
import WorkGraph.Proofs.Quiet

/-!
# Reading and writing files

What a read of a file gives is a function of the storage, `Storage.read`, and a write changes what is read at its own
place only (`read_write_ne`). Whether a file can be written depends on its name alone (`obstacle?_eq_none`), and for two
records of one id that are named alike the answer is the same (`fits_ofRecord`). `Wrote place v w w'` says that one value
was written, and that nothing else of what lasts has changed.
-/

namespace WorkGraph

/-! ## Entries that go -/

namespace Entries

variable {α : Type} {m : Entries α} {key other : String}

theorem get?_erase_ne (h : other ≠ key) : (m.erase key).get? other = m.get? other := by
  induction m with
  | nil => rfl
  | cons e rest ih =>
    obtain ⟨k, v⟩ := e
    unfold erase at ih ⊢
    by_cases hk : k = key
    · simp [get?, hk, Ne.symm h, ih]
    · simp [get?, hk, ih]

theorem get?_erase_self : (m.erase key).get? key = none := by
  induction m with
  | nil => rfl
  | cons e rest ih =>
    obtain ⟨k, v⟩ := e
    unfold erase at ih ⊢
    by_cases hk : k = key <;> simp [get?, hk, ih]

/-- What is left was there. -/
theorem get?_of_erase {v : α} (h : (m.erase key).get? other = some v) : m.get? other = some v := by
  by_cases ho : other = key
  · rw [ho, get?_erase_self] at h
    cases h
  · rwa [get?_erase_ne ho] at h

end Entries

/-! ## Places that can be written -/

namespace Location

/-- Whether nothing keeps a file from being written at a place. -/
def Fits (place : Location) : Prop :=
  place.path.toList.contains (Char.ofNat 0) = false ∧ place.reachable = true ∧ place.name.utf8ByteSize ≤ nameLimit

instance (place : Location) : Decidable place.Fits :=
  inferInstanceAs (Decidable (_ ∧ _ ∧ _))

/-- The file name of an identifier has no null character. -/
theorem null_notMem_safeName (id : String) : Char.ofNat 0 ∉ (safeName id).toList := by
  intro h
  rw [safeName, String.toList_ofList, List.mem_map] at h
  obtain ⟨c, -, hc⟩ := h
  split at hc
  · next hs =>
    rw [hc] at hs
    exact absurd hs (by decide)
  · exact absurd hc (by decide)

/-- The file of a record can be written if its name is not too long. -/
theorem fits_ofRecord {folder : Folder} {id extension : String} (h : Char.ofNat 0 ∉ extension.toList) :
    (ofRecord folder id extension).Fits ↔ (safeName id ++ extension).utf8ByteSize ≤ nameLimit := by
  have hp : (ofRecord folder id extension).path.toList.contains (Char.ofNat 0) = false := by
    have hf : Char.ofNat 0 ∉ folder.name.toList := by cases folder <;> decide
    rw [path_ofRecord, ← Bool.not_eq_true, List.contains_iff_mem]
    simp [hf, h, null_notMem_safeName id]
  exact ⟨fun hF => hF.2.2, fun hl => ⟨hp, rfl, hl⟩⟩

/-- Records in one file are in one place. -/
theorem ofRecord_congr {folder : Folder} {a b extension : String}
    (h : (ofRecord folder a extension).path = (ofRecord folder b extension).path) :
    ofRecord folder a extension = ofRecord folder b extension := by
  unfold ofRecord
  rw [path_inj h]

end Location

/-! ## Storage -/

namespace Storage

variable {s t : Storage} {place other : Location} {v default : Value}

/-- What a read of a file gives. -/
def read (s : Storage) (place : Location) (default : Value) : Except Fault Value :=
  (s.find? place).elim (.ok default) (Document.readOr default)

theorem obstacle?_eq_none : s.obstacle? place = none ↔ place.Fits := by
  unfold obstacle? Location.Fits
  cases place.path.toList.contains (Char.ofNat 0) <;> cases place.reachable <;>
    by_cases hn : nameLimit < place.name.utf8ByteSize <;> simp [hn] <;> omega

theorem write_of_fits (h : place.Fits) :
    s.write place v = .ok { s with files := s.files.set place.path (.value v) } := by
  rw [write, obstacle?_eq_none.2 h]

theorem fits_of_write (h : s.write place v = .ok t) : place.Fits := by
  unfold write at h
  split at h
  · cases h
  · next hn => exact obstacle?_eq_none.1 hn

/-- Whether a read of one file is one of another goes by their paths. -/
theorem read_congr (h : place.path = other.path) (default : Value) : s.read place default = s.read other default := by
  unfold read find?
  rw [h]

/-- Taking a file away leaves the others as they are. -/
theorem read_remove_ne (hne : other.path ≠ place.path) : (s.remove place).read other default = s.read other default := by
  simp only [read, find?, remove, Entries.get?_erase_ne hne]

/-- What was written is read. -/
theorem read_write_self (h : s.write place v = .ok t) : t.read place default = .ok v := by
  rw [read, find?_write_self h]
  rfl

/-- A write leaves the other files as they are. -/
theorem read_write_ne (h : s.write place v = .ok t) (hne : other.path ≠ place.path) :
    t.read other default = s.read other default := by
  rw [read, read, find?_write_ne h hne]

end Storage

namespace Store

open Engine

@[simp] theorem run_readFile (place : Location) (default : Value) (w : World) :
    run (readFile place default) w = (w.storage.read place default, w) := by
  unfold readFile
  rw [run_get_bind, Storage.read]
  cases w.storage.find? place with
  | none => rfl
  | some document => exact run_ofExcept _ w

theorem run_readFile_bind {α : Type} {place : Location} {v default : Value} {next : Value → Engine α} {w : World}
    (h : w.storage.read place default = .ok v) : run (readFile place default >>= next) w = run (next v) w :=
  run_bind_ok (by rw [run_readFile, h])

theorem barred_readFile {α : Type} {place : Location} {default : Value} {next : Value → Engine α} {w : World}
    (h : ∀ v, w.storage.read place default = .ok v → Barred (next v) w) : Barred (readFile place default >>= next) w :=
  barred_bind (hushed_readFile _ _) fun v u hr _ => by
    rw [run_readFile, Prod.mk.injEq] at hr
    obtain ⟨hv, rfl⟩ := hr
    exact h v hv

/-- A file is written, or there is an obstacle. -/
theorem run_writeFile (place : Location) (v : Value) (w : World) :
    run (writeFile place v) w =
      match w.storage.write place v with
      | .ok storage => (.ok (), { w with storage })
      | .error fault => (.error fault, w) := by
  unfold writeFile
  rw [run_get_bind, run_bind, run_ofExcept]
  cases w.storage.write place v <;> rfl

end Store

/-! ## One write -/

/-- One value was written to a file, and nothing else has changed that lasts. -/
def Wrote (place : Location) (v : Value) (w w' : World) : Prop :=
  ∃ storage, w.storage.write place v = .ok storage ∧ Quiet { w with storage } w'

theorem Quiet.withStorage {w w' : World} (h : Quiet w w') (storage : Storage) :
    Quiet { w with storage } { w' with storage } :=
  { h with storage := rfl }

namespace Wrote

variable {u w w' : World} {place other : Location} {v default : Value}

theorem before (h : Quiet u w) (k : Wrote place v w w') : Wrote place v u w' := by
  obtain ⟨storage, hs, hq⟩ := k
  exact ⟨storage, h.storage ▸ hs, (h.withStorage storage).trans hq⟩

theorem after (h : Wrote place v u w) (k : Quiet w w') : Wrote place v u w' := by
  obtain ⟨storage, hs, hq⟩ := h
  exact ⟨storage, hs, hq.trans k⟩

theorem storage (h : Wrote place v w w') : w.storage.write place v = .ok w'.storage := by
  obtain ⟨_, hs, hq⟩ := h
  rw [hq.storage]
  exact hs

theorem config (h : Wrote place v w w') : w'.config = w.config := by
  obtain ⟨_, -, hq⟩ := h
  exact hq.config

theorem clock (h : Wrote place v w w') : w'.clock = w.clock := by
  obtain ⟨_, -, hq⟩ := h
  exact hq.clock

theorem issued (h : Wrote place v w w') : w'.issued = w.issued := by
  obtain ⟨_, -, hq⟩ := h
  exact hq.issued

theorem steady (h : Wrote place v w w') (hs : w.Steady) : w'.Steady := by
  obtain ⟨_, -, hq⟩ := h
  exact hq.steady hs

theorem service (h : Wrote place v w w') : w'.auditor.map Auditor.service = w.auditor.map Auditor.service := by
  obtain ⟨_, -, hq⟩ := h
  exact hq.auditor

theorem calls (h : Wrote place v w w') : w'.calls = w.calls := by
  obtain ⟨_, -, hq⟩ := h
  exact hq.calls

theorem accepted (h : Wrote place v w w') : w'.accepted = w.accepted := by
  obtain ⟨_, -, hq⟩ := h
  exact hq.accepted

theorem fits (h : Wrote place v w w') : place.Fits := by
  obtain ⟨_, hs, -⟩ := h
  exact Storage.fits_of_write hs

theorem find?_self (h : Wrote place v w w') : w'.storage.find? place = some (.value v) := by
  obtain ⟨_, hs, hq⟩ := h
  rw [hq.storage]
  exact Storage.find?_write_self hs

theorem find?_ne (h : Wrote place v w w') (hne : other.path ≠ place.path) :
    w'.storage.find? other = w.storage.find? other := by
  obtain ⟨_, hs, hq⟩ := h
  rw [hq.storage]
  exact Storage.find?_write_ne hs hne

theorem read_self (h : Wrote place v w w') : w'.storage.read place default = .ok v := by
  rw [Storage.read, h.find?_self]
  rfl

theorem read_ne (h : Wrote place v w w') (hne : other.path ≠ place.path) :
    w'.storage.read other default = w.storage.read other default := by
  rw [Storage.read, Storage.read, h.find?_ne hne]

end Wrote

/-! ## What comes of a write -/

/-- An operation starts, or an injected fault shows. -/
theorem Engine.entering_cases (operation : Operation) (w : World) :
    ∃ w', Quiet w w' ∧ (run (entering operation) w = (.ok (), w') ∨
      ¬w.Steady ∧ ∃ fault, run (entering operation) w = (.error fault, w')) := by
  refine ⟨_, hushed_entering operation w, ?_⟩
  by_cases hs : w.Steady
  · rw [run_entering_steady hs]
    exact .inl rfl
  · rw [run_entering]
    cases (trip operation w.failpoints).1 with
    | none => exact .inl rfl
    | some text => exact .inr ⟨hs, _, rfl⟩

/-- What comes of an operation that writes one value and then reports it: `heard` is what the report needs. -/
inductive Posted {α : Type} (place : Location) (v : Value) (a : α) (heard : Prop) (w : World) :
    Except Fault α × World → Prop
  | done {w' : World} : Wrote place v w w' → Posted place v a heard w (.ok a, w')
  | unheard {fault : Fault} {w' : World} : ¬heard → Wrote place v w w' → Posted place v a heard w (.error fault, w')
  | lost {fault : Fault} {w' : World} : ¬(w.Steady ∧ place.Fits) → Quiet w w' → Posted place v a heard w (.error fault, w')

namespace Posted

open Engine

variable {α β : Type} {place : Location} {v : Value} {a : α} {heard : Prop} {w : World}

/-- Whatever comes of it, what such a write keeps is kept, and what is quiet. -/
theorem keeps {p : Except Fault α × World} {I : World → Prop} (h : Posted place v a heard w p)
    (wrote : ∀ {w' : World}, Wrote place v w w' → I w') (quiet : ∀ {w' : World}, Quiet w w' → I w') : I p.2 := by
  cases h with
  | done hw => exact wrote hw
  | unheard _ hw => exact wrote hw
  | lost _ hq => exact quiet hq

/-- Writing to a file. -/
theorem writeFile (place : Location) (v : Value) (w : World) :
    Posted place v () True w (run (Store.writeFile place v) w) := by
  rw [Store.run_writeFile]
  cases hs : w.storage.write place v with
  | ok storage => exact .done ⟨storage, hs, .refl _⟩
  | error fault =>
    refine .lost (fun hf => ?_) (.refl w)
    rw [Storage.write_of_fits hf.2] at hs
    cases hs

/-- What is read before. -/
theorem before {p : Except Fault α × World} {u : World} (h : Quiet u w) (k : Posted place v a heard w p) :
    Posted place v a heard u p := by
  cases k with
  | done hw => exact .done (hw.before h)
  | unheard hh hw => exact .unheard hh (hw.before h)
  | lost hn hq => exact .lost (fun hf => hn ⟨h.steady hf.1, hf.2⟩) (h.trans hq)

/-- What is returned afterwards. -/
theorem returning {act : Engine α} (b : β) (h : Posted place v a heard w (run act w)) :
    Posted place v b heard w (run (act >>= fun _ => pure b) w) := by
  rw [run_bind]
  cases hr : run act w with
  | mk result w' =>
    rw [hr] at h
    cases h with
    | done hw => exact .done hw
    | unheard hh hw => exact .unheard hh hw
    | lost hn hq => exact .lost hn hq

/-- An operation of the store: the start, and the write unless an injected fault shows. -/
theorem entering (operation : Operation) {next : Unit → Engine α}
    (h : ∀ u, Quiet w u → Posted place v a heard u (run (next ()) u)) :
    Posted place v a heard w (run (Engine.entering operation >>= next) w) := by
  obtain ⟨u, hq, he⟩ := entering_cases operation w
  rw [run_bind]
  rcases he with he | ⟨hs, fault, he⟩
  · rw [he]
    exact (h u hq).before hq
  · rw [he]
    exact .lost (fun hf => hs hf.1) hq

/-- What is reported afterwards. -/
theorem reporting {act : Engine α} {next : α → Engine β} {b : β} (h : Posted place v a True w (run act w))
    (hq : Hushed (next a)) (hh : ∀ w', Wrote place v w w' → (run (next a) w').1 = .ok b ∨
      ¬heard ∧ ∃ fault, (run (next a) w').1 = .error fault) :
    Posted place v b heard w (run (act >>= next) w) := by
  rw [run_bind]
  cases hr : run act w with
  | mk result w' =>
    rw [hr] at h
    cases h with
    | done hw =>
      have hnext := hw.after (hq w')
      have hb := hh w' hw
      dsimp only
      cases hn : run (next a) w' with
      | mk result w'' =>
        rw [hn] at hnext hb
        rcases hb with rfl | ⟨hheard, fault, rfl⟩
        · exact .done hnext
        · exact .unheard hheard hnext
    | unheard hn _ => exact absurd trivial hn
    | lost hn hq => exact .lost hn hq

end Posted

end WorkGraph
