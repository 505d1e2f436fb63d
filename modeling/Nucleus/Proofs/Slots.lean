import Nucleus.Proofs.Accounts

/-!
# The slots of a descriptor table and the files they refer to

A change of one slot takes away the file that the slot referred to and adds the one that it refers to now. So opening and closing
keep what a registry accounts for in step with the table, and reading and writing, which only move cursors, change neither.
-/

namespace Nucleus

section Exchange

variable {α β : Type} {l : List α} {place : Nat} {a : α}

/-- A list whose element at some place is put there is as it was. -/
theorem set_of_getElem? (h : l[place]? = some a) : l.set place a = l := by
  obtain ⟨hlt, rfl⟩ := List.getElem?_eq_some_iff.mp h
  exact List.set_getElem_self hlt

/-- When an element is exchanged, so is what comes of it, and what comes of all others stays. -/
theorem flatMap_set (f : α → List β) (h : l[place]? = some a) :
    ∃ others : List β, (l.flatMap f).Perm (f a ++ others) ∧ ∀ b, ((l.set place b).flatMap f).Perm (f b ++ others) := by
  obtain ⟨hlt, -⟩ := List.getElem?_eq_some_iff.mp h
  let others := (l.take place).flatMap f ++ (l.drop (place + 1)).flatMap f
  have hset : ∀ b, ((l.set place b).flatMap f).Perm (f b ++ others) := by
    intro b
    rw [List.set_eq_take_append_cons_drop.trans (if_pos hlt), List.flatMap_append, List.flatMap_cons]
    exact List.perm_append_comm_assoc _ _ _
  refine ⟨others, ?_, hset⟩
  have hsame := hset a
  rwa [set_of_getElem? h] at hsame

/-- What comes second and what comes third change places. -/
theorem perm_regroup (first second third fourth : List α) :
    (first ++ (second ++ (third ++ fourth))).Perm (first ++ third ++ (second ++ fourth)) := by
  rw [List.append_assoc]
  exact (List.perm_append_comm_assoc second third fourth).append_left first

end Exchange

namespace Descriptors

/-- The files that a slot refers to, none or one. -/
def slotFiles (slot : Option Descriptor) : List OpenFile := (slot.bind Descriptor.file?).toList

variable {t t' : Descriptors} {fd : Fd}

/-- The files of a table are those of its slots. -/
theorem files_eq_flatMap (t : Descriptors) : t.files = t.slots.flatMap slotFiles := List.filterMap_eq_flatMap_toList _ _

/-- When a slot that exists is given something else, its file is exchanged and all others stay. -/
theorem files_put {old : Option Descriptor} (h : t.slots[fd.slot]? = some old) (new : Option Descriptor) :
    ∃ others : List OpenFile, t.files.Perm (slotFiles old ++ others) ∧ (t.put fd new).files.Perm (slotFiles new ++ others) := by
  obtain ⟨others, hold, hnew⟩ := flatMap_set slotFiles h
  rw [← files_eq_flatMap] at hold
  have hput : (t.put fd new).files.Perm (slotFiles new ++ others) := by
    rw [files_eq_flatMap]
    exact hnew new
  exact ⟨others, hold, hput⟩

/-- An allocated slot exists, with what it holds. -/
theorem slots_of_get? {d : Descriptor} (h : t.get? fd = some d) : t.slots[fd.slot]? = some (some d) :=
  Option.join_eq_some_iff.mp h

/-- The file of a descriptor is one of the table's. -/
theorem mem_files {d : Descriptor} {file : OpenFile} (h : t.get? fd = some d) (hf : d.file? = some file) : file ∈ t.files :=
  List.mem_filterMap.mpr ⟨some d, List.mem_of_getElem? (slots_of_get? h), hf⟩

/-- The number found is that of the first free slot for files, in a table that has no more slots than there are descriptor numbers. -/
theorem slot_of_findFree (h : t.findFree = some fd) (hsize : t.slots.length ≤ UInt32.size) :
    ∃ i, (t.slots.drop firstFileSlot).findIdx? Option.isNone = some i ∧ fd.slot = firstFileSlot + i := by
  unfold findFree at h
  obtain ⟨i, hi, rfl⟩ := Option.map_eq_some_iff.mp h
  obtain ⟨hlt, -⟩ := List.findIdx?_eq_some_iff_getElem.mp hi
  rw [List.length_drop] at hlt
  have hbound : i + firstFileSlot < UInt32.size := by omega
  exact ⟨i, hi, by rw [Fd.slot, UInt32.toNat_ofNat', Nat.mod_eq_of_lt hbound, Nat.add_comm]⟩

/-- So the slot exists and is free. -/
theorem slots_of_findFree (h : t.findFree = some fd) (hsize : t.slots.length ≤ UInt32.size) : t.slots[fd.slot]? = some none := by
  obtain ⟨i, hi, hslot⟩ := slot_of_findFree h hsize
  obtain ⟨hlt, hfree, -⟩ := List.findIdx?_eq_some_iff_getElem.mp hi
  rw [hslot, ← List.getElem?_drop, List.getElem?_eq_getElem hlt, Option.isNone_iff_eq_none.mp hfree]

/-- In a larger table too the number found is that of a slot, but it may be another one, which need not be free. -/
theorem exists_slot_of_findFree (h : t.findFree = some fd) : ∃ held, t.slots[fd.slot]? = some held := by
  unfold findFree at h
  obtain ⟨i, hi, rfl⟩ := Option.map_eq_some_iff.mp h
  obtain ⟨hlt, -, -⟩ := List.findIdx?_eq_some_iff_getElem.mp hi
  rw [List.length_drop] at hlt
  have hle : Fd.slot ⟨UInt32.ofNat (i + firstFileSlot)⟩ ≤ i + firstFileSlot := by
    rw [Fd.slot, UInt32.toNat_ofNat']
    exact Nat.mod_le _ _
  exact ⟨_, List.getElem?_eq_getElem (by omega)⟩

/-- Moving the cursor of an allocated slot on keeps the files. -/
theorem files_advance {d : Descriptor} (h : t.get? fd = some d) (count : Nat) : (t.advance fd d count).files.Perm t.files := by
  obtain ⟨others, hold, hnew⟩ := files_put (slots_of_get? h) (some { d with cursor := d.cursor + count })
  exact hnew.trans hold.symm

/-- The descriptor that is looked up is the one in the slot. -/
theorem get?_of_lookUp {d : Descriptor} (h : t.lookUp fd = .ok d) : t.get? fd = some d := by
  unfold lookUp at h
  split at h
  · rename_i d' hd
    cases h
    exact hd
  · cases h

section Medium

variable {μ κ : Type} [Medium μ] {w w' : World μ κ} {r r' : Registry} {others : List OpenFile}

/-- When a file is opened through a table it is one more that was taken from the registry, and it takes the place of what the slot
held. -/
theorem files_openFile {name : String} {mode : OpenMode} (ho : t.openFile r w name mode = (.ok (fd, t'), r', w')) :
    ∃ (file : OpenFile) (held : Option Descriptor) (w'' : World μ κ), r.acquire w name mode = (.ok file, r', w'') ∧
      t.findFree = some fd ∧ t.slots[fd.slot]? = some held ∧ t'.slots.length = t.slots.length ∧
      (file :: t.files).Perm (t'.files ++ slotFiles held) := by
  unfold openFile at ho
  split at ho
  · cases ho
  · rename_i fd' hfree
    split at ho
    · cases ho
    · rename_i file r'' w'' ha
      cases ho
      obtain ⟨held, hslot⟩ := exists_slot_of_findFree hfree
      obtain ⟨rest, hold, hnew⟩ := files_put hslot (some ⟨.file file, 0⟩)
      refine ⟨file, held, w'', ha, hfree, hslot, length_put .., ?_⟩
      have hfiles : (t.put fd (some ⟨.file file, 0⟩)).files.Perm (file :: rest) := hnew
      calc (file :: t.files).Perm (file :: (slotFiles held ++ rest)) := hold.cons file
        _ |>.Perm (file :: (rest ++ slotFiles held)) := List.perm_append_comm.cons file
        _ |>.Perm ((t.put fd (some ⟨.file file, 0⟩)).files ++ slotFiles held) := (hfiles.append_right _).symm

/-- However large the table is, a registry that accounts for its files, and others, does so after a file was opened through it. If
the slot was not free, the file it referred to is one of those that no descriptor refers to any more. -/
theorem accounts_openFile_of_large {name : String} {mode : OpenMode} (h : r.Accounts (t.files ++ others))
    (ho : t.openFile r w name mode = (.ok (fd, t'), r', w')) : ∃ lost, r'.Accounts (t'.files ++ (lost ++ others)) := by
  obtain ⟨file, held, w'', ha, -, -, -, hp⟩ := files_openFile ho
  have hr : r'.Accounts (file :: (t.files ++ others)) := h.acquire ha
  have hfiles : (file :: (t.files ++ others)).Perm (t'.files ++ slotFiles held ++ others) := hp.append_right others
  rw [List.append_assoc] at hfiles
  exact ⟨slotFiles held, hr.perm hfiles⟩

/-- A registry that accounts for the files of a table, and others, does so after a file was opened through the table. -/
theorem accounts_openFile {name : String} {mode : OpenMode} (h : r.Accounts (t.files ++ others))
    (ho : t.openFile r w name mode = (.ok (fd, t'), r', w')) (hsize : t.slots.length ≤ UInt32.size) :
    r'.Accounts (t'.files ++ others) ∧ t'.slots.length = t.slots.length := by
  obtain ⟨file, held, w'', ha, hfree, hslot, hlen, hp⟩ := files_openFile ho
  have hnone : held = none := Option.some.inj (hslot.symm.trans (slots_of_findFree hfree hsize))
  have hr : r'.Accounts (file :: (t.files ++ others)) := h.acquire ha
  have hfiles : (file :: t.files).Perm (t'.files ++ []) := by
    rw [hnone] at hp
    exact hp
  rw [List.append_nil] at hfiles
  exact ⟨hr.perm (hfiles.append_right others), hlen⟩

/-- A file that cannot be opened leaves the registry as it is. -/
theorem registry_of_openFile_error {name : String} {mode : OpenMode} {e : KernelError}
    (ho : t.openFile r w name mode = (.error e, r', w')) : r' = r := by
  unfold openFile at ho
  split at ho
  · cases ho
    rfl
  · split at ho
    · rename_i e' r'' w'' ha
      cases ho
      exact Registry.acquire_error ha
    · cases ho

/-- A registry that accounts for the files of a table, and others, does so after a descriptor was closed, and nothing is refused.
-/
theorem accounts_close (h : r.Accounts (t.files ++ others)) (hc : t.close r w fd = (.ok t', r', w')) :
    r'.Accounts (t'.files ++ others) ∧ t'.slots.length = t.slots.length ∧ w.Adds Effect.isPlain w' := by
  unfold close at hc
  split at hc
  · cases hc
  · rename_i d hd
    obtain ⟨rest, hold, hnew⟩ := files_put (slots_of_get? hd) none
    split at hc
    · rename_i hf
      cases hc
      have hnone : slotFiles (some d) = [] := by rw [slotFiles, Option.bind_some, hf]; rfl
      rw [hnone] at hold
      refine ⟨h.perm ((hold.trans hnew.symm).append_right others), length_put .., ?_⟩
      exact (World.Adds.refl w).note (.descriptorClosed fd.slot) rfl
    · rename_i file hf
      cases hc
      have hone : slotFiles (some d) = [file] := by rw [slotFiles, Option.bind_some, hf]; rfl
      rw [hone] at hold
      have hp : (t.files ++ others).Perm (file :: ((t.put fd none).files ++ others)) :=
        (hold.trans (hnew.symm.cons file)).append_right others
      obtain ⟨hr, ha⟩ := (h.perm hp).release w
      exact ⟨hr, length_put .., ha.note (.descriptorClosed fd.slot) rfl⟩

variable [Console κ]

/-- Bytes are fetched through an allocated slot. -/
theorem get?_of_fetch {count : Nat} {d : Descriptor} {bytes : List UInt8} (h : t.fetch w fd count = (.ok (d, bytes), w')) :
    t.get? fd = some d := by
  unfold fetch at h
  split at h
  · cases h
  · rename_i d' hd
    have hget : t.get? fd = some d' := get?_of_lookUp hd
    split at h
    · cases h
    · cases h
      exact hget
    · split at h
      · cases h
      · cases h
        exact hget

/-- A read moves the cursor of an allocated slot on by what was read. -/
theorem advance_of_readWith {α : Type} {count : Nat} {deliver : List UInt8 → Except KernelError α} {bytes : List UInt8} {a : α}
    (h : t.readWith w fd count deliver = (.ok (bytes, a, t'), w')) : ∃ d, t.get? fd = some d ∧ t' = t.advance fd d bytes.length := by
  unfold readWith at h
  split at h
  · cases h
  · rename_i d bytes' w'' hf
    split at h
    · cases h
    · cases h
      exact ⟨d, get?_of_fetch hf, rfl⟩

/-- A write moves the cursor of an allocated slot on by what was written. -/
theorem advance_of_write {data : List UInt8} {count : Nat} (h : t.write w fd data = (.ok (count, t'), w')) :
    ∃ d, t.get? fd = some d ∧ t' = t.advance fd d count := by
  unfold write at h
  split at h
  · cases h
  · rename_i d hd
    have hget : t.get? fd = some d := get?_of_lookUp hd
    split at h
    · cases h
    · cases h
      exact ⟨d, hget, rfl⟩
    · split at h
      · cases h
      · cases h
        exact ⟨d, hget, rfl⟩

/-- Reading keeps the files of a table. -/
theorem files_readWith {α : Type} {count : Nat} {deliver : List UInt8 → Except KernelError α} {bytes : List UInt8} {a : α}
    (h : t.readWith w fd count deliver = (.ok (bytes, a, t'), w')) :
    t'.files.Perm t.files ∧ t'.slots.length = t.slots.length := by
  obtain ⟨d, hd, rfl⟩ := advance_of_readWith h
  exact ⟨files_advance hd _, length_put ..⟩

/-- Writing keeps the files of a table. -/
theorem files_write {data : List UInt8} {count : Nat} (h : t.write w fd data = (.ok (count, t'), w')) :
    t'.files.Perm t.files ∧ t'.slots.length = t.slots.length := by
  obtain ⟨d, hd, rfl⟩ := advance_of_write h
  exact ⟨files_advance hd _, length_put ..⟩

end Medium

end Descriptors

end Nucleus
