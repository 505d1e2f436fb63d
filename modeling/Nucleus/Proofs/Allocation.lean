import Nucleus.Proofs.Slots
import Nucleus.Device.RamDisk
import Mathlib.Data.Finset.Dedup
import Mathlib.Data.Finset.Erase
import Mathlib.Data.Finset.Insert
import Mathlib.Order.Bounds.Defs

/-!
# Descriptors are allocated like elements of a set

A descriptor table does with its slots what one would do with a set of numbers below a limit (`Allocates`): a file takes the least
number that is free, a close gives a number back, and everything else leaves the set as it is. How the registry, the medium and the
console answer does not matter for that, nor what others do with them in between.
-/

namespace Nucleus

/-- What is asked of a table. -/
inductive TableCall where
  /-- A file is opened. -/
  | openFile (name : String) (mode : OpenMode)
  /-- Bytes are read through a descriptor, and delivered somehow. -/
  | read (fd : Fd) (count : Nat) (deliver : List UInt8 → Except KernelError Unit)
  /-- Bytes are written through a descriptor. -/
  | write (fd : Fd) (data : List UInt8)
  /-- A descriptor is closed. -/
  | close (fd : Fd)
  /-- All descriptors are closed. -/
  | closeAll

/-- What a table answers. -/
inductive TableAnswer where
  /-- A file was opened, or not. -/
  | opened (result : Except KernelError Fd)
  /-- Bytes were read, or not. -/
  | read (result : Except KernelError (List UInt8))
  /-- So many bytes were written, or none. -/
  | written (result : Except KernelError Nat)
  /-- A descriptor was closed, or not. -/
  | closed (result : Except KernelError Unit)
  /-- So many files were given back. -/
  | closedAll (count : Nat)

/-- A number that a file may take. -/
def FreeSlot (limit : Nat) (taken : Finset Nat) (n : Nat) : Prop := firstFileSlot ≤ n ∧ n < limit ∧ n ∉ taken

/-- How a set of numbers below a limit goes on with a call and its answer. -/
inductive Allocates (limit : Nat) (taken : Finset Nat) : TableCall → TableAnswer → Finset Nat → Prop where
  /-- A file takes the least free number. -/
  | opened {name : String} {mode : OpenMode} {fd : Fd} (h : IsLeast {n | FreeSlot limit taken n} fd.slot) :
      Allocates limit taken (.openFile name mode) (.opened (.ok fd)) (insert fd.slot taken)
  /-- No number is free. -/
  | full {name : String} {mode : OpenMode} (h : ∀ n, ¬FreeSlot limit taken n) :
      Allocates limit taken (.openFile name mode) (.opened (.error .noFreeDescriptors)) taken
  /-- Some number is free, but the file cannot be opened. -/
  | failed {name : String} {mode : OpenMode} {e : KernelError} {n : Nat} (h : FreeSlot limit taken n)
      (he : e ≠ .noFreeDescriptors) : Allocates limit taken (.openFile name mode) (.opened (.error e)) taken
  /-- A read keeps the set. -/
  | read {fd : Fd} {count : Nat} {deliver : List UInt8 → Except KernelError Unit} (result : Except KernelError (List UInt8)) :
      Allocates limit taken (.read fd count deliver) (.read result) taken
  /-- So does a write. -/
  | written {fd : Fd} {data : List UInt8} (result : Except KernelError Nat) :
      Allocates limit taken (.write fd data) (.written result) taken
  /-- A number in the set is given back. -/
  | closed {fd : Fd} (h : fd.slot ∈ taken) : Allocates limit taken (.close fd) (.closed (.ok ())) (taken.erase fd.slot)
  /-- No other can be. -/
  | refused {fd : Fd} (h : fd.slot ∉ taken) : Allocates limit taken (.close fd) (.closed (.error .invalidDescriptor)) taken
  /-- All are given back. -/
  | closedAll (count : Nat) : Allocates limit taken .closeAll (.closedAll count) ∅

namespace Allocates

variable {limit : Nat} {taken taken' : Finset Nat} {answer : TableAnswer}

/-- Just when no number is free, a file cannot be opened for want of one. -/
theorem full_iff {name : String} {mode : OpenMode} (h : Allocates limit taken (.openFile name mode) answer taken') :
    answer = .opened (.error .noFreeDescriptors) ↔ ∀ n, ¬FreeSlot limit taken n := by
  cases h with
  | opened hleast => exact iff_of_false (fun he => nomatch he) fun hnone => hnone _ hleast.1
  | full hnone => exact iff_of_true rfl hnone
  | failed hfree he => exact iff_of_false (fun heq => he (by simpa using heq)) fun hnone => hnone _ hfree

/-- Just the numbers in the set can be given back. -/
theorem closed_iff {fd : Fd} (h : Allocates limit taken (.close fd) answer taken') :
    answer = .closed (.ok ()) ↔ fd.slot ∈ taken := by
  cases h with
  | closed hm => exact iff_of_true rfl hm
  | refused hm => exact iff_of_false (fun he => nomatch he) hm

end Allocates

/-- Opening a file never fails for want of a descriptor once a slot was found. -/
theorem Registry.acquire_ne_noFreeDescriptors {μ κ : Type} [Medium μ] {r r' : Registry} {w w' : World μ κ} {name : String}
    {mode : OpenMode} {e : KernelError} (h : r.acquire w name mode = (.error e, r', w')) : e ≠ .noFreeDescriptors := by
  have hstorage : ∀ cause : StorageError, KernelError.ofStorage cause ≠ .noFreeDescriptors := by
    intro cause
    cases cause <;> simp [KernelError.ofStorage]
  unfold acquire acquireNew acquireShared at h
  split at h
  · split at h
    · cases h
      exact hstorage _
    · cases h
  · split at h
    · cases h
      split <;> simp
    · split at h
      · split at h
        · cases h
          exact hstorage _
        · cases h
      · cases h

namespace Descriptors

variable {t t' : Descriptors} {fd : Fd} {limit : Nat}

/-! ## The set of allocated slots -/

/-- The slots that are allocated. -/
def taken (t : Descriptors) : Finset Nat := t.openSlots.toFinset

theorem mem_allocated {n : Nat} {d : Descriptor} : (n, d) ∈ t.allocated ↔ t.slots[n]? = some (some d) := by
  simp [allocated, List.mem_zipIdx_iff_getElem?]

theorem mem_taken {n : Nat} : n ∈ t.taken ↔ ∃ d, t.slots[n]? = some (some d) := by
  simp [taken, openSlots, mem_allocated]

/-- They are reported in order. -/
theorem pairwise_openSlots (t : Descriptors) : t.openSlots.Pairwise (· < ·) := by
  have hplaces : t.slots.zipIdx.Pairwise fun a b => a.2 < b.2 := by
    rw [← List.pairwise_map, List.zipIdx_map_snd]
    exact List.pairwise_lt_range'
  rw [openSlots, allocated, List.pairwise_map, List.pairwise_filterMap]
  refine hplaces.imp fun {a b} hlt found ha found' hb => ?_
  obtain ⟨d, -, rfl⟩ := Option.map_eq_some_iff.mp ha
  obtain ⟨d', -, rfl⟩ := Option.map_eq_some_iff.mp hb
  exact hlt

theorem mem_taken_iff_get? : fd.slot ∈ t.taken ↔ ∃ d, t.get? fd = some d := by
  simp only [mem_taken, get?, Option.join_eq_some_iff]

/-- A slot that is filled is one more. -/
theorem taken_put_some (h : fd.slot < t.slots.length) (d : Descriptor) : (t.put fd (some d)).taken = insert fd.slot t.taken := by
  ext n
  rw [Finset.mem_insert, mem_taken, mem_taken, put]
  by_cases hn : n = fd.slot
  · simp [hn, h]
  · simp [hn, List.getElem?_set_ne (Ne.symm hn)]

/-- A slot that is freed is one less. -/
theorem taken_put_none (t : Descriptors) (fd : Fd) : (t.put fd none).taken = t.taken.erase fd.slot := by
  ext n
  rw [Finset.mem_erase, mem_taken, mem_taken, put]
  by_cases hn : n = fd.slot
  · simp [hn, List.getElem?_set]
  · simp [hn, List.getElem?_set_ne (Ne.symm hn)]

/-- A cursor that moves on keeps the slots. -/
theorem taken_advance {d : Descriptor} (h : t.get? fd = some d) (count : Nat) : (t.advance fd d count).taken = t.taken := by
  rw [advance, taken_put_some (slot_lt_of_get? h)]
  exact Finset.insert_eq_of_mem (mem_taken_iff_get?.mpr ⟨d, h⟩)

/-- A slot is free just when it is one of those for files and holds nothing. -/
theorem freeSlot_iff {n : Nat} :
    FreeSlot t.slots.length t.taken n ↔ ∃ i, n = i + firstFileSlot ∧ (t.slots.drop firstFileSlot)[i]? = some none := by
  rw [FreeSlot, mem_taken]
  constructor
  · rintro ⟨hle, hlt, hn⟩
    refine ⟨n - firstFileSlot, by omega, ?_⟩
    rw [List.getElem?_drop, Nat.add_sub_cancel' hle, List.getElem?_eq_getElem hlt, Option.some.injEq]
    cases hd : t.slots[n] with
    | none => rfl
    | some d => exact absurd ⟨d, by rw [List.getElem?_eq_getElem hlt, hd]⟩ hn
  · rintro ⟨i, rfl, hi⟩
    rw [List.getElem?_drop, Nat.add_comm] at hi
    refine ⟨Nat.le_add_left _ _, (List.getElem?_eq_some_iff.mp hi).1, ?_⟩
    rintro ⟨d, hd⟩
    cases hi.symm.trans hd

/-- The free slot that is found is the least one, in a table that has no more slots than there are descriptor numbers. -/
theorem isLeast_of_findFree (h : t.findFree = some fd) (hsize : t.slots.length ≤ UInt32.size) :
    IsLeast {n | FreeSlot t.slots.length t.taken n} fd.slot := by
  obtain ⟨i, hi, hslot⟩ := slot_of_findFree h hsize
  obtain ⟨hlt, hfree, hleast⟩ := List.findIdx?_eq_some_iff_getElem.mp hi
  rw [hslot, Nat.add_comm]
  refine ⟨freeSlot_iff.mpr ⟨i, rfl, ?_⟩, fun n hn => ?_⟩
  · rw [List.getElem?_eq_getElem hlt, Option.isNone_iff_eq_none.mp hfree]
  · obtain ⟨j, rfl, hj⟩ := freeSlot_iff.mp hn
    obtain ⟨hj, hnone⟩ := List.getElem?_eq_some_iff.mp hj
    by_contra hlt'
    exact hleast j (by omega) (by rw [hnone]; rfl)

/-- If none is found there is none. -/
theorem not_freeSlot_of_findFree (h : t.findFree = none) (n : Nat) : ¬FreeSlot t.slots.length t.taken n := by
  rw [findFree, Option.map_eq_none_iff, List.findIdx?_eq_none_iff] at h
  rw [freeSlot_iff]
  rintro ⟨i, -, hi⟩
  cases h none (List.mem_of_getElem? hi)

/-! ## What a table keeps -/

/-- A table of so many slots, in which those of the console hold what they held at first, or nothing. -/
structure Shaped (limit : Nat) (t : Descriptors) : Prop where
  /-- So many slots there are. -/
  length : t.slots.length = limit
  /-- The first one reads from the console. -/
  input : ∀ d, t.slots[0]? = some (some d) → d.stream = .consoleIn
  /-- The second one writes to it. -/
  output : ∀ d, t.slots[1]? = some (some d) → d.stream = .consoleOut

/-- A new table is of this kind, and its slots of the console are allocated. -/
theorem shaped_create (capacity : Nat) : (create capacity).Shaped (max capacity firstFileSlot) where
  length := by
    simp [create, firstFileSlot]
    omega
  input d h := by
    cases h
    rfl
  output d h := by
    cases h
    rfl

/-- Empty slots are not among the allocated ones. -/
theorem filterMap_zipIdx_replicate_none {β : Type} {f : Option Descriptor × Nat → Option β} (hf : ∀ i, f (none, i) = none)
    (n start : Nat) : ((List.replicate n none).zipIdx start).filterMap f = [] := by
  rw [List.filterMap_eq_nil_iff]
  rintro ⟨slot, i⟩ hm
  obtain rfl : slot = none := List.eq_of_mem_replicate (List.fst_mem_of_mem_zipIdx hm)
  exact hf i

theorem openSlots_create (capacity : Nat) : (create capacity).openSlots = [0, 1] := by
  simp [openSlots, allocated, create, List.zipIdx_cons, filterMap_zipIdx_replicate_none]

/-- When something else is put into a slot of the console that leads where it led, or nothing, the table stays of this kind. So it
does when a slot for files is given something else. -/
theorem Shaped.put (h : t.Shaped limit) {slot : Option Descriptor}
    (hs : ∀ d, slot = some d → firstFileSlot ≤ fd.slot ∨ ∃ held, t.get? fd = some held ∧ d.stream = held.stream) :
    (t.put fd slot).Shaped limit := by
  have hslot : ∀ n < firstFileSlot, ∀ d, (t.put fd slot).slots[n]? = some (some d) →
      ∃ held, t.slots[n]? = some (some held) ∧ d.stream = held.stream := by
    intro n hn d hd
    rw [Descriptors.put] at hd
    by_cases he : fd.slot = n
    · rw [List.getElem?_set, if_pos he] at hd
      split at hd
      · cases hd
        rcases hs d rfl with hle | ⟨held, hheld, hsame⟩
        · omega
        · exact ⟨held, he ▸ slots_of_get? hheld, hsame⟩
      · cases hd
    · rw [List.getElem?_set_ne he] at hd
      exact ⟨d, hd, rfl⟩
  refine ⟨(length_put ..).trans h.length, fun d hd => ?_, fun d hd => ?_⟩
  · obtain ⟨held, hheld, hsame⟩ := hslot 0 (by decide) d hd
    exact hsame.trans (h.input held hheld)
  · obtain ⟨held, hheld, hsame⟩ := hslot 1 (by decide) d hd
    exact hsame.trans (h.output held hheld)

/-- A cursor that moves on leaves the table of this kind. -/
theorem Shaped.advance (h : t.Shaped limit) {d : Descriptor} (hd : t.get? fd = some d) (count : Nat) :
    (t.advance fd d count).Shaped limit :=
  h.put fun d' hd' => .inr ⟨d, hd, by cases hd'; rfl⟩

/-! ## Calls -/

section Calls

variable {μ κ : Type} [Medium μ] [Console κ]

/-- Serves a call, with the registry and the world as they are. -/
def serve (t : Descriptors) (r : Registry) (w : World μ κ) : TableCall → TableAnswer × Descriptors × Registry × World μ κ
  | .openFile name mode =>
    match t.openFile r w name mode with
    | (.error e, r, w) => (.opened (.error e), t, r, w)
    | (.ok (fd, t), r, w) => (.opened (.ok fd), t, r, w)
  | .read fd count deliver =>
    match t.readWith w fd count deliver with
    | (.error e, w) => (.read (.error e), t, r, w)
    | (.ok (bytes, (), t), w) => (.read (.ok bytes), t, r, w)
  | .write fd data =>
    match t.write w fd data with
    | (.error e, w) => (.written (.error e), t, r, w)
    | (.ok (count, t), w) => (.written (.ok count), t, r, w)
  | .close fd =>
    match t.close r w fd with
    | (.error e, r, w) => (.closed (.error e), t, r, w)
    | (.ok t, r, w) => (.closed (.ok ()), t, r, w)
  | .closeAll =>
    match t.closeAll r w with
    | (count, t, r, w) => (.closedAll count, t, r, w)

/-- The table after several calls, each with the registry and the world as they were then. -/
def serveAll (t : Descriptors) (calls : List (TableCall × Registry × World μ κ)) : Descriptors :=
  calls.foldl (fun t made => (t.serve made.2.1 made.2.2 made.1).2.1) t

variable {r : Registry} {w : World μ κ}

/-- What a call comes to when the table allocates its slots like elements of a set. -/
structure Allotted (limit : Nat) (t : Descriptors) (c : TableCall) (r : Registry) (w : World μ κ)
    (served : TableAnswer × Descriptors × Registry × World μ κ) : Prop where
  /-- The set goes on as it should. -/
  allocates : Allocates limit t.taken c served.1 served.2.1.taken
  /-- The table stays of its kind. -/
  shaped : served.2.1.Shaped limit
  /-- When there is no slot, neither the registry nor the medium is asked. -/
  untouched : served.1 = .opened (.error .noFreeDescriptors) → served.2.2 = (r, w)

theorem Shaped.openFile (h : t.Shaped limit) (hlimit : limit ≤ UInt32.size) (r : Registry) (w : World μ κ) (name : String)
    (mode : OpenMode) : Allotted limit t (.openFile name mode) r w (t.serve r w (.openFile name mode)) := by
  obtain rfl := h.length
  rw [serve, Descriptors.openFile]
  cases hfree : t.findFree with
  | none => exact ⟨.full (not_freeSlot_of_findFree hfree), h, fun _ => rfl⟩
  | some fd =>
    have hleast := isLeast_of_findFree hfree hlimit
    obtain ⟨hle, hlt, -⟩ := hleast.1
    rcases ha : r.acquire w name mode with ⟨e | file, r', w'⟩
    · have he := Registry.acquire_ne_noFreeDescriptors ha
      exact ⟨.failed hleast.1 he, h, fun hn => absurd (by simpa using hn) he⟩
    · refine ⟨?_, h.put fun _ _ => .inl hle, fun hn => (nomatch hn)⟩
      have hset := taken_put_some hlt ⟨.file file, 0⟩
      simp only [hset]
      exact .opened hleast

theorem Shaped.close (h : t.Shaped limit) (r : Registry) (w : World μ κ) (fd : Fd) :
    Allotted limit t (.close fd) r w (t.serve r w (.close fd)) := by
  have hclosed : ∀ {d : Descriptor}, t.get? fd = some d → ∀ (r' : Registry) (w' : World μ κ),
      Allotted limit t (.close fd) r w (.closed (.ok ()), t.put fd none, r', w') := by
    intro d hd r' w'
    refine ⟨?_, h.put fun d hn => (nomatch hn), fun hn => (nomatch hn)⟩
    simp only [taken_put_none]
    exact .closed (mem_taken_iff_get?.mpr ⟨d, hd⟩)
  rw [serve, Descriptors.close]
  cases hd : t.get? fd with
  | none =>
    refine ⟨.refused fun hm => ?_, h, fun hn => (nomatch hn)⟩
    obtain ⟨d, hsome⟩ := mem_taken_iff_get?.mp hm
    cases hd.symm.trans hsome
  | some d =>
    cases hf : d.file? with
    | none => simpa only [hf] using hclosed hd _ _
    | some file => simpa only [hf] using hclosed hd _ _

theorem Shaped.closeAll (h : t.Shaped limit) (r : Registry) (w : World μ κ) :
    Allotted limit t .closeAll r w (t.serve r w .closeAll) := by
  have hnone : ∀ {n : Nat} {d : Descriptor}, (t.slots.map fun _ => (none : Option Descriptor))[n]? ≠ some (some d) := by
    intro n d hd
    rw [List.getElem?_map] at hd
    obtain ⟨slot, -, hs⟩ := Option.map_eq_some_iff.mp hd
    cases hs
  refine ⟨?_, ⟨(List.length_map _).trans h.length, fun d hd => absurd hd hnone, fun d hd => absurd hd hnone⟩, fun hn => (nomatch hn)⟩
  have hempty : (⟨t.slots.map fun _ => none⟩ : Descriptors).taken = ∅ := by
    refine Finset.eq_empty_of_forall_notMem fun n hm => ?_
    obtain ⟨d, hd⟩ := mem_taken.mp hm
    exact hnone hd
  simp only [serve, Descriptors.closeAll, hempty]
  exact .closedAll _

theorem Shaped.read (h : t.Shaped limit) (r : Registry) (w : World μ κ) (fd : Fd) (count : Nat)
    (deliver : List UInt8 → Except KernelError Unit) :
    Allotted limit t (.read fd count deliver) r w (t.serve r w (.read fd count deliver)) := by
  rcases hr : t.readWith w fd count deliver with ⟨e | ⟨bytes, ⟨⟩, t'⟩, w'⟩
  · simp only [Descriptors.serve, hr]
    exact ⟨.read _, h, fun hn => (nomatch hn)⟩
  · simp only [Descriptors.serve, hr]
    obtain ⟨d, hd, rfl⟩ := advance_of_readWith hr
    refine ⟨?_, h.advance hd _, fun hn => (nomatch hn)⟩
    simp only [taken_advance hd]
    exact .read _

theorem Shaped.write (h : t.Shaped limit) (r : Registry) (w : World μ κ) (fd : Fd) (data : List UInt8) :
    Allotted limit t (.write fd data) r w (t.serve r w (.write fd data)) := by
  rcases hw : t.write w fd data with ⟨e | ⟨count, t'⟩, w'⟩
  · simp only [Descriptors.serve, hw]
    exact ⟨.written _, h, fun hn => (nomatch hn)⟩
  · simp only [Descriptors.serve, hw]
    obtain ⟨d, hd, rfl⟩ := advance_of_write hw
    refine ⟨?_, h.advance hd _, fun hn => (nomatch hn)⟩
    simp only [taken_advance hd]
    exact .written _

/-- A table allocates its slots like elements of a set in every call. -/
theorem Shaped.serve (h : t.Shaped limit) (hlimit : limit ≤ UInt32.size) (r : Registry) (w : World μ κ) (c : TableCall) :
    Allotted limit t c r w (t.serve r w c) := by
  cases c with
  | openFile name mode => exact h.openFile hlimit r w name mode
  | read fd count deliver => exact h.read r w fd count deliver
  | write fd data => exact h.write r w fd data
  | close fd => exact h.close r w fd
  | closeAll => exact h.closeAll r w

/-- A table stays of its kind in every run. -/
theorem Shaped.serveAll (h : t.Shaped limit) (hlimit : limit ≤ UInt32.size) (calls : List (TableCall × Registry × World μ κ)) :
    (t.serveAll calls).Shaped limit := by
  induction calls generalizing t with
  | nil => exact h
  | cons made rest ih => exact ih (h.serve hlimit made.2.1 made.2.2 made.1).shaped

/-- A descriptor table allocates its slots like elements of a set, for every capacity below the number of descriptor numbers and
after any calls, whatever the registry, the medium and the console do in each of them and in between. The slots of the console are
in the set at first. A file takes the least free number, and is refused for want of one just when none is free; nothing else is asked
then. Just the slots in the set can be closed, and a close of all empties it. There are always as many slots as at first, and those
of the console lead where they led, or nowhere. -/
theorem slots_allocated_as_set {capacity : Nat} (hcapacity : capacity < UInt32.size)
    (calls : List (TableCall × Registry × World μ κ)) (c : TableCall) (r : Registry) (w : World μ κ) :
    let limit := max capacity firstFileSlot
    let t := (create capacity).serveAll calls
    let served := t.serve r w c
    (create capacity).openSlots = [0, 1] ∧
    t.openSlots.Pairwise (· < ·) ∧
    Allocates limit t.openSlots.toFinset c served.1 served.2.1.openSlots.toFinset ∧
    (served.1 = .opened (.error .noFreeDescriptors) → served.2.2 = (r, w)) ∧
    t.slots.length = limit ∧
    (∀ d, t.get? ⟨0⟩ = some d → d.stream = .consoleIn) ∧
    (∀ d, t.get? ⟨1⟩ = some d → d.stream = .consoleOut) := by
  intro limit t served
  have hlimit : limit ≤ UInt32.size := Nat.max_le.mpr ⟨Nat.le_of_lt hcapacity, by decide⟩
  have hshaped : t.Shaped limit := (shaped_create capacity).serveAll hlimit calls
  have hserved : Allotted limit t c r w served := hshaped.serve hlimit r w c
  exact ⟨openSlots_create capacity, pairwise_openSlots t, hserved.allocates, hserved.untouched, hshaped.length,
    fun d hd => hshaped.input d (slots_of_get? hd), fun d hd => hshaped.output d (slots_of_get? hd)⟩

/-- A file is opened in a table of four slots, the output to the console is closed, another file is opened, which does not exist and
is made, and the first one is closed. -/
def juggling : List (TableCall × Registry × World RamDisk Silent) :=
  let w : World RamDisk Silent := { medium := RamDisk.empty none, console := Silent.mk }
  [.openFile "a" .fresh, .close ⟨1⟩, .openFile "b" .plain, .openFile "b" .create, .close ⟨2⟩].map fun c => (c, .empty, w)

/-- The least slot for files is free then, and the next file takes it. -/
theorem juggling_reuses :
    let w : World RamDisk Silent := { medium := RamDisk.empty none, console := Silent.mk }
    let t := (create 4).serveAll juggling
    let served := t.serve .empty w (.openFile "c" .fresh)
    t.openSlots = [0, 3] ∧ served.2.1.openSlots = [0, 2, 3] ∧
      Allocates 4 t.openSlots.toFinset (.openFile "c" .fresh) served.1 served.2.1.openSlots.toFinset := by
  intro w t served
  obtain ⟨-, -, hallocates, -⟩ :=
    slots_allocated_as_set (by decide : 4 < UInt32.size) juggling (.openFile "c" .fresh) .empty w
  exact ⟨by decide, by decide, hallocates⟩

end Calls

end Descriptors

end Nucleus
