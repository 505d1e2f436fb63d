import Nucleus.Proofs.Independence

/-!
# What is written in pieces is read in pieces

A file is made, bytes are written to it piece by piece through one descriptor, and they are read piece by piece through another one,
while nobody else touches the file. Whatever the pieces are, what was written and what is read are the same bytes, cut at the limit of the
medium (`SharedFiles.round_trip`). Writing keeps the cursor at the end of what is stored (`SharedFiles.AtEnd`), and reading keeps it at the
end of what was brought (`SharedFiles.Brought`).
-/

namespace Nucleus

/-! ## Calls through one descriptor -/

namespace FileCall

/-- The bytes that a call writes through a descriptor, if it does. -/
def chunk? (place : Nat) (fd : Fd) : FileCall → Option (List UInt8)
  | .write place' fd' data => if place' = place ∧ fd' = fd then some data else none
  | _ => none

/-- Whether a call reads through a descriptor. -/
def reads (place : Nat) (fd : Fd) : FileCall → Bool
  | .read place' fd' _ _ => place' = place ∧ fd' = fd
  | _ => false

/-- The pieces that several calls write through a descriptor. -/
def chunks (place : Nat) (fd : Fd) (calls : List FileCall) : List (List UInt8) := calls.filterMap (chunk? place fd)

variable {place : Nat} {fd : Fd} {c : FileCall}

theorem eq_write_of_chunk? {data : List UInt8} (h : c.chunk? place fd = some data) : c = .write place fd data := by
  unfold chunk? at h
  split at h
  · split at h
    · rename_i hsame
      cases h
      rw [hsame.1, hsame.2]
    · cases h
  · cases h

theorem eq_read_of_reads (h : c.reads place fd = true) : ∃ count delivered, c = .read place fd count delivered := by
  unfold reads at h
  split at h
  · obtain ⟨rfl, rfl⟩ := of_decide_eq_true h
    exact ⟨_, _, rfl⟩
  · cases h

end FileCall

namespace FileAnswer

/-- How many bytes were written. -/
def count : FileAnswer → Nat
  | .table (.written (.ok count)) => count
  | _ => 0

/-- The bytes that were read. -/
def bytes : FileAnswer → List UInt8
  | .table (.read (.ok bytes)) => bytes
  | _ => []

/-- The answer to a write tells how many bytes were put there. -/
theorem count_written {data : List UInt8} {limit length : Nat} :
    count (.table (.written (if data ≠ [] ∧ length = limit then .error (.storage .noSpace)
      else .ok (min data.length (limit - length))))) = min data.length (limit - length) := by
  split
  · rename_i hfull
    rw [hfull.2, Nat.sub_self, Nat.min_zero]
    rfl
  · rfl

end FileAnswer

/-- What is put behind bytes that were cut at a limit is cut with them. -/
theorem take_append_take (all data : List UInt8) (limit : Nat) :
    all.take limit ++ data.take (limit - (all.take limit).length) = (all ++ data).take limit := by
  have hroom : limit - (all.take limit).length = limit - all.length := by
    rw [List.length_take]
    omega
  rw [hroom, List.take_append]

namespace Cell

/-- A name that is opened to be made holds nothing then. -/
theorem bytes_acquire_fresh {c : Cell} (h : (c.acquire .fresh).1 = .ok ()) : (c.acquire .fresh).2.bytes = some [] := by
  obtain ⟨entry, bytes⟩ := c
  rcases entry with _ | ⟨refs, _ | _⟩
  · cases bytes <;> rfl
  · rfl
  · cases h

/-- One that is opened as it is holds what it held. -/
theorem bytes_acquire_plain (c : Cell) : (c.acquire .plain).2.bytes = c.bytes := by
  obtain ⟨entry, bytes⟩ := c
  rcases entry with _ | ⟨refs, _ | _⟩
  · cases bytes <;> rfl
  · rfl
  · rfl

end Cell

/-! ## The limit of the medium -/

namespace Descriptors

variable {κ : Type} (t : Descriptors) (r : Registry) (w : World RamDisk κ)

theorem limit_openFile (name : String) (mode : OpenMode) : (t.openFile r w name mode).2.2.medium.limit = w.medium.limit := by
  have hlimit := (Registry.edit_acquire r w name mode).limit_eq
  unfold openFile
  split
  · rfl
  · split <;> rename_i ha <;> rw [ha] at hlimit <;> exact hlimit

theorem limit_close (fd : Fd) : (t.close r w fd).2.2.medium.limit = w.medium.limit := by
  unfold close
  split
  · rfl
  · split
    · rfl
    · exact (Registry.edit_release r w _).limit_eq

theorem limit_releaseAll (files : List OpenFile) : (releaseAll r w files).2.medium.limit = w.medium.limit := by
  induction files generalizing r w with
  | nil => rfl
  | cons file rest ih => exact (ih _ _).trans (Registry.edit_release r w file).limit_eq

variable [Console κ]

/-- Reading leaves a medium in memory as it is. -/
theorem medium_fetch (fd : Fd) (count : Nat) : (t.fetch w fd count).2.medium = w.medium := by
  unfold fetch
  split
  · rfl
  · split <;> rfl

theorem medium_readWith {α : Type} (fd : Fd) (count : Nat) (deliver : List UInt8 → Except KernelError α) :
    (t.readWith w fd count deliver).2.medium = w.medium := by
  have hfetch := t.medium_fetch w fd count
  unfold readWith
  split <;> rename_i hf <;> rw [hf] at hfetch
  · exact hfetch
  · split <;> exact hfetch

theorem limit_write (fd : Fd) (data : List UInt8) : (t.write w fd data).2.medium.limit = w.medium.limit := by
  unfold write
  split
  · rfl
  · rename_i d _
    split
    · rfl
    · have hdisplay : (w.display data).2.medium = w.medium := by
        unfold World.display
        split <;> rfl
      exact congrArg RamDisk.limit hdisplay
    · rename_i file _
      have hlimit := (Registry.edit_of_use (.write .empty w file d.cursor data)).limit_eq
      split <;> rename_i hw <;> rw [hw] at hlimit <;> exact hlimit

/-- The limit of the medium stays in every call. -/
theorem limit_serve (c : TableCall) : (t.serve r w c).2.2.2.medium.limit = w.medium.limit := by
  cases c with
  | openFile name mode =>
    have hlimit := t.limit_openFile r w name mode
    rw [serve]
    split <;> rename_i h <;> rw [h] at hlimit <;> exact hlimit
  | read fd count deliver =>
    have hlimit := congrArg RamDisk.limit (t.medium_readWith w fd count deliver)
    rw [serve]
    split <;> rename_i h <;> rw [h] at hlimit <;> exact hlimit
  | write fd data =>
    have hlimit := t.limit_write w fd data
    rw [serve]
    split <;> rename_i h <;> rw [h] at hlimit <;> exact hlimit
  | close fd =>
    have hlimit := t.limit_close r w fd
    rw [serve]
    split <;> rename_i h <;> rw [h] at hlimit <;> exact hlimit
  | closeAll => exact limit_releaseAll r w t.files

end Descriptors

namespace SharedFiles

variable {κ : Type}

/-- What a descriptor of a table holds. -/
def get? (s : SharedFiles κ) (place : Nat) (fd : Fd) : Option Descriptor := s.tables[place]?.bind (·.get? fd)

/-- The bytes stored under a name. -/
def stored? (s : SharedFiles κ) (name : String) : Option (List UInt8) := s.world.medium.contents? name

/-- The most bytes a file may hold. -/
def limit (s : SharedFiles κ) : Nat := s.world.medium.limit

variable [Console κ]

/-- A call touches neither a descriptor nor a file. -/
structure LeavesAlone (s : SharedFiles κ) (place : Nat) (fd : Fd) (name : String) (c : FileCall) : Prop where
  /-- The descriptor leads where it led, and its cursor stands where it stood. -/
  descriptor : (s.step c).get? place fd = s.get? place fd
  /-- The same bytes are stored. -/
  stored : (s.step c).stored? name = s.stored? name

/-- In a run nobody touches a descriptor or a file but by calls of one's own. -/
def Undisturbed (own : FileCall → Bool) (place : Nat) (fd : Fd) (name : String) (s : SharedFiles κ) : List FileCall → Prop
  | [] => True
  | c :: rest => (own c = true ∨ s.LeavesAlone place fd name c) ∧ Undisturbed own place fd name (s.step c) rest

/-- How many bytes the writes through a descriptor are answered in a run. -/
def countWritten (place : Nat) (fd : Fd) (s : SharedFiles κ) : List FileCall → Nat
  | [] => 0
  | c :: rest => (if (c.chunk? place fd).isSome then (s.answer c).count else 0) + countWritten place fd (s.step c) rest

/-- The bytes that the reads through a descriptor bring in a run. -/
def brought (place : Nat) (fd : Fd) (s : SharedFiles κ) : List FileCall → List UInt8
  | [] => []
  | c :: rest => (if c.reads place fd then (s.answer c).bytes else []) ++ brought place fd (s.step c) rest

/-! ## One call -/

variable {s : SharedFiles κ} {place : Nat} {fd : Fd} {name : String} {file : OpenFile} {cursor : Nat} {call : FileCall}
  {bytes : List UInt8}

omit [Console κ] in
theorem table_of_get? {d : Descriptor} (h : s.get? place fd = some d) : ∃ t, s.tables[place]? = some t ∧ t.get? fd = some d :=
  Option.bind_eq_some_iff.mp h

/-- A call that a table serves is answered as the table answers it, and the table afterwards takes its place. -/
theorem step_of_serve {c : TableCall} {t : Descriptors} (hc : call.tableCall? = some (place, c)) (ht : s.tables[place]? = some t) :
    s.answer call = .table (t.serve s.registry s.world c).1 ∧
      (∀ fd, (s.step call).get? place fd = (t.serve s.registry s.world c).2.1.get? fd) ∧
      (s.step call).world = (t.serve s.registry s.world c).2.2.2 := by
  have hplace : place < s.tables.length := (List.getElem?_eq_some_iff.mp ht).1
  rw [step_of_tableCall? hc ht]
  refine ⟨?_, fun fd => ?_, rfl⟩
  · simp only [SharedFiles.answer, hc, ht]
  · simp only [get?, List.getElem?_set_self hplace, Option.bind_some]

/-- The limit of the medium stays in every call. -/
theorem limit_step (s : SharedFiles κ) (call : FileCall) : (s.step call).limit = s.limit := by
  cases hc : call.tableCall? with
  | some made =>
    obtain ⟨place, c⟩ := made
    cases ht : s.tables[place]? with
    | none => rw [step_of_no_table hc ht]
    | some t =>
      rw [limit, (step_of_serve hc ht).2.2]
      exact t.limit_serve s.registry s.world c
  | none =>
    cases call with
    | table capacity => rfl
    | mark name => exact (Registry.edit_of_use (.mark s.registry s.world name)).limit_eq
    | unlink name => exact (Registry.edit_of_use (.unlink s.registry s.world name)).limit_eq
    | _ => cases hc

omit [Console κ] in
/-- What is stored under the name of a descriptor's file is what its object holds. -/
theorem Sound.object_eq (h : s.Sound) {t : Descriptors} (ht : s.tables[place]? = some t) (hd : t.get? fd = some ⟨.file file, cursor⟩)
    (hb : s.stored? file.name = some bytes) : s.world.medium.object file.object = bytes := by
  have hstored : s.stored? file.name = some (s.world.medium.object file.object) :=
    Registry.contents?_of_names (h.names ht hd rfl)
  exact Option.some.inj (hstored.symm.trans hb)

/-- A write at the end of a file finds no space if there is none, and otherwise as many bytes are put behind the others as there is space
for. -/
theorem Sound.write_at_end (h : s.Sound) (hd : s.get? place fd = some ⟨.file file, bytes.length⟩)
    (hb : s.stored? file.name = some bytes) (hle : bytes.length ≤ s.limit) (data : List UInt8) :
    let room := s.limit - bytes.length
    let after := bytes ++ data.take room
    let s' := s.step (.write place fd data)
    s.answer (.write place fd data) =
        .table (.written (if data ≠ [] ∧ bytes.length = s.limit then .error (.storage .noSpace) else .ok (min data.length room))) ∧
      s'.get? place fd = some ⟨.file file, after.length⟩ ∧ s'.stored? file.name = some after := by
  intro room after s'
  obtain ⟨t, ht, hget⟩ := table_of_get? hd
  have hobject : s.world.medium.object file.object = bytes := h.object_eq ht hget hb
  obtain ⟨hanswer, hslots, hworld⟩ :=
    step_of_serve (rfl : (FileCall.write place fd data).tableCall? = some (place, .write fd data)) ht
  rw [Descriptors.serve] at hanswer hslots hworld
  by_cases hdata : data = []
  · subst hdata
    have hfill : s.world.medium.fill file.object bytes.length = s.world.medium := if_neg fun hgap => by
      have hlt : (s.world.medium.object file.object).length < bytes.length := hgap.1
      rw [hobject] at hlt
      exact Nat.lt_irrefl _ hlt
    have hafter : after = bytes := by simp [after]
    rw [Descriptors.write_nil hget, hfill] at hanswer hslots hworld
    rw [hafter, hanswer, if_neg fun hc => hc.1 rfl, List.length_nil, Nat.zero_min, stored?, hworld]
    exact ⟨rfl, (hslots fd).trans hget, hb⟩
  · by_cases hfull : bytes.length = s.limit
    · have hafter : after = bytes := by simp [after, room, hfull]
      rw [Descriptors.write_file_of_limit_le hget (Nat.le_of_eq hfull.symm) hdata] at hanswer hslots hworld
      rw [hafter, hanswer, if_pos ⟨hdata, hfull⟩, stored?, hworld]
      exact ⟨rfl, (hslots fd).trans hget, hb⟩
    · have hlt : bytes.length < s.world.medium.limit := Nat.lt_of_le_of_ne hle hfull
      obtain ⟨t', hwrite, hadvanced⟩ := Descriptors.write_file_of_lt_limit hget hlt data
      have htake : data.take (min data.length room) = data.take room := by rw [Nat.min_comm, ← List.take_eq_take_min]
      have hsplice : RamDisk.splice bytes bytes.length (data.take room) = after := by simp [RamDisk.splice, after]
      have hlength : after.length = bytes.length + min data.length room := by
        rw [List.length_append, List.length_take, Nat.min_comm]
      rw [hwrite] at hanswer hslots hworld
      refine ⟨?_, ?_, ?_⟩
      · rw [hanswer, if_neg fun hc => hfull hc.2]
        rfl
      · rw [hslots, hadvanced.slots, if_pos rfl, hget, hlength]
        rfl
      · rw [stored?, hworld, World.medium_note, hobject]
        change (s.world.medium.putObject file.object (RamDisk.splice bytes bytes.length (data.take (min data.length room)))).contents?
          file.name = _
        rw [htake, hsplice]
        exact RamDisk.contents?_putObject h.settled.whole (h.names ht hget rfl) after

/-- A read brings the bytes from the cursor on, if they can be delivered. -/
theorem Sound.read_from (h : s.Sound) (hd : s.get? place fd = some ⟨.file file, cursor⟩) (hb : s.stored? file.name = some bytes)
    (count : Nat) (delivered : Bool) :
    let got := (bytes.drop cursor).take count
    let s' := s.step (.read place fd count delivered)
    s.answer (.read place fd count delivered) = .table (.read (if delivered then .ok got else .error .invalidAddress)) ∧
      s'.get? place fd = some ⟨.file file, cursor + if delivered then got.length else 0⟩ ∧ s'.stored? file.name = some bytes := by
  intro got s'
  obtain ⟨t, ht, hget⟩ := table_of_get? hd
  have hobject : s.world.medium.object file.object = bytes := h.object_eq ht hget hb
  have hread : s.world.medium.readAt file.object cursor count = got := by rw [RamDisk.readAt, hobject]
  let deliver : List UInt8 → Except KernelError Unit := fun _ => if delivered then .ok () else .error .invalidAddress
  obtain ⟨hanswer, hslots, hworld⟩ :=
    step_of_serve (rfl : (FileCall.read place fd count delivered).tableCall? = some (place, .read fd count deliver)) ht
  rw [Descriptors.serve] at hanswer hslots hworld
  cases delivered with
  | false =>
    have hrefused : t.readWith s.world fd count deliver = (.error .invalidAddress, s.world) := by
      rw [Descriptors.readWith, Descriptors.fetch_file hget]
      rfl
    rw [hrefused] at hanswer hslots hworld
    rw [hanswer, stored?, hworld]
    exact ⟨rfl, (hslots fd).trans hget, hb⟩
  | true =>
    have hdeliver : deliver (s.world.medium.readAt file.object cursor count) = .ok () := rfl
    obtain ⟨t', hdone, hadvanced⟩ := Descriptors.readWith_file hget hdeliver
    rw [hdone] at hanswer hslots hworld
    rw [hread] at hanswer hadvanced
    refine ⟨hanswer, ?_, ?_⟩
    · rw [hslots, hadvanced.slots, if_pos rfl, hget]
      rfl
    · rw [stored?, hworld]
      exact hb

/-- A name that could be opened leads from the descriptor that was answered, and is kept as it should be. -/
theorem Sound.opened (h : s.Sound) {mode : OpenMode} (ho : s.answer (.openFile place name mode) = .table (.opened (.ok fd))) :
    (∃ file, file.name = name ∧ (s.step (.openFile place name mode)).get? place fd = some ⟨.file file, 0⟩) ∧
      ((s.cell name).acquire mode).1 = .ok () ∧
      (s.step (.openFile place name mode)).stored? name = ((s.cell name).acquire mode).2.bytes := by
  have hcall : (FileCall.openFile place name mode).tableCall? = some (place, .openFile name mode) := rfl
  cases ht : s.tables[place]? with
  | none =>
    simp only [SharedFiles.answer, hcall, ht] at ho
    cases ho
  | some t =>
    obtain ⟨hanswer, hslots, hworld⟩ := step_of_serve hcall ht
    obtain ⟨others, ha⟩ := h.accounts_table ht
    obtain ⟨hacquired, hconfined⟩ := Registry.confined_acquire h.settled name mode
    rw [ho] at hanswer
    rw [Descriptors.serve, Descriptors.openFile] at hanswer hslots hworld
    cases hfree : t.findFree with
    | none =>
      rw [hfree] at hanswer
      cases hanswer
    | some taken =>
      rcases hacquire : s.registry.acquire s.world name mode with ⟨e | file, r', w'⟩
      · simp only [hfree, hacquire] at hanswer
        cases hanswer
      · simp only [hfree, hacquire] at hanswer hslots hworld
        rw [hacquire] at hacquired hconfined
        cases hanswer
        obtain ⟨_, hslot⟩ := Descriptors.exists_slot_of_findFree hfree
        refine ⟨⟨file, ha.name_of_acquire hacquire, ?_⟩, hacquired.symm, ?_⟩
        · rw [hslots, Descriptors.get?_put _ _ _ _ (List.getElem?_eq_some_iff.mp hslot).1, if_pos rfl]
        · rw [stored?, hworld]
          exact congrArg Cell.bytes hconfined.here

/-! ## A run of writes -/

/-- A descriptor leads to a file of a name, under which some bytes are stored, and its cursor stands behind them. -/
structure AtEnd (s : SharedFiles κ) (place : Nat) (fd : Fd) (name : String) (bytes : List UInt8) : Prop where
  /-- The files are sound. -/
  sound : s.Sound
  /-- The descriptor. -/
  descriptor : ∃ file, file.name = name ∧ s.get? place fd = some ⟨.file file, bytes.length⟩
  /-- The bytes. -/
  stored : s.stored? name = some bytes

/-- A write through it puts as many bytes behind the others as there is space for. -/
theorem AtEnd.write (h : s.AtEnd place fd name bytes) (hle : bytes.length ≤ s.limit) (data : List UInt8) :
    (s.step (.write place fd data)).AtEnd place fd name (bytes ++ data.take (s.limit - bytes.length)) ∧
      s.answer (.write place fd data) = .table (.written (if data ≠ [] ∧ bytes.length = s.limit then .error (.storage .noSpace)
        else .ok (min data.length (s.limit - bytes.length)))) := by
  obtain ⟨file, rfl, hd⟩ := h.descriptor
  obtain ⟨hanswer, hafter, hstored⟩ := h.sound.write_at_end hd h.stored hle data
  exact ⟨⟨h.sound.step _, ⟨file, rfl, hafter⟩, hstored⟩, hanswer⟩

/-- A call that leaves the descriptor and the file alone keeps it there. -/
theorem AtEnd.other (h : s.AtEnd place fd name bytes) (hl : s.LeavesAlone place fd name call) :
    (s.step call).AtEnd place fd name bytes where
  sound := h.sound.step call
  descriptor := by
    obtain ⟨file, hname, hd⟩ := h.descriptor
    exact ⟨file, hname, hl.descriptor.trans hd⟩
  stored := hl.stored.trans h.stored

/-- In a run of writes all that was written is stored, cut at the limit, and the counts that are answered add up to as much. -/
theorem AtEnd.run {all : List UInt8} (h : s.AtEnd place fd name (all.take s.limit)) {calls : List FileCall}
    (hu : Undisturbed (fun c => (c.chunk? place fd).isSome) place fd name s calls) :
    (s.run calls).AtEnd place fd name ((all ++ (FileCall.chunks place fd calls).flatten).take s.limit) ∧
      (all.take s.limit).length + s.countWritten place fd calls =
        ((all ++ (FileCall.chunks place fd calls).flatten).take s.limit).length := by
  induction calls generalizing s all with
  | nil =>
    rw [FileCall.chunks, List.filterMap_nil, List.flatten_nil, List.append_nil]
    exact ⟨h, rfl⟩
  | cons c rest ih =>
    obtain ⟨hfirst, hrest⟩ := hu
    -- All that is said of the rest of the run is said of the limit after the first call, which is the same.
    have hlimit : (s.step c).limit = s.limit := s.limit_step c
    cases hc : c.chunk? place fd with
    | none =>
      have hother := h.other (hfirst.resolve_left (by simp [hc]))
      rw [← hlimit] at hother ⊢
      obtain ⟨hrun, hcount⟩ := ih hother hrest
      rw [FileCall.chunks, List.filterMap_cons_none hc, ← FileCall.chunks, countWritten, hc]
      exact ⟨hrun, by simpa using hcount⟩
    | some data =>
      obtain rfl := FileCall.eq_write_of_chunk? hc
      have hle : (all.take s.limit).length ≤ s.limit := List.length_take_le _ _
      obtain ⟨hwrite, hanswer⟩ := h.write hle data
      rw [take_append_take, ← hlimit] at hwrite
      obtain ⟨hrun, hcount⟩ := ih hwrite hrest
      rw [FileCall.chunks, List.filterMap_cons_some hc, ← FileCall.chunks, List.flatten_cons, ← List.append_assoc, ← hlimit]
      refine ⟨hrun, ?_⟩
      rw [← hcount, countWritten, hc, hanswer, FileAnswer.count_written, hlimit, ← take_append_take all data, List.length_append,
        List.length_take, Option.isSome_some, if_pos rfl, Nat.min_comm data.length, Nat.add_assoc, List.length_take]

/-! ## A run of reads -/

/-- A descriptor leads to a file of a name, under which some bytes are stored, and the first of them were brought, up to its cursor. -/
structure Brought (s : SharedFiles κ) (place : Nat) (fd : Fd) (name : String) (bytes got : List UInt8) : Prop where
  /-- The files are sound. -/
  sound : s.Sound
  /-- The descriptor. -/
  descriptor : ∃ file, file.name = name ∧ s.get? place fd = some ⟨.file file, got.length⟩
  /-- The bytes. -/
  stored : s.stored? name = some bytes
  /-- Those that were brought. -/
  first : got <+: bytes

variable {got : List UInt8}

/-- A read through it brings the bytes that come next, if they can be delivered. -/
theorem Brought.read (h : s.Brought place fd name bytes got) (count : Nat) (delivered : Bool) :
    let next := if delivered then (bytes.drop got.length).take count else []
    (s.answer (.read place fd count delivered)).bytes = next ∧
      (s.step (.read place fd count delivered)).Brought place fd name bytes (got ++ next) := by
  intro next
  obtain ⟨file, rfl, hd⟩ := h.descriptor
  obtain ⟨hanswer, hafter, hstored⟩ := h.sound.read_from hd h.stored count delivered
  have hlength : (got ++ next).length = got.length + if delivered then ((bytes.drop got.length).take count).length else 0 := by
    rw [List.length_append]
    cases delivered <;> rfl
  have hfirst : got ++ next <+: bytes := by
    cases delivered with
    | false => simpa [next] using h.first
    | true =>
      obtain ⟨rest, rfl⟩ := h.first
      simp only [next, if_true, List.drop_left]
      exact (List.prefix_append_right_inj got).mpr (List.take_prefix count rest)
  rw [hanswer]
  refine ⟨?_, h.sound.step _, ⟨file, rfl, by rw [hlength]; exact hafter⟩, hstored, hfirst⟩
  cases delivered <;> rfl

/-- A call that leaves the descriptor and the file alone brings nothing. -/
theorem Brought.other (h : s.Brought place fd name bytes got) (hl : s.LeavesAlone place fd name call) :
    (s.step call).Brought place fd name bytes got where
  sound := h.sound.step call
  descriptor := by
    obtain ⟨file, hname, hd⟩ := h.descriptor
    exact ⟨file, hname, hl.descriptor.trans hd⟩
  stored := hl.stored.trans h.stored
  first := h.first

/-- In a run of reads the bytes come one after another. -/
theorem Brought.run (h : s.Brought place fd name bytes got) {calls : List FileCall}
    (hu : Undisturbed (FileCall.reads place fd) place fd name s calls) :
    (s.run calls).Brought place fd name bytes (got ++ s.brought place fd calls) := by
  induction calls generalizing s got with
  | nil =>
    rw [brought, List.append_nil]
    exact h
  | cons c rest ih =>
    obtain ⟨hfirst, hrest⟩ := hu
    rw [brought, ← List.append_assoc]
    cases hc : c.reads place fd with
    | false =>
      have hother := h.other (hfirst.resolve_left (by simp [hc]))
      rw [if_neg (by simp), List.append_nil]
      exact ih hother hrest
    | true =>
      obtain ⟨count, delivered, rfl⟩ := FileCall.eq_read_of_reads hc
      obtain ⟨hnext, hread⟩ := h.read count delivered
      rw [if_pos rfl, hnext]
      exact ih hread hrest

/-- When a read of at least one byte brings none, all bytes were brought. -/
theorem Brought.eq_of_end (h : s.Brought place fd name bytes got) {count : Nat} (hpos : 0 < count)
    (hend : s.answer (.read place fd count true) = .table (.read (.ok []))) : got = bytes := by
  have hnone : (bytes.drop got.length).take count = [] := by
    obtain ⟨hnext, -⟩ := h.read count true
    rw [hend] at hnext
    exact hnext.symm
  obtain ⟨rest, rfl⟩ := h.first
  rw [List.drop_left] at hnone
  rcases List.take_eq_nil_iff.mp hnone with hzero | hrest
  · omega
  · rw [hrest, List.append_nil]

/-! ## The round trip -/

theorem limit_run (s : SharedFiles κ) (calls : List FileCall) : (s.run calls).limit = s.limit := by
  induction calls generalizing s with
  | nil => rfl
  | cons c rest ih => exact (ih (s.step c)).trans (s.limit_step c)

theorem brought_append (s : SharedFiles κ) (first rest : List FileCall) :
    s.brought place fd (first ++ rest) = s.brought place fd first ++ (s.run first).brought place fd rest := by
  induction first generalizing s with
  | nil => rfl
  | cons c first ih =>
    rw [List.cons_append, brought, brought, ih, List.append_assoc]
    rfl

/-- A run that is not disturbed is not disturbed at its beginning. -/
theorem Undisturbed.of_append {own : FileCall → Bool} {first rest : List FileCall}
    (h : Undisturbed own place fd name s (first ++ rest)) : Undisturbed own place fd name s first := by
  induction first generalizing s with
  | nil => trivial
  | cons c first ih => exact ⟨h.1, ih h.2⟩

/-- What becomes of pieces that are written to an empty file through a descriptor, on a medium with a limit. -/
structure StoresChunks (s : SharedFiles κ) (place : Nat) (fd : Fd) (name : String) (limit : Nat) (calls : List FileCall) : Prop where
  /-- At every point what was written is stored, one piece after another, cut at the limit. -/
  stored : ∀ earlier, earlier <+: calls →
    (s.run earlier).stored? name = some ((FileCall.chunks place fd earlier).flatten.take limit)
  /-- There are never more bytes than the limit allows. -/
  fits : ∀ earlier bytes, earlier <+: calls → (s.run earlier).stored? name = some bytes → bytes.length ≤ limit
  /-- A write finds no space just when it is to write something and there are as many bytes as the limit allows. Otherwise it is
  answered as many as there is space for. -/
  answers : ∀ earlier data bytes, earlier ++ [.write place fd data] <+: calls → (s.run earlier).stored? name = some bytes →
    (s.run earlier).answer (.write place fd data) = .table (.written (if data ≠ [] ∧ bytes.length = limit then
      .error (.storage .noSpace) else .ok (min data.length (limit - bytes.length))))
  /-- The answered counts add up to the number of bytes that are stored. -/
  counts : s.countWritten place fd calls = ((FileCall.chunks place fd calls).flatten.take limit).length

/-- Pieces that are written through a descriptor that stands at the beginning of an empty file become what they should. -/
theorem AtEnd.storesChunks (h : s.AtEnd place fd name []) {calls : List FileCall}
    (hu : Undisturbed (fun c => (c.chunk? place fd).isSome) place fd name s calls) :
    s.StoresChunks place fd name s.limit calls := by
  have hempty : s.AtEnd place fd name (([] : List UInt8).take s.limit) := by rwa [List.take_nil]
  have hrun : ∀ earlier, earlier <+: calls →
      (s.run earlier).AtEnd place fd name ((FileCall.chunks place fd earlier).flatten.take s.limit) := by
    rintro earlier ⟨later, rfl⟩
    exact (hempty.run hu.of_append).1
  refine ⟨fun earlier he => (hrun earlier he).stored, fun earlier bytes he hb => ?_, fun earlier data bytes he hb => ?_, ?_⟩
  · cases (hrun earlier he).stored.symm.trans hb
    exact List.length_take_le _ _
  · have hend := hrun earlier ((List.prefix_append earlier _).trans he)
    cases hend.stored.symm.trans hb
    have hle : ((FileCall.chunks place fd earlier).flatten.take s.limit).length ≤ (s.run earlier).limit := by
      rw [limit_run]
      exact List.length_take_le _ _
    obtain ⟨-, hanswer⟩ := hend.write hle data
    rwa [limit_run] at hanswer
  · obtain ⟨-, hcount⟩ := hempty.run hu
    simpa using hcount

/-- What is written in pieces is read in pieces. Descriptor tables share one registry over a medium in memory on which no two names lead
to one object at first. After any calls a name is opened to be made, and pieces are written through the descriptor that is answered,
while nobody else touches the descriptor or the file. Later, when the same bytes are still stored, the name is opened as it is, and
pieces are read through the new descriptor until a read of at least one byte brings none. Then the bytes that were read are those that
were written, cut at the limit of the medium, whichever way both are split. Up to the limit all pieces are stored, and a write finds no
space just when it is reached. Without a capacity nothing is cut. -/
theorem round_trip {world : World RamDisk κ} (hw : world.medium.Whole) (hs : world.medium.Separate) (before : List FileCall)
    {place place' : Nat} {fd fd' : Fd} {name : String} {writing meanwhile reading : List FileCall} {count : Nat} :
    let s := (start world).run before
    let made := s.step (.openFile place name .fresh)
    let written := made.run writing
    let later := written.run meanwhile
    let opened := later.step (.openFile place' name .plain)
    let all := (FileCall.chunks place fd writing).flatten
    s.answer (.openFile place name .fresh) = .table (.opened (.ok fd)) →
    Undisturbed (fun c => (c.chunk? place fd).isSome) place fd name made writing →
    later.stored? name = written.stored? name →
    later.answer (.openFile place' name .plain) = .table (.opened (.ok fd')) →
    Undisturbed (FileCall.reads place' fd') place' fd' name opened (reading ++ [.read place' fd' count true]) →
    0 < count →
    (opened.run reading).answer (.read place' fd' count true) = .table (.read (.ok [])) →
      made.StoresChunks place fd name world.medium.limit writing ∧
      opened.brought place' fd' (reading ++ [.read place' fd' count true]) = all.take world.medium.limit ∧
      (world.medium.capacity = none → all.length < UInt64.size → all.take world.medium.limit = all) := by
  intro s made written later opened all hmade hwriting hsame hopened hreading hpos hend
  have hsound : s.Sound := (sound_start hw hs).run before
  have hlimit : made.limit = world.medium.limit := (s.limit_step _).trans (limit_run (start world) before)
  obtain ⟨hdescriptor, hok, hempty⟩ := hsound.opened hmade
  -- Whatever the name held before, it is empty now, and the cursor stands at its end.
  have hstart : made.AtEnd place fd name [] := ⟨hsound.step _, hdescriptor, hempty.trans (Cell.bytes_acquire_fresh hok)⟩
  have hstores := hstart.storesChunks hwriting
  rw [hlimit] at hstores
  refine ⟨hstores, ?_, fun hcapacity hall => ?_⟩
  · have hstored : later.stored? name = some (all.take world.medium.limit) := hsame.trans (hstores.stored writing List.prefix_rfl)
    have hlater : later.Sound := (hstart.sound.run writing).run meanwhile
    obtain ⟨hdescriptor', -, hkept⟩ := hlater.opened hopened
    have hbegin : opened.Brought place' fd' name (all.take world.medium.limit) [] :=
      ⟨hlater.step _, hdescriptor', (hkept.trans (Cell.bytes_acquire_plain _)).trans hstored, List.nil_prefix⟩
    have hdone := (hbegin.run hreading.of_append).eq_of_end hpos hend
    rw [brought_append, brought, brought, hend]
    simpa [FileAnswer.bytes] using hdone
  · refine List.take_of_length_le ?_
    rw [RamDisk.limit, hcapacity, Option.getD_none]
    omega

deriving instance DecidableEq for TableAnswer, FileAnswer

instance (s : SharedFiles κ) (place : Nat) (fd : Fd) (name : String) (c : FileCall) : Decidable (s.LeavesAlone place fd name c) :=
  decidable_of_iff ((s.step c).get? place fd = s.get? place fd ∧ (s.step c).stored? name = s.stored? name)
    ⟨fun h => ⟨h.1, h.2⟩, fun h => ⟨h.descriptor, h.stored⟩⟩

/-- Whether a run is disturbed can be seen call by call. -/
instance decidableUndisturbed (own : FileCall → Bool) (place : Nat) (fd : Fd) (name : String) (s : SharedFiles κ) :
    (calls : List FileCall) → Decidable (Undisturbed own place fd name s calls)
  | [] => inferInstanceAs (Decidable True)
  | c :: rest =>
    have := decidableUndisturbed own place fd name (s.step c) rest
    inferInstanceAs (Decidable ((own c = true ∨ s.LeavesAlone place fd name c) ∧ _))

/-- Another table has the file open, with older bytes in it. -/
def heldElsewhere : List FileCall := [.table 4, .table 6, .openFile 1 "a" .fresh, .write 1 ⟨2⟩ [9, 9]]

/-- Pieces that cross the limit of four bytes, and empty ones. The other table works on another file meanwhile. -/
def pieces : List FileCall :=
  [.write 0 ⟨2⟩ [1], .write 0 ⟨2⟩ [], .openFile 1 "b" .fresh, .write 0 ⟨2⟩ [2, 3], .write 1 ⟨3⟩ [7, 7, 7], .write 0 ⟨2⟩ [4, 5, 6],
    .write 0 ⟨2⟩ [], .write 0 ⟨2⟩ [8]]

/-- Pieces of other sizes, of which one cannot be delivered. -/
def helpings : List FileCall := [.read 1 ⟨4⟩ 3 true, .read 1 ⟨4⟩ 0 true, .unlink "b", .read 1 ⟨4⟩ 2 false, .read 1 ⟨4⟩ 2 true]

/-- The first four bytes are stored, the last piece finds no space, and the four bytes are read. -/
theorem round_trip_pieces :
    let world : World RamDisk Silent := { medium := RamDisk.empty (some 4), console := Silent.mk }
    let s := (start world).run heldElsewhere
    let made := s.step (.openFile 0 "a" .fresh)
    let written := made.run pieces
    let later := written.run [.close 0 ⟨2⟩]
    let opened := later.step (.openFile 1 "a" .plain)
    s.answer (.openFile 0 "a" .fresh) = .table (.opened (.ok ⟨2⟩)) ∧
      Undisturbed (fun c => (c.chunk? 0 ⟨2⟩).isSome) 0 ⟨2⟩ "a" made pieces ∧
      later.stored? "a" = written.stored? "a" ∧ later.answer (.openFile 1 "a" .plain) = .table (.opened (.ok ⟨4⟩)) ∧
      Undisturbed (FileCall.reads 1 ⟨4⟩) 1 ⟨4⟩ "a" opened (helpings ++ [.read 1 ⟨4⟩ 1 true]) ∧
      (opened.run helpings).answer (.read 1 ⟨4⟩ 1 true) = .table (.read (.ok [])) ∧
      made.StoresChunks 0 ⟨2⟩ "a" 4 pieces ∧ made.countWritten 0 ⟨2⟩ pieces = 4 ∧
      (made.run (pieces.take 7)).answer (.write 0 ⟨2⟩ [8]) = .table (.written (.error (.storage .noSpace))) ∧
      opened.brought 1 ⟨4⟩ (helpings ++ [.read 1 ⟨4⟩ 1 true]) = [1, 2, 3, 4] := by
  intro world s made written later opened
  have hmade : s.answer (.openFile 0 "a" .fresh) = .table (.opened (.ok ⟨2⟩)) := by decide +kernel
  have hwriting : Undisturbed (fun c => (c.chunk? 0 ⟨2⟩).isSome) 0 ⟨2⟩ "a" made pieces := by decide +kernel
  have hsame : later.stored? "a" = written.stored? "a" := by decide +kernel
  have hopened : later.answer (.openFile 1 "a" .plain) = .table (.opened (.ok ⟨4⟩)) := by decide +kernel
  have hreading : Undisturbed (FileCall.reads 1 ⟨4⟩) 1 ⟨4⟩ "a" opened (helpings ++ [.read 1 ⟨4⟩ 1 true]) := by decide +kernel
  have hend : (opened.run helpings).answer (.read 1 ⟨4⟩ 1 true) = .table (.read (.ok [])) := by decide +kernel
  obtain ⟨hstores, hbrought, -⟩ := round_trip (RamDisk.whole_empty (some 4)) (RamDisk.separate_empty (some 4)) heldElsewhere hmade
    hwriting hsame hopened hreading (by decide) hend
  exact ⟨hmade, hwriting, hsame, hopened, hreading, hend, hstores, hstores.counts, by decide +kernel, hbrought⟩

end SharedFiles

end Nucleus
