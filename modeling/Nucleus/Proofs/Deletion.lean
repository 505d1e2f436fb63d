import Nucleus.Device.Faulty
import Nucleus.Proofs.Failures
import Nucleus.Proofs.FileBytes

/-!
# Deletion at the last release

One registry is used over a medium in memory, by nobody else, and the medium may fail to take a name off. Names are opened, handles
are given back, each one once, files are marked and unlinked, and bytes are written through handles, in any order. What is registered
is what is stored: a handle reads and writes the bytes under its name. A file that was deleted while it is open keeps its name until
its last handle is given back, can be neither opened nor unlinked by that name meanwhile, and is taken off the medium then
(`Session.deletion_deferred`).
-/

namespace Nucleus

/-! ## A medium that may fail to take a name off -/

/-- No fault is scheduled but for taking names off. -/
def Schedule.OnlyRemovals (s : Schedule) : Prop := s = { remove := s.remove }

/-- Then every other request goes through. -/
theorem Schedule.OnlyRemovals.take {s : Schedule} (h : s.OnlyRemovals) {request : Request} (hr : request ≠ .remove) :
    s.take request = (none, s) := by
  rw [OnlyRemovals] at h
  rw [h]
  cases request with
  | remove => exact absurd rfl hr
  | _ => rfl

/-- A name that was taken off has no contents, and every other has those it had. -/
theorem RamDisk.contents?_remove (d : RamDisk) (name other : String) :
    (d.remove name).2.contents? other = if name = other then none else d.contents? other := by
  have hobject : (d.remove name).2.object = d.object := by
    unfold remove
    split <;> rfl
  rw [contents?, names_remove, hobject]
  split <;> rfl

namespace Faulty

/-- After a name was taken off, or could not be, no other fault is scheduled than before. -/
theorem onlyRemovals_remove {f : Faulty RamDisk} (h : f.schedule.OnlyRemovals) (name : String) :
    (Medium.remove f name).2.schedule.OnlyRemovals := by
  obtain ⟨device, schedule⟩ := f
  rw [Schedule.OnlyRemovals] at h
  dsimp only at h
  rw [h]
  cases schedule.remove with
  | nil => rfl
  | cons fault rest => cases fault <;> rfl

/-- A name that is taken off the medium is taken off what is underneath. -/
theorem device_remove_ok {f : Faulty RamDisk} {name : String} (h : (Medium.remove f name).1 = .ok ()) :
    (Medium.remove f name).2.device = (f.device.remove name).2 := by
  change (f.ask .remove _).1 = _ at h
  change (f.ask .remove _).2.device = _
  unfold ask at h ⊢
  split at h
  · cases h
  · rfl

/-- A name that cannot be taken off stays. -/
theorem device_remove_error {f : Faulty RamDisk} {name : String} {e : StorageError} (h : (Medium.remove f name).1 = .error e) :
    (Medium.remove f name).2.device = f.device :=
  (honest RamDisk.honest).remove (Prod.ext h rfl)

/-- After an attempt to take a name off it has no contents, unless the medium fails to. -/
theorem contents?_remove_self (f : Faulty RamDisk) (name : String) :
    (Medium.remove f name).2.device.contents? name =
      if (Medium.remove f name).1 = .ok () then none else f.device.contents? name := by
  cases hr : (Medium.remove f name).1 with
  | error e => rw [device_remove_error hr, if_neg (by simp)]
  | ok _ => rw [device_remove_ok hr, RamDisk.contents?_remove, if_pos rfl, if_pos rfl]

/-- Other names have the contents they had in any case. -/
theorem contents?_remove_of_ne (f : Faulty RamDisk) {name other : String} (hne : name ≠ other) :
    (Medium.remove f name).2.device.contents? other = f.device.contents? other := by
  cases hr : (Medium.remove f name).1 with
  | error e => rw [device_remove_error hr]
  | ok _ =>
    rw [device_remove_ok hr, RamDisk.contents?_remove, if_neg hne]

end Faulty

namespace RamDisk

variable {d : RamDisk} {name other : String}

/-- A name that is not stored has no contents, and no other one lacks them. -/
theorem contents?_eq_none_iff : d.contents? name = none ↔ d.names[name]? = none := Option.map_eq_none_iff

/-- Making a name changes what is stored under no other. -/
theorem contents?_create_of_ne (hw : d.Whole) (hs : d.Separate) (hne : name ≠ other) :
    (d.create name).2.contents? other = d.contents? other := by
  cases h : d.names[name]? with
  | some id =>
    rw [create_of_some h, hs.contents?_putObject hw h, if_neg hne]
  | none =>
    have hn := names_create d name other
    rw [if_neg hne] at hn
    rw [contents?, contents?, hn]
    cases ho : d.names[other]? with
    | none => rfl
    | some id =>
      have hlt := hw other id ho
      rw [create_of_none h]
      simp [object, List.getD_eq_getElem?_getD, List.getElem?_append_left hlt]

/-- A name that is stored is so, and leads where it led, after any name was made. -/
theorem names_create_of_some {id : ObjectId} (h : d.names[other]? = some id) (name : String) :
    (d.create name).2.names[other]? = some id := by
  rw [names_create]
  split
  · rename_i hn
    rw [create_of_some (hn ▸ h)]
  · exact h

end RamDisk

namespace World

variable {κ : Type}

/-- A world over a medium that takes names off unless the next of these faults is a failure. -/
def withFaults (w : World RamDisk κ) (faults : List Fault) : World (Faulty RamDisk) κ :=
  ⟨⟨w.medium, { remove := faults }⟩, w.console, w.opened, w.effects⟩

/-- Every world over such a medium is one. -/
theorem exists_withFaults {w : World (Faulty RamDisk) κ} (h : w.medium.schedule.OnlyRemovals) :
    ∃ (bare : World RamDisk κ) (faults : List Fault), w = bare.withFaults faults ∧ bare.medium = w.medium.device := by
  obtain ⟨⟨device, schedule⟩, console, opened, effects⟩ := w
  refine ⟨⟨device, console, opened, effects⟩, schedule.remove, ?_, rfl⟩
  rw [Schedule.OnlyRemovals] at h
  dsimp only at h
  rw [withFaults, ← h]

end World

namespace Registry

variable {κ : Type} {r : Registry} {w : World RamDisk κ} {name other : String} {mode : OpenMode}

/-- Whether names are always taken off does not matter to who opens one that is not registered. -/
theorem lookUp_withFaults (w : World RamDisk κ) (faults : List Fault) (name : String) (mode : OpenMode) :
    lookUp (w.withFaults faults) name mode = ((lookUp w name mode).1, (lookUp w name mode).2.withFaults faults) := by
  have hfind : (w.withFaults faults).find name = ((w.find name).1, w.withFaults faults) := rfl
  have hcreate : (w.withFaults faults).create name = ((w.create name).1, (w.create name).2.withFaults faults) := rfl
  have hbare : w.find name = ((w.find name).1, w) := rfl
  unfold lookUp
  cases mode.creates with
  | false => exact hfind
  | true =>
    cases mode.truncates with
    | true => exact hcreate
    | false =>
      simp only [Bool.not_true, Bool.false_eq_true, if_false]
      rw [hfind, hbare]
      cases (w.find name).1 with
      | ok id => rfl
      | error e =>
        cases e with
        | notFound => exact hcreate
        | _ => rfl

/-- Nor does it to who opens any other. -/
theorem acquire_withFaults (r : Registry) (w : World RamDisk κ) (faults : List Fault) (name : String) (mode : OpenMode) :
    r.acquire (w.withFaults faults) name mode =
      ((r.acquire w name mode).1, (r.acquire w name mode).2.1, (r.acquire w name mode).2.2.withFaults faults) := by
  unfold acquire
  cases r.find? name with
  | none =>
    dsimp only
    unfold acquireNew
    rw [lookUp_withFaults]
    rcases lookUp w name mode with ⟨e | object, w'⟩ <;> rfl
  | some entry =>
    dsimp only
    cases entry.pending with
    | true => rfl
    | false => cases mode.truncates <;> rfl

/-- Opening a name changes the entry of no other. -/
theorem find?_acquire_of_ne (r : Registry) (w : World RamDisk κ) (mode : OpenMode) (hne : name ≠ other) :
    (r.acquire w name mode).2.1.find? other = r.find? other := by
  rcases acquire_cases r w name mode with
    ⟨e, he⟩ | ⟨entry, w', -, he, -⟩ | ⟨id, w', -, -, he, -⟩ | ⟨file, w', -, he, -, -⟩
  · rw [he]
  · rw [he, find?_put, if_neg hne]
  · rw [he, find?_put, if_neg hne]
  · rw [he, find?_put, if_neg hne]

/-- No name is taken off the medium by opening one. -/
theorem names_acquire {id : ObjectId} (r : Registry) (name : String) (mode : OpenMode) (hn : w.medium.names[other]? = some id) :
    (r.acquire w name mode).2.2.medium.names[other]? = some id := by
  rcases acquire_cases r w name mode with
    ⟨e, he⟩ | ⟨entry, w', -, he, hm⟩ | ⟨id', w', -, -, he, hm⟩ | ⟨file, w', -, he, -, hm⟩
  · rw [he]
    exact hn
  · rw [he, hm]
    split <;> exact hn
  · rw [he, hm]
    split <;> exact hn
  · rw [he, hm]
    exact RamDisk.names_create_of_some hn name

/-- What is stored under one name does not change when another one is opened. -/
theorem contents?_acquire_of_ne (hs : r.Settled w.medium) (mode : OpenMode) (hne : name ≠ other) :
    (r.acquire w name mode).2.2.medium.contents? other = w.medium.contents? other := by
  have hemptied {id : ObjectId} (hn : w.medium.names[name]? = some id) (dropped : Bool) :
      (if dropped then w.medium.putObject id [] else w.medium).contents? other = w.medium.contents? other := by
    cases dropped with
    | false => rfl
    | true => exact (hs.separate.contents?_putObject hs.whole hn [] other).trans (if_neg hne)
  rcases acquire_cases r w name mode with
    ⟨e, he⟩ | ⟨entry, w', hf, he, hm⟩ | ⟨id', w', -, hn, he, hm⟩ | ⟨file, w', -, he, -, hm⟩
  · rw [he]
  · rw [he, hm]
    exact hemptied (hs.named name entry hf) mode.truncates
  · rw [he, hm]
    exact hemptied hn (mode.creates && mode.truncates)
  · rw [he, hm]
    exact RamDisk.contents?_create_of_ne hs.whole hs.separate hne

section Medium

variable {μ : Type} [Medium μ] {w : World μ κ} {entry : Entry} {file : OpenFile}

/-- Taking a name off does to the medium what the medium does. -/
theorem medium_remove_eq (w : World μ κ) (name : String) : (w.remove name).2.medium = (Medium.remove w.medium name).2 := by
  unfold World.remove
  split
  · rename_i h
    rw [h]
    rfl
  · rename_i h
    rw [h]

/-- A release of a handle takes a reference off, or the entry with its last one and the name too if the file was marked. -/
theorem release_cases (hf : r.find? file.name = some entry) (he : entry.file = file) (w : World μ κ) :
    (0 < entry.refs - 1 ∧ (r.release w file).1 = r.put file.name { entry with refs := entry.refs - 1 } ∧
      (r.release w file).2.medium = w.medium) ∨
    (entry.refs - 1 = 0 ∧ (r.release w file).1 = r.drop file.name ∧
      (r.release w file).2.medium = if entry.pending then (Medium.remove w.medium file.name).2 else w.medium) := by
  unfold release
  rw [hf]
  dsimp only
  rw [if_neg (not_not_intro he)]
  split
  · rename_i hpos
    exact .inl ⟨hpos, rfl, rfl⟩
  · rename_i hpos
    refine .inr ⟨Nat.eq_zero_of_not_pos hpos, rfl, ?_⟩
    cases entry.pending with
    | false => rfl
    | true =>
      have hremove := medium_remove_eq (w.note (.references file.name (entry.refs - 1))) file.name
      simp only [if_true, deleteClosed]
      split <;> rename_i h <;> rw [h] at hremove <;> exact hremove

/-- A name that is not registered is unlinked by taking it off, and the answer is what came of that. -/
theorem unlink_of_none (hf : r.find? name = none) (w : World μ κ) :
    (r.unlink w name).2.1 = r ∧ (r.unlink w name).2.2.medium = (Medium.remove w.medium name).2 ∧
      (r.unlink w name).1 = (Medium.remove w.medium name).1.mapError .ofStorage := by
  unfold unlink World.remove
  rw [hf]
  rcases Medium.remove w.medium name with ⟨e | done, medium⟩
  · exact ⟨rfl, rfl, rfl⟩
  · exact ⟨rfl, rfl, rfl⟩

/-- One that is registered is marked and stays on the medium; this is refused if it was marked before. -/
theorem unlink_of_some (hf : r.find? name = some entry) (w : World μ κ) :
    (r.unlink w name).2.1 = (if entry.pending then r else r.put name { entry with pending := true }) ∧
      (r.unlink w name).2.2.medium = w.medium ∧
      (r.unlink w name).1 = if entry.pending then .error .notFound else .ok () := by
  unfold unlink
  rw [hf]
  dsimp only
  cases entry.pending <;> exact ⟨rfl, rfl, rfl⟩

omit [Medium μ] in
/-- One that is registered is marked on request, whether it was before or not. -/
theorem markForDeletion_of_some (hf : r.find? name = some entry) (w : World μ κ) :
    r.markForDeletion w name = (.ok (), r.put name { entry with pending := true }, w.note (.markedForDeletion name entry.refs)) := by
  unfold markForDeletion
  rw [hf]

omit [Medium μ] in
/-- One that is not is unknown. -/
theorem markForDeletion_of_none (hf : r.find? name = none) (w : World μ κ) :
    r.markForDeletion w name = (.error .notFound, r, w) := by
  unfold markForDeletion
  rw [hf]

/-- A name that waits for its deletion is not unlinked again. -/
theorem unlink_pending (hf : r.find? name = some entry) (hp : entry.pending = true) (w : World μ κ) :
    r.unlink w name = (.error .notFound, r, w) := by
  unfold unlink
  rw [hf]
  dsimp only
  rw [if_pos hp]

end Medium

end Registry

/-! ## What a handle is worth -/

/-- An object of the medium is what is stored under a name: it is read and written as those bytes. -/
structure World.Holds {κ : Type} (w : World (Faulty RamDisk) κ) (object : ObjectId) (name : String) (contents : List UInt8) :
    Prop where
  /-- The contents are stored under the name. -/
  stored : w.medium.device.contents? name = some contents
  /-- They are what is read. -/
  reads : ∀ position count, w.readAt object position count =
    (.ok ⟨(contents.drop position).take count, min count (contents.length - position)⟩, w)
  /-- What is written is stored under the name, as far as the limit allows, and nothing else changes. -/
  writes : ∀ position data, position < w.medium.device.limit →
    let count := min data.length (w.medium.device.limit - position)
    ∃ w' after, w.writeAt object position data = (.ok count, w') ∧
      RamDisk.Written contents position (data.take count) after ∧
      ∀ other, w'.medium.device.contents? other = if name = other then some after else w.medium.device.contents? other
  /-- At the limit or beyond nothing is written. -/
  full : ∀ position data, w.medium.device.limit ≤ position →
    w.writeAt object position data = (if data.isEmpty then .ok 0 else .error .noSpace, w)

namespace World

variable {κ : Type} {w : World (Faulty RamDisk) κ} {name : String} {id : ObjectId}

/-- A write is one to what is underneath. -/
theorem writeAt_of_onlyRemovals (h : w.medium.schedule.OnlyRemovals) (id : ObjectId) (position : Nat) (data : List UInt8) :
    w.writeAt id position data =
      ((w.medium.device.writeAt id position data).1,
        { w with medium := ⟨(w.medium.device.writeAt id position data).2, w.medium.schedule⟩ }) := by
  have htake : w.medium.schedule.take .write = (none, w.medium.schedule) := h.take nofun
  have hwrite : Medium.writeAt w.medium id position data =
      ((w.medium.device.writeAt id position data).1, ⟨(w.medium.device.writeAt id position data).2, w.medium.schedule⟩) := by
    change w.medium.ask .write _ = _
    unfold Faulty.ask
    rw [htake]
    dsimp only [Fault.cut]
    rw [List.take_length]
    cases hr : w.medium.device.writeAt id position data with
    | mk result d =>
      have hd : Medium.writeAt w.medium.device id position data = (result, d) := hr
      rw [hd]
      cases result <;> rfl
  rw [writeAt, hwrite]

/-- So is a read. -/
theorem readAt_of_onlyRemovals (h : w.medium.schedule.OnlyRemovals) (id : ObjectId) (position count : Nat) :
    w.readAt id position count =
      (.ok ⟨w.medium.device.readAt id position count, (w.medium.device.readAt id position count).length⟩, w) := by
  have htake : w.medium.schedule.take .read = (none, w.medium.schedule) := h.take nofun
  have hread : Medium.readAt w.medium id position count =
      (.ok ⟨w.medium.device.readAt id position count, (w.medium.device.readAt id position count).length⟩, w.medium) := by
    change w.medium.ask .read _ = _
    unfold Faulty.ask
    rw [htake]
    rfl
  rw [readAt, hread]

/-- What a name leads to is what is stored under it, when no two names lead to one object. -/
theorem holds_of_names (h : w.medium.schedule.OnlyRemovals) (hw : w.medium.device.Whole) (hs : w.medium.device.Separate)
    (hn : w.medium.device.names[name]? = some id) : w.Holds id name (w.medium.device.object id) where
  stored := Registry.contents?_of_names hn
  reads position count := by
    rw [readAt_of_onlyRemovals h, RamDisk.length_readAt]
    rfl
  writes position data hp := by
    intro count
    let after := RamDisk.splice (w.medium.device.object id) position (data.take count)
    refine ⟨{ w with medium := ⟨w.medium.device.putObject id after, w.medium.schedule⟩ }, after, ?_,
      RamDisk.written_splice _ _ _, hs.contents?_putObject hw hn after⟩
    rw [writeAt_of_onlyRemovals h, RamDisk.writeAt_of_lt_limit hp]
  full position data hp := by
    rw [writeAt_of_onlyRemovals h, RamDisk.writeAt, if_pos hp]
    cases data <;> rfl

end World

/-! ## Sessions -/

/-- A registry over a medium that may fail to take names off, and the handles that were given out and not yet given back. -/
structure Session (κ : Type) where
  /-- The registry. -/
  registry : Registry
  /-- The medium and the console. -/
  world : World (Faulty RamDisk) κ
  /-- The handles, each as often as it was given out. -/
  handles : List OpenFile

/-- What is asked of the registry, or done with a handle. -/
inductive HandleCall where
  /-- A name is opened. -/
  | acquire (name : String) (mode : OpenMode)
  /-- A handle is given back. -/
  | release (file : OpenFile)
  /-- An open file is marked for deletion. -/
  | mark (name : String)
  /-- A name is deleted. -/
  | unlink (name : String)
  /-- Bytes are written through a handle. -/
  | write (file : OpenFile) (position : Nat) (data : List UInt8)
  deriving DecidableEq

namespace HandleCall

/-- The name that a call is about. -/
def name : HandleCall → String
  | .acquire name _ => name
  | .release file => file.name
  | .mark name => name
  | .unlink name => name
  | .write file .. => file.name

/-- Whether bytes are written to a file of a name. -/
def writesTo (name : String) : HandleCall → Bool
  | .write file .. => file.name = name
  | _ => false

end HandleCall

namespace Session

variable {κ : Type}

/-- Before the first call nothing is registered. -/
def start (world : World (Faulty RamDisk) κ) : Session κ := ⟨.empty, world, []⟩

/-- The session after a call. A handle that is not held can neither be given back nor be used. -/
def step (s : Session κ) : HandleCall → Session κ
  | .acquire name mode =>
    let found := s.registry.acquire s.world name mode
    ⟨found.2.1, found.2.2, found.1.toOption.toList ++ s.handles⟩
  | .release file =>
    if file ∈ s.handles then
      ⟨(s.registry.release s.world file).1, (s.registry.release s.world file).2, s.handles.erase file⟩
    else s
  | .mark name => { s with
    registry := (s.registry.markForDeletion s.world name).2.1
    world := (s.registry.markForDeletion s.world name).2.2 }
  | .unlink name => { s with
    registry := (s.registry.unlink s.world name).2.1
    world := (s.registry.unlink s.world name).2.2 }
  | .write file position data =>
    if file ∈ s.handles then { s with world := (s.world.writeAt file.object position data).2 } else s

/-- The session after several calls. -/
def run (s : Session κ) (calls : List HandleCall) : Session κ := calls.foldl step s

/-- What is stored under a name. -/
def stored? (s : Session κ) (name : String) : Option (List UInt8) := s.world.medium.device.contents? name

/-- A call gives the last handle of a name back. -/
def LastRelease (s : Session κ) (name : String) (call : HandleCall) : Prop :=
  ∃ file entry, call = .release file ∧ file ∈ s.handles ∧ file.name = name ∧ s.registry.find? name = some entry ∧ entry.refs = 1

/-- None of several calls gives the last handle of a name back. -/
def Holding (s : Session κ) (name : String) : List HandleCall → Prop
  | [] => True
  | call :: rest => ¬s.LastRelease name call ∧ (s.step call).Holding name rest

/-- What is registered is what is stored, and the registry accounts for the handles. -/
structure Sound (s : Session κ) : Prop where
  /-- No fault is scheduled but for taking names off. -/
  removals : s.world.medium.schedule.OnlyRemovals
  /-- Registered names are on the medium, and lead to objects of their own. -/
  settled : s.registry.Settled s.world.medium.device
  /-- The references are the handles. -/
  accounts : s.registry.Accounts s.handles

variable {s : Session κ} {name : String} {entry : Entry} {call : HandleCall}

/-- Before the first call that is so. -/
theorem sound_start {world : World (Faulty RamDisk) κ} (hf : world.medium.schedule.OnlyRemovals) (hw : world.medium.device.Whole)
    (hs : world.medium.device.Separate) : (start world).Sound :=
  ⟨hf, ⟨Registry.stored_empty hw, hs⟩, Registry.accounts_empty⟩

/-- The session with a name taken off the medium, or not. -/
theorem Sound.removed (h : s.Sound) {registry : Registry} {world : World (Faulty RamDisk) κ} {handles : List OpenFile}
    (hm : world.medium = (Medium.remove s.world.medium name).2) (hstored : registry.Stored s.world.medium.device)
    (hnone : registry.find? name = none) (ha : registry.Accounts handles) : Sound ⟨registry, world, handles⟩ := by
  refine ⟨?_, ?_, ha⟩
  · rw [hm]
    exact Faulty.onlyRemovals_remove h.removals name
  · rw [hm]
    cases hr : (Medium.remove s.world.medium name).1 with
    | ok _ =>
      rw [Faulty.device_remove_ok hr]
      exact ⟨hstored.remove hnone, h.settled.separate.remove name⟩
    | error e =>
      rw [Faulty.device_remove_error hr]
      exact ⟨hstored, h.settled.separate⟩

/-- Opening a name keeps it so. -/
theorem Sound.acquire (h : s.Sound) (name : String) (mode : OpenMode) : (s.step (.acquire name mode)).Sound := by
  obtain ⟨w, faults, hw, hm⟩ := World.exists_withFaults h.removals
  have hs : s.registry.Settled w.medium := hm ▸ h.settled
  have hu : Registry.Settled (s.registry.acquire w name mode).2.1 (s.registry.acquire w name mode).2.2.medium :=
    Registry.settled_of_use (.acquire s.registry w name mode) hs
  have hstep : s.step (.acquire name mode) =
      ⟨(s.registry.acquire w name mode).2.1, (s.registry.acquire w name mode).2.2.withFaults faults,
        (s.registry.acquire w name mode).1.toOption.toList ++ s.handles⟩ := by
    rw [step, hw, Registry.acquire_withFaults]
  rw [hstep]
  refine ⟨rfl, hu, ?_⟩
  rcases ha : s.registry.acquire w name mode with ⟨e | file, r', w'⟩
  · rw [Registry.acquire_error ha]
    exact h.accounts
  · exact h.accounts.acquire ha

/-- A handle that is held is the one that is registered under its name. -/
theorem Sound.registered (h : s.Sound) {file : OpenFile} (hm : file ∈ s.handles) :
    ∃ entry, s.registry.find? file.name = some entry ∧ entry.file = file := h.accounts.shared hm

/-- Giving a handle back keeps it so. -/
theorem Sound.release (h : s.Sound) (file : OpenFile) : (s.step (.release file)).Sound := by
  rw [step]
  split
  · rename_i hm
    have ha : (s.registry.release s.world file).1.Accounts (s.handles.erase file) :=
      ((h.accounts.perm (List.perm_cons_erase hm)).release s.world).1
    obtain ⟨entry, hf, he⟩ := h.registered hm
    rcases Registry.release_cases hf he s.world with ⟨-, hr, hw⟩ | ⟨-, hr, hw⟩
    · refine ⟨by rw [hw]; exact h.removals, ?_, ha⟩
      rw [hr, hw]
      exact ⟨h.settled.put_of_find? hf _ _, h.settled.separate⟩
    · have hdrop : (s.registry.drop file.name).Stored s.world.medium.device := h.settled.drop file.name
      cases hp : entry.pending with
      | true =>
        rw [hp, if_pos rfl] at hw
        rw [hr] at ha ⊢
        exact h.removed hw hdrop (by rw [Registry.find?_drop, if_pos rfl]) ha
      | false =>
        rw [hp, if_neg Bool.false_ne_true] at hw
        refine ⟨by rw [hw]; exact h.removals, ?_, ha⟩
        rw [hr, hw]
        exact ⟨hdrop, h.settled.separate⟩
  · exact h

/-- So does deleting a name. -/
theorem Sound.unlink (h : s.Sound) (name : String) : (s.step (.unlink name)).Sound := by
  have ha : (s.registry.unlink s.world name).2.1.Accounts s.handles := h.accounts.unlink s.world name
  rw [step]
  cases hf : s.registry.find? name with
  | none =>
    obtain ⟨hr, hw, -⟩ := Registry.unlink_of_none hf s.world
    rw [hr] at ha ⊢
    exact h.removed hw h.settled.toStored hf ha
  | some entry =>
    obtain ⟨hr, hw, -⟩ := Registry.unlink_of_some hf s.world
    refine ⟨by rw [hw]; exact h.removals, ?_, ha⟩
    rw [hr, hw]
    split
    · exact h.settled
    · exact ⟨h.settled.put_of_find? hf _ _, h.settled.separate⟩

/-- Every call does. -/
theorem Sound.step (h : s.Sound) (call : HandleCall) : (s.step call).Sound := by
  cases call with
  | acquire name mode => exact h.acquire name mode
  | release file => exact h.release file
  | mark name =>
    rw [Session.step]
    cases hf : s.registry.find? name with
    | none =>
      rw [Registry.markForDeletion_of_none hf]
      exact h
    | some entry =>
      rw [Registry.markForDeletion_of_some hf]
      exact ⟨h.removals, ⟨h.settled.put_of_find? hf _ _, h.settled.separate⟩, h.accounts.put_pending hf true⟩
  | unlink name => exact h.unlink name
  | write file position data =>
    rw [Session.step]
    split
    · rw [World.writeAt_of_onlyRemovals h.removals]
      refine ⟨h.removals, ?_, h.accounts⟩
      dsimp only
      unfold RamDisk.writeAt
      split
      · split <;> exact h.settled
      · exact ⟨h.settled.toStored.putObject _ _, h.settled.separate⟩
    · exact h

/-- Every run does. -/
theorem Sound.run (h : s.Sound) (calls : List HandleCall) : (s.run calls).Sound := by
  induction calls generalizing s with
  | nil => exact h
  | cons call rest ih => exact ih (h.step call)

/-! ## What becomes of a name -/

/-- A registered name is that of its file, and the file is what is stored under it. -/
theorem Sound.holds (h : s.Sound) (hf : s.registry.find? name = some entry) :
    entry.file.name = name ∧ s.world.Holds entry.file.object name (s.world.medium.device.object entry.file.object) :=
  ⟨h.accounts.titled hf,
    World.holds_of_names h.removals h.settled.whole h.settled.separate (h.settled.named name entry hf)⟩

/-- The references of a name are its handles. -/
theorem Sound.refs_eq (h : s.Sound) (hf : s.registry.find? name = some entry) :
    entry.refs = Registry.uses s.handles name := by
  have hlen := congrArg List.length (h.accounts.handles name)
  rw [hf, Option.map_some, Option.getD_some, Entry.handles, List.length_replicate] at hlen
  exact hlen.symm

/-- Giving a handle back leaves the entry of every other name and what is stored under it as they were. -/
theorem Sound.other_release (h : s.Sound) {file : OpenFile} (hne : file.name ≠ name) :
    (s.step (.release file)).registry.find? name = s.registry.find? name ∧
      (s.step (.release file)).stored? name = s.stored? name := by
  unfold stored?
  rw [Session.step]
  split
  · rename_i hm
    obtain ⟨entry, hf, he⟩ := h.registered hm
    dsimp only
    rcases Registry.release_cases hf he s.world with ⟨-, hr, hw⟩ | ⟨-, hr, hw⟩
    · rw [hr, hw, Registry.find?_put, if_neg hne]
      exact ⟨rfl, rfl⟩
    · rw [hr, hw, Registry.find?_drop, if_neg hne]
      refine ⟨rfl, ?_⟩
      split
      · exact Faulty.contents?_remove_of_ne _ hne
      · rfl
  · exact ⟨rfl, rfl⟩

/-- So does deleting a name. -/
theorem other_unlink (s : Session κ) {other : String} (hne : other ≠ name) :
    (s.step (.unlink other)).registry.find? name = s.registry.find? name ∧
      (s.step (.unlink other)).stored? name = s.stored? name := by
  unfold stored?
  rw [Session.step]
  dsimp only
  cases hf : s.registry.find? other with
  | none =>
    obtain ⟨hr, hw, -⟩ := Registry.unlink_of_none hf s.world
    rw [hr, hw]
    exact ⟨rfl, Faulty.contents?_remove_of_ne _ hne⟩
  | some entry =>
    obtain ⟨hr, hw, -⟩ := Registry.unlink_of_some hf s.world
    rw [hr, hw]
    refine ⟨?_, rfl⟩
    split
    · rfl
    · exact (Registry.find?_put ..).trans (if_neg hne)

/-- So does a write. -/
theorem Sound.other_write (h : s.Sound) {file : OpenFile} (hne : file.name ≠ name) (position : Nat) (data : List UInt8) :
    (s.step (.write file position data)).registry.find? name = s.registry.find? name ∧
      (s.step (.write file position data)).stored? name = s.stored? name := by
  unfold stored?
  rw [Session.step]
  split
  · rename_i hm
    obtain ⟨entry, hf, rfl⟩ := h.registered hm
    obtain ⟨-, hh⟩ := h.holds hf
    refine ⟨rfl, ?_⟩
    dsimp only
    rcases Nat.lt_or_ge position s.world.medium.device.limit with hp | hp
    · obtain ⟨w', after, hw, -, hother⟩ := hh.writes position data hp
      rw [hw, hother]
      exact if_neg hne
    · rw [hh.full position data hp]
  · exact ⟨rfl, rfl⟩

/-- A call about one name leaves the entry of every other and what is stored under it as they were. -/
theorem Sound.other (h : s.Sound) (hne : call.name ≠ name) :
    (s.step call).registry.find? name = s.registry.find? name ∧ (s.step call).stored? name = s.stored? name := by
  cases call with
  | acquire other mode =>
    obtain ⟨w, faults, hw, hm⟩ := World.exists_withFaults h.removals
    have hs : s.registry.Settled w.medium := hm ▸ h.settled
    unfold stored?
    rw [Session.step, hw, Registry.acquire_withFaults]
    exact ⟨Registry.find?_acquire_of_ne s.registry w mode hne, Registry.contents?_acquire_of_ne hs mode hne⟩
  | release file => exact h.other_release hne
  | mark other =>
    unfold stored?
    rw [Session.step]
    cases hf : s.registry.find? other with
    | none =>
      rw [Registry.markForDeletion_of_none hf]
      exact ⟨rfl, rfl⟩
    | some entry =>
      rw [Registry.markForDeletion_of_some hf]
      exact ⟨(Registry.find?_put ..).trans (if_neg hne), rfl⟩
  | unlink other => exact s.other_unlink hne
  | write file position data => exact h.other_write hne position data

/-- A name that waits for its deletion cannot be opened, and trying to changes nothing. -/
theorem Sound.acquire_pending (h : s.Sound) (hf : s.registry.find? name = some entry) (hp : entry.pending = true)
    (mode : OpenMode) : s.registry.acquire s.world name mode =
      (.error (if mode.creates then .alreadyExists else .notFound), s.registry, s.world) := by
  obtain ⟨w, faults, hw, -⟩ := World.exists_withFaults h.removals
  rw [hw, Registry.acquire_withFaults, Registry.acquire_pending hf hp]

/-- Writing bytes leaves every name where it led. -/
theorem names_step_write (h : s.Sound) (file : OpenFile) (position : Nat) (data : List UInt8) :
    (s.step (.write file position data)).world.medium.device.names = s.world.medium.device.names := by
  rw [step]
  split
  · rw [World.writeAt_of_onlyRemovals h.removals]
    dsimp only
    unfold RamDisk.writeAt
    split
    · split <;> rfl
    · rfl
  · rfl

/-- Who marks a registered file, or unlinks it, leaves it waiting for its deletion, and what is stored under its name as it was. -/
theorem find?_step_marking (hf : s.registry.find? name = some entry) (hc : call = .mark name ∨ call = .unlink name) :
    (s.step call).registry.find? name = some { entry with pending := true } ∧ (s.step call).stored? name = s.stored? name := by
  rcases hc with rfl | rfl
  · rw [step, Registry.markForDeletion_of_some hf]
    exact ⟨(Registry.find?_put ..).trans (if_pos rfl), rfl⟩
  · obtain ⟨hr, hw, -⟩ := Registry.unlink_of_some hf s.world
    unfold stored?
    rw [step, hr, hw]
    refine ⟨?_, rfl⟩
    split
    · rename_i hp
      rw [hf, ← hp]
    · exact (Registry.find?_put ..).trans (if_pos rfl)

/-- Who unlinks a name that is not registered takes it off the medium, unless the medium fails to. -/
theorem stored?_step_unlink (hf : s.registry.find? name = none) :
    (s.step (.unlink name)).registry = s.registry ∧
      (s.step (.unlink name)).stored? name =
        if (Medium.remove s.world.medium name).1 = .ok () then none else s.stored? name := by
  obtain ⟨hr, hw, -⟩ := Registry.unlink_of_none hf s.world
  refine ⟨hr, ?_⟩
  rw [step, stored?]
  dsimp only
  rw [hw]
  exact Faulty.contents?_remove_self s.world.medium name

/-- A name that is stored is so after a call, but for two cases: it was not registered and is unlinked, or it was marked and its last
handle is given back. -/
theorem Sound.gone (h : s.Sound) (hb : s.stored? name ≠ none) (ha : (s.step call).stored? name = none) :
    (call = .unlink name ∧ s.registry.find? name = none) ∨ (s.LastRelease name call ∧ s.registry.isPending name = true) := by
  by_cases hne : call.name = name
  swap
  · exact absurd ((h.other hne).2.symm.trans ha) hb
  have hnames : s.world.medium.device.names[name]? ≠ none := fun hn => hb (RamDisk.contents?_eq_none_iff.mpr hn)
  subst hne
  cases call with
  | acquire name mode =>
    obtain ⟨w, faults, hw, hm⟩ := World.exists_withFaults h.removals
    obtain ⟨id, hid⟩ := Option.ne_none_iff_exists'.mp (hm ▸ hnames)
    have hkept := Registry.names_acquire s.registry name mode hid
    rw [Session.step, stored?, hw, Registry.acquire_withFaults, RamDisk.contents?_eq_none_iff] at ha
    cases hkept.symm.trans ha
  | release file =>
    rw [Session.step] at ha
    split at ha
    · rename_i hm
      obtain ⟨entry, hf, he⟩ := h.registered hm
      have hheld := h.accounts.held file.name entry hf
      unfold stored? at ha hb
      dsimp only at ha
      rcases Registry.release_cases hf he s.world with ⟨-, -, hw⟩ | ⟨hlast, -, hw⟩ <;> rw [hw] at ha
      · exact absurd ha hb
      · cases hp : entry.pending with
        | false =>
          rw [hp, if_neg Bool.false_ne_true] at ha
          exact absurd ha hb
        | true =>
          refine .inr ⟨⟨file, entry, rfl, hm, rfl, hf, by omega⟩, ?_⟩
          change (s.registry.find? file.name).any Entry.pending = true
          rw [hf, Option.any_some, hp]
    · exact absurd ha hb
  | mark name =>
    cases hf : s.registry.find? name with
    | none =>
      rw [Session.step, Registry.markForDeletion_of_none hf] at ha
      exact absurd ha hb
    | some entry => exact absurd ((find?_step_marking hf (.inl rfl)).2.symm.trans ha) hb
  | unlink name =>
    cases hf : s.registry.find? name with
    | none => exact .inl ⟨rfl, hf⟩
    | some entry => exact absurd ((find?_step_marking hf (.inr rfl)).2.symm.trans ha) hb
  | write file position data =>
    rw [stored?, RamDisk.contents?_eq_none_iff, names_step_write h] at ha
    exact absurd ha hnames

/-- A file that waits for its deletion goes on waiting until its last handle is given back. Meanwhile no reference is added, and what
is stored under its name changes only when bytes are written to it. -/
theorem Sound.waits (h : s.Sound) (hf : s.registry.find? name = some entry) (hp : entry.pending = true)
    (hc : ¬s.LastRelease name call) :
    ∃ entry', (s.step call).registry.find? name = some entry' ∧ entry'.file = entry.file ∧ entry'.pending = true ∧
      entry'.refs ≤ entry.refs ∧ (call.writesTo name = false → (s.step call).stored? name = s.stored? name) := by
  by_cases hne : call.name = name
  swap
  · obtain ⟨hr, hs⟩ := h.other hne
    exact ⟨entry, hr.trans hf, rfl, hp, Nat.le_refl _, fun _ => hs⟩
  subst hne
  cases call with
  | acquire name mode =>
    have hrefused : s.registry.acquire s.world name mode = _ := h.acquire_pending hf hp mode
    rw [Session.step, hrefused]
    exact ⟨entry, hf, rfl, hp, Nat.le_refl _, fun _ => rfl⟩
  | release file =>
    rw [Session.step]
    split
    · rename_i hm
      obtain ⟨entry', hf', he⟩ := h.registered hm
      cases hf.symm.trans hf'
      have hheld := h.accounts.held _ entry hf
      rcases Registry.release_cases hf' he s.world with ⟨-, hr, hw⟩ | ⟨hlast, -, -⟩
      · unfold stored?
        rw [hr, hw]
        exact ⟨_, (Registry.find?_put ..).trans (if_pos rfl), rfl, hp, Nat.sub_le .., fun _ => rfl⟩
      · exact absurd ⟨file, entry, rfl, hm, rfl, hf, by omega⟩ hc
    · exact ⟨entry, hf, rfl, hp, Nat.le_refl _, fun _ => rfl⟩
  | mark name =>
    obtain ⟨hmarked, hsame⟩ := find?_step_marking hf (.inl rfl)
    exact ⟨_, hmarked, rfl, rfl, Nat.le_refl _, fun _ => hsame⟩
  | unlink name =>
    obtain ⟨hmarked, hsame⟩ := find?_step_marking hf (.inr rfl)
    exact ⟨_, hmarked, rfl, rfl, Nat.le_refl _, fun _ => hsame⟩
  | write file position data =>
    have hr : (s.step (.write file position data)).registry = s.registry := by
      rw [Session.step]
      split <;> rfl
    exact ⟨entry, hr ▸ hf, rfl, hp, Nat.le_refl _, fun hw => absurd rfl (of_decide_eq_false hw)⟩

/-- So it is through any number of calls of which none gives the last handle back. -/
theorem Sound.waits_run (h : s.Sound) {calls : List HandleCall} (hc : s.Holding name calls)
    (hf : s.registry.find? name = some entry) (hp : entry.pending = true) :
    ∃ entry', (s.run calls).registry.find? name = some entry' ∧ entry'.file = entry.file ∧ entry'.pending = true ∧
      entry'.refs ≤ entry.refs ∧ ((∀ call ∈ calls, call.writesTo name = false) → (s.run calls).stored? name = s.stored? name) := by
  induction calls generalizing s entry with
  | nil => exact ⟨entry, hf, rfl, hp, Nat.le_refl _, fun _ => rfl⟩
  | cons call rest ih =>
    obtain ⟨entry₁, hf₁, he₁, hp₁, hle₁, hs₁⟩ := h.waits hf hp hc.1
    obtain ⟨entry₂, hf₂, he₂, hp₂, hle₂, hs₂⟩ := ih (h.step call) hc.2 hf₁ hp₁
    refine ⟨entry₂, hf₂, he₂.trans he₁, hp₂, Nat.le_trans hle₂ hle₁, fun hw => ?_⟩
    have hrest := hs₂ fun call' hm => hw call' (List.mem_cons_of_mem _ hm)
    exact hrest.trans (hs₁ (hw call List.mem_cons_self))

/-- When its last handle is given back a name is registered no more. If its file was marked the name is taken off the medium, unless
the medium fails to, which leaves what is stored as it was; if it was not, nothing is taken off. -/
theorem Sound.ends (h : s.Sound) (hf : s.registry.find? name = some entry) (hc : s.LastRelease name call) :
    (s.step call).registry.find? name = none ∧
      (s.step call).stored? name =
        if entry.pending = true ∧ (Medium.remove s.world.medium name).1 = .ok () then none else s.stored? name := by
  obtain ⟨file, entry', rfl, hm, rfl, hf', hlast⟩ := hc
  cases hf.symm.trans hf'
  obtain ⟨entry', hf', he⟩ := h.registered hm
  cases hf.symm.trans hf'
  rw [Session.step, if_pos hm]
  unfold stored?
  dsimp only
  rcases Registry.release_cases hf he s.world with ⟨hpos, -, -⟩ | ⟨-, hr, hw⟩
  · omega
  rw [hr, hw, Registry.find?_drop, if_pos rfl]
  refine ⟨rfl, ?_⟩
  cases hp : entry.pending with
  | false => simp
  | true =>
    rw [if_pos rfl, Faulty.contents?_remove_self]
    simp only [true_and]

/-- Whatever was stored at the beginning and whatever was done since, with whatever failures to take names off:

- a registered name is stored, and its file is read and written as what is stored under it;
- a handle that was not given back is the one file that is registered under its name, and they are as many as are counted;
- a name is taken off the medium only when it is not registered and is unlinked, or was marked and its last handle is given back;
- from its marking on until then the name can be neither opened nor unlinked, no reference is added, and its handles are read and
  written as what is stored under it, which changes only when bytes are written through one of them;
- with its last handle the name is registered no more, and taken off the medium if it was marked and the medium does not fail;
- a registered name is marked when somebody asks for it or unlinks the name, and what is stored under it stays; it can be marked
  again, but not unlinked again;
- a name that is not registered cannot be marked, and is taken off the medium at once when it is unlinked, unless the medium
  fails. -/
theorem deletion_deferred {world : World (Faulty RamDisk) κ} (hf : world.medium.schedule.OnlyRemovals)
    (hw : world.medium.device.Whole) (hs : world.medium.device.Separate) (calls : List HandleCall) :
    let s := (start world).run calls
    (∀ name entry, s.registry.find? name = some entry →
      entry.file.name = name ∧ ∃ contents, s.world.Holds entry.file.object name contents) ∧
    (∀ file ∈ s.handles, ∃ entry, s.registry.find? file.name = some entry ∧ entry.file = file ∧
      entry.refs = Registry.uses s.handles file.name) ∧
    (∀ call name, s.stored? name ≠ none → (s.step call).stored? name = none →
      (call = .unlink name ∧ s.registry.find? name = none) ∨ (s.LastRelease name call ∧ s.registry.isPending name = true)) ∧
    (∀ name entry more, s.registry.find? name = some entry → entry.pending = true → s.Holding name more →
      let s' := s.run more
      (∀ mode, s'.registry.acquire s'.world name mode =
        (.error (if mode.creates then .alreadyExists else .notFound), s'.registry, s'.world)) ∧
      s'.registry.unlink s'.world name = (.error .notFound, s'.registry, s'.world) ∧
      (∃ entry', s'.registry.find? name = some entry' ∧ entry'.file = entry.file ∧ entry'.pending = true ∧
        entry'.refs ≤ entry.refs) ∧
      (∃ contents, s'.world.Holds entry.file.object name contents) ∧
      ((∀ call ∈ more, call.writesTo name = false) → s'.stored? name = s.stored? name)) ∧
    (∀ name entry call, s.registry.find? name = some entry → s.LastRelease name call →
      (s.step call).registry.find? name = none ∧
        (s.step call).stored? name =
          if entry.pending = true ∧ (Medium.remove s.world.medium name).1 = .ok () then none else s.stored? name) ∧
    (∀ name entry, s.registry.find? name = some entry →
      (s.registry.markForDeletion s.world name).1 = .ok () ∧
      (s.registry.unlink s.world name).1 = (if entry.pending then .error .notFound else .ok ()) ∧
      ∀ call, call = .mark name ∨ call = .unlink name →
        (s.step call).registry.find? name = some { entry with pending := true } ∧ (s.step call).stored? name = s.stored? name) ∧
    ∀ name, s.registry.find? name = none →
      s.registry.markForDeletion s.world name = (.error .notFound, s.registry, s.world) ∧
      (s.registry.unlink s.world name).1 = (Medium.remove s.world.medium name).1.mapError .ofStorage ∧
      (s.step (.unlink name)).registry = s.registry ∧
        (s.step (.unlink name)).stored? name =
          if (Medium.remove s.world.medium name).1 = .ok () then none else s.stored? name := by
  intro s
  have h : s.Sound := (sound_start hf hw hs).run calls
  refine ⟨?_, ?_, fun call name => h.gone, ?_, fun name entry call hfound hlast => h.ends hfound hlast, ?_, ?_⟩
  · intro name entry hfound
    obtain ⟨hname, hholds⟩ := h.holds hfound
    exact ⟨hname, _, hholds⟩
  · intro file hm
    obtain ⟨entry, hfound, he⟩ := h.registered hm
    exact ⟨entry, hfound, he, h.refs_eq hfound⟩
  · intro name entry more hfound hp hmore s'
    have h' : s'.Sound := h.run more
    obtain ⟨entry', hfound', he, hp', hle, hsame⟩ := h.waits_run hmore hfound hp
    obtain ⟨-, hholds⟩ := h'.holds hfound'
    rw [he] at hholds
    exact ⟨h'.acquire_pending hfound' hp', Registry.unlink_pending hfound' hp' s'.world, ⟨entry', hfound', he, hp', hle⟩,
      ⟨_, hholds⟩, hsame⟩
  · intro name entry hfound
    obtain ⟨-, -, hunlinked⟩ := Registry.unlink_of_some hfound s.world
    exact ⟨congrArg Prod.fst (Registry.markForDeletion_of_some hfound s.world), hunlinked, fun call => find?_step_marking hfound⟩
  · intro name hfound
    obtain ⟨-, -, hunlinked⟩ := Registry.unlink_of_none hfound s.world
    exact ⟨Registry.markForDeletion_of_none hfound s.world, hunlinked, stored?_step_unlink hfound⟩

/-- A file is made, opened again, written and unlinked. -/
def unlinkedTwiceHeld : List HandleCall :=
  [.acquire "f" .fresh, .acquire "f" .plain, .write ⟨0, "f", ⟨0⟩⟩ 0 [97, 98], .unlink "f"]

/-- Once one handle is given back the name is still refused to everybody and the bytes are still there. The medium fails to take
the name off when the other one is given back: then it is registered no more, and stored as before. -/
theorem unlinkedTwiceHeld_deferred :
    let world : World (Faulty RamDisk) Silent :=
      { medium := { device := RamDisk.empty none, schedule := { remove := [.fail .inputOutput] } }, console := Silent.mk }
    let s := (start world).run unlinkedTwiceHeld
    let s' := s.run [.release ⟨0, "f", ⟨0⟩⟩]
    (s'.registry.acquire s'.world "f" .plain).1 = .error .notFound ∧ s'.stored? "f" = some [97, 98] ∧
      (s'.step (.release ⟨0, "f", ⟨0⟩⟩)).registry.find? "f" = none ∧
      (s'.step (.release ⟨0, "f", ⟨0⟩⟩)).stored? "f" = some [97, 98] := by
  intro world s s'
  have hfound : s.registry.find? "f" = some ⟨⟨0, "f", ⟨0⟩⟩, 2, true⟩ := by decide
  have hfound' : s'.registry.find? "f" = some ⟨⟨0, "f", ⟨0⟩⟩, 1, true⟩ := by decide
  have hholding : s.Holding "f" [.release ⟨0, "f", ⟨0⟩⟩] := by
    refine ⟨?_, trivial⟩
    rintro ⟨file, entry, -, -, -, hf, hlast⟩
    cases hfound.symm.trans hf
    cases hlast
  have hbefore : s.stored? "f" = some [97, 98] := by decide
  have hfaults : world.medium.schedule.OnlyRemovals := rfl
  have hmedium := deletion_deferred hfaults (RamDisk.whole_empty none) (RamDisk.separate_empty none)
  obtain ⟨-, -, -, hpending, -⟩ := hmedium unlinkedTwiceHeld
  obtain ⟨hacquire, -, -, -, hbytes⟩ := hpending "f" _ _ hfound rfl hholding
  have hstored : s'.stored? "f" = some [97, 98] := (hbytes (by decide)).trans hbefore
  obtain ⟨-, -, -, -, hends, -⟩ := hmedium (unlinkedTwiceHeld ++ [.release ⟨0, "f", ⟨0⟩⟩])
  have hlast : s'.LastRelease "f" (.release ⟨0, "f", ⟨0⟩⟩) := ⟨_, _, rfl, by decide, rfl, hfound', rfl⟩
  obtain ⟨hgone, hkept⟩ := hends "f" _ _ hfound' hlast
  refine ⟨?_, hstored, hgone, ?_⟩
  · rw [hacquire]
    rfl
  · rw [← hstored]
    exact hkept

end Session

end Nucleus
