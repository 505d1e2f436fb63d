import Nucleus.Proofs.Slots
import Nucleus.Proofs.Stored
import Nucleus.Proofs.Table

/-!
# Descriptor tables over one registry

Any number of descriptor tables share a registry over a medium in memory, which nobody else uses, and calls are made of them in any
order. Whatever the calls were, the file of every descriptor is stored under its name, and no other name leads to its object
(`SharedFiles.sound_run`).
-/

namespace Nucleus

/-- Descriptor tables that share one registry over a medium in memory. -/
structure SharedFiles (κ : Type) where
  /-- The tables. -/
  tables : List Descriptors
  /-- The registry. -/
  registry : Registry
  /-- The medium and the console. -/
  world : World RamDisk κ

/-- What is asked of a table, which is given by its place, or of the registry. -/
inductive FileCall where
  /-- There is one more table. -/
  | table (capacity : Nat)
  /-- A file is opened through a table. -/
  | openFile (place : Nat) (name : String) (mode : OpenMode)
  /-- A descriptor is closed. -/
  | close (place : Nat) (fd : Fd)
  /-- All descriptors of a table are closed. -/
  | closeAll (place : Nat)
  /-- Bytes are read through a descriptor, and can be delivered or not. -/
  | read (place : Nat) (fd : Fd) (count : Nat) (delivered : Bool)
  /-- Bytes are written through a descriptor. -/
  | write (place : Nat) (fd : Fd) (data : List UInt8)
  /-- An open file is marked for deletion. -/
  | mark (name : String)
  /-- A name is deleted. -/
  | unlink (name : String)

namespace SharedFiles

variable {κ : Type}

/-- Before the first call there is no table, and nothing is registered. -/
def start (world : World RamDisk κ) : SharedFiles κ := ⟨[], .empty, world⟩

/-- The files after an operation on a table. If it is refused the table stays as it was; a place without a table is no place to
operate on. -/
def onTable (s : SharedFiles κ) (place : Nat)
    (act : Descriptors → Except KernelError Descriptors × Registry × World RamDisk κ) : SharedFiles κ :=
  match s.tables[place]? with
  | none => s
  | some t => ⟨s.tables.set place ((act t).1.toOption.getD t), (act t).2.1, (act t).2.2⟩

variable [Console κ]

/-- The files after a call. -/
def step (s : SharedFiles κ) : FileCall → SharedFiles κ
  | .table capacity => { s with tables := s.tables ++ [.create capacity] }
  | .openFile place name mode => s.onTable place fun t =>
    let found := t.openFile s.registry s.world name mode
    (found.1.map Prod.snd, found.2)
  | .close place fd => s.onTable place fun t => t.close s.registry s.world fd
  | .closeAll place => s.onTable place fun t =>
    let found := t.closeAll s.registry s.world
    (.ok found.2.1, found.2.2)
  | .read place fd count delivered => s.onTable place fun t =>
    let found := t.readWith s.world fd count fun _ => if delivered then .ok () else .error KernelError.invalidAddress
    (found.1.map fun read => read.2.2, s.registry, found.2)
  | .write place fd data => s.onTable place fun t =>
    let found := t.write s.world fd data
    (found.1.map Prod.snd, s.registry, found.2)
  | .mark name => { s with
    registry := (s.registry.markForDeletion s.world name).2.1
    world := (s.registry.markForDeletion s.world name).2.2 }
  | .unlink name => { s with
    registry := (s.registry.unlink s.world name).2.1
    world := (s.registry.unlink s.world name).2.2 }

/-- The files after several calls. -/
def run (s : SharedFiles κ) (calls : List FileCall) : SharedFiles κ := calls.foldl step s

end SharedFiles

/-! ## What an operation on a table keeps -/

/-- What an operation on a table comes to when the registry stays in step with the medium and accounts for what the descriptors
refer to, besides handles that got lost. -/
structure Descriptors.Serves {κ : Type} (t : Descriptors) (r : Registry)
    (found : Except KernelError Descriptors × Registry × World RamDisk κ) : Prop where
  /-- Registered names are on the medium, and lead to objects of their own. -/
  settled : found.2.1.Settled found.2.2.medium
  /-- The files of the table afterwards are accounted for, with the others. -/
  accounts : ∀ others, r.Accounts (t.files ++ others) →
    ∃ lost, found.2.1.Accounts ((found.1.toOption.getD t).files ++ (lost ++ others))

namespace Descriptors

variable {κ : Type} {t : Descriptors} {r : Registry} {w : World RamDisk κ}

/-- An operation that leaves the registry as it is and moves no more than cursors. -/
theorem serves_of_perm {result : Except KernelError Descriptors} (hs : r.Settled w.medium)
    (hp : ∀ t', result = .ok t' → t'.files.Perm t.files) : t.Serves r (result, r, w) := by
  refine ⟨hs, fun others h => ⟨[], ?_⟩⟩
  cases result with
  | error e => exact h
  | ok t' => exact h.perm ((hp t' rfl).symm.append_right others)

/-- Opening a file. -/
theorem serves_openFile (hs : r.Settled w.medium) (name : String) (mode : OpenMode) :
    t.Serves r ((t.openFile r w name mode).1.map Prod.snd, (t.openFile r w name mode).2) := by
  have hu : (r.acquire w name mode).2.1.Settled (r.acquire w name mode).2.2.medium :=
    Registry.settled_of_use (.acquire r w name mode) hs
  constructor
  · unfold openFile
    split
    · exact hs
    · split <;> rename_i ha <;> rw [ha] at hu <;> exact hu
  · intro others h
    rcases ho : t.openFile r w name mode with ⟨e | ⟨fd, t'⟩, r', w'⟩
    · rw [registry_of_openFile_error ho]
      exact ⟨[], h⟩
    · exact accounts_openFile_of_large h ho

/-- Closing a descriptor gives back a reference, or is refused. -/
theorem settled_close (hs : r.Settled w.medium) (fd : Fd) : (t.close r w fd).2.1.Settled (t.close r w fd).2.2.medium := by
  unfold close
  split
  · exact hs
  · split
    · exact hs
    · rename_i file _
      have hu : (r.release w file).1.Settled (r.release w file).2.medium := Registry.settled_of_use (.release r w file) hs
      exact hu

/-- Closing a descriptor. -/
theorem serves_close (hs : r.Settled w.medium) (fd : Fd) : t.Serves r (t.close r w fd) := by
  refine ⟨settled_close hs fd, fun others h => ⟨[], ?_⟩⟩
  rcases hc : t.close r w fd with ⟨e | t', r', w'⟩
  · have hr : r' = r := by
      unfold close at hc
      split at hc
      · cases hc
        rfl
      · split at hc <;> cases hc
    rw [hr]
    exact h
  · exact (accounts_close h hc).1

/-- Giving back references one after another. -/
theorem settled_releaseAll (hs : r.Settled w.medium) (gone : List OpenFile) :
    (releaseAll r w gone).1.Settled (releaseAll r w gone).2.medium := by
  induction gone generalizing r w with
  | nil => exact hs
  | cons file rest ih =>
    rw [releaseAll, List.foldl_cons, ← releaseAll]
    exact ih (Registry.settled_of_use (.release r w file) hs)

/-- Closing all descriptors leaves none that refers to a file. -/
theorem serves_closeAll (hs : r.Settled w.medium) : t.Serves r (.ok (t.closeAll r w).2.1, (t.closeAll r w).2.2) := by
  refine ⟨settled_releaseAll hs t.files, fun others h => ⟨[], ?_⟩⟩
  have hnone : (t.closeAll r w).2.1.files = [] := by simp [closeAll, files]
  have hrest : (t.closeAll r w).2.2.1.Accounts others := (h.releaseAll w).1
  change Registry.Accounts _ ((t.closeAll r w).2.1.files ++ others)
  rw [hnone]
  exact hrest

variable [Console κ]

/-- Fetching bytes, which are read from the medium or typed. -/
theorem settled_fetch (hs : r.Settled w.medium) (fd : Fd) (count : Nat) : r.Settled (t.fetch w fd count).2.medium := by
  unfold fetch
  split
  · exact hs
  · split
    · exact hs
    · exact hs
    · rename_i d _ _ file _
      have hu : r.Settled (w.readAt file.object d.cursor count).2.medium :=
        Registry.settled_of_use (.read r w file d.cursor count) hs
      split <;> rename_i hr <;> rw [hr] at hu <;> exact hu

/-- Reading through a descriptor moves its cursor, if the bytes could be delivered. -/
theorem serves_readWith {α : Type} (hs : r.Settled w.medium) (fd : Fd) (count : Nat)
    (deliver : List UInt8 → Except KernelError α) :
    t.Serves r ((t.readWith w fd count deliver).1.map fun read => read.2.2, r, (t.readWith w fd count deliver).2) := by
  have hf : r.Settled (t.fetch w fd count).2.medium := settled_fetch hs fd count
  refine serves_of_perm ?_ ?_
  · unfold readWith
    split <;> rename_i hfetch <;> rw [hfetch] at hf
    · exact hf
    · split <;> exact hf
  · intro t' ht
    rcases hr : t.readWith w fd count deliver with ⟨e | ⟨bytes, a, t''⟩, w'⟩
    · rw [hr] at ht
      cases ht
    · rw [hr] at ht
      cases ht
      exact (files_readWith hr).1

/-- Writing through a descriptor moves its cursor, if the medium takes the bytes. -/
theorem serves_write (hs : r.Settled w.medium) (fd : Fd) (data : List UInt8) :
    t.Serves r ((t.write w fd data).1.map Prod.snd, r, (t.write w fd data).2) := by
  refine serves_of_perm ?_ ?_
  · unfold write
    split
    · exact hs
    · rename_i d hd
      split
      · exact hs
      · have hm : (w.display data).2.medium = w.medium := by
          unfold World.display
          split <;> rfl
        rw [← hm] at hs
        exact hs
      · rename_i file hstream
        have hu : r.Settled (w.writeAt file.object d.cursor data).2.medium :=
          Registry.settled_of_use (.write r w file d.cursor data) hs
        split <;> rename_i hw <;> rw [hw] at hu <;> exact hu
  · intro t' ht
    rcases hw : t.write w fd data with ⟨e | ⟨count, t''⟩, w'⟩
    · rw [hw] at ht
      cases ht
    · rw [hw] at ht
      cases ht
      exact (files_write hw).1

end Descriptors

/-- A file that is accounted for is registered under its name, and the name leads to its object. -/
theorem Registry.Settled.registered {r : Registry} {d : RamDisk} {files : List OpenFile} {file : OpenFile} (hs : r.Settled d)
    (ha : r.Accounts files) (hm : file ∈ files) :
    (∃ entry, r.find? file.name = some entry ∧ entry.file = file) ∧ d.names[file.name]? = some file.object := by
  obtain ⟨entry, hf, he⟩ := ha.shared hm
  refine ⟨⟨entry, hf, he⟩, ?_⟩
  rw [← he]
  exact hs.named _ entry (he ▸ hf)

/-! ## Every run -/

namespace SharedFiles

variable {κ : Type} {s : SharedFiles κ}

/-- The files of all tables, one for each descriptor that refers to one. -/
def files (s : SharedFiles κ) : List OpenFile := s.tables.flatMap Descriptors.files

/-- The registry is in step with the medium and accounts for what the descriptors refer to, besides handles that got lost. -/
structure Sound (s : SharedFiles κ) : Prop where
  /-- Registered names are on the medium, and lead to objects of their own. -/
  settled : s.registry.Settled s.world.medium
  /-- The files of all descriptors are accounted for, with others. -/
  accounts : ∃ lost, s.registry.Accounts (s.files ++ lost)

/-- The files stay sound through an operation on a table that serves the registry. -/
theorem Sound.onTable (h : s.Sound) (place : Nat) {act : Descriptors → Except KernelError Descriptors × Registry × World RamDisk κ}
    (hact : ∀ t : Descriptors, t.Serves s.registry (act t)) : (s.onTable place act).Sound := by
  unfold SharedFiles.onTable
  cases ht : s.tables[place]? with
  | none => exact h
  | some t =>
    obtain ⟨lost, hlost⟩ := h.accounts
    obtain ⟨others, hold, hset⟩ := flatMap_set Descriptors.files ht
    have hbefore : s.registry.Accounts (t.files ++ (others ++ lost)) := by
      rw [← List.append_assoc]
      exact hlost.perm (hold.append_right lost)
    obtain ⟨lost', hafter⟩ := (hact t).accounts (others ++ lost) hbefore
    refine ⟨(hact t).settled, lost' ++ lost, hafter.perm ?_⟩
    let kept := (act t).1.toOption.getD t
    have hkept : (kept.files ++ others).Perm ((s.tables.set place kept).flatMap Descriptors.files) := (hset kept).symm
    exact (perm_regroup kept.files lost' others lost).trans (hkept.append_right (lost' ++ lost))

/-- Before the first call they are sound. -/
theorem sound_start {world : World RamDisk κ} (hw : world.medium.Whole) (hs : world.medium.Separate) : (start world).Sound :=
  ⟨⟨Registry.stored_empty hw, hs⟩, [], Registry.accounts_empty⟩

/-- The files of one table are accounted for, with others. -/
theorem Sound.accounts_table (h : s.Sound) {place : Nat} {t : Descriptors} (ht : s.tables[place]? = some t) :
    ∃ others, s.registry.Accounts (t.files ++ others) := by
  obtain ⟨lost, hlost⟩ := h.accounts
  obtain ⟨others, hold, -⟩ := flatMap_set Descriptors.files ht
  refine ⟨others ++ lost, ?_⟩
  rw [← List.append_assoc]
  exact hlost.perm (hold.append_right lost)

/-- The file of a descriptor is stored under its name. -/
theorem Sound.names (h : s.Sound) {place : Nat} {t : Descriptors} {fd : Fd} {d : Descriptor} {file : OpenFile}
    (ht : s.tables[place]? = some t) (hd : t.get? fd = some d) (hf : d.file? = some file) :
    s.world.medium.names[file.name]? = some file.object := by
  obtain ⟨others, ha⟩ := h.accounts_table ht
  exact (h.settled.registered ha (List.mem_append_left others (Descriptors.mem_files hd hf))).2

variable [Console κ]

/-- The files stay sound through every call. -/
theorem Sound.step (h : s.Sound) (c : FileCall) : (s.step c).Sound := by
  obtain ⟨lost, hlost⟩ := h.accounts
  cases c with
  | table capacity =>
    have hfiles : (s.step (.table capacity)).files = s.files := by
      simp [SharedFiles.step, files, ProcessTable.files_create]
    refine ⟨h.settled, lost, ?_⟩
    rw [hfiles]
    exact hlost
  | openFile place name mode => exact h.onTable place fun t => Descriptors.serves_openFile h.settled name mode
  | close place fd => exact h.onTable place fun t => Descriptors.serves_close h.settled fd
  | closeAll place => exact h.onTable place fun t => Descriptors.serves_closeAll h.settled
  | read place fd count delivered => exact h.onTable place fun t => Descriptors.serves_readWith h.settled fd count _
  | write place fd data => exact h.onTable place fun t => Descriptors.serves_write h.settled fd data
  | mark name =>
    have hu : Registry.Settled (s.registry.markForDeletion s.world name).2.1
        (s.registry.markForDeletion s.world name).2.2.medium :=
      Registry.settled_of_use (.mark s.registry s.world name) h.settled
    refine ⟨hu, lost, ?_⟩
    change Registry.Accounts (s.registry.markForDeletion s.world name).2.1 (s.files ++ lost)
    unfold Registry.markForDeletion
    split
    · exact hlost
    · rename_i entry hf
      exact hlost.put_pending hf true
  | unlink name =>
    have hu : Registry.Settled (s.registry.unlink s.world name).2.1 (s.registry.unlink s.world name).2.2.medium :=
      Registry.settled_of_use (.unlink s.registry s.world name) h.settled
    exact ⟨hu, lost, hlost.unlink s.world name⟩

/-- The files stay sound through every run. -/
theorem Sound.run (h : s.Sound) (calls : List FileCall) : (s.run calls).Sound := by
  induction calls generalizing s with
  | nil => exact h
  | cons c rest ih => exact ih (h.step c)

end SharedFiles

end Nucleus
