import Nucleus.Proofs.Effects
import Mathlib.Data.List.Perm.Basic

/-!
# The registry and the references it counts

A registry accounts for some open files, given one for each descriptor that refers to one, when the files of every name are the
one that is registered, as often as references to it are counted. Opening a name adds a file to those accounted for, a release
takes one away, and a release of a file that is accounted for is never refused.
-/

namespace Nucleus

/-- The handles that an entry stands for, one for each reference. -/
def Entry.handles (e : Entry) : List OpenFile := List.replicate e.refs e.file

namespace Registry

/-- Those of some open files that have a name. -/
def named (files : List OpenFile) (name : String) : List OpenFile := files.filter fun file => file.name = name

/-- How many of some open files have a name. -/
def uses (files : List OpenFile) (name : String) : Nat := (named files name).length

theorem named_cons (file : OpenFile) (files : List OpenFile) (name : String) :
    named (file :: files) name = if file.name = name then file :: named files name else named files name := by
  simp [named, List.filter_cons]

/-- The registry accounts for some open files. -/
structure Accounts (r : Registry) (files : List OpenFile) : Prop where
  /-- The files of a registered name are the handles that its entry stands for; a name that is not registered is that of no file.
  -/
  handles : ∀ name, named files name = ((r.find? name).map Entry.handles).getD []
  /-- A name is registered only as long as there are references to it. -/
  held : ∀ name entry, r.find? name = some entry → 0 < entry.refs

/-- A registry without entries accounts for no files. -/
theorem accounts_empty : Accounts .empty [] :=
  ⟨fun name => by rw [find?_empty]; rfl, fun name entry h => by rw [find?_empty] at h; cases h⟩

variable {r : Registry} {files files' : List OpenFile} {name : String} {entry : Entry}

/-- It does not matter in which order the files are listed. -/
theorem Accounts.perm (h : r.Accounts files) (hp : files.Perm files') : r.Accounts files' where
  handles name := by
    have hn : (named files name).Perm (named files' name) := hp.filter _
    rw [h.handles name] at hn
    cases hf : r.find? name with
    | none =>
      rw [hf] at hn
      exact hn.symm.eq_nil
    | some entry =>
      rw [hf] at hn
      exact List.perm_replicate.mp hn.symm
  held := h.held

/-- A file that is accounted for is the one registered under its name. -/
theorem Accounts.shared (h : r.Accounts files) {file : OpenFile} (hm : file ∈ files) :
    ∃ entry, r.find? file.name = some entry ∧ entry.file = file := by
  have hn : file ∈ named files file.name := List.mem_filter.mpr ⟨hm, decide_eq_true rfl⟩
  rw [h.handles] at hn
  cases hf : r.find? file.name with
  | none =>
    rw [hf] at hn
    cases hn
  | some entry =>
    rw [hf] at hn
    exact ⟨entry, rfl, (List.eq_of_mem_replicate hn).symm⟩

/-- A registered file has the name it is registered under. -/
theorem Accounts.titled (h : r.Accounts files) (hf : r.find? name = some entry) : entry.file.name = name := by
  have hm : entry.file ∈ named files name := by
    rw [h.handles, hf]
    exact List.mem_replicate.mpr ⟨Nat.ne_of_gt (h.held name entry hf), rfl⟩
  exact of_decide_eq_true (List.mem_filter.mp hm).2

/-- The references counted under a name are as many as the files of the name; none are counted for a name that no file has. -/
theorem Accounts.refCount?_eq (h : r.Accounts files) (name : String) :
    r.refCount? name = if uses files name = 0 then none else some (uses files name) := by
  have hh := congrArg List.length (h.handles name)
  unfold refCount?
  cases hf : r.find? name with
  | none =>
    rw [hf] at hh
    exact (if_pos hh).symm
  | some entry =>
    rw [hf, Option.map_some, Option.getD_some, Entry.handles, List.length_replicate] at hh
    have hpos : ¬uses files name = 0 := fun h0 => Nat.ne_of_gt (h.held name entry hf) (hh.symm.trans h0)
    rw [if_neg hpos]
    exact congrArg some hh.symm

/-- One more reference counted under a name is one more file accounted for. -/
theorem Accounts.put_cons (h : r.Accounts files) (hn : entry.file.name = name)
    (he : entry.handles = entry.file :: ((r.find? name).map Entry.handles).getD []) :
    (r.put name entry).Accounts (entry.file :: files) where
  handles other := by
    rw [named_cons, hn, find?_put]
    split
    · rename_i ho
      rw [← ho, h.handles, ← he]
      rfl
    · exact h.handles other
  held other e hf := by
    rw [find?_put] at hf
    split at hf
    · cases hf
      have hlen := congrArg List.length he
      rw [Entry.handles, List.length_replicate, List.length_cons] at hlen
      omega
    · exact h.held other e hf

/-- The handles of the name of a file, when this file is accounted for. -/
theorem Accounts.handles_head {file : OpenFile} (h : r.Accounts (file :: files)) (hf : r.find? file.name = some entry) :
    entry.handles = file :: named files file.name := by
  have hh := h.handles file.name
  rw [named_cons, if_pos rfl, hf] at hh
  exact hh.symm

/-- Every other name has the same files with or without this one. -/
theorem Accounts.handles_tail {file : OpenFile} (h : r.Accounts (file :: files)) {other : String} (hne : file.name ≠ other) :
    named files other = ((r.find? other).map Entry.handles).getD [] := by
  have hh := h.handles other
  rwa [named_cons, if_neg hne] at hh

/-- One reference less counted is one file less accounted for, as long as one is left. -/
theorem Accounts.put_tail {file : OpenFile} (h : r.Accounts (file :: files)) (hf : r.find? file.name = some entry)
    (hpos : 0 < entry.refs - 1) : (r.put file.name { entry with refs := entry.refs - 1 }).Accounts files where
  handles other := by
    rw [find?_put]
    split
    · rename_i hn
      have ht := congrArg List.tail (h.handles_head hf)
      rw [Entry.handles, List.tail_replicate, List.tail_cons] at ht
      rw [← hn]
      exact ht.symm
    · rename_i hn
      exact h.handles_tail hn
  held other e hfo := by
    rw [find?_put] at hfo
    split at hfo
    · cases hfo
      exact hpos
    · exact h.held other e hfo

/-- Without its last reference a name is not registered any more. -/
theorem Accounts.drop_tail {file : OpenFile} (h : r.Accounts (file :: files)) (hf : r.find? file.name = some entry)
    (hlast : entry.refs - 1 = 0) : (r.drop file.name).Accounts files where
  handles other := by
    rw [find?_drop]
    split
    · rename_i hn
      have ht := congrArg List.tail (h.handles_head hf)
      rw [Entry.handles, List.tail_replicate, List.tail_cons, hlast] at ht
      rw [← hn]
      exact ht.symm
    · rename_i hn
      exact h.handles_tail hn
  held other e hfo := by
    rw [find?_drop] at hfo
    split at hfo
    · cases hfo
    · exact h.held other e hfo

/-- What a registry accounts for does not depend on what is to be deleted. -/
theorem Accounts.put_pending (h : r.Accounts files) (hf : r.find? name = some entry) (pending : Bool) :
    (r.put name { entry with pending }).Accounts files where
  handles other := by
    rw [find?_put]
    split
    · rename_i hn
      have hh := h.handles other
      rw [← hn, hf] at hh
      rwa [hn] at hh
    · exact h.handles other
  held other e hfo := by
    rw [find?_put] at hfo
    split at hfo
    · cases hfo
      exact h.held name entry hf
    · exact h.held other e hfo

/-! ## What the operations of the registry account for -/

section Medium

variable {μ κ : Type} [Medium μ] {w w' : World μ κ} {r' : Registry} {mode : OpenMode} {file : OpenFile}

/-- Opening a name that cannot be opened leaves the registry as it is. -/
theorem acquire_error {e : KernelError} (h : r.acquire w name mode = (.error e, r', w')) : r' = r := by
  unfold acquire acquireNew acquireShared at h
  split at h
  · split at h
    · cases h
      rfl
    · cases h
  · split at h
    · cases h
      rfl
    · split at h
      · split at h
        · cases h
          rfl
        · cases h
      · cases h

omit [Medium μ] in
/-- Who shares a registered file has the file that is registered, and the registry one more reference. -/
theorem Accounts.acquireShared (h : r.Accounts files) (hf : r.find? name = some entry)
    (ho : r.acquireShared w name entry = (.ok file, r', w')) : r'.Accounts (file :: files) := by
  have ht : entry.file.name = name := h.titled hf
  have hc : (r.put name { entry with refs := entry.refs + 1 }).Accounts (entry.file :: files) :=
    h.put_cons ht (by rw [hf]; rfl)
  unfold Registry.acquireShared at ho
  cases ho
  exact hc

/-- A name that was opened is one more file accounted for. -/
theorem Accounts.acquire (h : r.Accounts files) (ho : r.acquire w name mode = (.ok file, r', w')) :
    r'.Accounts (file :: files) := by
  unfold Registry.acquire at ho
  split at ho
  · rename_i hf
    unfold acquireNew at ho
    split at ho
    · cases ho
    · rename_i object w'' hl
      have hc : (r.put name ⟨⟨w''.opened, name, object⟩, 1, false⟩).Accounts (⟨w''.opened, name, object⟩ :: files) :=
        h.put_cons rfl (by rw [hf]; rfl)
      cases ho
      exact hc
  · rename_i entry hf
    split at ho
    · cases ho
    · split at ho
      · split at ho
        · cases ho
        · exact h.acquireShared hf ho
      · exact h.acquireShared hf ho

/-- A file is opened by its name. -/
theorem Accounts.name_of_acquire (h : r.Accounts files) (ho : r.acquire w name mode = (.ok file, r', w')) : file.name = name := by
  unfold Registry.acquire acquireNew Registry.acquireShared at ho
  split at ho
  · split at ho
    · cases ho
    · cases ho
      rfl
  · rename_i entry hf
    split at ho
    · cases ho
    · split at ho
      · split at ho
        · cases ho
        · cases ho
          exact h.titled hf
      · cases ho
        exact h.titled hf

/-- The release of a file that is accounted for takes it away and is not refused. -/
theorem Accounts.release (h : r.Accounts (file :: files)) (w : World μ κ) :
    (r.release w file).1.Accounts files ∧ w.Adds Effect.isPlain (r.release w file).2 := by
  obtain ⟨entry, hf, he⟩ := h.shared List.mem_cons_self
  refine ⟨?_, adds_release_of_find? w hf he⟩
  unfold Registry.release
  rw [hf]
  dsimp only
  rw [if_neg (not_not_intro he)]
  split
  · rename_i hpos
    exact h.put_tail hf hpos
  · rename_i hpos
    exact h.drop_tail hf (Nat.eq_zero_of_not_pos hpos)

/-- The release of several files that are accounted for takes them away, and none is refused. -/
theorem Accounts.releaseAll {gone : List OpenFile} (h : r.Accounts (gone ++ files)) (w : World μ κ) :
    (Descriptors.releaseAll r w gone).1.Accounts files ∧ w.Adds Effect.isPlain (Descriptors.releaseAll r w gone).2 := by
  induction gone generalizing r w with
  | nil => exact ⟨h, .refl w⟩
  | cons file rest ih =>
    rw [Descriptors.releaseAll, List.foldl_cons, ← Descriptors.releaseAll]
    obtain ⟨hr, ha⟩ := Accounts.release h w
    obtain ⟨hr', ha'⟩ := ih hr (r.release w file).2
    exact ⟨hr', ha.trans ha'⟩

/-- Deleting a name neither adds nor takes away a file. -/
theorem Accounts.unlink (h : r.Accounts files) (w : World μ κ) (name : String) : (r.unlink w name).2.1.Accounts files := by
  unfold Registry.unlink
  split
  · rename_i entry hf
    split
    · exact h
    · exact h.put_pending hf true
  · split <;> exact h

end Medium

end Registry

end Nucleus
