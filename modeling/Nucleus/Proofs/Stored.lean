import Nucleus.File.Registry
import Nucleus.Device.RamDisk

/-!
# Registered files and what is stored

A registry that is used over a medium in memory, by nobody else: names are opened, released, marked and unlinked, and bytes are
moved through the handles, in any order. At every point of such a use a registered name is on the medium and leads to the object
of its open file (`Reached.stored`), and if no two names led to one object at first, none do (`settled_of_use`). What opening a name
does to the medium is said once for each of its paths (`acquire_cases`).
-/

namespace Nucleus

namespace RamDisk

/-- Every name leads to an object that was made. -/
def Whole (d : RamDisk) : Prop := ∀ (name : String) (id : ObjectId), d.names[name]? = some id → id.number < d.objects.length

/-- A medium without any object is whole. -/
theorem whole_empty (capacity : Option Nat) : (empty capacity).Whole := by
  intro name id h
  rw [empty, Std.ExtTreeMap.getElem?_empty] at h
  cases h

variable {d : RamDisk} {name : String} {id : ObjectId}

/-- Contents that are put into the object of a name are stored under the name. -/
theorem contents?_putObject (hw : d.Whole) (h : d.names[name]? = some id) (contents : List UInt8) :
    (d.putObject id contents).contents? name = some contents := by
  have hname : (d.putObject id contents).names[name]? = some id := h
  rw [contents?, hname, Option.map_some, object_putObject _ _ _ _ (hw name id h), if_pos rfl]

/-- A medium stays whole when contents are put into an object. -/
theorem Whole.putObject (hw : d.Whole) (id : ObjectId) (contents : List UInt8) : (d.putObject id contents).Whole := by
  intro name other h
  have hlen : (d.putObject id contents).objects.length = d.objects.length := List.length_set
  rw [hlen]
  exact hw name other h

/-- The object of a name that is there is emptied. -/
theorem create_of_some (h : d.names[name]? = some id) : d.create name = (id, d.putObject id []) := by
  rw [create, h]

/-- An object is made for a name that is not there. -/
theorem create_of_none (h : d.names[name]? = none) :
    d.create name =
      (⟨d.objects.length⟩, { d with names := d.names.insert name ⟨d.objects.length⟩, objects := d.objects ++ [[]] }) := by
  rw [create, h]

/-- After a name was made it leads to its object, which is empty, and every other name leads where it led. -/
theorem names_create (d : RamDisk) (name other : String) :
    (d.create name).2.names[other]? = if name = other then some (d.create name).1 else d.names[other]? := by
  cases h : d.names[name]? with
  | some id =>
    rw [create_of_some h]
    split
    · rename_i ho
      exact ho ▸ h
    · rfl
  | none =>
    rw [create_of_none h]
    simp [Std.ExtTreeMap.getElem?_insert]

theorem contents?_create (hw : d.Whole) (name : String) : (d.create name).2.contents? name = some [] := by
  cases h : d.names[name]? with
  | some id =>
    rw [create_of_some h]
    exact contents?_putObject hw h []
  | none =>
    rw [create_of_none h]
    simp [contents?, object]

/-- A medium stays whole when a name is made. -/
theorem Whole.create (hw : d.Whole) (name : String) : (d.create name).2.Whole := by
  cases h : d.names[name]? with
  | some id =>
    rw [create_of_some h]
    exact hw.putObject id []
  | none =>
    intro other id ho
    have hn := names_create d name other
    rw [ho] at hn
    rw [create_of_none h] at hn ⊢
    rw [List.length_append, List.length_singleton]
    split at hn
    · cases hn
      exact Nat.lt_succ_self _
    · exact Nat.lt_succ_of_lt (hw other id hn.symm)

/-- A name that was taken off the medium is gone, and every other name leads where it led. -/
theorem names_remove (d : RamDisk) (name other : String) :
    (d.remove name).2.names[other]? = if name = other then none else d.names[other]? := by
  unfold remove
  split
  · simp [Std.ExtTreeMap.getElem?_erase]
  · rename_i hn
    split
    · rename_i ho
      have hnone : d.names[name]? = none := Std.ExtTreeMap.getElem?_eq_none_of_contains_eq_false (Bool.eq_false_iff.mpr hn)
      rw [← ho]
      exact hnone
    · rfl

/-- A medium stays whole when a name is taken off it. -/
theorem Whole.remove (hw : d.Whole) (name : String) : (d.remove name).2.Whole := by
  intro other id h
  rw [names_remove] at h
  have hlen : (d.remove name).2.objects = d.objects := by
    unfold RamDisk.remove
    split <;> rfl
  split at h
  · cases h
  · rw [hlen]
    exact hw other id h

/-- No two names lead to one object. -/
def Separate (d : RamDisk) : Prop :=
  ∀ (name other : String) (id : ObjectId), d.names[name]? = some id → d.names[other]? = some id → name = other

/-- A medium without any object has no two names. -/
theorem separate_empty (capacity : Option Nat) : (empty capacity).Separate := by
  intro name other id h
  rw [empty, Std.ExtTreeMap.getElem?_empty] at h
  cases h

/-- A name that is made gets an object of its own. -/
theorem Separate.create (hs : d.Separate) (hw : d.Whole) (name : String) : (d.create name).2.Separate := by
  cases h : d.names[name]? with
  | some id =>
    rw [create_of_some h]
    exact hs
  | none =>
    have hnew : ∀ (other : String) (id : ObjectId), d.names[other]? = some id → id ≠ (d.create name).1 := by
      intro other id ho he
      have hlt : id.number < d.objects.length := hw other id ho
      rw [he, create_of_none h] at hlt
      exact Nat.lt_irrefl _ hlt
    intro one other id h1 h2
    rw [names_create] at h1 h2
    split at h1 <;> split at h2
    · rename_i hn ho
      exact hn.symm.trans ho
    · cases h1
      exact absurd rfl (hnew other _ h2)
    · cases h2
      exact absurd rfl (hnew one _ h1)
    · exact hs one other id h1 h2

/-- Names stay apart when one is taken off. -/
theorem Separate.remove (hs : d.Separate) (name : String) : (d.remove name).2.Separate := by
  intro one other id h1 h2
  rw [names_remove] at h1 h2
  split at h1
  · cases h1
  · split at h2
    · cases h2
    · exact hs one other id h1 h2

/-- Contents that are put into the object of a name are stored under this name and change what is stored under no other. -/
theorem Separate.contents?_putObject (hs : d.Separate) (hw : d.Whole) (h : d.names[name]? = some id) (contents : List UInt8)
    (other : String) : (d.putObject id contents).contents? other = if name = other then some contents else d.contents? other := by
  split
  · rename_i hn
    rw [← hn]
    exact RamDisk.contents?_putObject hw h contents
  · rename_i hn
    have hnames : (d.putObject id contents).names[other]? = d.names[other]? := rfl
    unfold contents?
    rw [hnames]
    cases ho : d.names[other]? with
    | none => rfl
    | some id' =>
      have hid : id ≠ id' := fun he => hn (hs name other id h (he ▸ ho))
      rw [Option.map_some, Option.map_some, object_putObject _ _ _ _ (hw name id h), if_neg hid]

/-- What one request does to a medium in memory. -/
inductive Edit (d : RamDisk) : RamDisk → Prop where
  /-- Nothing. -/
  | nothing : Edit d d
  /-- An object gets other contents. -/
  | put (id : ObjectId) (contents : List UInt8) : Edit d (d.putObject id contents)
  /-- A name is made or emptied. -/
  | create (name : String) : Edit d (d.create name).2
  /-- A name is taken off, if it is there. -/
  | remove (name : String) : Edit d (d.remove name).2

/-- Every request keeps names apart. -/
theorem Separate.edit {d' : RamDisk} (hs : d.Separate) (hw : d.Whole) (he : Edit d d') : d'.Separate := by
  cases he with
  | nothing => exact hs
  | put id contents => exact hs
  | create name => exact hs.create hw name
  | remove name => exact hs.remove name

end RamDisk

namespace Registry

/-- One use of a registry over a medium, or of a handle that it gave out. -/
inductive Use {μ κ : Type} [Medium μ] : Registry × World μ κ → Registry × World μ κ → Prop where
  /-- A name is opened, or cannot be. -/
  | acquire (r : Registry) (w : World μ κ) (name : String) (mode : OpenMode) : Use (r, w) (r.acquire w name mode).2
  /-- A handle is given back. -/
  | release (r : Registry) (w : World μ κ) (file : OpenFile) : Use (r, w) (r.release w file)
  /-- An open file is marked for deletion. -/
  | mark (r : Registry) (w : World μ κ) (name : String) : Use (r, w) (r.markForDeletion w name).2
  /-- A name is unlinked, or cannot be. -/
  | unlink (r : Registry) (w : World μ κ) (name : String) : Use (r, w) (r.unlink w name).2
  /-- All entries are dropped. -/
  | clear (r : Registry) (w : World μ κ) : Use (r, w) (.empty, w)
  /-- Bytes are read through a handle. -/
  | read (r : Registry) (w : World μ κ) (file : OpenFile) (position count : Nat) :
      Use (r, w) (r, (w.readAt file.object position count).2)
  /-- Bytes are written through a handle. -/
  | write (r : Registry) (w : World μ κ) (file : OpenFile) (position : Nat) (data : List UInt8) :
      Use (r, w) (r, (w.writeAt file.object position data).2)
  /-- A file is emptied through a handle. -/
  | truncate (r : Registry) (w : World μ κ) (file : OpenFile) : Use (r, w) (r, (w.truncate file.object).2)

/-- What uses lead to from a registry without entries over a medium in memory, whatever was stored there before. -/
inductive Reached {κ : Type} : Registry × World RamDisk κ → Prop where
  /-- Before the first use. -/
  | start (w : World RamDisk κ) (h : w.medium.Whole) : Reached (.empty, w)
  /-- After one more. -/
  | use {s s' : Registry × World RamDisk κ} (h : Reached s) (hu : Use s s') : Reached s'

/-- Every registered name is on the medium and leads to the object of its open file. -/
structure Stored (r : Registry) (d : RamDisk) : Prop where
  /-- Every name leads to an object that was made. -/
  whole : d.Whole
  /-- A registered name leads to the object of its open file. -/
  named : ∀ name entry, r.find? name = some entry → d.names[name]? = some entry.file.object

variable {κ : Type} {r : Registry} {d : RamDisk} {w : World RamDisk κ} {name : String} {entry : Entry} {id : ObjectId}
  {mode : OpenMode}

/-! ## What opening a name does -/

/-- A medium in memory finds a name or does not, and stays as it is. -/
theorem find_eq (w : World RamDisk κ) (name : String) : w.find name = (w.medium.find name, w) := rfl

/-- A medium in memory always makes an object. -/
theorem create_eq (w : World RamDisk κ) (name : String) :
    w.create name =
      (.ok (w.medium.create name).1, { w with medium := (w.medium.create name).2 }.note (.mediumCreated name)) := rfl

/-- What is on the medium is found there; only a mode that both creates and truncates makes it anew. -/
theorem lookUp_of_some (hn : w.medium.names[name]? = some id) (mode : OpenMode) :
    ∃ w', lookUp w name mode = (.ok id, w') ∧ w'.opened = w.opened ∧
      w'.medium = if mode.creates && mode.truncates then w.medium.putObject id [] else w.medium := by
  have hfind : w.find name = (.ok id, w) := by rw [find_eq, RamDisk.find, hn]
  unfold lookUp
  cases hc : mode.creates with
  | false => exact ⟨w, hfind, rfl, rfl⟩
  | true =>
    cases ht : mode.truncates with
    | false =>
      simp only [hfind]
      exact ⟨w, rfl, rfl, rfl⟩
    | true =>
      have hcreate : w.create name =
          (.ok id, { w with medium := w.medium.putObject id [] }.note (.mediumCreated name)) := by
        rw [create_eq, RamDisk.create_of_some hn]
      exact ⟨_, hcreate, rfl, rfl⟩

/-- What is not on the medium is made if the mode creates. -/
theorem lookUp_of_none (hn : w.medium.names[name]? = none) (hc : mode.creates = true) :
    ∃ w', lookUp w name mode = (.ok (w.medium.create name).1, w') ∧ w'.opened = w.opened ∧
      w'.medium = (w.medium.create name).2 := by
  have hfind : w.find name = (.error .notFound, w) := by rw [find_eq, RamDisk.find, hn]
  unfold lookUp
  rw [hc]
  cases ht : mode.truncates with
  | false =>
    simp only [hfind]
    exact ⟨_, create_eq w name, rfl, rfl⟩
  | true => exact ⟨_, create_eq w name, rfl, rfl⟩

/-- A name that is not registered, but on the medium, is opened whatever the mode. -/
theorem acquire_stored (hf : r.find? name = none) (hn : w.medium.names[name]? = some id) (mode : OpenMode) :
    ∃ w', r.acquire w name mode = (.ok ⟨w.opened, name, id⟩, r.put name ⟨⟨w.opened, name, id⟩, 1, false⟩, w') ∧
      w'.medium = if mode.creates && mode.truncates then w.medium.putObject id [] else w.medium := by
  obtain ⟨w', hl, ho, hm⟩ := lookUp_of_some hn mode
  unfold acquire acquireNew
  rw [hf, hl, ← ho]
  exact ⟨_, rfl, hm⟩

/-- A name that is neither registered nor on the medium is made if the mode creates. -/
theorem acquire_missing (hf : r.find? name = none) (hn : w.medium.names[name]? = none) (hc : mode.creates = true) :
    ∃ file w', r.acquire w name mode = (.ok file, r.put name ⟨file, 1, false⟩, w') ∧
      file.object = (w.medium.create name).1 ∧ w'.medium = (w.medium.create name).2 := by
  obtain ⟨w', hl, -, hm⟩ := lookUp_of_none hn hc
  unfold acquire acquireNew
  rw [hf, hl]
  exact ⟨_, _, rfl, rfl, hm⟩

/-- It is not opened otherwise. -/
theorem acquire_missing_error (hf : r.find? name = none) (hn : w.medium.names[name]? = none) (hc : mode.creates = false) :
    r.acquire w name mode = (.error (.ofStorage .notFound), r, w) := by
  have hl : lookUp w name mode = (.error .notFound, w) := by
    unfold lookUp
    rw [hc, find_eq, RamDisk.find, hn]
    rfl
  unfold acquire acquireNew
  rw [hf, hl]

/-- A registered name is shared, and emptied if the mode truncates. -/
theorem acquire_registered (hf : r.find? name = some entry) (hp : entry.pending = false) (mode : OpenMode) :
    ∃ w', r.acquire w name mode = (.ok entry.file, r.put name { entry with refs := entry.refs + 1 }, w') ∧
      w'.medium = if mode.truncates then w.medium.putObject entry.file.object [] else w.medium := by
  unfold acquire acquireShared
  rw [hf]
  dsimp only
  rw [if_neg (Bool.eq_false_iff.mp hp)]
  cases mode.truncates with
  | false => exact ⟨_, rfl, rfl⟩
  | true => exact ⟨_, rfl, rfl⟩

/-- A name that waits for its deletion is not opened. -/
theorem acquire_pending (hf : r.find? name = some entry) (hp : entry.pending = true) (mode : OpenMode) :
    r.acquire w name mode = (.error (if mode.creates then .alreadyExists else .notFound), r, w) := by
  unfold acquire
  rw [hf]
  dsimp only
  rw [if_pos hp]

/-- The ways in which a name is opened: not at all, as one that is registered, as one that is on the medium, or as a new one. -/
theorem acquire_cases (r : Registry) (w : World RamDisk κ) (name : String) (mode : OpenMode) :
    (∃ e, r.acquire w name mode = (.error e, r, w)) ∨
    (∃ entry w', r.find? name = some entry ∧
      r.acquire w name mode = (.ok entry.file, r.put name { entry with refs := entry.refs + 1 }, w') ∧
      w'.medium = if mode.truncates then w.medium.putObject entry.file.object [] else w.medium) ∨
    (∃ id w', r.find? name = none ∧ w.medium.names[name]? = some id ∧
      r.acquire w name mode = (.ok ⟨w.opened, name, id⟩, r.put name ⟨⟨w.opened, name, id⟩, 1, false⟩, w') ∧
      w'.medium = if mode.creates && mode.truncates then w.medium.putObject id [] else w.medium) ∨
    ∃ file w', r.find? name = none ∧ r.acquire w name mode = (.ok file, r.put name ⟨file, 1, false⟩, w') ∧
      file.object = (w.medium.create name).1 ∧ w'.medium = (w.medium.create name).2 := by
  cases hf : r.find? name with
  | some entry =>
    cases hp : entry.pending with
    | true => exact .inl ⟨_, acquire_pending hf hp mode⟩
    | false =>
      obtain ⟨w', he, hm⟩ := acquire_registered (w := w) hf hp mode
      exact .inr (.inl ⟨entry, w', rfl, he, hm⟩)
  | none =>
    cases hn : w.medium.names[name]? with
    | some id =>
      obtain ⟨w', he, hm⟩ := acquire_stored hf hn mode
      exact .inr (.inr (.inl ⟨id, w', rfl, rfl, he, hm⟩))
    | none =>
      cases hc : mode.creates with
      | false => exact .inl ⟨_, acquire_missing_error hf hn hc⟩
      | true =>
        obtain ⟨file, w', he, hobj, hm⟩ := acquire_missing hf hn hc
        exact .inr (.inr (.inr ⟨file, w', rfl, he, hobj, hm⟩))

/-! ## Registered names stay on the medium -/

/-- Nothing is registered, so nothing has to be on the medium. -/
theorem stored_empty (hw : d.Whole) : Stored .empty d :=
  ⟨hw, fun name entry hf => by rw [find?_empty] at hf; cases hf⟩

/-- The contents of objects do not matter. -/
theorem Stored.putObject (h : Stored r d) (id : ObjectId) (contents : List UInt8) : Stored r (d.putObject id contents) :=
  ⟨h.whole.putObject id contents, h.named⟩

/-- A name that leads to the object of an open file may be registered with it. -/
theorem Stored.put (h : Stored r d) (hn : d.names[name]? = some entry.file.object) : Stored (r.put name entry) d := by
  refine ⟨h.whole, ?_⟩
  intro other e hf
  rw [find?_put] at hf
  split at hf
  · rename_i ho
    cases hf
    exact ho ▸ hn
  · exact h.named other e hf

/-- An entry may be changed as long as its open file stays. -/
theorem Stored.put_of_find? (h : Stored r d) (hf : r.find? name = some entry) (refs : Nat) (pending : Bool) :
    Stored (r.put name { entry with refs, pending }) d :=
  h.put (h.named name entry hf)

/-- An entry may be taken away. -/
theorem Stored.drop (h : Stored r d) (name : String) : Stored (r.drop name) d := by
  refine ⟨h.whole, ?_⟩
  intro other e hf
  rw [find?_drop] at hf
  split at hf
  · cases hf
  · exact h.named other e hf

/-- A name that is not registered may be made. -/
theorem Stored.create (h : Stored r d) (hf : r.find? name = none) : Stored r (d.create name).2 := by
  refine ⟨h.whole.create name, ?_⟩
  intro other e hfo
  rw [RamDisk.names_create]
  split
  · rename_i ho
    rw [← ho, hf] at hfo
    cases hfo
  · exact h.named other e hfo

/-- A name that is not registered may be taken off the medium. -/
theorem Stored.remove (h : Stored r d) (hf : r.find? name = none) : Stored r (d.remove name).2 := by
  refine ⟨h.whole.remove name, ?_⟩
  intro other e hfo
  rw [RamDisk.names_remove]
  split
  · rename_i ho
    rw [← ho, hf] at hfo
    cases hfo
  · exact h.named other e hfo

/-- Opening a name keeps registered names on the medium. -/
theorem Stored.acquire (h : Stored r w.medium) (name : String) (mode : OpenMode) :
    Stored (r.acquire w name mode).2.1 (r.acquire w name mode).2.2.medium := by
  rcases acquire_cases r w name mode with
    ⟨e, he⟩ | ⟨entry, w', hf, he, hm⟩ | ⟨id, w', hf, hn, he, hm⟩ | ⟨file, w', hf, he, hobj, hm⟩
  · rw [he]
    exact h
  · have hput : Stored (r.put name { entry with refs := entry.refs + 1 }) w.medium := h.put_of_find? hf _ _
    rw [he, hm]
    split
    · exact hput.putObject _ _
    · exact hput
  · have hput : Stored (r.put name ⟨⟨w.opened, name, id⟩, 1, false⟩) w.medium := h.put hn
    rw [he, hm]
    split
    · exact hput.putObject _ _
    · exact hput
  · rw [he, hm]
    refine (h.create hf).put ?_
    rw [RamDisk.names_create, if_pos rfl, hobj]

/-- Taking a name off a medium in memory. -/
theorem medium_remove (w : World RamDisk κ) (name : String) : (w.remove name).2.medium = (w.medium.remove name).2 := by
  unfold World.remove
  split <;> rename_i h <;> exact (congrArg Prod.snd h).symm

/-- A deletion at the last release takes the name off the medium, if it is there. -/
theorem medium_deleteClosed (w : World RamDisk κ) (name : String) :
    (deleteClosed w name).medium = (w.medium.remove name).2 := by
  rw [← medium_remove]
  unfold deleteClosed
  split <;> rename_i h <;> rw [h] <;> rfl

/-- A release keeps registered names on the medium: only a name that is no longer registered is taken off. -/
theorem Stored.release (h : Stored r w.medium) (file : OpenFile) :
    Stored (r.release w file).1 (r.release w file).2.medium := by
  unfold Registry.release
  split
  · exact h
  · rename_i entry hf
    split
    · exact h
    · dsimp only
      split
      · exact h.put_of_find? hf _ _
      · have hdrop : Stored (r.drop file.name) w.medium := h.drop file.name
        split
        · rw [medium_deleteClosed]
          exact hdrop.remove (by rw [find?_drop, if_pos rfl])
        · exact hdrop

/-- Unlinking a name keeps registered names on the medium. -/
theorem Stored.unlink (h : Stored r w.medium) (name : String) :
    Stored (r.unlink w name).2.1 (r.unlink w name).2.2.medium := by
  unfold Registry.unlink
  split
  · rename_i entry hf
    split
    · exact h
    · exact h.put_of_find? hf _ _
  · rename_i hf
    have hrem : Stored r (w.remove name).2.medium := by
      rw [medium_remove]
      exact h.remove hf
    split <;> rename_i he <;> rw [he] at hrem <;> exact hrem

/-- Every use of a registry keeps registered names on the medium. -/
theorem stored_of_use {s s' : Registry × World RamDisk κ} (hu : Use s s') (h : Stored s.1 s.2.medium) :
    Stored s'.1 s'.2.medium := by
  cases hu with
  | acquire r w name mode => exact h.acquire name mode
  | release r w file => exact h.release file
  | mark r w name =>
    unfold markForDeletion
    split
    · exact h
    · rename_i entry hf
      exact h.put_of_find? hf _ _
  | unlink r w name => exact h.unlink name
  | clear r w => exact stored_empty h.whole
  | read r w file position count => exact h
  | write r w file position data =>
    have hw : (w.writeAt file.object position data).2.medium = (w.medium.writeAt file.object position data).2 := rfl
    rw [hw]
    unfold RamDisk.writeAt
    split
    · split <;> exact h
    · exact h.putObject _ _
  | truncate r w file => exact h.putObject _ _

/-- At every point of every use of a registry, registered names are on the medium and lead to the objects of their open files. -/
theorem Reached.stored {s : Registry × World RamDisk κ} (h : Reached s) : Stored s.1 s.2.medium := by
  induction h with
  | start w hw => exact stored_empty hw
  | use _ hu ih => exact stored_of_use hu ih

/-! ## Names stay apart -/

/-- Opening a name puts at most one request to the medium that changes it. -/
theorem edit_acquire (r : Registry) (w : World RamDisk κ) (name : String) (mode : OpenMode) :
    w.medium.Edit (r.acquire w name mode).2.2.medium := by
  have hemptied : ∀ (dropped : Bool) (id : ObjectId), w.medium.Edit (if dropped then w.medium.putObject id [] else w.medium) := by
    intro dropped id
    cases dropped with
    | false => exact .nothing
    | true => exact .put id []
  rcases acquire_cases r w name mode with
    ⟨e, he⟩ | ⟨entry, w', -, he, hm⟩ | ⟨id, w', -, -, he, hm⟩ | ⟨file, w', -, he, -, hm⟩
  · rw [he]
    exact .nothing
  · rw [he, hm]
    exact hemptied mode.truncates entry.file.object
  · rw [he, hm]
    exact hemptied (mode.creates && mode.truncates) id
  · rw [he, hm]
    exact .create name

/-- A release takes at most one name off the medium. -/
theorem edit_release (r : Registry) (w : World RamDisk κ) (file : OpenFile) : w.medium.Edit (r.release w file).2.medium := by
  unfold Registry.release
  split
  · exact .nothing
  · split
    · exact .nothing
    · dsimp only
      split
      · exact .nothing
      · split
        · rw [medium_deleteClosed]
          exact .remove file.name
        · exact .nothing

/-- Every use of a registry puts at most one request to the medium that changes it. -/
theorem edit_of_use {s s' : Registry × World RamDisk κ} (hu : Use s s') : s.2.medium.Edit s'.2.medium := by
  cases hu with
  | acquire r w name mode => exact edit_acquire r w name mode
  | release r w file => exact edit_release r w file
  | mark r w name =>
    unfold markForDeletion
    split <;> exact .nothing
  | unlink r w name =>
    unfold Registry.unlink
    split
    · split <;> exact .nothing
    · have hrem : w.medium.Edit (w.remove name).2.medium := by
        rw [medium_remove]
        exact .remove name
      split <;> rename_i he <;> rw [he] at hrem <;> exact hrem
  | clear r w => exact .nothing
  | read r w file position count => exact .nothing
  | write r w file position data =>
    have hw : (w.writeAt file.object position data).2.medium = (w.medium.writeAt file.object position data).2 := rfl
    rw [hw]
    unfold RamDisk.writeAt
    split
    · split <;> exact .nothing
    · exact .put _ _
  | truncate r w file => exact .put file.object []

/-- Registered names are on the medium, and no two names lead to one object. -/
structure Settled (r : Registry) (d : RamDisk) : Prop extends Stored r d where
  /-- No two names lead to one object. -/
  separate : d.Separate

/-- Every use of a registry keeps it so. -/
theorem settled_of_use {s s' : Registry × World RamDisk κ} (hu : Use s s') (h : Settled s.1 s.2.medium) :
    Settled s'.1 s'.2.medium :=
  ⟨stored_of_use hu h.toStored, h.separate.edit h.whole (edit_of_use hu)⟩

end Registry

end Nucleus
