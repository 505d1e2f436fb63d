import Nucleus.File.OpenFile
import Nucleus.World
import Std.Data.ExtTreeMap

/-!
# The registry of open files

Every file that some descriptor refers to, by its name, with the number of references and whether it is to be deleted. All who
open a name that is registered share one open file. The last release takes the entry away and, if the file was marked, the name off
the medium; until then the name can neither be opened nor unlinked.
-/

namespace Nucleus

/-- What the registry knows of a file. -/
structure Entry where
  /-- The open file that all descriptors of the name share. -/
  file : OpenFile
  /-- How many references are held. -/
  refs : Nat
  /-- Whether the file is deleted with its last release. -/
  pending : Bool
  deriving DecidableEq, Repr

/-- The registry: entries by name. -/
structure Registry where
  /-- The entries. -/
  entries : Std.ExtTreeMap String Entry

namespace Registry

/-- A registry without entries. -/
def empty : Registry := ⟨∅⟩

/-- The entry of a name. -/
def find? (r : Registry) (name : String) : Option Entry := r.entries[name]?

/-- The registry with an entry put under a name. -/
def put (r : Registry) (name : String) (entry : Entry) : Registry := ⟨r.entries.insert name entry⟩

/-- The registry without the entry of a name. -/
def drop (r : Registry) (name : String) : Registry := ⟨r.entries.erase name⟩

/-- How many references the registry counts for a name, if it is registered. -/
def refCount? (r : Registry) (name : String) : Option Nat := (r.find? name).map Entry.refs

/-- Whether a name is registered and waits for its deletion. -/
def isPending (r : Registry) (name : String) : Bool := (r.find? name).any Entry.pending

/-- How many files are open. -/
def openCount (r : Registry) : Nat := r.entries.size

@[simp] theorem find?_empty (name : String) : empty.find? name = none := by
  simp [find?, empty]

theorem find?_put (r : Registry) (name other : String) (entry : Entry) :
    (r.put name entry).find? other = if name = other then some entry else r.find? other := by
  simp [find?, put, Std.ExtTreeMap.getElem?_insert]

theorem find?_drop (r : Registry) (name other : String) :
    (r.drop name).find? other = if name = other then none else r.find? other := by
  simp [find?, drop, Std.ExtTreeMap.getElem?_erase]

/-- A registry is known by its entries. -/
theorem ext_find? {r r' : Registry} (h : ∀ name, r.find? name = r'.find? name) : r = r' := by
  cases r
  cases r'
  exact congrArg Registry.mk (Std.ExtTreeMap.ext_getElem? h)

variable {μ κ : Type} [Medium μ]

/-- Finds or makes the stored object of a name that is not registered, as the mode allows. A mode that creates without truncating
looks first, and makes the object only when there is none. -/
def lookUp (w : World μ κ) (name : String) (mode : OpenMode) : Except StorageError ObjectId × World μ κ :=
  if !mode.creates then w.find name
  else if mode.truncates then w.create name
  else
    match w.find name with
    | (.error .notFound, w) => w.create name
    | found => found

/-- Opens a name that is not registered and registers it with one reference. -/
def acquireNew (r : Registry) (w : World μ κ) (name : String) (mode : OpenMode) :
    Except KernelError OpenFile × Registry × World μ κ :=
  match lookUp w name mode with
  | (.error e, w) => (.error (.ofStorage e), r, w)
  | (.ok object, w) =>
    let file : OpenFile := ⟨w.opened, name, object⟩
    (.ok file, r.put name ⟨file, 1, false⟩, { w with opened := w.opened + 1 }.note (.registered name))

/-- Takes one more reference to a registered name. -/
def acquireShared (r : Registry) (w : World μ κ) (name : String) (entry : Entry) :
    Except KernelError OpenFile × Registry × World μ κ :=
  (.ok entry.file, r.put name { entry with refs := entry.refs + 1 }, w.note (.references name (entry.refs + 1)))

/-- Opens a name as the mode says and takes a reference. A name that waits for its deletion is not there any more for one who
only opens, and still there for one who creates. When the medium fails no reference is taken. -/
def acquire (r : Registry) (w : World μ κ) (name : String) (mode : OpenMode) :
    Except KernelError OpenFile × Registry × World μ κ :=
  match r.find? name with
  | none => r.acquireNew w name mode
  | some entry =>
    if entry.pending then (.error (if mode.creates then .alreadyExists else .notFound), r, w)
    else if mode.truncates then
      match w.truncate entry.file.object with
      | (.error e, w) => (.error (.ofStorage e), r, w)
      | (.ok (), w) => r.acquireShared w name entry
    else r.acquireShared w name entry

/-- Takes off the medium the name of a file that was marked for deletion and is no longer open. A medium that fails is reported,
and that is all. -/
def deleteClosed (w : World μ κ) (name : String) : World μ κ :=
  match w.remove name with
  | (.ok (), w) => w.note (.deletedAtLastClose name)
  | (.error e, w) => w.note (.deferredDeleteFailed name e)

/-- Gives a reference back. A file that is not the one registered under its name leaves all as it is. -/
def release (r : Registry) (w : World μ κ) (file : OpenFile) : Registry × World μ κ :=
  match r.find? file.name with
  | none => (r, w.note (.releasedUnregistered file.name))
  | some entry =>
    if entry.file ≠ file then (r, w.note (.staleHandle file.name))
    else
      let refs := entry.refs - 1
      let w := w.note (.references file.name refs)
      if 0 < refs then (r.put file.name { entry with refs }, w)
      else (r.drop file.name, if entry.pending then deleteClosed w file.name else w)

/-- Marks an open file for deletion at its last release. -/
def markForDeletion (r : Registry) (w : World μ κ) (name : String) : Except KernelError Unit × Registry × World μ κ :=
  match r.find? name with
  | none => (.error .notFound, r, w)
  | some entry => (.ok (), r.put name { entry with pending := true }, w.note (.markedForDeletion name entry.refs))

/-- Deletes a name: at the last release while it is open, at once otherwise. -/
def unlink (r : Registry) (w : World μ κ) (name : String) : Except KernelError Unit × Registry × World μ κ :=
  match r.find? name with
  | some entry =>
    if entry.pending then (.error .notFound, r, w)
    else (.ok (), r.put name { entry with pending := true }, w.note (.unlinkedWhileOpen name))
  | none =>
    match w.remove name with
    | (.error e, w) => (.error (.ofStorage e), r, w)
    | (.ok (), w) => (.ok (), r, w.note (.unlinked name))

end Registry

end Nucleus
