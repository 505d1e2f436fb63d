import Nucleus.Device.Medium
import Std.Data.ExtTreeMap

/-!
# A medium in memory

Names lead to objects, objects are byte strings. An object outlives its name: whoever found it before the name was removed goes on
reading and writing it. A capacity limits every object; a write across it falls short, a write beyond it finds no space.
-/

namespace Nucleus

/-- A medium in memory. -/
structure RamDisk where
  /-- The object that each name leads to. -/
  names : Std.ExtTreeMap String ObjectId
  /-- The contents of every object ever made, by its number. -/
  objects : List (List UInt8)
  /-- The most bytes an object may hold, if there is a limit. -/
  capacity : Option Nat

namespace RamDisk

/-- A medium without any object. -/
def empty (capacity : Option Nat) : RamDisk := ⟨∅, [], capacity⟩

/-- The contents of an object. -/
def object (d : RamDisk) (id : ObjectId) : List UInt8 := d.objects.getD id.number []

/-- The medium with other contents for an object. -/
def putObject (d : RamDisk) (id : ObjectId) (contents : List UInt8) : RamDisk :=
  { d with objects := d.objects.set id.number contents }

/-- Whether a name leads to an object. -/
def holds (d : RamDisk) (name : String) : Bool := d.names.contains name

/-- The contents stored under a name. -/
def contents? (d : RamDisk) (name : String) : Option (List UInt8) := d.names[name]?.map d.object

/-- How many names there are. -/
def fileCount (d : RamDisk) : Nat := d.names.size

/-- The first position that no byte may take: the capacity, or the greatest word. -/
def limit (d : RamDisk) : Nat := d.capacity.getD (UInt64.size - 1)

/-- Contents with bytes put at a position, after zeros as far as they are short of it; an older tail stays. -/
def splice (contents : List UInt8) (position : Nat) (data : List UInt8) : List UInt8 :=
  contents.take position
    ++ (List.replicate (position - contents.length) 0 ++ (data ++ contents.drop (position + data.length)))

/-- An object that was ever made holds what was put into it, and every other object what it held. -/
theorem object_putObject (d : RamDisk) (id other : ObjectId) (contents : List UInt8) (h : id.number < d.objects.length) :
    (d.putObject id contents).object other = if id = other then contents else d.object other := by
  by_cases hi : id = other
  · simp [object, putObject, hi, hi ▸ h]
  · have hn : id.number ≠ other.number := fun he => hi (by cases id; cases other; exact congrArg ObjectId.mk he)
    simp [object, putObject, List.getD_eq_getElem?_getD, hn, hi]

/-- Contents reach at least to the end of what was put into them. -/
theorem length_splice (contents : List UInt8) (position : Nat) (data : List UInt8) :
    (splice contents position data).length = max contents.length (position + data.length) := by
  simp only [splice, List.length_append, List.length_take, List.length_replicate, List.length_drop]
  omega

/-- Makes an empty object under a new name, or empties the object of the name. -/
def create (d : RamDisk) (name : String) : ObjectId × RamDisk :=
  match d.names[name]? with
  | some id => (id, d.putObject id [])
  | none =>
    let id : ObjectId := ⟨d.objects.length⟩
    (id, { d with names := d.names.insert name id, objects := d.objects ++ [[]] })

/-- Finds the object of a name. -/
def find (d : RamDisk) (name : String) : Except StorageError ObjectId :=
  match d.names[name]? with
  | some id => .ok id
  | none => .error .notFound

/-- Takes a name off the medium. -/
def remove (d : RamDisk) (name : String) : Except StorageError Unit × RamDisk :=
  if d.holds name then (.ok (), { d with names := d.names.erase name }) else (.error .notFound, d)

/-- The bytes of an object from a position on, at most as many as asked. -/
def readAt (d : RamDisk) (id : ObjectId) (position count : Nat) : List UInt8 :=
  ((d.object id).drop position).take count

/-- Writes as many bytes at a position as the limit allows. -/
def writeAt (d : RamDisk) (id : ObjectId) (position : Nat) (data : List UInt8) : Except StorageError Nat × RamDisk :=
  if d.limit ≤ position then
    if data.isEmpty then (.ok 0, d) else (.error .noSpace, d)
  else
    let fitting := data.take (d.limit - position)
    (.ok fitting.length, d.putObject id (splice (d.object id) position fitting))

end RamDisk

instance : Medium RamDisk where
  create d name := ((.ok (d.create name).1 : Except StorageError ObjectId), (d.create name).2)
  find d name := (d.find name, d)
  remove d name := d.remove name
  readAt d id position count :=
    let bytes := d.readAt id position count
    (.ok ⟨bytes, bytes.length⟩, d)
  writeAt d id position data := d.writeAt id position data
  truncate d id := (.ok (), d.putObject id [])
  length d id := (d.object id).length

end Nucleus
