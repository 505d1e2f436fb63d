import Nucleus.Error

/-!
# Storage media

What the kernel asks of a storage medium. A medium is a state; each request answers with a result and the state after it, so a
medium may fail, fall short or claim more than it did, at any request and for any reason.
-/

namespace Nucleus

/-- The number by which a medium knows a stored object, whatever its name is or was. -/
structure ObjectId where
  /-- The number. -/
  number : Nat
  deriving DecidableEq, Repr

/-- What a read brought: the bytes put at the start of the buffer, and the count that the medium claims. -/
structure Transfer where
  /-- The bytes put at the start of the buffer. -/
  bytes : List UInt8
  /-- How many bytes the reader is told. -/
  claimed : Nat
  deriving DecidableEq, Repr

/-- A buffer of some length, zero at first, after a transfer into it. -/
def Transfer.fill (t : Transfer) (length : Nat) : List UInt8 :=
  t.bytes.take length ++ List.replicate (length - t.bytes.length) 0

/-- A buffer keeps its length. -/
theorem Transfer.length_fill (t : Transfer) (length : Nat) : (t.fill length).length = length := by
  simp only [fill, List.length_append, List.length_take, List.length_replicate]
  omega

/-- A storage medium with flat names. -/
class Medium (μ : Type) where
  /-- Makes an empty object of that name, or empties the one there is. -/
  create : μ → String → Except StorageError ObjectId × μ
  /-- Finds the object of that name. -/
  find : μ → String → Except StorageError ObjectId × μ
  /-- Takes the name off the medium. -/
  remove : μ → String → Except StorageError Unit × μ
  /-- Reads from a position on, at most as many bytes as asked. -/
  readAt : μ → ObjectId → (position count : Nat) → Except StorageError Transfer × μ
  /-- Writes bytes from a position on, and answers how many. -/
  writeAt : μ → ObjectId → (position : Nat) → List UInt8 → Except StorageError Nat × μ
  /-- Drops the contents of an object. -/
  truncate : μ → ObjectId → Except StorageError Unit × μ
  /-- The length of an object. -/
  length : μ → ObjectId → Nat

end Nucleus
