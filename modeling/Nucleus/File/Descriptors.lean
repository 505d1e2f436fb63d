import Nucleus.File.Registry
import Nucleus.Settings

/-!
# Descriptors

A process names its open files and its console by small numbers, the slots of a table. Each allocated slot has a cursor of its
own. The first two slots hold the console from the beginning and are never used for a file; a file takes the least free slot behind
them.
-/

namespace Nucleus

/-- A descriptor number as a program may write it. -/
structure Fd where
  /-- The number as a word of 32 bits. -/
  index : UInt32
  deriving DecidableEq, Repr

/-- The descriptor number in a register, if the register holds one that could be. -/
def Fd.ofWord? (word : UInt64) : Option Fd :=
  if word.toNat < UInt32.size then some ⟨word.toUInt32⟩ else none

/-- The slot that a descriptor number means. -/
def Fd.slot (fd : Fd) : Nat := fd.index.toNat

/-- How a descriptor number is written in a text. -/
def Fd.text (fd : Fd) : String := "Fd(" ++ Nat.repr fd.slot ++ ")"

/-- What a descriptor leads to. -/
inductive Stream where
  | consoleIn
  | consoleOut
  | file (f : OpenFile)
  deriving DecidableEq, Repr

/-- An allocated slot. -/
structure Descriptor where
  /-- What it leads to. -/
  stream : Stream
  /-- Where the next transfer begins. -/
  cursor : Nat
  deriving DecidableEq, Repr

/-- The file that a slot refers to, if it refers to one. -/
def Descriptor.file? (d : Descriptor) : Option OpenFile :=
  match d.stream with
  | .file f => some f
  | _ => none

/-- The descriptor table of a process. -/
structure Descriptors where
  /-- The slots, in the order of their numbers; a free one holds nothing. -/
  slots : List (Option Descriptor)
  deriving DecidableEq, Repr

namespace Descriptors

/-- A table with so many slots, but at least the two of the console, which are allocated. -/
def create (capacity : Nat) : Descriptors :=
  ⟨some ⟨.consoleIn, 0⟩ :: some ⟨.consoleOut, 0⟩ :: List.replicate (capacity - firstFileSlot) none⟩

/-- How many slots there are. -/
def capacity (t : Descriptors) : Nat := t.slots.length

/-- What an allocated slot holds. -/
def get? (t : Descriptors) (fd : Fd) : Option Descriptor := t.slots[fd.slot]?.join

/-- What an allocated slot holds, or the error for one that is not allocated or does not exist. -/
def lookUp (t : Descriptors) (fd : Fd) : Except KernelError Descriptor :=
  match t.get? fd with
  | some d => .ok d
  | none => .error .invalidDescriptor

/-- Whether a slot is allocated. -/
def isOpen (t : Descriptors) (fd : Fd) : Bool := (t.get? fd).isSome

/-- The allocated slots in increasing order, with what they hold. -/
def allocated (t : Descriptors) : List (Nat × Descriptor) :=
  t.slots.zipIdx.filterMap fun (slot, i) => slot.map fun d => (i, d)

/-- The numbers of the allocated slots, in increasing order. -/
def openSlots (t : Descriptors) : List Nat := t.allocated.map Prod.fst

/-- The files that the slots refer to, in the order of the slots. -/
def files (t : Descriptors) : List OpenFile := t.slots.filterMap fun slot => slot.bind Descriptor.file?

/-- Where the next transfer through a descriptor begins. -/
def cursor (t : Descriptors) (fd : Fd) : Except KernelError Nat := (t.lookUp fd).map Descriptor.cursor

/-- The least free slot that a file may take. -/
def findFree (t : Descriptors) : Option Fd :=
  ((t.slots.drop firstFileSlot).findIdx? Option.isNone).map fun i => ⟨UInt32.ofNat (i + firstFileSlot)⟩

/-- The table with something else in a slot. -/
def put (t : Descriptors) (fd : Fd) (slot : Option Descriptor) : Descriptors := ⟨t.slots.set fd.slot slot⟩

/-- The table with a descriptor's cursor moved on. -/
def advance (t : Descriptors) (fd : Fd) (d : Descriptor) (count : Nat) : Descriptors :=
  t.put fd (some { d with cursor := d.cursor + count })

@[simp] theorem length_put (t : Descriptors) (fd : Fd) (slot : Option Descriptor) :
    (t.put fd slot).slots.length = t.slots.length := by
  simp [put]

/-- What was put into a slot that exists is found there, and every other slot holds what it held. -/
theorem get?_put (t : Descriptors) (fd other : Fd) (slot : Option Descriptor) (h : fd.slot < t.slots.length) :
    (t.put fd slot).get? other = if fd.slot = other.slot then slot else t.get? other := by
  by_cases hs : fd.slot = other.slot
  · simp [get?, put, ← hs, h]
  · simp [get?, put, hs]

/-- An allocated slot exists. -/
theorem slot_lt_of_get? {t : Descriptors} {fd : Fd} {d : Descriptor} (h : t.get? fd = some d) :
    fd.slot < t.slots.length := by
  simp only [get?, Option.join_eq_some_iff] at h
  exact (List.getElem?_eq_some_iff.mp h).1

variable {μ κ : Type} [Medium μ]

/-- Opens a name and binds it to the least free slot. The slot is found first, so that a full table takes no reference. -/
def openFile (t : Descriptors) (r : Registry) (w : World μ κ) (name : String) (mode : OpenMode) :
    Except KernelError (Fd × Descriptors) × Registry × World μ κ :=
  match t.findFree with
  | none => (.error .noFreeDescriptors, r, w)
  | some fd =>
    match r.acquire w name mode with
    | (.error e, r, w) => (.error e, r, w)
    | (.ok file, r, w) => (.ok (fd, t.put fd (some ⟨.file file, 0⟩)), r, w.note (.descriptorOpened name fd.slot))

/-- Frees an allocated slot and gives back the reference it held. -/
def close (t : Descriptors) (r : Registry) (w : World μ κ) (fd : Fd) :
    Except KernelError Descriptors × Registry × World μ κ :=
  match t.get? fd with
  | none => (.error .invalidDescriptor, r, w)
  | some d =>
    match d.file? with
    | none => (.ok (t.put fd none), r, w.note (.descriptorClosed fd.slot))
    | some file =>
      match r.release w file with
      | (r, w) => (.ok (t.put fd none), r, w.note (.descriptorClosed fd.slot))

/-- Gives back references one after another. -/
def releaseAll (r : Registry) (w : World μ κ) (files : List OpenFile) : Registry × World μ κ :=
  files.foldl (fun state file => state.1.release state.2 file) (r, w)

/-- Frees all slots and gives back the references they held, in the order of the slots; answers how many there were. -/
def closeAll (t : Descriptors) (r : Registry) (w : World μ κ) : Nat × Descriptors × Registry × World μ κ :=
  match releaseAll r w t.files with
  | (r, w) => (t.files.length, ⟨t.slots.map fun _ => none⟩, r, w)

variable [Console κ]

/-- Takes the bytes that a read through a descriptor brings: from the console what was typed, from a file what stands at the
cursor. However many a console or a medium claims, it is never more than asked for. The cursor stays. -/
def fetch (t : Descriptors) (w : World μ κ) (fd : Fd) (count : Nat) :
    Except KernelError (Descriptor × List UInt8) × World μ κ :=
  match t.lookUp fd with
  | .error e => (.error e, w)
  | .ok d =>
    match d.stream with
    | .consoleOut => (.error .invalidDescriptor, w)
    | .consoleIn =>
      match w.takeTyped count with
      | (transfer, w) => (.ok (d, (transfer.fill count).take transfer.claimed), w)
    | .file file =>
      match w.readAt file.object d.cursor count with
      | (.error e, w) => (.error (.ofStorage e), w)
      | (.ok transfer, w) => (.ok (d, (transfer.fill count).take transfer.claimed), w)

/-- Reads through a descriptor and delivers the bytes. The cursor moves on only when they were delivered; typed bytes cannot be
put back and are gone in any case. -/
def readWith {α : Type} (t : Descriptors) (w : World μ κ) (fd : Fd) (count : Nat)
    (deliver : List UInt8 → Except KernelError α) : Except KernelError (List UInt8 × α × Descriptors) × World μ κ :=
  match t.fetch w fd count with
  | (.error e, w) => (.error e, w)
  | (.ok (d, bytes), w) =>
    match deliver bytes with
    | .error e => (.error e, w)
    | .ok a => (.ok (bytes, a, t.advance fd d bytes.length), w.note (.descriptorRead fd.slot bytes.length))

/-- Reads through a descriptor. -/
def read (t : Descriptors) (w : World μ κ) (fd : Fd) (count : Nat) :
    Except KernelError (List UInt8 × Descriptors) × World μ κ :=
  match t.readWith w fd count fun _ => .ok () with
  | (.error e, w) => (.error e, w)
  | (.ok (bytes, (), t), w) => (.ok (bytes, t), w)

/-- Writes through a descriptor, at its cursor, and moves the cursor on by what was written; never by more than was given. -/
def write (t : Descriptors) (w : World μ κ) (fd : Fd) (data : List UInt8) :
    Except KernelError (Nat × Descriptors) × World μ κ :=
  match t.lookUp fd with
  | .error e => (.error e, w)
  | .ok d =>
    match d.stream with
    | .consoleIn => (.error .invalidDescriptor, w)
    | .consoleOut =>
      match w.display data with
      | (claimed, w) =>
        let count := min claimed data.length
        (.ok (count, t.advance fd d count), w.note (.descriptorWritten fd.slot count))
    | .file file =>
      match w.writeAt file.object d.cursor data with
      | (.error e, w) => (.error (.ofStorage e), w)
      | (.ok claimed, w) =>
        let count := min claimed data.length
        (.ok (count, t.advance fd d count), w.note (.descriptorWritten fd.slot count))

end Descriptors

end Nucleus
