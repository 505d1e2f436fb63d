import Nucleus.Log.Notice
import Nucleus.Memory.Image
import Nucleus.Device.Console

/-!
# The world around the kernel's tables

The kernel reads and changes its own tables, and besides it works on a storage medium and a console, and tells the scheduler and
the log what to do. All that it does to the outside is kept in one list, in the order in which it was done.
-/

namespace Nucleus

/-- What the scheduler needs to enter a program that has just been loaded. -/
structure StartInfo where
  /-- The name the program was loaded by. -/
  program : String
  /-- Where execution begins. -/
  entry : UInt64
  /-- Where the stack begins. -/
  stack : Address
  /-- How many arguments there are. -/
  argc : Nat
  /-- Where the pointers to the arguments stand. -/
  argv : Address
  deriving DecidableEq, Repr

/-- What the kernel does to the outside. -/
inductive Effect where
  /-- An event is reported. -/
  | notice (event : Notice)
  /-- The console shows bytes. -/
  | shown (bytes : List UInt8)
  /-- The scheduler is told to run a new process. -/
  | started (pid : Pid) (info : StartInfo)
  /-- The scheduler is told to suspend a thread. -/
  | blocked (thread : ThreadId)
  /-- The scheduler is told to let a thread run on. -/
  | unblocked (thread : ThreadId)
  /-- The scheduler is told to stop the machine. -/
  | poweredOff
  deriving DecidableEq, Repr

/-- The medium, the console, and what has been done so far. -/
structure World (μ κ : Type) where
  /-- The storage medium. -/
  medium : μ
  /-- The console. -/
  console : κ
  /-- How many open files have been made over the medium; the next one gets this number. -/
  opened : Nat := 0
  /-- What has been done to the outside, the first thing first. -/
  effects : List Effect := []

namespace World

variable {μ κ : Type}

/-- One more thing is done to the outside. -/
def emit (w : World μ κ) (effect : Effect) : World μ κ := { w with effects := w.effects ++ [effect] }

/-- An event is reported. -/
def note (w : World μ κ) (event : Notice) : World μ κ := w.emit (.notice event)

/-- Several events are reported. -/
def noteAll (w : World μ κ) (events : List Notice) : World μ κ := events.foldl note w

/-- Threads are let run on, one after another. -/
def unblockAll (w : World μ κ) (threads : List ThreadId) : World μ κ := threads.foldl (fun w t => w.emit (.unblocked t)) w

@[simp] theorem medium_emit (w : World μ κ) (effect : Effect) : (w.emit effect).medium = w.medium := rfl

@[simp] theorem console_emit (w : World μ κ) (effect : Effect) : (w.emit effect).console = w.console := rfl

@[simp] theorem opened_emit (w : World μ κ) (effect : Effect) : (w.emit effect).opened = w.opened := rfl

@[simp] theorem effects_emit (w : World μ κ) (effect : Effect) : (w.emit effect).effects = w.effects ++ [effect] := rfl

@[simp] theorem medium_note (w : World μ κ) (event : Notice) : (w.note event).medium = w.medium := rfl

@[simp] theorem console_note (w : World μ κ) (event : Notice) : (w.note event).console = w.console := rfl

@[simp] theorem opened_note (w : World μ κ) (event : Notice) : (w.note event).opened = w.opened := rfl

@[simp] theorem effects_note (w : World μ κ) (event : Notice) : (w.note event).effects = w.effects ++ [.notice event] := rfl

/-- Reporting several events changes nothing but the list of what was done. -/
theorem noteAll_eq (w : World μ κ) (events : List Notice) :
    w.noteAll events = { w with effects := w.effects ++ events.map .notice } := by
  induction events generalizing w with
  | nil => simp [noteAll]
  | cons event rest ih =>
    rw [noteAll, List.foldl_cons, ← noteAll, ih]
    simp [note, emit]

/-- Waking several threads changes nothing but the list of what was done. -/
theorem unblockAll_eq (w : World μ κ) (threads : List ThreadId) :
    w.unblockAll threads = { w with effects := w.effects ++ threads.map .unblocked } := by
  induction threads generalizing w with
  | nil => simp [unblockAll]
  | cons thread rest ih =>
    rw [unblockAll, List.foldl_cons, ← unblockAll, ih]
    simp [emit]

section Medium

variable [Medium μ]

/-- Makes or empties a stored object. -/
def create (w : World μ κ) (name : String) : Except StorageError ObjectId × World μ κ :=
  match Medium.create w.medium name with
  | (.ok id, medium) => (.ok id, { w with medium }.note (.mediumCreated name))
  | (.error e, medium) => (.error e, { w with medium })

/-- Finds a stored object. -/
def find (w : World μ κ) (name : String) : Except StorageError ObjectId × World μ κ :=
  match Medium.find w.medium name with
  | (result, medium) => (result, { w with medium })

/-- Takes a name off the medium. -/
def remove (w : World μ κ) (name : String) : Except StorageError Unit × World μ κ :=
  match Medium.remove w.medium name with
  | (.ok (), medium) => (.ok (), { w with medium }.note (.mediumRemoved name))
  | (.error e, medium) => (.error e, { w with medium })

/-- Reads from an object into a buffer of some length: the transfer as the medium reports it. -/
def readAt (w : World μ κ) (id : ObjectId) (position count : Nat) : Except StorageError Transfer × World μ κ :=
  match Medium.readAt w.medium id position count with
  | (result, medium) => (result, { w with medium })

/-- Writes to an object: the count that the medium reports. -/
def writeAt (w : World μ κ) (id : ObjectId) (position : Nat) (data : List UInt8) : Except StorageError Nat × World μ κ :=
  match Medium.writeAt w.medium id position data with
  | (result, medium) => (result, { w with medium })

/-- Drops the contents of an object. -/
def truncate (w : World μ κ) (id : ObjectId) : Except StorageError Unit × World μ κ :=
  match Medium.truncate w.medium id with
  | (result, medium) => (result, { w with medium })

/-- The length of an object. -/
def length (w : World μ κ) (id : ObjectId) : Nat := Medium.length w.medium id

end Medium

section Console

variable [Console κ]

/-- Takes typed bytes from the console. -/
def takeTyped (w : World μ κ) (count : Nat) : Transfer × World μ κ :=
  match Console.read w.console count with
  | (transfer, console) => (transfer, { w with console })

/-- Has the console show bytes: the count that it reports. -/
def display (w : World μ κ) (data : List UInt8) : Nat × World μ κ :=
  match Console.write w.console data with
  | (⟨some bytes, claimed⟩, console) => (claimed, { w with console }.emit (.shown bytes))
  | (⟨none, claimed⟩, console) => (claimed, { w with console })

end Console

end World

end Nucleus
