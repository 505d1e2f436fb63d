import Nucleus.Error
import Nucleus.Log.Line
import Nucleus.Process.Pid
import Nucleus.Process.Status
import Nucleus.Text.Quoted

/-!
# What the log tells

Every event that the kernel reports, as a value: what happened and to what. The level, the module it is reported under and the
wording are three functions on it, so no operation of the kernel holds a text.
-/

namespace Nucleus

/-- An event that the kernel reports. -/
inductive Notice where
  /-- The medium made or emptied a file. -/
  | mediumCreated (name : String)
  /-- The medium removed a file. -/
  | mediumRemoved (name : String)
  /-- One more or one less descriptor refers to an open file. -/
  | references (name : String) (count : Nat)
  /-- A file was opened that nobody had open. -/
  | registered (name : String)
  /-- A handle was released under whose name nothing is open. -/
  | releasedUnregistered (name : String)
  /-- A handle was released whose name belongs to a newer open file. -/
  | staleHandle (name : String)
  /-- The file was deleted when its last descriptor was closed. -/
  | deletedAtLastClose (name : String)
  /-- The file should have been deleted when its last descriptor was closed, and the medium failed. -/
  | deferredDeleteFailed (name : String) (cause : StorageError)
  /-- An open file was marked for deletion. -/
  | markedForDeletion (name : String) (count : Nat)
  /-- A file was unlinked while it was open. -/
  | unlinkedWhileOpen (name : String)
  /-- A file that nobody had open was unlinked. -/
  | unlinked (name : String)
  /-- A descriptor was bound to a file. -/
  | descriptorOpened (name : String) (slot : Nat)
  /-- Bytes were read through a descriptor. -/
  | descriptorRead (slot count : Nat)
  /-- Bytes were written through a descriptor. -/
  | descriptorWritten (slot count : Nat)
  /-- A descriptor was closed. -/
  | descriptorClosed (slot : Nat)
  /-- A program's arguments were laid out in a page. -/
  | argumentsPlaced (count page : Nat)
  /-- A program could not be loaded. -/
  | loadFailed (program : String) (cause : LoadError)
  /-- A process was created. -/
  | spawned (pid : Pid) (program : String) (parent : Option Pid)
  /-- A process waits for a child. -/
  | waits (caller child : Pid)
  /-- A process took a child's status. -/
  | reaped (caller child : Pid) (status : ExitStatus)
  /-- An ended child was dropped because its parent ended. -/
  | discarded (child parent : Pid)
  /-- A process ended. -/
  | exited (pid : Pid) (status : ExitStatus) (running : Nat)
  /-- A top-level program is about to be started. -/
  | booting (program : String)
  /-- The last process ended, and the machine halts. -/
  | idle
  /-- A process asked for the machine to halt and may not. -/
  | mayNotHalt (pid : Pid)
  /-- The machine halts at a process's request. -/
  | haltRequested (pid : Pid)
  /-- A system call came in. -/
  | syscall (pid : Pid) (number : UInt64) (args : List UInt64)
  /-- A halt by system call was refused. -/
  | haltRefused (pid : Pid) (cause : KernelError)
  /-- A program is about to be started by a system call. -/
  | exec (program : String) (args : List String) (pid : Pid)
  /-- A system call has a number that none has. -/
  | unknownSyscall (number : UInt64)
  /-- An exception ended a process. -/
  | exception (pid : Pid) (cause : Cause) (address counter : UInt64)
  deriving DecidableEq, Repr

/-- The level that an event is reported at. -/
def Notice.level : Notice → Level
  | .mediumCreated _ | .mediumRemoved _ | .descriptorRead .. | .descriptorWritten .. | .argumentsPlaced .. | .syscall .. => .trace
  | .releasedUnregistered _ | .staleHandle _ | .deferredDeleteFailed .. | .mayNotHalt _ | .exception .. => .warn
  | .spawned .. | .exited .. | .booting _ | .idle | .haltRequested _ => .info
  | .references .. | .registered _ | .deletedAtLastClose _ | .markedForDeletion .. | .unlinkedWhileOpen _ | .unlinked _
  | .descriptorOpened .. | .descriptorClosed _ | .loadFailed .. | .waits .. | .reaped .. | .discarded .. | .haltRefused ..
  | .exec .. | .unknownSyscall _ => .debug

/-- The module that an event is reported under. -/
def Notice.origin : Notice → String
  | .mediumCreated _ | .mediumRemoved _ => "userprog::storage::ramfs"
  | .references .. | .registered _ | .releasedUnregistered _ | .staleHandle _ | .deletedAtLastClose _ | .deferredDeleteFailed ..
  | .markedForDeletion .. | .unlinkedWhileOpen _ | .unlinked _ => "userprog::fs::registry"
  | .descriptorOpened .. | .descriptorRead .. | .descriptorWritten .. | .descriptorClosed _ => "userprog::fs::fd_table"
  | .argumentsPlaced .. => "userprog::proc::loader"
  | .loadFailed .. | .spawned .. | .waits .. | .reaped .. | .discarded .. | .exited .. => "userprog::proc::table"
  | .booting _ | .idle | .mayNotHalt _ | .haltRequested _ => "userprog::kernel"
  | .syscall .. | .haltRefused .. | .exec .. | .unknownSyscall _ => "userprog::syscall::handler"
  | .exception .. => "userprog::exception"

/-- The wording of an event. An exception that is no bad access to memory has no address to tell. -/
def Notice.message : Notice → String
  | .mediumCreated name => "[RAMFS] create '" ++ name ++ "'"
  | .mediumRemoved name => "[RAMFS] remove '" ++ name ++ "'"
  | .references name count => "[REGISTRY] '" ++ name ++ "' refs -> " ++ Nat.repr count
  | .registered name => "[REGISTRY] '" ++ name ++ "' registered"
  | .releasedUnregistered name => "[REGISTRY] release of unregistered '" ++ name ++ "'"
  | .staleHandle name => "[REGISTRY] stale handle for '" ++ name ++ "'"
  | .deletedAtLastClose name => "[REGISTRY] '" ++ name ++ "' deleted on last close"
  | .deferredDeleteFailed name cause => "[REGISTRY] deferred delete of '" ++ name ++ "' failed: " ++ cause.message
  | .markedForDeletion name count => "[REGISTRY] '" ++ name ++ "' marked for delete (" ++ Nat.repr count ++ " refs)"
  | .unlinkedWhileOpen name => "[REGISTRY] '" ++ name ++ "' unlinked while open"
  | .unlinked name => "[REGISTRY] '" ++ name ++ "' unlinked"
  | .descriptorOpened name slot => "[FD] open '" ++ name ++ "' -> " ++ Nat.repr slot
  | .descriptorRead slot count => "[FD] read " ++ Nat.repr slot ++ " -> " ++ Nat.repr count ++ " bytes"
  | .descriptorWritten slot count => "[FD] write " ++ Nat.repr slot ++ " -> " ++ Nat.repr count ++ " bytes"
  | .descriptorClosed slot => "[FD] close " ++ Nat.repr slot
  | .argumentsPlaced count page => "[LOADER] " ++ Nat.repr count ++ " args in page " ++ Nat.repr page
  | .loadFailed program cause => "[PROC] load '" ++ program ++ "' failed: " ++ cause.message
  | .spawned pid program parent =>
    "[PROC] spawned " ++ pid.text ++ " '" ++ program ++ "' (parent " ++ Pid.optionText parent ++ ")"
  | .waits caller child => "[PROC] " ++ caller.text ++ " waits for " ++ child.text
  | .reaped caller child status => "[PROC] " ++ caller.text ++ " reaped " ++ child.text ++ " (" ++ status.text ++ ")"
  | .discarded child parent => "[PROC] discarded zombie " ++ child.text ++ " of " ++ parent.text
  | .exited pid status running =>
    "[PROC] " ++ pid.text ++ " exited with " ++ status.text ++ ", " ++ Nat.repr running ++ " still running"
  | .booting program => "[KERNEL] booting '" ++ program ++ "'"
  | .idle => "[KERNEL] last process exited, halting"
  | .mayNotHalt pid => "[KERNEL] " ++ pid.text ++ " may not halt"
  | .haltRequested pid => "[KERNEL] halt requested by " ++ pid.text
  | .syscall pid number args =>
    "[SYSCALL] " ++ pid.text ++ " #" ++ Nat.repr number.toNat ++ " ["
      ++ String.intercalate ", " (args.map fun arg => hexText arg.toNat) ++ "]"
  | .haltRefused pid cause => "[SYSCALL] halt from " ++ pid.text ++ " refused: " ++ cause.message
  | .exec program args pid => "[SYSCALL] exec('" ++ program ++ "', " ++ quotedList args ++ ") from " ++ pid.text
  | .unknownSyscall number => "[SYSCALL] Unknown syscall: " ++ Nat.repr number.toNat
  | .exception pid cause address counter =>
    "[EXCEPTION] " ++ pid.text ++ " " ++ cause.label
      ++ (if cause.isMemoryFault then " at " ++ hexMarked address.toNat else "")
      ++ " (pc " ++ hexMarked counter.toNat ++ ")"

/-- The bytes that an event brings to the log's console. -/
def Logger.report (logger : Logger) (notice : Notice) : List UInt8 :=
  logger.write notice.level notice.origin notice.message

end Nucleus
