import Nucleus.File.Descriptors
import Std.Data.ExtTreeSet

/-!
# Process records

What the kernel knows of a process, from its creation until its status has been taken or nobody is left to take it.
-/

namespace Nucleus

/-- What a running process owns. -/
structure Process where
  /-- The program it was created from. -/
  program : String
  /-- Its descriptors. -/
  descriptors : Descriptors
  /-- Its memory. -/
  memory : AddressSpace

/-- Where a process stands in its life. -/
inductive Life where
  /-- It runs, and owns descriptors and memory. -/
  | running (process : Process)
  /-- It has ended, and its status waits to be taken. -/
  | zombie (status : ExitStatus)

/-- The record of a process. -/
structure Record where
  /-- The process that created it; a top-level process has none. -/
  parent : Option Pid
  /-- Its children whose status it has not taken. -/
  children : Std.ExtTreeSet Pid
  /-- Whether its parent has ended. -/
  orphaned : Bool
  /-- Where it stands in its life. -/
  life : Life

namespace Record

/-- What the process owns, if it runs. -/
def process? (r : Record) : Option Process :=
  match r.life with
  | .running process => some process
  | .zombie _ => none

/-- How the process ended, if it has. -/
def status? (r : Record) : Option ExitStatus :=
  match r.life with
  | .running _ => none
  | .zombie status => some status

/-- Whether the process runs. -/
def isRunning (r : Record) : Bool := r.process?.isSome

/-- Whether the process has ended. -/
def isZombie (r : Record) : Bool := r.status?.isSome

end Record

end Nucleus
