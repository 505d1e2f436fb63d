import Nucleus.Process.Table
import Nucleus.Trap.Frame

/-!
# The kernel

The tables of the kernel, the world they work on, and the operations that need no answer from outside: ending a process, halting,
and looking into a process's memory. Halting drops all tables without closing anything, once.
-/

namespace Nucleus

/-- The kernel: its settings, its tables, and the world around them. -/
structure Kernel (μ κ : Type) where
  /-- The switches set at boot. -/
  settings : Settings
  /-- The processes. -/
  processes : ProcessTable
  /-- The open files. -/
  registry : Registry
  /-- Whether the machine has halted. -/
  halted : Bool
  /-- The medium, the console and what was done to the outside. -/
  world : World μ κ

namespace Kernel

variable {μ κ : Type}

/-- A kernel before anything was booted. -/
def create (settings : Settings) (medium : μ) (console : κ) : Kernel μ κ :=
  { settings, processes := .empty, registry := .empty, halted := false, world := { medium, console } }

/-- An event is reported. -/
def note (k : Kernel μ κ) (event : Notice) : Kernel μ κ := { k with world := k.world.note event }

/-- The kernel with another registry and world, after files were worked on. -/
def withFiles (k : Kernel μ κ) (registry : Registry) (world : World μ κ) : Kernel μ κ := { k with registry, world }

/-- The kernel with other belongings for a running process. -/
def putLive (k : Kernel μ κ) (pid : Pid) (process : Process) : Kernel μ κ :=
  { k with processes := k.processes.putLive pid process }

/-- Drops all processes, as they stand; whoever waits for one of them is woken. -/
def dropProcesses (k : Kernel μ κ) : Kernel μ κ :=
  { k with processes := k.processes.clear, world := k.world.unblockAll k.processes.waiting.wakeAll.1 }

/-- Drops all tables and stops the machine. What has been done once is not done again. -/
def shutDown (k : Kernel μ κ) : Kernel μ κ :=
  if k.halted then k
  else
    { k.dropProcesses with
      halted := true
      registry := .empty
      world := k.dropProcesses.world.emit .poweredOff }

/-- Halts the machine for a process, which has to run and, if the settings say so, to be the root. -/
def halt (k : Kernel μ κ) (caller : Pid) : Except KernelError Unit × Kernel μ κ :=
  match k.processes.live caller with
  | .error e => (.error e, k)
  | .ok _ =>
    if k.settings.haltPolicy = .rootOnly ∧ k.processes.root ≠ some caller then
      (.error .permissionDenied, k.note (.mayNotHalt caller))
    else (.ok (), (k.note (.haltRequested caller)).shutDown)

/-- Bytes of a running process's memory, which have to be readable. -/
def peek (k : Kernel μ κ) (pid : Pid) (a : Address) (count : Nat) : Except KernelError (List UInt8) :=
  match k.processes.live pid with
  | .error e => .error e
  | .ok process => process.memory.copyIn a count

/-- Gives a running process another memory, made from the one it has. -/
def changeMemory (k : Kernel μ κ) (pid : Pid) (change : AddressSpace → Except KernelError AddressSpace) :
    Except KernelError Unit × Kernel μ κ :=
  match k.processes.live pid with
  | .error e => (.error e, k)
  | .ok process =>
    match change process.memory with
    | .error e => (.error e, k)
    | .ok memory => (.ok (), k.putLive pid { process with memory })

/-- Stores bytes in a running process's memory as the loader would, without regard to rights. -/
def poke (k : Kernel μ κ) (pid : Pid) (a : Address) (data : List UInt8) : Except KernelError Unit × Kernel μ κ :=
  k.changeMemory pid (·.load a data)

/-- Gives a page of a running process other rights. -/
def setRights (k : Kernel μ κ) (pid : Pid) (page : Nat) (rights : Rights) : Except KernelError Unit × Kernel μ κ :=
  k.changeMemory pid (·.setRights page rights)

/-- Marks an open file for deletion at its last release. -/
def markForDeletion (k : Kernel μ κ) (name : String) : Except KernelError Unit × Kernel μ κ :=
  match k.registry.markForDeletion k.world name with
  | (result, registry, world) => (result, k.withFiles registry world)

section Exit

variable [Medium μ]

/-- Ends a process, without regard to what is left running. -/
def endProcess (k : Kernel μ κ) (pid : Pid) (status : ExitStatus) : Except KernelError ExitReport × Kernel μ κ :=
  match k.processes.exit k.registry k.world pid status with
  | (result, processes, registry, world) => (result, { k with processes, registry, world })

/-- Ends a process and, if the settings say so, halts the machine when nothing is left running. -/
def exit (k : Kernel μ κ) (pid : Pid) (status : ExitStatus) : Disposition × Kernel μ κ :=
  match k.endProcess pid status with
  | (.ok report, k) =>
    if report.running = 0 ∧ k.settings.haltWhenIdle then (.halted, (k.note .idle).shutDown) else (.exited, k)
  | (.error e, k) => (if k.halted then .halted else .resume e.errno, k)

end Exit

end Kernel

end Nucleus
