import Nucleus.Kernel.Basic

/-!
# Operations that wait

Loading a program, starting a process and waiting for a child take an answer from outside, and while the kernel waits for it other
operations may run from beginning to end, or begin and wait themselves. So an operation either finishes with an outcome, or it is
suspended: what it waits for and what it will do with the answer is then a value, and a later answer lets it go on.
-/

namespace Nucleus

/-- What the number of a new process is wanted for. -/
inductive SpawnUse where
  /-- It is the outcome. -/
  | outcome
  /-- A system call returns it, which may have come as a trap with this frame. -/
  | systemCall (trap : Option TrapFrame)
  deriving DecidableEq, Repr

/-- What a child's status is wanted for. -/
inductive JoinUse where
  /-- It is the outcome. -/
  | outcome
  /-- A system call stores its code at an address, unless that is null, and returns it; the call may have come as a trap with
  this frame. -/
  | systemCall (target : Address) (trap : Option TrapFrame)
  deriving DecidableEq, Repr

/-- An operation that waits. -/
inductive Suspended where
  /-- It waits for the loader. -/
  | loading (parent : Option Pid) (program : String) (args : List String) (use : SpawnUse)
  /-- It waits for the scheduler to have started the process. -/
  | starting (pid : Pid) (use : SpawnUse)
  /-- Its thread sleeps until some process has ended. -/
  | sleeping (thread : ThreadId) (caller child : Pid) (use : JoinUse)
  deriving DecidableEq, Repr

/-- The answers that an operation may wait for: the loader's, or none but that it may go on. -/
def Suspended.Answer : Suspended → Type
  | .loading .. => Except LoadError ProgramImage
  | .starting .. => Unit
  | .sleeping .. => Unit

/-- What an operation comes to. -/
inductive Outcome where
  /-- A process was created. -/
  | created (result : Except KernelError Pid)
  /-- A child's status was taken. -/
  | joined (result : Except KernelError ExitStatus)
  /-- A process ended. -/
  | ended (result : Except KernelError ExitReport)
  /-- It was done. -/
  | done (result : Except KernelError Unit)
  /-- The calling thread goes on. -/
  | returned (d : Disposition)
  /-- The trapping thread goes on, with this frame. -/
  | trapped (d : Disposition) (frame : TrapFrame)

/-- How far an operation has come. -/
inductive Progress (μ κ : Type) where
  /-- It has finished. -/
  | finished (outcome : Outcome) (k : Kernel μ κ)
  /-- It waits. -/
  | suspended (s : Suspended) (k : Kernel μ κ)

/-- A system call's disposition as an outcome, with the frame settled when it came as a trap. -/
def Outcome.ofDisposition (trap : Option TrapFrame) (d : Disposition) : Outcome :=
  match trap with
  | none => .returned d
  | some frame => .trapped d (frame.settle d)

/-- A system call's result as a disposition: an error resumes with its number. -/
def Disposition.ofResult : Except KernelError Int64 → Disposition
  | .ok value => .resume value
  | .error e => .resume e.errno

namespace Kernel

variable {μ κ : Type}

/-- A system call has its result. -/
def answer (k : Kernel μ κ) (trap : Option TrapFrame) (result : Except KernelError Int64) : Progress μ κ :=
  .finished (.ofDisposition trap (.ofResult result)) k

/-- A new process has its number, or could not be made. -/
def finishSpawn (k : Kernel μ κ) (use : SpawnUse) (result : Except KernelError Pid) : Progress μ κ :=
  match use with
  | .outcome => .finished (.created result) k
  | .systemCall trap => k.answer trap (result.map fun pid => Int64.ofNat pid.raw.toNat)

/-- The loader has answered: the program becomes a process and is started, or the operation fails. -/
def enrol (k : Kernel μ κ) (parent : Option Pid) (program : String) (use : SpawnUse) :
    Except LoadError ProgramImage → Progress μ κ
  | .error cause => (k.note (.loadFailed program cause)).finishSpawn use (.error (.load cause))
  | .ok image =>
    match k.processes.enrol parent program image k.settings.slots with
    | .error e => k.finishSpawn use (.error e)
    | .ok (pid, processes) =>
      let info : StartInfo := ⟨program, image.entry, image.stack, image.argc, image.argv⟩
      let world := (k.world.note (.spawned pid program parent)).emit (.started pid info)
      .suspended (.starting pid use) { k with processes, world }

/-- A child's status has been taken, or it cannot be. A system call stores the code where its caller wants it, if the caller still
has a memory to store it in. -/
def finishJoin (k : Kernel μ κ) (caller : Pid) (use : JoinUse) (result : Except KernelError ExitStatus) : Progress μ κ :=
  match use with
  | .outcome => .finished (.joined result) k
  | .systemCall target trap =>
    match result with
    | .error e => k.answer trap (.error e)
    | .ok status =>
      let value := status.code.toInt64
      if target.isNull then k.answer trap (.ok value)
      else
        match k.changeMemory caller (·.writeWord target status.code.toUInt32) with
        | (.error e, k) => k.answer trap (.error e)
        | (.ok (), k) => k.answer trap (.ok value)

/-- Asks for a child's status; while the child runs, the thread joins those who wait and sleeps. -/
def join (k : Kernel μ κ) (thread : ThreadId) (caller child : Pid) (use : JoinUse) : Progress μ κ :=
  match k.processes.reap caller child with
  | .refused => k.finishJoin caller use (.error .notAChild)
  | .reaped status records =>
    let k := { k with processes := { k.processes with records } }
    (k.note (.reaped caller child status)).finishJoin caller use (.ok status)
  | .running =>
    let processes := { k.processes with waiting := k.processes.waiting.enter thread }
    let world := (k.world.note (.waits caller child)).emit (.blocked thread)
    .suspended (.sleeping thread caller child use) { k with processes, world }

/-- A sleeping thread runs on: it leaves the queue and asks again. -/
def wake (k : Kernel μ κ) (thread : ThreadId) (caller child : Pid) (use : JoinUse) : Progress μ κ :=
  { k with processes := { k.processes with waiting := k.processes.waiting.leave thread } }.join thread caller child use

/-- Lets a suspended operation go on with the answer it waited for. -/
def resume (k : Kernel μ κ) : (s : Suspended) → s.Answer → Progress μ κ
  | .loading parent program _ use, image => k.enrol parent program use image
  | .starting pid use, () => k.finishSpawn use (.ok pid)
  | .sleeping thread caller child use, () => k.wake thread caller child use

end Kernel

end Nucleus
