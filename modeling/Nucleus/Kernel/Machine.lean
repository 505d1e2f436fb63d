import Nucleus.Kernel.SystemCalls

/-!
# Runs of the kernel

The calls that may come from outside, and the machine that a run of them goes through: a kernel and the operations that wait, the
latest in front. In a step a new call begins, or one of the operations that wait is answered and goes on; between such steps a
running program changes its memory. An operation that waits for the loader or the scheduler has the steps that come before its
answer inside that callback. Callbacks that nest are answered from the front of the list, threads that sleep are woken in any
order, and a run may do either.
-/

namespace Nucleus

/-- A call from outside. -/
inductive Call where
  /-- A top-level program is to be started. -/
  | boot (program : String) (args : List String)
  /-- A process makes a system call. -/
  | systemCall (pid : Pid) (number : UInt64) (args : Arguments)
  /-- A process raises an exception. -/
  | trap (pid : Pid) (cause : Cause) (frame : TrapFrame)
  /-- A process ends. -/
  | exit (pid : Pid) (status : ExitStatus)
  /-- The machine is to halt at a process's request. -/
  | halt (pid : Pid)
  /-- A program is to be started for a parent, or for none, without any check by the kernel. -/
  | spawn (parent : Option Pid) (program : String) (args : List String)
  /-- A process waits for a child. -/
  | join (caller child : Pid)
  /-- A process ends, and the machine goes on whatever is left running. -/
  | endProcess (pid : Pid) (status : ExitStatus)
  /-- All processes are dropped, and the machine goes on. -/
  | dropProcesses
  deriving DecidableEq, Repr

/-- Whether a call is made to the kernel. The others are made to the process table behind it. -/
def Call.isKernelCall : Call → Bool
  | .boot .. | .systemCall .. | .trap .. | .exit .. | .halt .. => true
  | .spawn .. | .join .. | .endProcess .. | .dropProcesses => false

namespace Kernel

variable {μ κ : Type} [Medium μ] [Console κ]

/-- Takes an exception. A system call is carried out; any other cause ends the process. -/
def takeTrap (k : Kernel μ κ) (thread : ThreadId) (pid : Pid) (cause : Cause) (frame : TrapFrame) : Progress μ κ :=
  match cause with
  | .syscall => k.dispatch thread pid frame.v0 frame.args (some frame)
  | cause =>
    let result := (k.note (.exception pid cause frame.badAddress frame.counter)).exit pid (.abnormal cause)
    .finished (.trapped result.1 frame) result.2

/-- Begins a call, on a thread. -/
def begin (k : Kernel μ κ) (thread : ThreadId) : Call → Progress μ κ
  | .boot program args =>
    if k.halted then .finished (.created (.error .permissionDenied)) k
    else .suspended (.loading none program args .outcome) (k.note (.booting program))
  | .systemCall pid number args => k.dispatch thread pid number args none
  | .trap pid cause frame => k.takeTrap thread pid cause frame
  | .exit pid status => .finished (.returned (k.exit pid status).1) (k.exit pid status).2
  | .halt pid => .finished (.done (k.halt pid).1) (k.halt pid).2
  | .spawn parent program args => .suspended (.loading parent program args .outcome) k
  | .join caller child => k.join thread caller child .outcome
  | .endProcess pid status => .finished (.ended (k.endProcess pid status).1) (k.endProcess pid status).2
  | .dropProcesses => .finished (.done (.ok ())) k.dropProcesses

end Kernel

/-- A kernel in the middle of a run. -/
structure Machine (μ κ : Type) where
  /-- The kernel. -/
  kernel : Kernel μ κ
  /-- The operations that wait, the latest in front. -/
  waiting : List Suspended

namespace Machine

variable {μ κ : Type}

/-- The machine after an operation came so far, with the operations that waited before it, and the outcome if it finished. -/
def settle (waiting : List Suspended) : Progress μ κ → Machine μ κ × Option Outcome
  | .finished outcome k => (⟨k, waiting⟩, some outcome)
  | .suspended s k => (⟨k, s :: waiting⟩, none)

variable [Medium μ] [Console κ]

/-- A new call begins. -/
def call (m : Machine μ κ) (thread : ThreadId) (c : Call) : Machine μ κ × Option Outcome :=
  settle m.waiting (m.kernel.begin thread c)

/-- One step of a run in which only calls of some kind are made. -/
inductive Step (allowed : Call → Prop) : Machine μ κ → Machine μ κ × Option Outcome → Prop where
  /-- A new call begins. -/
  | call (m : Machine μ κ) (thread : ThreadId) (c : Call) (h : allowed c) : Step allowed m (m.call thread c)
  /-- One of the operations that wait is answered. -/
  | answer (k : Kernel μ κ) (before after : List Suspended) (s : Suspended) (a : s.Answer) :
      Step allowed ⟨k, before ++ s :: after⟩ (settle (before ++ after) (k.resume s a))
  /-- The memory of a running process changes, or the rights of its pages. -/
  | memory (m : Machine μ κ) (pid : Pid) (change : AddressSpace → Except KernelError AddressSpace) :
      Step allowed m (⟨(m.kernel.changeMemory pid change).2, m.waiting⟩, none)

/-- A run of such steps leads from one machine to another. -/
inductive Leads (allowed : Call → Prop) : Machine μ κ → Machine μ κ → Prop where
  /-- A run may be over at once. -/
  | refl (m : Machine μ κ) : Leads allowed m m
  /-- It may go on by a step. -/
  | step {m m' : Machine μ κ} {r : Machine μ κ × Option Outcome} :
      Leads allowed m m' → Step allowed m' r → Leads allowed m r.1

/-- The machine before the first call. -/
def start (settings : Settings) (medium : μ) (console : κ) : Machine μ κ := ⟨.create settings medium console, []⟩

/-- A machine that some run leads to from before the first call, with some medium and console. Whatever these do, whenever it is,
is up to the medium and the console. -/
def Reached (allowed : Call → Prop) (settings : Settings) (m : Machine μ κ) : Prop :=
  ∃ (medium : μ) (console : κ), Leads allowed (start settings medium console) m

end Machine

end Nucleus
