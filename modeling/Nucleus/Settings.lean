/-!
# Limits and settings

The fixed limits of the machine, and the few switches that a boot path may set.
-/

namespace Nucleus

/-- Descriptor slots of a process, when the settings do not say otherwise. -/
def defaultSlots : Nat := 16

/-- The slot bound to the console's input when a process is created. -/
def stdinSlot : Nat := 0

/-- The slot bound to the console's output when a process is created. -/
def stdoutSlot : Nat := 1

/-- The first slot that opening a file may use. -/
def firstFileSlot : Nat := 2

/-- The most bytes of a text that a program passes to the kernel, its terminator not counted. -/
def maxTextLength : Nat := 256

/-- The most arguments that a program may be started with by a system call. -/
def maxArguments : Nat := 16

/-- The width in bytes of a pointer stored in user memory. -/
def pointerSize : Nat := 4

/-- The exit code that a parent sees for a child ended by an exception: the least code there is. -/
def abnormalCode : Int32 := Int32.minValue

/-- Who may halt the machine. -/
inductive HaltPolicy where
  /-- The first top-level process only. -/
  | rootOnly
  /-- Any running process. -/
  | anyProcess
  deriving DecidableEq, Repr

/-- The settings a kernel is made with. -/
structure Settings where
  /-- Who may halt the machine. -/
  haltPolicy : HaltPolicy := .rootOnly
  /-- Whether the machine halts when the last running process ends. -/
  haltWhenIdle : Bool := true
  /-- Descriptor slots of a process, the two of the console included. -/
  slots : Nat := defaultSlots
  deriving DecidableEq, Repr

end Nucleus
