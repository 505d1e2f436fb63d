import Nucleus.Trap.Cause

/-!
# Trap frames

The registers that the kernel finds when the processor leaves user mode, the calls a program can make through them, and how the
trapping thread goes on.
-/

namespace Nucleus

/-- The argument registers. -/
structure Arguments where
  /-- The first argument. -/
  a0 : UInt64
  /-- The second argument. -/
  a1 : UInt64
  /-- The third argument. -/
  a2 : UInt64
  /-- The fourth argument. -/
  a3 : UInt64
  deriving DecidableEq, Repr

/-- The argument registers in their order. -/
def Arguments.toList (args : Arguments) : List UInt64 := [args.a0, args.a1, args.a2, args.a3]

/-- The registers saved on entry to the kernel. -/
structure TrapFrame where
  /-- The number of a system call on entry, its result on return. -/
  v0 : UInt64
  /-- The arguments. -/
  args : Arguments
  /-- The address that was accessed, where an access failed. -/
  badAddress : UInt64
  /-- The address of the instruction that trapped. -/
  counter : UInt64
  deriving DecidableEq, Repr

/-- How the trapping thread goes on. -/
inductive Disposition where
  /-- It returns to the program with this value. -/
  | resume (value : Int64)
  /-- Its process is gone. -/
  | exited
  /-- The machine halts. -/
  | halted
  deriving DecidableEq, Repr

namespace TrapFrame

/-- The frame of a system call. -/
def ofCall (number : UInt64) (args : Arguments) : TrapFrame := ⟨number, args, 0, 0⟩

/-- The result register as a signed number. -/
def value (frame : TrapFrame) : Int64 := frame.v0.toInt64

/-- The frame on return: a thread that returns to its program finds the value in the result register. -/
def settle (frame : TrapFrame) (d : Disposition) : TrapFrame :=
  match d with
  | .resume value => { frame with v0 := value.toUInt64 }
  | _ => frame

end TrapFrame

/-- The calls a program can make. -/
inductive SystemCall where
  | halt | exit | exec | join | creat | openFile | read | write | close | unlink
  deriving DecidableEq, Repr

namespace SystemCall

/-- The calls in the order of their numbers. -/
def all : List SystemCall := [.halt, .exit, .exec, .join, .creat, .openFile, .read, .write, .close, .unlink]

/-- The number of a call. -/
def number : SystemCall → Nat
  | .halt => 0
  | .exit => 1
  | .exec => 2
  | .join => 3
  | .creat => 4
  | .openFile => 5
  | .read => 6
  | .write => 7
  | .close => 8
  | .unlink => 9

/-- The call that a register names. -/
def ofWord? (word : UInt64) : Option SystemCall := all.find? fun call => call.number == word.toNat

/-- The number of a call names it. -/
theorem ofWord?_number (call : SystemCall) : ofWord? (UInt64.ofNat call.number) = some call := by
  cases call <;> rfl

end SystemCall

end Nucleus
