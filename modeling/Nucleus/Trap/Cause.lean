/-!
# Causes of exceptions

Why the processor left user mode: a system call, a bad memory access, or a bad instruction.
-/

namespace Nucleus

/-- The causes of an exception. -/
inductive Cause where
  /-- The program asked the kernel for something. -/
  | syscall
  | pageFault
  | tlbMiss
  | readOnly
  | busError
  | addressError
  | overflow
  | illegalInstruction
  deriving DecidableEq, Repr

/-- The number of a cause. -/
def Cause.code : Cause → Nat
  | .syscall => 0
  | .pageFault => 1
  | .tlbMiss => 2
  | .readOnly => 3
  | .busError => 4
  | .addressError => 5
  | .overflow => 6
  | .illegalInstruction => 7

/-- The cause that the cause register names. A number that names none is taken for an illegal instruction. -/
def Cause.ofWord (word : UInt32) : Cause :=
  match word.toNat with
  | 0 => .syscall
  | 1 => .pageFault
  | 2 => .tlbMiss
  | 3 => .readOnly
  | 4 => .busError
  | 5 => .addressError
  | 6 => .overflow
  | _ => .illegalInstruction

/-- The word for a cause. -/
def Cause.label : Cause → String
  | .syscall => "Syscall"
  | .pageFault => "PageFault"
  | .tlbMiss => "TlbMiss"
  | .readOnly => "ReadOnly"
  | .busError => "BusError"
  | .addressError => "AddressError"
  | .overflow => "Overflow"
  | .illegalInstruction => "IllegalInstruction"

/-- Whether the cause is a bad access to memory, so that there is an address to tell. -/
def Cause.isMemoryFault : Cause → Bool
  | .pageFault | .tlbMiss | .readOnly | .busError | .addressError => true
  | .syscall | .overflow | .illegalInstruction => false

/-- The number of a cause names it. -/
theorem Cause.ofWord_code (cause : Cause) : ofWord (UInt32.ofNat cause.code) = cause := by
  cases cause <;> rfl

end Nucleus
