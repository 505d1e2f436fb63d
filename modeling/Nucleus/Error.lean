/-!
# Errors

Why an operation of the kernel can fail, as causes and not as texts. A cause has one wording (`message`) for people and one
negative number (`KernelError.errno`) for the program that asked; nothing here stops the machine.
-/

namespace Nucleus

/-- What a storage medium answers when it cannot do what it was asked. -/
inductive StorageError where
  /-- No object has that name. -/
  | notFound
  /-- The medium is full. -/
  | noSpace
  /-- Any other failure of the medium. -/
  | inputOutput
  deriving DecidableEq, Repr

/-- Why an executable was not turned into a program image. -/
inductive LoadError where
  /-- There is no such executable. -/
  | notFound
  /-- The executable is malformed. -/
  | badFormat
  /-- The arguments do not fit in the argument page. -/
  | argumentsTooLong
  /-- There is not enough memory for the image. -/
  | outOfMemory
  deriving DecidableEq, Repr

/-- Why a kernel operation failed. -/
inductive KernelError where
  /-- No file has that name. -/
  | notFound
  /-- The name still belongs to a file that waits for its deletion. -/
  | alreadyExists
  /-- The descriptor is out of range, not allocated, or used in the wrong direction. -/
  | invalidDescriptor
  /-- The descriptor table is full. -/
  | noFreeDescriptors
  /-- The range is outside the caller's memory, or its pages do not grant the access. -/
  | invalidAddress
  /-- The process to wait for is not an unreaped child of the caller. -/
  | notAChild
  /-- No running process has that number. -/
  | noSuchProcess
  /-- The executable was not loaded. -/
  | load (cause : LoadError)
  /-- The storage medium failed. -/
  | storage (cause : StorageError)
  /-- An argument of a system call is malformed. -/
  | invalidArgument
  /-- The caller may not do this. -/
  | permissionDenied
  /-- There is no system call of that number. -/
  | unknownSyscall
  deriving DecidableEq, Repr

/-- The wording of a storage error. -/
def StorageError.message : StorageError → String
  | .notFound => "no such file"
  | .noSpace => "no space left on device"
  | .inputOutput => "I/O error"

/-- The wording of a load error. -/
def LoadError.message : LoadError → String
  | .notFound => "executable not found"
  | .badFormat => "malformed executable"
  | .argumentsTooLong => "arguments too long"
  | .outOfMemory => "insufficient physical memory"

/-- The wording of a kernel error. -/
def KernelError.message : KernelError → String
  | .notFound => "file not found"
  | .alreadyExists => "name is pending deletion"
  | .invalidDescriptor => "invalid file descriptor"
  | .noFreeDescriptors => "descriptor table full"
  | .invalidAddress => "invalid user address"
  | .notAChild => "not a child of the caller"
  | .noSuchProcess => "no such process"
  | .load cause => "load failed: " ++ cause.message
  | .storage cause => "storage error: " ++ cause.message
  | .invalidArgument => "invalid argument"
  | .permissionDenied => "permission denied"
  | .unknownSyscall => "unknown system call"

/-- The negative number that a system call returns for an error. A missing file has one number, whether the kernel or the medium
found it missing, and all load errors share one. -/
def KernelError.errno : KernelError → Int64
  | .permissionDenied => -1
  | .notFound => -2
  | .noSuchProcess => -3
  | .storage .noSpace => -28
  | .storage .notFound => -2
  | .storage .inputOutput => -5
  | .load _ => -8
  | .invalidDescriptor => -9
  | .notAChild => -10
  | .invalidAddress => -14
  | .alreadyExists => -17
  | .invalidArgument => -22
  | .noFreeDescriptors => -24
  | .unknownSyscall => -38

/-- A failure of the medium as the kernel reports it: a missing name is a missing file, all else is passed through. -/
def KernelError.ofStorage : StorageError → KernelError
  | .notFound => .notFound
  | cause => .storage cause

/-- Every error is a negative number to the caller, so it is never taken for a result. -/
theorem KernelError.errno_lt_zero (e : KernelError) : e.errno < 0 := by
  cases e with
  | load cause => exact (by decide : (-8 : Int64) < 0)
  | storage cause => cases cause <;> decide
  | _ => decide

end Nucleus
