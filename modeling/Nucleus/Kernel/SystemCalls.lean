import Nucleus.Kernel.Operation

/-!
# System calls

Each call reads all that its caller passed by address and checks it before any table is touched; what fails on the way is the
result of the call. The call that ends its process and the one that halts have dispositions of their own.
-/

namespace Nucleus

/-- The texts that an array of pointers leads to: `count` pointers from an address on. -/
def AddressSpace.readArguments (s : AddressSpace) (argv : Address) (count index : Nat) : Except KernelError (List String) :=
  match count with
  | 0 => .ok []
  | count + 1 =>
    match argv.add? (index * pointerSize) with
    | none => .error .invalidAddress
    | some slot =>
      match s.readWord slot with
      | .error e => .error e
      | .ok pointer =>
        match s.readText (.ofNat pointer.toNat) maxTextLength with
        | .error e => .error e
        | .ok arg =>
          match s.readArguments argv count (index + 1) with
          | .error e => .error e
          | .ok rest => .ok (arg :: rest)

/-- The arguments a program is to be started with, of which there must not be too many. -/
def AddressSpace.programArguments (s : AddressSpace) (argc : UInt64) (argv : Address) : Except KernelError (List String) :=
  if maxArguments < argc.toNat then .error .invalidArgument else s.readArguments argv argc.toNat 0

/-- The descriptor number in a register. -/
def Fd.argument (word : UInt64) : Except KernelError Fd :=
  match Fd.ofWord? word with
  | some fd => .ok fd
  | none => .error .invalidDescriptor

namespace Kernel

variable {μ κ : Type}

/-- A caller, which has to run, and the text that a register of it points to. -/
def nameArgument (k : Kernel μ κ) (pid : Pid) (word : UInt64) : Except KernelError (Process × String) :=
  match k.processes.live pid with
  | .error e => .error e
  | .ok process =>
    match process.memory.readText ⟨word⟩ maxTextLength with
    | .error e => .error e
    | .ok name => .ok (process, name)

/-- The program and the arguments that a caller wants to start. -/
def execArguments (k : Kernel μ κ) (pid : Pid) (args : Arguments) : Except KernelError (String × List String) :=
  match k.nameArgument pid args.a0 with
  | .error e => .error e
  | .ok (process, program) =>
    match process.memory.programArguments args.a1 ⟨args.a2⟩ with
    | .error e => .error e
    | .ok words => .ok (program, words)

/-- Starts a program as a child of the caller; the result is the child's number. -/
def sysExec (k : Kernel μ κ) (pid : Pid) (args : Arguments) (trap : Option TrapFrame) : Progress μ κ :=
  match k.execArguments pid args with
  | .error e => k.answer trap (.error e)
  | .ok (program, words) =>
    .suspended (.loading (some pid) program words (.systemCall trap)) (k.note (.exec program words pid))

/-- The child that a caller waits for, after the place for its status has been found good. -/
def joinArguments (k : Kernel μ κ) (pid : Pid) (args : Arguments) : Except KernelError Pid :=
  if UInt32.size ≤ args.a0.toNat then .error .notAChild
  else
    match k.processes.live pid with
    | .error e => .error e
    | .ok process =>
      if (Address.mk args.a1).isNull then .ok ⟨args.a0.toUInt32⟩
      else
        match process.memory.check ⟨args.a1⟩ 4 .write with
        | .error e => .error e
        | .ok () => .ok ⟨args.a0.toUInt32⟩

/-- Waits for a child to end; the result is the code of its status, which is also stored where the caller wants it. -/
def sysJoin (k : Kernel μ κ) (thread : ThreadId) (pid : Pid) (args : Arguments) (trap : Option TrapFrame) : Progress μ κ :=
  match k.joinArguments pid args with
  | .error e => k.answer trap (.error e)
  | .ok child => k.join thread pid child (.systemCall ⟨args.a1⟩ trap)

section Files

variable [Medium μ]

/-- Opens a file; the result is its descriptor. -/
def sysOpen (k : Kernel μ κ) (pid : Pid) (args : Arguments) (mode : OpenMode) : Except KernelError Int64 × Kernel μ κ :=
  match k.nameArgument pid args.a0 with
  | .error e => (.error e, k)
  | .ok (process, name) =>
    match process.descriptors.openFile k.registry k.world name mode with
    | (.error e, registry, world) => (.error e, k.withFiles registry world)
    | (.ok (fd, descriptors), registry, world) =>
      (.ok (Int64.ofNat fd.slot), (k.withFiles registry world).putLive pid { process with descriptors })

/-- Closes a descriptor. -/
def sysClose (k : Kernel μ κ) (pid : Pid) (args : Arguments) : Except KernelError Int64 × Kernel μ κ :=
  match k.processes.live pid with
  | .error e => (.error e, k)
  | .ok process =>
    match Fd.argument args.a0 with
    | .error e => (.error e, k)
    | .ok fd =>
      match process.descriptors.close k.registry k.world fd with
      | (.error e, registry, world) => (.error e, k.withFiles registry world)
      | (.ok descriptors, registry, world) => (.ok 0, (k.withFiles registry world).putLive pid { process with descriptors })

/-- Deletes a name, now or when the file is no longer open. -/
def sysUnlink (k : Kernel μ κ) (pid : Pid) (args : Arguments) : Except KernelError Int64 × Kernel μ κ :=
  match k.nameArgument pid args.a0 with
  | .error e => (.error e, k)
  | .ok (_, name) =>
    match k.registry.unlink k.world name with
    | (.error e, registry, world) => (.error e, k.withFiles registry world)
    | (.ok (), registry, world) => (.ok 0, k.withFiles registry world)

variable [Console κ]

/-- A caller that wants to read, the range its bytes go to being writable, and the descriptor. -/
def readArguments (k : Kernel μ κ) (pid : Pid) (args : Arguments) : Except KernelError (Process × Fd) :=
  match k.processes.live pid with
  | .error e => .error e
  | .ok process =>
    match process.memory.check ⟨args.a1⟩ args.a2.toNat .write with
    | .error e => .error e
    | .ok () =>
      match Fd.argument args.a0 with
      | .error e => .error e
      | .ok fd => .ok (process, fd)

/-- Reads through a descriptor into the caller's memory; the result is the number of bytes. -/
def sysRead (k : Kernel μ κ) (pid : Pid) (args : Arguments) : Except KernelError Int64 × Kernel μ κ :=
  match k.readArguments pid args with
  | .error e => (.error e, k)
  | .ok (process, fd) =>
    match process.descriptors.readWith k.world fd args.a2.toNat (process.memory.copyOut ⟨args.a1⟩) with
    | (.error e, world) => (.error e, { k with world })
    | (.ok (bytes, memory, descriptors), world) =>
      (.ok (Int64.ofNat bytes.length), { k with world }.putLive pid { process with memory, descriptors })

/-- A caller that wants to write, its bytes, which have to be readable, and the descriptor. -/
def writeArguments (k : Kernel μ κ) (pid : Pid) (args : Arguments) : Except KernelError (Process × List UInt8 × Fd) :=
  match k.processes.live pid with
  | .error e => .error e
  | .ok process =>
    match process.memory.copyIn ⟨args.a1⟩ args.a2.toNat with
    | .error e => .error e
    | .ok data =>
      match Fd.argument args.a0 with
      | .error e => .error e
      | .ok fd => .ok (process, data, fd)

/-- Writes the caller's bytes through a descriptor; the result is the number of bytes. -/
def sysWrite (k : Kernel μ κ) (pid : Pid) (args : Arguments) : Except KernelError Int64 × Kernel μ κ :=
  match k.writeArguments pid args with
  | .error e => (.error e, k)
  | .ok (process, data, fd) =>
    match process.descriptors.write k.world fd data with
    | (.error e, world) => (.error e, { k with world })
    | (.ok (count, descriptors), world) =>
      (.ok (Int64.ofNat count), { k with world }.putLive pid { process with descriptors })

/-- A call of the kind that returns a result at once. -/
def reply (trap : Option TrapFrame) (result : Except KernelError Int64 × Kernel μ κ) : Progress μ κ :=
  result.2.answer trap result.1

/-- The halt asked for by a system call. -/
def sysHalt (k : Kernel μ κ) (pid : Pid) : Disposition × Kernel μ κ :=
  match k.halt pid with
  | (.ok (), k) => (.halted, k)
  | (.error e, k) => (.resume e.errno, k.note (.haltRefused pid e))

/-- What a system call does. -/
def perform (k : Kernel μ κ) (thread : ThreadId) (pid : Pid) (args : Arguments) (trap : Option TrapFrame) :
    SystemCall → Progress μ κ
  | .halt => .finished (.ofDisposition trap (k.sysHalt pid).1) (k.sysHalt pid).2
  | .exit =>
    let result := k.exit pid (.normal args.a0.toUInt32.toInt32)
    .finished (.ofDisposition trap result.1) result.2
  | .exec => k.sysExec pid args trap
  | .join => k.sysJoin thread pid args trap
  | .creat => reply trap (k.sysOpen pid args .fresh)
  | .openFile => reply trap (k.sysOpen pid args .plain)
  | .read => reply trap (k.sysRead pid args)
  | .write => reply trap (k.sysWrite pid args)
  | .close => reply trap (k.sysClose pid args)
  | .unlink => reply trap (k.sysUnlink pid args)

/-- A system call by number. After the halt none does anything; a number that names no call is an error. -/
def dispatch (k : Kernel μ κ) (thread : ThreadId) (pid : Pid) (number : UInt64) (args : Arguments)
    (trap : Option TrapFrame) : Progress μ κ :=
  if k.halted then .finished (.ofDisposition trap .halted) k
  else
    let k := k.note (.syscall pid number args.toList)
    match SystemCall.ofWord? number with
    | some call => k.perform thread pid args trap call
    | none => (k.note (.unknownSyscall number)).answer trap (.error .unknownSyscall)

end Files

end Kernel

end Nucleus
