import Nucleus.Proofs.Requests
import Mathlib.Logic.Relation

/-!
# What a step does to the kernel

Between two points at which other operations may run the kernel makes a few moves, each on one of its tables: a thread enters or
leaves the queue, a process is enrolled, reaped or ended, a file is opened or closed, and so on. `moves_of_step` says so once for
all calls and all answers; what every move keeps, every run keeps.
-/

namespace Nucleus

/-! ## Effects that are counted -/

/-- Whether an effect is the start of a process. -/
def Effect.isStart : Effect → Bool
  | .started .. => true
  | _ => false

/-- What is done in the life of a process. -/
inductive Deed where
  /-- It was created, for a parent or for none. -/
  | created (parent : Option Pid) (pid : Pid)
  /-- It ended. -/
  | ended (pid : Pid) (status : ExitStatus)
  /-- Its status was taken. -/
  | taken (caller child : Pid) (status : ExitStatus)
  deriving DecidableEq

/-- The deed that an effect reports, if it reports one. -/
def Effect.deed? : Effect → Option Deed
  | .notice (.spawned pid _ parent) => some (.created parent pid)
  | .notice (.exited pid status _) => some (.ended pid status)
  | .notice (.reaped caller child status) => some (.taken caller child status)
  | _ => none

/-- Whether an effect concerns neither a thread nor the life of a process: it is a report of something else, or a display. -/
def Effect.isQuiet : Effect → Bool
  | .notice event => (Effect.notice event).deed?.isNone
  | .shown _ => true
  | _ => false

/-- Whether an effect reports that a handle was given back which the registry does not know, or does not know any more. -/
def Effect.isRefusedRelease : Effect → Bool
  | .notice (.releasedUnregistered _) => true
  | .notice (.staleHandle _) => true
  | _ => false

/-- Whether an effect is quiet, and no such report. -/
def Effect.isPlain (effect : Effect) : Bool := effect.isQuiet && !effect.isRefusedRelease

/-- Whether an effect is neither a start nor such a report. -/
def Effect.isOrdinary (effect : Effect) : Bool := !effect.isStart && !effect.isRefusedRelease

/-- How many processes were started so far, which is how many were created. -/
def World.starts {μ κ : Type} (w : World μ κ) : Nat := w.effects.countP Effect.isStart

/-- What may be done in a part of a run, besides the passing of words to memory. -/
inductive Power where
  /-- A thread queues itself and leaves the queue. -/
  | sleep (thread : ThreadId)
  /-- Statuses of ended children are taken. -/
  | take
  /-- Programs become processes. -/
  | enrol
  /-- Files are opened, closed, read, written and unlinked. -/
  | files
  /-- Processes end. -/
  | finish
  /-- The machine halts. -/
  | halt
  /-- All processes are dropped without the machine being halted. -/
  | drop
  deriving DecidableEq

/-- All powers, where only such threads pass through the queue. -/
def Power.passing (threads : ThreadId → Prop) : Power → Prop
  | .sleep thread => threads thread
  | _ => True

namespace Kernel

variable {μ κ : Type} [Medium μ] [Console κ]

/-- One move of the kernel, in a part of a run with such powers. -/
inductive Move (powers : Power → Prop) : Kernel μ κ → Kernel μ κ → Prop where
  /-- An event is reported. -/
  | note (k : Kernel μ κ) (event : Notice) (h : (Effect.notice event).isPlain = true) : Move powers k (k.note event)
  /-- A thread queues itself and sleeps. -/
  | asleep (k : Kernel μ κ) (thread : ThreadId) (hp : powers (.sleep thread)) :
      Move powers k
        { k with
          processes := { k.processes with waiting := k.processes.waiting.enter thread }
          world := k.world.emit (.blocked thread) }
  /-- A thread leaves the queue. -/
  | awake (k : Kernel μ κ) (thread : ThreadId) (hp : powers (.sleep thread)) :
      Move powers k { k with processes := { k.processes with waiting := k.processes.waiting.leave thread } }
  /-- A loaded program becomes a process and is started. -/
  | enrolled {k : Kernel μ κ} {parent : Option Pid} {program : String} {image : ProgramImage} {pid : Pid}
      {processes : ProcessTable} (hp : powers .enrol) (info : StartInfo)
      (h : k.processes.enrol parent program image k.settings.slots = .ok (pid, processes)) :
      Move powers k
        { k with processes, world := (k.world.note (.spawned pid program parent)).emit (.started pid info) }
  /-- A child's status is taken, which is reported. -/
  | reaped {k : Kernel μ κ} {caller child : Pid} {status : ExitStatus} {records : Records} (hp : powers .take)
      (h : k.processes.reap caller child = .reaped status records) :
      Move powers k
        { k with processes := { k.processes with records }, world := k.world.note (.reaped caller child status) }
  /-- A running process's memory changes. -/
  | memory {k : Kernel μ κ} {pid : Pid} {process : Process} (h : k.processes.live pid = .ok process) (memory : AddressSpace) :
      Move powers k (k.putLive pid { process with memory })
  /-- A file is opened. -/
  | opened {k : Kernel μ κ} {pid : Pid} {process : Process} {name : String} {mode : OpenMode} {fd : Fd}
      {descriptors : Descriptors} {registry : Registry} {world : World μ κ} (hp : powers .files)
      (h : k.processes.live pid = .ok process)
      (ho : process.descriptors.openFile k.registry k.world name mode = (.ok (fd, descriptors), registry, world)) :
      Move powers k ((k.withFiles registry world).putLive pid { process with descriptors })
  /-- A file cannot be opened. -/
  | notOpened {k : Kernel μ κ} {descriptors : Descriptors} {name : String} {mode : OpenMode} {e : KernelError}
      {registry : Registry} {world : World μ κ} (hp : powers .files)
      (ho : descriptors.openFile k.registry k.world name mode = (.error e, registry, world)) :
      Move powers k (k.withFiles registry world)
  /-- A descriptor is closed. -/
  | closed {k : Kernel μ κ} {pid : Pid} {process : Process} {fd : Fd} {descriptors : Descriptors} {registry : Registry}
      {world : World μ κ} (hp : powers .files) (h : k.processes.live pid = .ok process)
      (hc : process.descriptors.close k.registry k.world fd = (.ok descriptors, registry, world)) :
      Move powers k ((k.withFiles registry world).putLive pid { process with descriptors })
  /-- A name is unlinked, or cannot be. -/
  | unlinked (k : Kernel μ κ) (name : String) (hp : powers .files) :
      Move powers k (k.withFiles (k.registry.unlink k.world name).2.1 (k.registry.unlink k.world name).2.2)
  /-- Bytes are fetched through a descriptor, delivered to the process's memory, and the cursor moves on. -/
  | read {k : Kernel μ κ} {pid : Pid} {process : Process} {fd : Fd} {count : Nat}
      {deliver : List UInt8 → Except KernelError AddressSpace} {bytes : List UInt8} {memory : AddressSpace}
      {descriptors : Descriptors} {world : World μ κ} (hp : powers .files) (h : k.processes.live pid = .ok process)
      (hr : process.descriptors.readWith k.world fd count deliver = (.ok (bytes, memory, descriptors), world)) :
      Move powers k ({ k with world }.putLive pid { process with memory, descriptors })
  /-- Nothing can be read through a descriptor, or what was read cannot be delivered. -/
  | notRead {k : Kernel μ κ} {descriptors : Descriptors} {fd : Fd} {count : Nat}
      {deliver : List UInt8 → Except KernelError AddressSpace} {e : KernelError} {world : World μ κ} (hp : powers .files)
      (hr : descriptors.readWith k.world fd count deliver = (.error e, world)) : Move powers k { k with world }
  /-- Bytes are written through a descriptor, and the cursor moves on. -/
  | written {k : Kernel μ κ} {pid : Pid} {process : Process} {fd : Fd} {data : List UInt8} {count : Nat}
      {descriptors : Descriptors} {world : World μ κ} (hp : powers .files) (h : k.processes.live pid = .ok process)
      (hw : process.descriptors.write k.world fd data = (.ok (count, descriptors), world)) :
      Move powers k ({ k with world }.putLive pid { process with descriptors })
  /-- Nothing can be written through a descriptor. -/
  | notWritten {k : Kernel μ κ} {descriptors : Descriptors} {fd : Fd} {data : List UInt8} {e : KernelError} {world : World μ κ}
      (hp : powers .files) (hw : descriptors.write k.world fd data = (.error e, world)) : Move powers k { k with world }
  /-- A process ends, or there is none to end. -/
  | ended (k : Kernel μ κ) (pid : Pid) (status : ExitStatus) (hp : powers .finish) : Move powers k (k.endProcess pid status).2
  /-- The machine halts. -/
  | shutDown (k : Kernel μ κ) (hp : powers .halt) : Move powers k k.shutDown
  /-- All processes are dropped without the machine being halted. -/
  | dropped (k : Kernel μ κ) (hp : powers .drop) : Move powers k k.dropProcesses

/-- Any number of moves. -/
abbrev Moves (powers : Power → Prop) : Kernel μ κ → Kernel μ κ → Prop := Relation.ReflTransGen (Move powers)

/-! ## What each operation comes down to -/

variable {powers : Power → Prop}

/-- Reporting an event that is quiet is a move. -/
theorem moves_note (k : Kernel μ κ) (event : Notice) (h : (Effect.notice event).isPlain = true) :
    Moves powers k (k.note event) :=
  .single (.note k event h)

theorem moves_changeMemory (k : Kernel μ κ) (pid : Pid) (change : AddressSpace → Except KernelError AddressSpace) :
    Moves powers k (k.changeMemory pid change).2 := by
  unfold changeMemory
  cases h : k.processes.live pid with
  | error e => exact .refl
  | ok process =>
    dsimp only
    cases change process.memory with
    | error e => exact .refl
    | ok memory => exact .single (.memory h memory)

/-- Halting a machine. -/
theorem moves_halt (k : Kernel μ κ) (caller : Pid) (hp : powers .halt) : Moves powers k (k.halt caller).2 := by
  unfold halt
  cases k.processes.live caller with
  | error e => exact .refl
  | ok process =>
    dsimp only
    split
    · exact moves_note k _ rfl
    · exact (moves_note k (.haltRequested caller) rfl).tail (.shutDown _ hp)

/-- After a process has ended the machine halts, if nothing is left and the settings say so. -/
theorem moves_after_endProcess (k : Kernel μ κ) (pid : Pid) (status : ExitStatus) (hh : powers .halt) :
    Moves powers (k.endProcess pid status).2 (k.exit pid status).2 := by
  unfold exit
  split
  · rename_i report k' he
    rw [he]
    split
    · exact (moves_note k' .idle rfl).tail (.shutDown _ hh)
    · exact .refl
  · rename_i e k' he
    rw [he]

/-- Ending a process, and halting if nothing is left. -/
theorem moves_exit (k : Kernel μ κ) (pid : Pid) (status : ExitStatus) (hp : powers .finish) (hh : powers .halt) :
    Moves powers k (k.exit pid status).2 :=
  (Relation.ReflTransGen.single (.ended k pid status hp)).trans (moves_after_endProcess k pid status hh)

end Kernel

/-- The kernel when an operation came so far. -/
def Progress.kernel {μ κ : Type} : Progress μ κ → Kernel μ κ
  | .finished _ k => k
  | .suspended _ k => k

/-- The operations that wait when an operation came so far, besides those that waited before. -/
def Progress.waits {μ κ : Type} : Progress μ κ → List Suspended
  | .finished .. => []
  | .suspended s _ => [s]

/-- Whether an operation waits for the loader. -/
def Suspended.isLoading : Suspended → Bool
  | .loading .. => true
  | _ => false

/-- The thread that sleeps in an operation that waits, if one does. -/
def Suspended.sleeper? : Suspended → Option ThreadId
  | .sleeping thread .. => some thread
  | _ => none

namespace Kernel

variable {μ κ : Type}

/-- The end of a spawn leaves the kernel as it is. -/
@[simp] theorem kernel_finishSpawn (k : Kernel μ κ) (use : SpawnUse) (result : Except KernelError Pid) :
    (k.finishSpawn use result).kernel = k := by
  cases use <;> rfl

/-- The end of a spawn waits for nothing. -/
@[simp] theorem waits_finishSpawn (k : Kernel μ κ) (use : SpawnUse) (result : Except KernelError Pid) :
    (k.finishSpawn use result).waits = [] := by
  cases use <;> rfl

/-- Nor does the end of a join. -/
@[simp] theorem waits_finishJoin (k : Kernel μ κ) (caller : Pid) (use : JoinUse) (result : Except KernelError ExitStatus) :
    (k.finishJoin caller use result).waits = [] := by
  cases use with
  | outcome => rfl
  | systemCall target trap =>
    cases result with
    | error e => rfl
    | ok status =>
      simp only [finishJoin]
      split
      · rfl
      · split <;> rfl

/-- A caller that passed a name runs. -/
theorem live_of_nameArgument {k : Kernel μ κ} {pid : Pid} {word : UInt64} {process : Process} {name : String}
    (h : k.nameArgument pid word = .ok (process, name)) : k.processes.live pid = .ok process := by
  unfold nameArgument at h
  split at h
  · cases h
  · rename_i process' hl
    split at h
    · cases h
    · cases h
      exact hl

/-- A caller that passed good arguments for a read runs. -/
theorem live_of_readArguments {k : Kernel μ κ} {pid : Pid} {args : Arguments} {process : Process} {fd : Fd}
    (h : k.readArguments pid args = .ok (process, fd)) : k.processes.live pid = .ok process := by
  unfold readArguments at h
  split at h
  · cases h
  · rename_i process' hl
    split at h
    · cases h
    · split at h
      · cases h
      · cases h
        exact hl

/-- A caller that passed good arguments for a write runs. -/
theorem live_of_writeArguments {k : Kernel μ κ} {pid : Pid} {args : Arguments} {process : Process} {data : List UInt8}
    {fd : Fd} (h : k.writeArguments pid args = .ok (process, data, fd)) : k.processes.live pid = .ok process := by
  unfold writeArguments at h
  split at h
  · cases h
  · rename_i process' hl
    split at h
    · cases h
    · split at h
      · cases h
      · cases h
        exact hl

variable [Medium μ] [Console κ] {powers : Power → Prop}

theorem moves_enrol (k : Kernel μ κ) (parent : Option Pid) (program : String) (use : SpawnUse)
    (image : Except LoadError ProgramImage) (hp : powers .enrol) : Moves powers k (k.enrol parent program use image).kernel := by
  cases image with
  | error cause =>
    simp only [enrol, kernel_finishSpawn]
    exact moves_note k _ rfl
  | ok image =>
    simp only [enrol]
    cases h : k.processes.enrol parent program image k.settings.slots with
    | error e =>
      simp only [kernel_finishSpawn]
      exact .refl
    | ok created => exact .single (.enrolled hp _ h)

/-- The end of a join stores at most a word in the caller's memory. -/
theorem moves_finishJoin (k : Kernel μ κ) (caller : Pid) (use : JoinUse) (result : Except KernelError ExitStatus) :
    Moves powers k (k.finishJoin caller use result).kernel := by
  cases use with
  | outcome => exact .refl
  | systemCall target trap =>
    cases result with
    | error e => exact .refl
    | ok status =>
      have hm : Moves powers k _ := moves_changeMemory k caller (·.writeWord target status.code.toUInt32)
      simp only [finishJoin]
      split
      · exact .refl
      · split
        · rename_i e k' he
          rw [he] at hm
          exact hm
        · rename_i k' he
          rw [he] at hm
          exact hm

/-- A join puts its thread to sleep only while the child runs, and takes its status only when it has ended. -/
theorem moves_join (k : Kernel μ κ) (thread : ThreadId) (caller child : Pid) (use : JoinUse)
    (hq : k.processes.reap caller child = .running → powers (.sleep thread))
    (ht : ∀ status records, k.processes.reap caller child = .reaped status records → powers .take) :
    Moves powers k (k.join thread caller child use).kernel := by
  unfold join
  cases h : k.processes.reap caller child with
  | refused => exact moves_finishJoin k caller use _
  | running =>
    have h1 : Moves powers k (k.note (.waits caller child)) := moves_note k _ rfl
    exact h1.tail (.asleep _ thread (hq h))
  | reaped status records =>
    exact (Relation.ReflTransGen.single (.reaped (ht status records h) h)).trans (moves_finishJoin _ caller use _)

theorem moves_wake (k : Kernel μ κ) (thread : ThreadId) (caller child : Pid) (use : JoinUse)
    (hq : powers (.sleep thread)) (ht : powers .take) : Moves powers k (k.wake thread caller child use).kernel :=
  (Relation.ReflTransGen.single (.awake k thread hq)).trans (moves_join _ thread caller child use (fun _ => hq) fun _ _ _ => ht)

/-- Whatever an operation waited for, it goes on by moves. It makes a process only if it waited for the loader, and a thread
passes through the queue or takes a status only if it slept. -/
theorem moves_resume (k : Kernel μ κ) (s : Suspended) (a : s.Answer) (hp : s.isLoading = true → powers .enrol)
    (hq : ∀ thread, s.sleeper? = some thread → powers (.sleep thread) ∧ powers .take) : Moves powers k (k.resume s a).kernel := by
  cases s with
  | loading parent program args use => exact moves_enrol k parent program use a (hp rfl)
  | starting pid use =>
    rw [show k.resume (.starting pid use) a = k.finishSpawn use (.ok pid) from rfl, kernel_finishSpawn]
  | sleeping thread caller child use => exact moves_wake k thread caller child use (hq thread rfl).1 (hq thread rfl).2

/-! ## System calls -/

theorem moves_sysHalt (k : Kernel μ κ) (pid : Pid) (hp : powers .halt) : Moves powers k (k.sysHalt pid).2 := by
  have hm : Moves powers k _ := moves_halt k pid hp
  unfold sysHalt
  split
  · rename_i k' he
    rw [he] at hm
    exact hm
  · rename_i e k' he
    rw [he] at hm
    exact hm.trans (moves_note k' _ rfl)

theorem moves_sysExec (k : Kernel μ κ) (pid : Pid) (args : Arguments) (trap : Option TrapFrame) :
    Moves powers k (k.sysExec pid args trap).kernel := by
  unfold sysExec
  split
  · exact .refl
  · exact moves_note k _ rfl

theorem moves_sysJoin (k : Kernel μ κ) (thread : ThreadId) (pid : Pid) (args : Arguments) (trap : Option TrapFrame)
    (hq : ∀ child, k.joinArguments pid args = .ok child → powers (.sleep thread) ∧ powers .take) :
    Moves powers k (k.sysJoin thread pid args trap).kernel := by
  unfold sysJoin
  split
  · exact .refl
  · rename_i child ha
    exact moves_join k thread pid child _ (fun _ => (hq child ha).1) fun _ _ _ => (hq child ha).2

theorem moves_sysOpen (k : Kernel μ κ) (pid : Pid) (args : Arguments) (mode : OpenMode) (hp : powers .files) :
    Moves powers k (k.sysOpen pid args mode).2 := by
  unfold sysOpen
  split
  · exact .refl
  · rename_i process name hn
    split
    · rename_i e registry world ho
      exact .single (.notOpened hp ho)
    · rename_i fd descriptors registry world ho
      exact .single (.opened hp (live_of_nameArgument hn) ho)

theorem moves_sysClose (k : Kernel μ κ) (pid : Pid) (args : Arguments) (hp : powers .files) :
    Moves powers k (k.sysClose pid args).2 := by
  unfold sysClose
  split
  · exact .refl
  · rename_i process hl
    split
    · exact .refl
    · rename_i fd hf
      split
      · rename_i e registry world hc
        -- A descriptor that is not allocated leaves registry and world as they were.
        unfold Descriptors.close at hc
        split at hc
        · cases hc
          exact .refl
        · split at hc <;> cases hc
      · rename_i descriptors registry world hc
        exact .single (.closed hp hl hc)

theorem moves_sysUnlink (k : Kernel μ κ) (pid : Pid) (args : Arguments) (hp : powers .files) :
    Moves powers k (k.sysUnlink pid args).2 := by
  unfold sysUnlink
  split
  · exact .refl
  · rename_i process name hn
    have hm : Move powers k _ := .unlinked k name hp
    split
    · rename_i e registry world hu
      rw [hu] at hm
      exact .single hm
    · rename_i registry world hu
      rw [hu] at hm
      exact .single hm

theorem moves_sysRead (k : Kernel μ κ) (pid : Pid) (args : Arguments) (hp : powers .files) :
    Moves powers k (k.sysRead pid args).2 := by
  unfold sysRead
  split
  · exact .refl
  · rename_i process fd hr
    split
    · rename_i e world hw
      exact .single (.notRead hp hw)
    · rename_i bytes memory descriptors world hw
      exact .single (.read hp (live_of_readArguments hr) hw)

theorem moves_sysWrite (k : Kernel μ κ) (pid : Pid) (args : Arguments) (hp : powers .files) :
    Moves powers k (k.sysWrite pid args).2 := by
  unfold sysWrite
  split
  · exact .refl
  · rename_i process data fd hr
    split
    · rename_i e world hw
      exact .single (.notWritten hp hw)
    · rename_i count descriptors world hw
      exact .single (.written hp (live_of_writeArguments hr) hw)

theorem moves_perform (k : Kernel μ κ) (thread : ThreadId) (pid : Pid) (args : Arguments) (trap : Option TrapFrame)
    (call : SystemCall) (hf : powers .files) (hh : call = .halt → powers .halt)
    (hs : call = .exit → powers .finish ∧ powers .halt)
    (hq : ∀ child, call = .join → k.joinArguments pid args = .ok child → powers (.sleep thread) ∧ powers .take) :
    Moves powers k (k.perform thread pid args trap call).kernel := by
  cases call with
  | halt => exact moves_sysHalt k pid (hh rfl)
  | exit => exact moves_exit k pid _ (hs rfl).1 (hs rfl).2
  | exec => exact moves_sysExec k pid args trap
  | join => exact moves_sysJoin k thread pid args trap fun child => hq child rfl
  | creat => exact moves_sysOpen k pid args .fresh hf
  | openFile => exact moves_sysOpen k pid args .plain hf
  | read => exact moves_sysRead k pid args hf
  | write => exact moves_sysWrite k pid args hf
  | close => exact moves_sysClose k pid args hf
  | unlink => exact moves_sysUnlink k pid args hf

theorem moves_dispatch (k : Kernel μ κ) (thread : ThreadId) (pid : Pid) (number : UInt64) (args : Arguments)
    (trap : Option TrapFrame) (hf : powers .files)
    (hh : k.halted = false → SystemCall.ofWord? number = some .halt → powers .halt)
    (hs : k.halted = false → SystemCall.ofWord? number = some .exit → powers .finish ∧ powers .halt)
    (hq : ∀ child, k.joinedBy pid number args = some child → powers (.sleep thread) ∧ powers .take) :
    Moves powers k (k.dispatch thread pid number args trap).kernel := by
  unfold dispatch
  split
  · exact .refl
  · rename_i hk
    have hn : Moves powers k (k.note (.syscall pid number args.toList)) := moves_note k _ rfl
    dsimp only
    split
    · rename_i call hc
      refine hn.trans (moves_perform _ thread pid args trap call hf ?_ ?_ ?_)
      · rintro rfl
        exact hh (Bool.eq_false_iff.mpr hk) hc
      · rintro rfl
        exact hs (Bool.eq_false_iff.mpr hk) hc
      rintro child rfl ha
      have ha' : k.joinArguments pid args = .ok child := ha
      refine hq child ?_
      unfold joinedBy
      rw [if_neg hk, if_pos hc, ha']
      rfl
    · exact hn.trans (moves_note _ (.unknownSyscall number) rfl)

/-! ## Calls, steps and runs -/

/-- Whatever call begins, it begins by moves, none of which makes a process. A process ends if the call is to end it, the machine
halts after that at most or if the call asks for it, and a thread goes to sleep or takes a status if the call asks for a child. -/
theorem moves_begin (k : Kernel μ κ) (thread : ThreadId) (c : Call) (hf : powers .files)
    (hh : ∀ caller, k.haltOf c = some caller → powers .halt) (hd : c = .dropProcesses → powers .drop)
    (hs : ∀ asked, k.endOf c = some asked → powers .finish ∧ powers .halt)
    (hq : ∀ asked, k.joinOf c = some asked → powers (.sleep thread) ∧ powers .take) :
    Moves powers k (k.begin thread c).kernel := by
  cases c with
  | boot program args =>
    simp only [begin]
    split
    · exact .refl
    · exact moves_note k _ rfl
  | systemCall pid number args =>
    refine moves_dispatch k thread pid number args none hf (fun hk hn => ?_) (fun hk hn => ?_)
      fun child hj => hq _ (by rw [joinOf, hj]; rfl)
    · exact hh _ (by rw [haltOf, haltedBy, hk, if_pos hn]; rfl)
    · exact hs _ (by rw [endOf, exitedBy, hk, if_pos hn]; rfl)
  | trap pid cause frame =>
    simp only [begin, takeTrap]
    split
    · refine moves_dispatch k thread pid _ _ _ hf (fun hk hn => ?_) (fun hk hn => ?_)
        fun child hj => hq _ (by rw [joinOf, hj]; rfl)
      · exact hh _ (by rw [haltOf, haltedBy, hk, if_pos hn]; rfl)
      · exact hs _ (by rw [endOf, if_pos rfl, exitedBy, hk, if_pos hn]; rfl)
    · rename_i hc
      have hn : Moves powers k (k.note (.exception pid cause frame.badAddress frame.counter)) := moves_note k _ rfl
      have hp := hs _ (by rw [endOf, if_neg hc])
      exact hn.trans (moves_exit _ pid _ hp.1 hp.2)
  | exit pid status => exact moves_exit k pid status (hs _ rfl).1 (hs _ rfl).2
  | halt pid => exact moves_halt k pid (hh _ rfl)
  | spawn parent program args => exact .refl
  | join caller child => exact moves_join k thread caller child .outcome (fun _ => (hq _ rfl).1) fun _ _ _ => (hq _ rfl).2
  | endProcess pid status => exact .single (.ended k pid status (hs _ rfl).1)
  | dropProcesses => exact .single (.dropped k (hd rfl))

end Kernel

/-- What may be done in a run in which only calls of some kind are made. -/
def Power.within (allowed : Call → Prop) : Power → Prop
  | .drop => allowed .dropProcesses
  | _ => True

namespace Machine

variable {μ κ : Type}

@[simp] theorem kernel_settle (waiting : List Suspended) (p : Progress μ κ) : (settle waiting p).1.kernel = p.kernel := by
  cases p <;> rfl

/-- After an operation came so far, it waits or not, and all others wait that waited before. -/
theorem waiting_settle (waiting : List Suspended) (p : Progress μ κ) : (settle waiting p).1.waiting = p.waits ++ waiting := by
  cases p <;> rfl

variable [Medium μ] [Console κ] {allowed : Call → Prop}

/-- What a step does to the kernel comes down to moves. -/
theorem moves_of_step {m : Machine μ κ} {r : Machine μ κ × Option Outcome} (h : Step allowed m r) :
    Kernel.Moves (Power.within allowed) m.kernel r.1.kernel := by
  cases h with
  | call _ thread c hc =>
    rw [Machine.call, kernel_settle]
    refine Kernel.moves_begin _ thread c trivial (fun _ _ => trivial) ?_ (fun _ _ => ⟨trivial, trivial⟩)
      fun _ _ => ⟨trivial, trivial⟩
    rintro rfl
    exact hc
  | answer k before after s a =>
    rw [kernel_settle]
    exact Kernel.moves_resume k s a (fun _ => trivial) fun _ _ => ⟨trivial, trivial⟩
  | memory _ pid change => exact Kernel.moves_changeMemory _ pid change

/-- What a run does to the kernel comes down to moves. -/
theorem moves_of_leads {m m' : Machine μ κ} (h : Leads allowed m m') :
    Kernel.Moves (Power.within allowed) m.kernel m'.kernel := by
  induction h with
  | refl => exact .refl
  | step _ hs ih => exact ih.trans (moves_of_step hs)

/-- Runs can be put one behind the other. -/
theorem Leads.trans {m m' m'' : Machine μ κ} (h : Leads allowed m m') (h' : Leads allowed m' m'') : Leads allowed m m'' := by
  induction h' with
  | refl => exact h
  | step _ hs ih => exact ih.step hs

end Machine

end Nucleus
