import Nucleus.Proofs.Changes
import Nucleus.Proofs.Memory

/-!
# What a system call comes to

A system call that waits for the loader, the scheduler or a child goes on when the answer comes, and much else may happen until
then. When nothing else does, what it comes to can be told at once: `Kernel.handle` is a result, either an error or how the calling
thread goes on, and the kernel then. That is what the call is seen to do (`comesTo_handle`); only the wait for a child that runs
comes to nothing.
-/

namespace Nucleus

/-- The answer that an operation gets when nothing else happens while it waits: the loader's, or that it may go on. -/
def Suspended.reply (image : Except LoadError ProgramImage) : (s : Suspended) → s.Answer
  | .loading .. => image
  | .starting .. => ()
  | .sleeping .. => ()

/-- How the calling thread goes on after a result: with the number of an error, or as the call says. -/
def Disposition.after : Except KernelError Disposition → Disposition
  | .ok d => d
  | .error e => .resume e.errno

namespace Progress

variable {μ κ : Type}

/-- How far an operation has come when it was answered once more and nothing else happened. -/
def onward (image : Except LoadError ProgramImage) : Progress μ κ → Progress μ κ
  | .finished outcome k => .finished outcome k
  | .suspended s k => k.resume s (s.reply image)

/-- How far an operation has come when it was answered so many times and nothing else happened. -/
def after (image : Except LoadError ProgramImage) (p : Progress μ κ) : Nat → Progress μ κ
  | 0 => p
  | n + 1 => (p.after image n).onward image

end Progress

namespace Kernel

variable {μ κ : Type}

/-- An operation comes to its outcome while nothing else happens. -/
inductive Completes (image : Except LoadError ProgramImage) : Progress μ κ → Outcome → Kernel μ κ → Prop where
  /-- It has finished. -/
  | finished (outcome : Outcome) (k : Kernel μ κ) : Completes image (.finished outcome k) outcome k
  /-- What it waits for comes at once. -/
  | resumed {s : Suspended} {k k' : Kernel μ κ} {outcome : Outcome} (h : Completes image (k.resume s (s.reply image)) outcome k') :
      Completes image (.suspended s k) outcome k'

/-- The halt asked for by a system call: whether it is refused. -/
def haltNow (k : Kernel μ κ) (pid : Pid) : Except KernelError Disposition × Kernel μ κ :=
  match k.halt pid with
  | (.ok (), k) => (.ok .halted, k)
  | (.error e, k) => (.error e, k.note (.haltRefused pid e))

/-- The start of a program, when the loader answers at once. -/
def execNow (k : Kernel μ κ) (image : Except LoadError ProgramImage) (pid : Pid) (args : Arguments) :
    Except KernelError Int64 × Kernel μ κ :=
  match k.execArguments pid args with
  | .error e => (.error e, k)
  | .ok (program, words) =>
    let k := k.note (.exec program words pid)
    match image with
    | .error cause => (.error (.load cause), k.note (.loadFailed program cause))
    | .ok image =>
      match k.processes.enrol (some pid) program image k.settings.slots with
      | .error e => (.error e, k)
      | .ok (child, processes) =>
        let info : StartInfo := ⟨program, image.entry, image.stack, image.argc, image.argv⟩
        (.ok (Int64.ofNat child.raw.toNat),
          { k with processes, world := (k.world.note (.spawned child program (some pid))).emit (.started child info) })

/-- The wait for a child, unless the child runs. -/
def joinNow (k : Kernel μ κ) (pid : Pid) (args : Arguments) : Option (Except KernelError Int64 × Kernel μ κ) :=
  match k.joinArguments pid args with
  | .error e => some (.error e, k)
  | .ok child =>
    match k.processes.reap pid child with
    | .refused => some (.error .notAChild, k)
    | .running => none
    | .reaped status records =>
      some (({ k with processes := { k.processes with records } }.note (.reaped pid child status)).storeCode pid ⟨args.a1⟩ status)

/-- A result by which the calling thread returns to its program. -/
def resuming (result : Except KernelError Int64 × Kernel μ κ) : Except KernelError Disposition × Kernel μ κ :=
  (result.1.map .resume, result.2)

variable {k k' : Kernel μ κ} {image : Except LoadError ProgramImage} {outcome : Outcome} {trap : Option TrapFrame}

theorem completes_finished_iff {found : Outcome} :
    Completes image (.finished found k) outcome k' ↔ found = outcome ∧ k = k' := by
  constructor
  · rintro ⟨⟩
    exact ⟨rfl, rfl⟩
  · rintro ⟨rfl, rfl⟩
    exact .finished _ _

theorem completes_suspended_iff {s : Suspended} :
    Completes image (.suspended s k) outcome k' ↔ Completes image (k.resume s (s.reply image)) outcome k' := by
  constructor
  · rintro (_ | h)
    exact h
  · exact .resumed

/-- A call comes to a result: the outcome says how the thread goes on after it. -/
def ComesTo (image : Except LoadError ProgramImage) (trap : Option TrapFrame) (p : Progress μ κ)
    (found : Option (Except KernelError Disposition × Kernel μ κ)) : Prop :=
  ∀ outcome k', Completes image p outcome k' ↔
    ∃ result, found = some (result, k') ∧ outcome = .ofDisposition trap (.after result)

/-- A call that finishes at once. -/
theorem comesTo_finished {d : Disposition} {result : Except KernelError Disposition} (h : d = .after result) :
    ComesTo image trap (.finished (.ofDisposition trap d) k) (some (result, k)) := by
  intro outcome k'
  rw [completes_finished_iff, h]
  constructor
  · rintro ⟨rfl, rfl⟩
    exact ⟨result, rfl, rfl⟩
  · rintro ⟨result', he, rfl⟩
    cases he
    exact ⟨rfl, rfl⟩

/-- A call that returns a number. -/
theorem comesTo_answer (result : Except KernelError Int64) :
    ComesTo image trap (k.answer trap result) (some (resuming (result, k))) := by
  refine comesTo_finished ?_
  cases result <;> rfl

/-- A call goes on at once after the answer that it waited for. -/
theorem ComesTo.suspended {s : Suspended} {found : Option (Except KernelError Disposition × Kernel μ κ)}
    (h : ComesTo image trap (k.resume s (s.reply image)) found) : ComesTo image trap (.suspended s k) found := by
  intro outcome k'
  rw [completes_suspended_iff]
  exact h outcome k'

/-- The start of a program comes to a new process or to an error. -/
theorem comesTo_execNow (pid : Pid) (args : Arguments) :
    ComesTo image trap (k.sysExec pid args trap) (some (resuming (k.execNow image pid args))) := by
  unfold sysExec execNow
  cases k.execArguments pid args with
  | error e => exact comesTo_answer _
  | ok found =>
    refine ComesTo.suspended ?_
    cases image with
    | error cause => exact comesTo_answer _
    | ok image =>
      simp only [Suspended.reply, resume, enrol]
      cases ProcessTable.enrol _ (some pid) found.1 image _ with
      | error e => exact comesTo_answer _
      | ok created => exact ComesTo.suspended (comesTo_answer _)

/-- A thread that sleeps while its child runs and nothing else happens sleeps again and again. -/
theorem not_completes_sleeping {thread : ThreadId} {caller child : Pid} {use : JoinUse}
    (hr : k.processes.reap caller child = .running) :
    ¬Completes image (.suspended (.sleeping thread caller child use) k) outcome k' := by
  intro h
  generalize hp : Progress.suspended (.sleeping thread caller child use) k = p at h
  induction h generalizing k with
  | finished => cases hp
  | @resumed s k₁ k₂ outcome h ih =>
    obtain ⟨rfl, rfl⟩ := Progress.suspended.inj hp
    have hleft : ProcessTable.reap { k.processes with waiting := k.processes.waiting.leave thread } caller child = .running :=
      (ProcessTable.reap_congr rfl caller child).trans hr
    refine ih ?_ (join_of_running (k := { k with processes := _ }) hleft thread use).symm
    exact (ProcessTable.reap_congr rfl caller child).trans hr

/-- The wait for a child comes to its status or to an error, unless the child runs. -/
theorem comesTo_joinNow (thread : ThreadId) (pid : Pid) (args : Arguments) :
    ComesTo image trap (k.sysJoin thread pid args trap) ((k.joinNow pid args).map resuming) := by
  unfold sysJoin joinNow
  cases k.joinArguments pid args with
  | error e => exact comesTo_answer _
  | ok child =>
    dsimp only
    cases hr : k.processes.reap pid child with
    | refused =>
      rw [join, hr]
      exact comesTo_answer _
    | running =>
      rw [join_of_running hr]
      intro outcome k'
      refine iff_of_false (not_completes_sleeping ((ProcessTable.reap_congr rfl pid child).trans hr)) ?_
      rintro ⟨result, he, -⟩
      cases he
    | reaped status records =>
      rw [join, hr]
      dsimp only
      rw [finishJoin_eq_answer]
      exact comesTo_answer _

variable [Medium μ] [Console κ]

/-- The end of a process: whether there is one to end. -/
def exitNow (k : Kernel μ κ) (pid : Pid) (status : ExitStatus) : Except KernelError Disposition × Kernel μ κ :=
  match (k.endProcess pid status).1 with
  | .ok _ => (.ok (k.exit pid status).1, (k.exit pid status).2)
  | .error e => (.error e, (k.exit pid status).2)

/-- What a system call comes to when nothing else happens meanwhile: its result, and the kernel then. A wait for a child that runs
comes to nothing. -/
def handle (k : Kernel μ κ) (image : Except LoadError ProgramImage) (pid : Pid) (number : UInt64) (args : Arguments) :
    Option (Except KernelError Disposition × Kernel μ κ) :=
  if k.halted then some (.ok .halted, k)
  else
    let k := k.note (.syscall pid number args.toList)
    match SystemCall.ofWord? number with
    | none => some (.error .unknownSyscall, k.note (.unknownSyscall number))
    | some .halt => some (k.haltNow pid)
    | some .exit => some (k.exitNow pid (.normal args.a0.toUInt32.toInt32))
    | some .exec => some (resuming (k.execNow image pid args))
    | some .join => (k.joinNow pid args).map resuming
    | some .creat => some (resuming (k.sysOpen pid args .fresh))
    | some .openFile => some (resuming (k.sysOpen pid args .plain))
    | some .read => some (resuming (k.sysRead pid args))
    | some .write => some (resuming (k.sysWrite pid args))
    | some .close => some (resuming (k.sysClose pid args))
    | some .unlink => some (resuming (k.sysUnlink pid args))

omit [Medium μ] [Console κ] in
/-- A halt that is asked for comes to a refusal or to the halt. -/
theorem comesTo_haltNow (pid : Pid) : ComesTo image trap (.finished (.ofDisposition trap (k.sysHalt pid).1) (k.sysHalt pid).2)
    (some (k.haltNow pid)) := by
  unfold sysHalt haltNow
  cases k.halt pid with
  | mk result k₁ =>
    cases result with
    | ok => exact comesTo_finished rfl
    | error e => exact comesTo_finished rfl

omit [Console κ] in
/-- The end of a process leaves the machine halted or not as it was. -/
theorem halted_endProcess (k : Kernel μ κ) (pid : Pid) (status : ExitStatus) : (k.endProcess pid status).2.halted = k.halted := rfl

omit [Console κ] in
/-- The end of a process comes to that, or to an error if there is none to end. -/
theorem comesTo_exitNow (hk : k.halted = false) (pid : Pid) (status : ExitStatus) :
    ComesTo image trap (.finished (.ofDisposition trap (k.exit pid status).1) (k.exit pid status).2)
      (some (k.exitNow pid status)) := by
  have hh := k.halted_endProcess pid status
  unfold exitNow exit
  cases he : k.endProcess pid status with
  | mk result k₁ =>
    cases result with
    | ok report => exact comesTo_finished rfl
    | error e =>
      rw [he] at hh
      refine comesTo_finished ?_
      dsimp only
      rw [hh, hk]
      rfl

/-- A system call comes to what it is said to come to. -/
theorem comesTo_handle (k : Kernel μ κ) (image : Except LoadError ProgramImage) (thread : ThreadId) (pid : Pid) (number : UInt64)
    (args : Arguments) (trap : Option TrapFrame) :
    ComesTo image trap (k.dispatch thread pid number args trap) (k.handle image pid number args) := by
  unfold dispatch handle
  cases hk : k.halted with
  | true => exact comesTo_finished rfl
  | false =>
    simp only [Bool.false_eq_true, if_false]
    cases SystemCall.ofWord? number with
    | none => exact comesTo_answer _
    | some call =>
      cases call with
      | halt => exact comesTo_haltNow pid
      | exit => exact comesTo_exitNow (k := k.note (.syscall pid number args.toList)) hk pid _
      | exec => exact comesTo_execNow pid args
      | join => exact comesTo_joinNow thread pid args
      | _ => exact comesTo_answer _

/-- A system call that finishes at once says how its thread goes on. -/
theorem exists_disposition_of_dispatch {thread : ThreadId} {pid : Pid} {number : UInt64} {args : Arguments}
    (h : k.dispatch thread pid number args trap = .finished outcome k') : ∃ d, outcome = .ofDisposition trap d := by
  have hcomes : Completes (.error .notFound) (k.dispatch thread pid number args trap) outcome k' := by
    rw [h]
    exact .finished outcome k'
  obtain ⟨result, -, he⟩ := (comesTo_handle k _ thread pid number args trap outcome k').mp hcomes
  exact ⟨_, he⟩

end Kernel

end Nucleus
