import Nucleus.Proofs.Forest
import Nucleus.Proofs.Results
import Nucleus.Proofs.Scripts
import Nucleus.Device.RamDisk

/-!
# What a process can do to others

Processes share the table, the files and the medium, but what one of them does by a call leaves the others alone: each process that
runs keeps its memory, its descriptors with their cursors, its parent and its children, and each that has ended keeps its status,
unless it is a child of the caller and the caller takes that status or ends itself. `ProcessTable.Spares` says so of the table
before and after, one lemma for each step of the table; `Progress.Spares` says so of an operation under way.
-/

namespace Nucleus

namespace ProcessTable

variable {t t' : ProcessTable} {pid : Pid} {ends : Prop} {joins : Pid → Prop}

/-- One table comes from another without a process having done anything to others: it may have changed its own belongings, got a
child, taken the status of a child that it asked for, or, if it was to end, have ended and left its children behind. -/
structure Spares (pid : Pid) (ends : Prop) (joins : Pid → Prop) (t t' : ProcessTable) : Prop where
  /-- Another process that runs is found running, with the same belongings and kin. -/
  running : ∀ other record, other ≠ pid → t.record? other = some record → record.isRunning = true →
    ∃ record', t'.record? other = some record' ∧ record'.life = record.life ∧ record'.parent = record.parent ∧
      record'.children = record.children
  /-- Who has ended is found as it was, or is a child of the process that has ended itself or asked for it. -/
  ended : ∀ other record, t.record? other = some record → record.isZombie = true →
    t'.record? other = some record ∨
      t'.record? other = none ∧ record.parent = some pid ∧ (ends ∨ joins other)
  /-- The process itself runs on unless it is to end. -/
  itself : ∀ record, t.record? pid = some record → record.isRunning = true → ends ∨ t'.isRunning pid = true

namespace Spares

theorem refl (t : ProcessTable) : Spares pid ends joins t t where
  running _ record _ hr _ := ⟨record, hr, rfl, rfl, rfl⟩
  ended _ _ hr _ := .inl hr
  itself record hr hi := .inr (isRunning_eq_true_iff.mpr ⟨record, hr, hi⟩)

/-- Nothing but the records matters. -/
theorem of_records {t'' : ProcessTable} (h : Spares pid ends joins t t') (he : t''.records = t'.records) :
    Spares pid ends joins t t'' := by
  have hr : ∀ other, t''.record? other = t'.record? other := fun other => by rw [record?, record?, he]
  constructor
  · intro other record hne hro hi
    rw [hr]
    exact h.running other record hne hro hi
  · intro other record hro hz
    rw [hr]
    exact h.ended other record hro hz
  · intro record hro hi
    rw [isRunning, hr]
    exact h.itself record hro hi

/-- What the process owns is its own. -/
theorem putLive (h : Spares pid ends joins t t') {process : Process} (hl : t'.live pid = .ok process) (process' : Process) :
    Spares pid ends joins t (t'.putLive pid process') := by
  obtain ⟨own, hown, hproc⟩ := live_eq_ok_iff.mp hl
  have hrun : own.isRunning = true := Record.isRunning_of_process? hproc
  have hother : ∀ other, other ≠ pid → (t'.putLive pid process').record? other = t'.record? other := by
    intro other hne
    rw [record?_putLive, if_neg fun he => hne he.symm]
  constructor
  · intro other record hne hro hi
    rw [hother other hne]
    exact h.running other record hne hro hi
  · intro other record hro hz
    rcases h.ended other record hro hz with hsame | ⟨hgone, hchild⟩
    · -- Who owns something runs, so it is not the one that has ended.
      have hne : other ≠ pid := by
        rintro rfl
        cases hown.symm.trans hsame
        rw [Record.isRunning_eq, hz] at hrun
        cases hrun
      exact .inl ((hother other hne).trans hsame)
    · have hne : other ≠ pid := by
        rintro rfl
        cases hown.symm.trans hgone
      exact .inr ⟨(hother other hne).trans hgone, hchild⟩
  · intro record hro hi
    exact .inr (isRunning_putLive (isRunning_iff_exists_live.mpr ⟨process, hl⟩) pid process')

/-- A process that gets a child does nothing to others. -/
theorem enrol (hf : Forest t) {program : String} {image : ProgramImage} {slots : Nat} {child : Pid}
    (he : t.enrol (some pid) program image slots = .ok (child, t')) : Spares pid ends joins t t' := by
  have hother : ∀ other record, other ≠ pid → t.record? other = some record → t'.record? other = some record := by
    intro other record hne hro
    have hnew : other ≠ child := by
      rintro rfl
      rw [(enrol_ok he).1, hf.free] at hro
      cases hro
    rw [record?_enrol he hf.free, if_neg hnew, if_neg fun hp => hne (Option.some.inj hp).symm]
    exact hro
  constructor
  · intro other record hne hro _
    exact ⟨record, hother other record hne hro, rfl, rfl, rfl⟩
  · intro other record hro hz
    -- A parent runs, so it is not the one that has ended.
    have hne : other ≠ pid := by
      rintro rfl
      obtain ⟨own, hown, hrun⟩ := isRunning_eq_true_iff.mp ((enrol_ok he).2.2.2.1 other rfl)
      cases hown.symm.trans hro
      rw [Record.isRunning_eq, hz] at hrun
      cases hrun
    exact .inl (hother other record hne hro)
  · intro record hro hi
    obtain ⟨record', hr', -, hi', -⟩ := hf.kept_enrol he hro
    exact .inr (isRunning_eq_true_iff.mpr ⟨record', hr', hi'.trans hi⟩)

/-- A process that takes the status of a child takes its record away, and nobody else's. -/
theorem reap (hf : Forest t) {child : Pid} {status : ExitStatus} {records : Records}
    (hr : t.reap pid child = .reaped status records) (hj : joins child) : Spares pid ends joins t { t with records } := by
  obtain ⟨own, gone, hown, hm, hgone, hlife, -⟩ := reap_reaped hr
  have hfound := record?_reap hr (hf.reap_ne hr)
  have hzombie : gone.isRunning = false := by rw [Record.isRunning, Record.process?, hlife]; rfl
  have hself := (hf.listed pid own child hown hm).1
  have hother : ∀ other record, other ≠ pid → other ≠ child → t.record? other = some record → records[other]? = some record := by
    intro other record hne hnc hro
    rw [hfound, if_neg hnc, if_neg hne]
    exact hro
  constructor
  · intro other record hne hro hi
    have hnc : other ≠ child := by
      rintro rfl
      cases hgone.symm.trans hro
      cases hi.symm.trans hzombie
    exact ⟨record, hother other record hne hnc hro, rfl, rfl, rfl⟩
  · intro other record hro hz
    by_cases hc : other = child
    · subst hc
      refine .inr ⟨?_, hf.parent_of_mem hown hm hro, .inr hj⟩
      rw [record?, hfound, if_pos rfl]
    · have hne : other ≠ pid := by
        rintro rfl
        cases hown.symm.trans hro
        rw [Record.isRunning_eq, hz] at hself
        cases hself
      exact .inl (hother other record hne hc hro)
  · intro record hro hi
    obtain ⟨record', hr', hl', -⟩ := kept_reap hr (hf.reap_ne hr) hro
    exact .inr (isRunning_eq_true_iff.mpr ⟨record', hr', (Record.isRunning_of_life hl').trans hi⟩)

/-- A process that ends takes the records of its ended children away, and perhaps its own. -/
theorem retire (hf : Forest t) {record : Record} (hr : t.record? pid = some record) (hrun : record.isRunning = true) (he : ends)
    (status : ExitStatus) : Spares pid ends joins t (t.retire pid record status) := by
  have hfound : ∀ other, other ≠ pid → (t.retire pid record status).record? other =
      if other ∈ record.children then (t.record? other).bind Forsaken else t.record? other :=
    fun _ hne => record?_retire_other t pid status (hf.not_own_child hr) hne
  constructor
  · intro other r hne hro hi
    have hz : r.isZombie = false := by simpa [Record.isRunning_eq] using hi
    have hrec := hfound other hne
    rw [hro, Option.bind_some, Forsaken, hz, if_neg Bool.false_ne_true] at hrec
    by_cases hm : other ∈ record.children
    · rw [if_pos hm] at hrec
      exact ⟨_, hrec, rfl, rfl, rfl⟩
    · rw [if_neg hm] at hrec
      exact ⟨r, hrec, rfl, rfl, rfl⟩
  · intro other r hro hz
    have hne : other ≠ pid := by
      rintro rfl
      cases hr.symm.trans hro
      rw [Record.isRunning_eq, hz] at hrun
      cases hrun
    have hrec := hfound other hne
    rw [hro, Option.bind_some, Forsaken, hz, if_pos rfl] at hrec
    by_cases hm : other ∈ record.children
    · rw [if_pos hm] at hrec
      exact .inr ⟨hrec, hf.parent_of_mem hr hm hro, .inl he⟩
    · rw [if_neg hm] at hrec
      exact .inl hrec
  · intro _ _ _
    exact .inl he

end Spares

end ProcessTable

/-! ## Operations -/

/-- An operation that waits is of a process: it makes a child of that process, or asks for a child of it. Until then nothing has
been done to the process table but that its thread may have joined those who wait. -/
def Suspended.IsOf (pid : Pid) (joins : Pid → Prop) (t t' : ProcessTable) : Suspended → Prop
  | .loading parent .. => parent = some pid ∧ t' = t
  | .starting .. => True
  | .sleeping _ caller child _ => caller = pid ∧ joins child ∧ ∃ waiting, t' = { t with waiting }

/-- A process's operation under way, which began on a table, has done nothing to others so far, unless it has halted the machine. -/
structure Progress.Spares {μ κ : Type} (pid : Pid) (ends : Prop) (joins : Pid → Prop) (t : ProcessTable) (p : Progress μ κ) :
    Prop where
  /-- The table. -/
  spares : p.kernel.halted = false → ProcessTable.Spares pid ends joins t p.kernel.processes
  /-- What it waits for. -/
  waits : ∀ s ∈ p.waits, s.IsOf pid joins t p.kernel.processes

namespace Kernel

open ProcessTable

variable {μ κ : Type} {pid : Pid} {ends : Prop} {joins : Pid → Prop} {t : ProcessTable} {k : Kernel μ κ}

/-- An operation that has finished. -/
theorem spares_finished {outcome : Outcome} (h : k.halted = false → Spares pid ends joins t k.processes) :
    (Progress.finished outcome k).Spares pid ends joins t :=
  ⟨h, fun _ hs => absurd hs List.not_mem_nil⟩

/-- An operation that did nothing to the process table. -/
theorem spares_of_processes {outcome : Outcome} (h : k.processes = t) : (Progress.finished outcome k).Spares pid ends joins t :=
  spares_finished fun _ => (Spares.refl t).of_records (by rw [h])

/-- The end of a spawn. -/
theorem spares_finishSpawn (h : k.halted = false → Spares pid ends joins t k.processes) (use : SpawnUse)
    (result : Except KernelError Pid) : (k.finishSpawn use result).Spares pid ends joins t := by
  constructor
  · rw [kernel_finishSpawn]
    exact h
  · rw [waits_finishSpawn]
    exact fun _ hs => absurd hs List.not_mem_nil

/-- The loader's answer: the process gets a child, or does not. -/
theorem spares_enrol (hf : Forest k.processes) (program : String) (use : SpawnUse) (image : Except LoadError ProgramImage) :
    (k.enrol (some pid) program use image).Spares pid ends joins k.processes := by
  cases image with
  | error cause => exact spares_finishSpawn (k := k.note (.loadFailed program cause)) (fun _ => Spares.refl _) use _
  | ok image =>
    simp only [enrol]
    cases he : k.processes.enrol (some pid) program image k.settings.slots with
    | error e => exact spares_finishSpawn (fun _ => Spares.refl _) use _
    | ok created =>
      refine ⟨fun _ => Spares.enrol hf he, fun s hs => ?_⟩
      rw [List.mem_singleton.mp hs]
      trivial

/-- A process's memory changes. -/
theorem spares_changeMemory (h : Spares pid ends joins t k.processes)
    (change : AddressSpace → Except KernelError AddressSpace) :
    Spares pid ends joins t (k.changeMemory pid change).2.processes := by
  unfold changeMemory
  cases hl : k.processes.live pid with
  | error e => exact h
  | ok process =>
    dsimp only
    cases change process.memory with
    | error e => exact h
    | ok memory => exact h.putLive hl _

/-- The end of a join. -/
theorem spares_finishJoin (h : Spares pid ends joins t k.processes) (use : JoinUse) (result : Except KernelError ExitStatus) :
    (k.finishJoin pid use result).Spares pid ends joins t := by
  refine ⟨fun _ => ?_, fun s hs => by rw [waits_finishJoin] at hs; cases hs⟩
  cases use with
  | outcome => exact h
  | systemCall target trap =>
    cases result with
    | error e => exact h
    | ok status =>
      have hm := spares_changeMemory h (·.writeWord target status.code.toUInt32)
      simp only [finishJoin]
      split
      · exact h
      · split
        · rename_i e k' he
          rw [he] at hm
          exact hm
        · rename_i k' he
          rw [he] at hm
          exact hm

/-- A process asks for a child, perhaps not for the first time. -/
theorem spares_join (hf : Forest t) {waiting : WaitQueue} (hp : k.processes = { t with waiting }) (thread : ThreadId) {child : Pid}
    (hj : joins child) (use : JoinUse) : (k.join thread pid child use).Spares pid ends joins t := by
  have hsame : Spares pid ends joins t k.processes := (Spares.refl t).of_records (by rw [hp])
  unfold join
  cases hr : k.processes.reap pid child with
  | refused => exact spares_finishJoin hsame use _
  | running =>
    refine ⟨fun _ => hsame.of_records rfl, fun s hs => ?_⟩
    rw [List.mem_singleton.mp hs]
    exact ⟨rfl, hj, k.processes.waiting.enter thread, by simp only [Progress.kernel, hp]⟩
  | reaped status records =>
    have hr' : t.reap pid child = .reaped status records := by rw [← hr, hp]; exact reap_congr rfl pid child
    exact spares_finishJoin ((Spares.reap hf hr' hj).of_records rfl) use _

/-- A process's operation that waited goes on. -/
theorem spares_onward (hf : Forest t) {p : Progress μ κ} (h : p.Spares pid ends joins t)
    (image : Except LoadError ProgramImage) : (p.onward image).Spares pid ends joins t := by
  cases p with
  | finished outcome k => exact h
  | suspended s k =>
    have hs : s.IsOf pid joins t k.processes := h.waits s List.mem_cons_self
    cases s with
    | loading parent program args use =>
      obtain ⟨rfl, rfl⟩ := hs
      exact spares_enrol hf program use image
    | starting child use => exact spares_finishSpawn h.spares use _
    | sleeping thread caller child use =>
      obtain ⟨rfl, hj, waiting, hp⟩ := hs
      have hleft : ({ k.processes with waiting := k.processes.waiting.leave thread } : ProcessTable) =
          { t with waiting := waiting.leave thread } := by rw [hp]
      exact spares_join hf hleft thread hj use

/-- And so on, however often it is answered. -/
theorem spares_after (hf : Forest t) {p : Progress μ κ} (h : p.Spares pid ends joins t) (image : Except LoadError ProgramImage)
    (n : Nat) : (p.after image n).Spares pid ends joins t := by
  induction n with
  | zero => exact h
  | succ n ih => exact spares_onward hf ih image

/-- Who is refused a halt does nothing to the process table. -/
theorem processes_halt (k : Kernel μ κ) (pid : Pid) (h : (k.halt pid).2.halted = false) :
    (k.halt pid).2.processes = k.processes := by
  unfold halt at h ⊢
  cases hl : k.processes.live pid with
  | error e => rfl
  | ok process =>
    rw [hl] at h
    dsimp only at h ⊢
    split
    · rfl
    · rename_i hadmitted
      rw [if_neg hadmitted] at h
      cases (halted_shutDown _).symm.trans h

/-- The same of a halt asked for by a system call. -/
theorem processes_sysHalt (k : Kernel μ κ) (pid : Pid) (h : (k.sysHalt pid).2.halted = false) :
    (k.sysHalt pid).2.processes = k.processes := by
  have hp := processes_halt k pid
  unfold sysHalt at h ⊢
  split
  · rename_i k' hk
    rw [hk] at h hp
    exact hp h
  · rename_i e k' hk
    rw [hk] at h hp
    exact hp h

variable [Medium μ]

/-- A process opens a file. -/
theorem spares_sysOpen (k : Kernel μ κ) (args : Arguments) (mode : OpenMode) :
    Spares pid ends joins k.processes (k.sysOpen pid args mode).2.processes := by
  unfold sysOpen
  split
  · exact .refl _
  · rename_i process name hn
    split
    · exact .refl _
    · exact (Spares.refl _).putLive (live_of_nameArgument hn) _

/-- A process closes a descriptor. -/
theorem spares_sysClose (k : Kernel μ κ) (args : Arguments) :
    Spares pid ends joins k.processes (k.sysClose pid args).2.processes := by
  unfold sysClose
  split
  · exact .refl _
  · rename_i process hl
    split
    · exact .refl _
    · split
      · exact .refl _
      · exact (Spares.refl _).putLive hl _

/-- A process deletes a name. -/
theorem spares_sysUnlink (k : Kernel μ κ) (args : Arguments) :
    Spares pid ends joins k.processes (k.sysUnlink pid args).2.processes := by
  unfold sysUnlink
  split
  · exact .refl _
  · split <;> exact .refl _

/-- A process ends, if it runs. -/
theorem spares_exit (hf : Forest k.processes) (he : ends) (status : ExitStatus) (h : (k.exit pid status).2.halted = false) :
    Spares pid ends joins k.processes (k.exit pid status).2.processes := by
  have hend : Spares pid ends joins k.processes (k.endProcess pid status).2.processes := by
    rcases endProcess_cases k pid status with hsame | ⟨record, process, hr, hproc, hended⟩
    · rw [hsame]
      exact .refl _
    · rw [hended]
      exact Spares.retire hf hr (Record.isRunning_of_process? hproc) he status
  unfold exit at h ⊢
  split
  · rename_i report k' hk
    rw [hk] at h hend
    dsimp only at h
    split at h
    · -- The machine has halted, so there is nothing to be said.
      cases (halted_shutDown _).symm.trans h
    · rename_i hidle
      rw [if_neg hidle]
      exact hend
  · rename_i e k' hk
    rw [hk] at hend
    exact hend

variable [Console κ]

/-- A process reads. -/
theorem spares_sysRead (k : Kernel μ κ) (args : Arguments) :
    Spares pid ends joins k.processes (k.sysRead pid args).2.processes := by
  unfold sysRead
  split
  · exact .refl _
  · rename_i process fd hr
    split
    · exact .refl _
    · exact (Spares.refl k.processes).putLive (live_of_readArguments hr) _

/-- A process writes. -/
theorem spares_sysWrite (k : Kernel μ κ) (args : Arguments) :
    Spares pid ends joins k.processes (k.sysWrite pid args).2.processes := by
  unfold sysWrite
  split
  · exact .refl _
  · rename_i process data fd hw
    split
    · exact .refl _
    · exact (Spares.refl k.processes).putLive (live_of_writeArguments hw) _

/-- A process makes a system call. It ends if the call is to end it, and asks for the child that the call asks for. -/
theorem spares_dispatch (hf : Forest k.processes) (thread : ThreadId) (number : UInt64) (args : Arguments)
    (trap : Option TrapFrame) (he : ∀ status, k.exitedBy pid number args = some (pid, status) → ends)
    (hj : ∀ child, k.joinedBy pid number args = some child → joins child) :
    (k.dispatch thread pid number args trap).Spares pid ends joins k.processes := by
  unfold dispatch
  split
  · exact spares_of_processes rfl
  · rename_i hk
    dsimp only
    split
    · rename_i call hcall
      cases call with
      | halt =>
        refine spares_finished fun h => (Spares.refl k.processes).of_records ?_
        rw [processes_sysHalt _ pid h]
        rfl
      | exit =>
        refine spares_finished fun h => ?_
        refine spares_exit (k := k.note (.syscall pid number args.toList)) hf ?_ _ h
        refine he (.normal args.a0.toUInt32.toInt32) ?_
        rw [exitedBy, if_neg hk, if_pos hcall]
      | exec =>
        simp only [perform, sysExec]
        split
        · exact spares_of_processes rfl
        · refine ⟨fun _ => Spares.refl k.processes, fun s hs => ?_⟩
          rw [List.mem_singleton.mp hs]
          exact ⟨rfl, rfl⟩
      | join =>
        simp only [perform, sysJoin]
        split
        · exact spares_of_processes rfl
        · rename_i child ha
          have ha' : k.joinArguments pid args = .ok child := ha
          refine spares_join (k := k.note (.syscall pid number args.toList)) hf rfl thread (hj child ?_) _
          rw [joinedBy, if_neg hk, if_pos hcall, ha']
          rfl
      | creat => exact spares_finished fun _ => spares_sysOpen (k.note _) args .fresh
      | openFile => exact spares_finished fun _ => spares_sysOpen (k.note _) args .plain
      | read => exact spares_finished fun _ => spares_sysRead (k.note _) args
      | write => exact spares_finished fun _ => spares_sysWrite (k.note _) args
      | close => exact spares_finished fun _ => spares_sysClose (k.note _) args
      | unlink => exact spares_finished fun _ => spares_sysUnlink (k.note _) args
    · exact spares_of_processes rfl

/-- A process makes a call to the kernel. -/
theorem spares_begin (hf : Forest k.processes) (thread : ThreadId) {c : Call} (hk : c.isKernelCall = true)
    (hc : c.caller? = some pid) :
    (k.begin thread c).Spares pid (∃ status, k.endOf c = some (pid, status)) (fun child => ∃ use, k.joinOf c = some (pid, child, use))
      k.processes := by
  cases c with
  | systemCall caller number args =>
    obtain rfl := Option.some.inj hc
    refine spares_dispatch hf thread number args none (fun status he => ⟨status, he⟩) fun child hj => ?_
    exact ⟨.systemCall ⟨args.a1⟩ none, by rw [joinOf, hj]; rfl⟩
  | trap caller cause frame =>
    obtain rfl := Option.some.inj hc
    simp only [begin, takeTrap]
    split
    · refine spares_dispatch hf thread frame.v0 frame.args (some frame) (fun status he => ?_) fun child hj => ?_
      · exact ⟨status, by rw [endOf, if_pos rfl, he]⟩
      · exact ⟨.systemCall ⟨frame.args.a1⟩ (some frame), by rw [joinOf, hj]; rfl⟩
    · rename_i hcause
      refine spares_finished fun h => ?_
      refine spares_exit (k := k.note (.exception caller cause frame.badAddress frame.counter)) hf ⟨.abnormal cause, ?_⟩ _ h
      rw [endOf, if_neg hcause]
  | exit caller status =>
    obtain rfl := Option.some.inj hc
    exact spares_finished fun h => spares_exit hf ⟨status, rfl⟩ status h
  | halt caller =>
    obtain rfl := Option.some.inj hc
    exact spares_finished fun h => (Spares.refl k.processes).of_records (by rw [processes_halt k caller h])
  | boot program args => cases hc
  | spawn parent program args => cases hk
  | join caller child => cases hk
  | endProcess caller status => cases hk
  | dropProcesses => cases hk

end Kernel

namespace ProcessTable

variable {t t' : ProcessTable} {pid other : Pid} {ends : Prop} {joins : Pid → Prop} {record : Record}

/-- Whose record is gone: the process itself, which was to end, or an ended child of it, which it asked for or left behind. -/
theorem Spares.gone (h : Spares pid ends joins t t') (hr : t.record? other = some record) (hgone : t'.record? other = none) :
    ends ∧ (other = pid ∨ record.isZombie = true ∧ record.parent = some pid) ∨
      joins other ∧ record.isZombie = true ∧ record.parent = some pid := by
  cases hz : record.isZombie with
  | true =>
    rcases h.ended other record hr hz with hsame | ⟨-, hp, he | hj⟩
    · cases hgone.symm.trans hsame
    · exact .inl ⟨he, .inr ⟨rfl, hp⟩⟩
    · exact .inr ⟨hj, rfl, hp⟩
  | false =>
    have hi : record.isRunning = true := by rw [Record.isRunning_eq, hz, Bool.not_false]
    by_cases hp : other = pid
    · subst hp
      rcases h.itself record hr hi with he | hi'
      · exact .inl ⟨he, .inl rfl⟩
      · obtain ⟨record', hr', -⟩ := isRunning_eq_true_iff.mp hi'
        cases hgone.symm.trans hr'
    · obtain ⟨record', hr', -⟩ := h.running other record hp hr hi
      cases hgone.symm.trans hr'

/-- Who is found afterwards has the status it had, if any, unless it is the process itself, which was to end. -/
theorem Spares.status (h : Spares pid ends joins t t') {record' : Record} (hr : t.record? other = some record)
    (hr' : t'.record? other = some record') : record'.status? = record.status? ∨ other = pid ∧ ends := by
  cases hz : record.isZombie with
  | true =>
    rcases h.ended other record hr hz with hsame | ⟨hgone, -⟩
    · cases hr'.symm.trans hsame
      exact .inl rfl
    · cases hr'.symm.trans hgone
  | false =>
    have hi : record.isRunning = true := by rw [Record.isRunning_eq, hz, Bool.not_false]
    by_cases hp : other = pid
    · subst hp
      rcases h.itself record hr hi with he | hi'
      · exact .inr ⟨rfl, he⟩
      · obtain ⟨found, hfound, hrun⟩ := isRunning_eq_true_iff.mp hi'
        cases hr'.symm.trans hfound
        obtain ⟨process, hproc⟩ := Option.isSome_iff_exists.mp hi
        obtain ⟨process', hproc'⟩ := Option.isSome_iff_exists.mp hrun
        exact .inl ((Record.status?_eq_none hproc').trans (Record.status?_eq_none hproc).symm)
    · obtain ⟨found, hfound, hlife, -⟩ := h.running other record hp hr hi
      cases hr'.symm.trans hfound
      exact .inl (by rw [Record.status?, Record.status?, hlife])

end ProcessTable

namespace Machine

variable {μ κ : Type} [Medium μ] [Console κ]

/-- Whatever call to the kernel a process makes, by system call or exception, and however far it has come when nothing else has
happened meanwhile: unless the machine has halted, every other process that ran runs with the same belongings, the same parent and
the same children. Records are gone only of the process itself and of ended children of it, if the call was to end it, or of the one
ended child that it asked for; and everybody else's exit status is as it was. -/
theorem others_spared {settings : Settings} {m : Machine μ κ} (h : Reached (fun _ => True) settings m)
    (hs : m.kernel.world.starts < UInt32.size - 1) (thread : ThreadId) {c : Call} {pid : Pid} (hk : c.isKernelCall = true)
    (hc : c.caller? = some pid) (image : Except LoadError ProgramImage) (n : Nat)
    (hrun : ((m.kernel.begin thread c).after image n).kernel.halted = false) :
    let t := m.kernel.processes
    let t' := ((m.kernel.begin thread c).after image n).kernel.processes
    (∀ other record, other ≠ pid → t.record? other = some record → record.isRunning = true →
      ∃ record', t'.record? other = some record' ∧ record'.process? = record.process? ∧ record'.parent = record.parent ∧
        record'.children = record.children) ∧
    (∀ other record, t.record? other = some record → t'.record? other = none →
      (∃ status, m.kernel.endOf c = some (pid, status)) ∧ (other = pid ∨ record.isZombie = true ∧ record.parent = some pid) ∨
        (∃ use, m.kernel.joinOf c = some (pid, other, use)) ∧ record.isZombie = true ∧ record.parent = some pid) ∧
    (∀ other record record', t.record? other = some record → t'.record? other = some record' →
      record'.status? = record.status? ∨ other = pid ∧ ∃ status, m.kernel.endOf c = some (pid, status)) := by
  intro t t'
  have hf : t.Forest := (h.orderly hs).1
  have hspares : ProcessTable.Spares pid _ _ t t' := (Kernel.spares_after hf (Kernel.spares_begin hf thread hk hc) image n).spares hrun
  refine ⟨?_, fun other record hr hgone => hspares.gone hr hgone, fun other record record' hr hr' => hspares.status hr hr'⟩
  intro other record hne hr hi
  obtain ⟨record', hr', hlife, hkin⟩ := hspares.running other record hne hr hi
  exact ⟨record', hr', by rw [Record.process?, Record.process?, hlife], hkin⟩

/-- A program has a child, which has two children of its own; one of these has ended. -/
def household : List Turn :=
  started (.boot "first" []) ++ started (.spawn (some ⟨1⟩) "second" []) ++ started (.spawn (some ⟨2⟩) "third" []) ++
    started (.spawn (some ⟨2⟩) "fourth" []) ++ [.call ⟨0⟩ (.exit ⟨3⟩ (.normal 7))]

/-- When the second faults then, the record of the third is gone with it, and the first and the fourth run on as they did. -/
theorem household_spared :
    let m := (start {} (RamDisk.empty none) Silent.mk).play household
    let fault : Call := .trap ⟨2⟩ .pageFault ⟨0, ⟨0, 0, 0, 0⟩, 0, 0⟩
    let t := m.kernel.processes
    let t' := ((m.kernel.begin ⟨0⟩ fault).after (.error .notFound) 0).kernel.processes
    (t.childrenOf ⟨2⟩ = [⟨3⟩, ⟨4⟩] ∧ (t.record? ⟨3⟩).any Record.isZombie ∧ (t'.record? ⟨3⟩).isNone ∧
      (t'.record? ⟨2⟩).any Record.isZombie) ∧
    ∀ other record, other ≠ ⟨2⟩ → t.record? other = some record → record.isRunning = true →
      ∃ record', t'.record? other = some record' ∧ record'.process? = record.process? ∧ record'.parent = record.parent ∧
        record'.children = record.children :=
  ⟨by decide, (others_spared (reached_play _ _ _ household (by decide)) (by decide) ⟨0⟩ rfl rfl (.error .notFound) 0 (by decide)).1⟩

end Machine

end Nucleus
