import Nucleus.Proofs.Changes
import Nucleus.Proofs.Consistency
import Nucleus.Proofs.Halt

/-!
# Who may halt the machine

The machine halts at the request of a process that the policy admits, or when the last running process ends and the settings say so,
and in no other way. Under the stricter policy the one process admitted is the first that was started without a parent, and while it
runs nobody else brings the halt about, whatever they do in whatever order. A machine that is to halt when idle is never found idle
before, and the scheduler is told of the halt just once.
-/

namespace Nucleus

/-- The process that an effect reports to be created without a parent, if it reports one. -/
def Effect.topLevel? (effect : Effect) : Option Pid :=
  match effect.deed? with
  | some (.created none pid) => some pid
  | _ => none

/-- The first process that was created without a parent. -/
def World.firstTopLevel? {μ κ : Type} (w : World μ κ) : Option Pid := w.effects.findSome? Effect.topLevel?

/-- How often the scheduler was told to stop the machine. -/
def World.powerOffs {μ κ : Type} (w : World μ κ) : Nat := w.effects.count .poweredOff

/-! ## The root -/

namespace ProcessTable

variable {powers : Power → Prop} {t t' : ProcessTable} {more : List Effect}

/-- Where nothing is told of a life no process is created. -/
theorem topLevel?_of_isQuiet (h : ∀ effect ∈ more, effect.isQuiet = true) : more.findSome? Effect.topLevel? = none := by
  rw [List.findSome?_eq_none_iff]
  intro effect he
  have hq := h effect he
  cases effect with
  | notice event =>
    have hd : (Effect.notice event).deed? = none := Option.isNone_iff_eq_none.mp hq
    rw [Effect.topLevel?, hd]
  | _ => rfl

/-- The root stays for good: the first process without a parent becomes the root where there was none. -/
theorem Change.root (h : Change powers t more t') : t'.root = t.root.or (more.findSome? Effect.topLevel?) := by
  have hwoken : ∀ threads : List ThreadId, (threads.map Effect.unblocked).findSome? Effect.topLevel? = none := by
    intro threads
    rw [List.findSome?_eq_none_iff]
    intro effect he
    obtain ⟨thread, -, rfl⟩ := List.mem_map.mp he
    rfl
  cases h with
  | quiet hq => rw [topLevel?_of_isQuiet hq, Option.or_none]
  | @owned pid _ _ _ process' hq =>
    rw [topLevel?_of_isQuiet hq, Option.or_none]
    unfold putLive
    split <;> rfl
  | asleep hp => exact Option.or_none.symm
  | awake hp => exact Option.or_none.symm
  | @enrolled _ parent program image slots pid hp info he =>
    unfold enrol at he
    split at he
    · cases he
    · cases he
      cases parent with
      | none => rfl
      | some p => exact Option.or_none.symm
  | reaped hp hr => exact Option.or_none.symm
  | ended hp status hr hproc hq =>
    rw [List.findSome?_append, List.findSome?_append, topLevel?_of_isQuiet hq, hwoken]
    exact Option.or_none.symm
  | cleared hq =>
    rw [List.findSome?_append, hwoken]
    rcases hq with rfl | rfl <;> exact Option.or_none.symm

/-! ## Who runs -/

/-- In a forest nothing is counted exactly when nobody runs. -/
theorem Forest.running_eq_zero_iff (h : Forest t) : t.running = 0 ↔ ∀ pid, t.isRunning pid = false := by
  constructor
  · intro h0 pid
    rw [← Bool.not_eq_true]
    intro hr
    have := h.running_pos hr
    omega
  · intro hnone
    refine Nat.eq_zero_of_not_pos ?_
    rw [h.counted, Records.runningCount_pos_iff]
    rintro ⟨pid, record, hr, hi⟩
    exact absurd ((hnone pid).symm.trans (isRunning_eq_true_iff.mpr ⟨record, hr, hi⟩)) Bool.false_ne_true

/-- When a process ends nothing is left running exactly if no other ran. -/
theorem Forest.running_retire_eq_zero_iff (h : Forest t) {pid : Pid} {record : Record} (hr : t.record? pid = some record)
    (hi : record.isRunning = true) (status : ExitStatus) :
    (t.retire pid record status).running = 0 ↔ ∀ other, t.isRunning other = true → other = pid := by
  rw [(h.retire hr hi status).running_eq_zero_iff]
  constructor
  · intro hnone other ho
    by_contra hne
    obtain ⟨r, hro, hir⟩ := isRunning_eq_true_iff.mp ho
    obtain ⟨r', hr', hi', -⟩ := h.kept_retire hr status hne hro hir
    exact absurd ((hnone other).symm.trans (isRunning_eq_true_iff.mpr ⟨r', hr', hi'⟩)) Bool.false_ne_true
  · intro honly other
    rw [← Bool.not_eq_true]
    intro ho
    obtain ⟨hne, hbefore⟩ := h.ran_retire hr status ho
    exact hne (honly other hbefore)

end ProcessTable

namespace Kernel

open ProcessTable World

variable {μ κ : Type} {k k' : Kernel μ κ} {pid : Pid}

/-! ## What every move keeps -/

/-- A kernel that was made with such settings has them, its root is the first process without a parent, and the scheduler was told to
stop the machine once if it has halted, and never before. -/
structure Governed (settings : Settings) (k : Kernel μ κ) : Prop where
  /-- The settings. -/
  settings : k.settings = settings
  /-- The root. -/
  root : k.processes.root = k.world.firstTopLevel?
  /-- What the scheduler was told. -/
  powerOffs : k.world.powerOffs = if k.halted then 1 else 0

theorem governed_create (settings : Settings) (medium : μ) (console : κ) : Governed settings (.create settings medium console) :=
  ⟨rfl, rfl, rfl⟩

/-- Without a word to the scheduler about a stop. -/
theorem powerOffs_of_adds {w w' : World μ κ} (h : w.Adds (· != .poweredOff) w') : w'.powerOffs = w.powerOffs := by
  obtain ⟨more, he, hm⟩ := h
  have h0 : more.count .poweredOff = 0 := by
    rw [List.count_eq_zero]
    intro hi
    exact absurd (hm _ hi) (by decide)
  rw [powerOffs, he, List.count_append, h0, Nat.add_zero, powerOffs]

/-- A quiet effect is no stop. -/
theorem powerOffs_of_quiet {w w' : World μ κ} (h : w.Adds Effect.isQuiet w') : w'.powerOffs = w.powerOffs := by
  refine powerOffs_of_adds (h.mono fun effect hq => ?_)
  cases effect with
  | poweredOff => cases hq
  | _ => rfl

/-- Waking threads is no stop. -/
theorem powerOffs_unblockAll (w : World μ κ) (threads : List ThreadId) : (w.unblockAll threads).powerOffs = w.powerOffs := by
  rw [powerOffs, unblockAll_eq, List.count_append, powerOffs]
  have h0 : (threads.map Effect.unblocked).count .poweredOff = 0 := by simp [List.count_eq_zero]
  rw [h0, Nat.add_zero]

/-- The scheduler is told of a halt when the machine halts, and not again. -/
theorem powerOffs_shutDown (k : Kernel μ κ) :
    k.shutDown.world.powerOffs = if k.halted then k.world.powerOffs else k.world.powerOffs + 1 := by
  unfold shutDown
  split
  · rfl
  · have hd : k.dropProcesses.world.powerOffs = k.world.powerOffs := powerOffs_unblockAll _ _
    rw [← hd, powerOffs, effects_emit, List.count_append, powerOffs]
    rfl

section Moves

variable [Medium μ] [Console κ] {powers : Power → Prop}

omit [Console κ] in
/-- The end of a process is no stop. -/
theorem powerOffs_endProcess (k : Kernel μ κ) (pid : Pid) (status : ExitStatus) :
    (k.endProcess pid status).2.world.powerOffs = k.world.powerOffs := by
  rcases endProcess_cases k pid status with he | ⟨record, process, -, -, he⟩
  · rw [he]
  · obtain ⟨more, hq, hw⟩ := k.effects_afterEnd pid record process status
    have h0 : more.count .poweredOff = 0 := by
      rw [List.count_eq_zero]
      intro hi
      exact absurd (hq _ hi) Bool.false_ne_true
    have h1 : (k.processes.waiting.threads.map Effect.unblocked).count .poweredOff = 0 := by simp [List.count_eq_zero]
    rw [he, powerOffs, hw, List.count_append, List.count_append, List.count_append, h0, h1, powerOffs]
    rfl

/-- Only a halt tells the scheduler to stop the machine, and a machine that has not halted halts by it. -/
theorem powerOffs_of_move (h : Move powers k k') :
    k'.world.powerOffs = k.world.powerOffs ∧ k'.halted = k.halted ∨
      k.halted = false ∧ k'.halted = true ∧ k'.world.powerOffs = k.world.powerOffs + 1 := by
  cases h with
  | note event he => exact .inl ⟨powerOffs_of_quiet ((Adds.refl k.world).note event (isQuiet_of_isPlain _ he)), rfl⟩
  | asleep thread hp => exact .inl ⟨powerOffs_of_adds (adds_emit k.world (.blocked thread) rfl), rfl⟩
  | awake thread hp => exact .inl ⟨rfl, rfl⟩
  | @enrolled parent program image pid processes hp info he =>
    have hn : k.world.Adds (· != .poweredOff) (k.world.note (.spawned pid program parent)) := (Adds.refl k.world).note _ rfl
    exact .inl ⟨powerOffs_of_adds (hn.trans (adds_emit _ (.started pid info) rfl)), rfl⟩
  | @reaped caller child status records hp hr =>
    exact .inl ⟨powerOffs_of_adds ((Adds.refl k.world).note (.reaped caller child status) rfl), rfl⟩
  | memory hl memory => exact .inl ⟨rfl, rfl⟩
  | @opened pid process name mode fd descriptors registry world hp hl ho =>
    have ha := process.descriptors.adds_openFile k.registry k.world name mode
    exact .inl ⟨powerOffs_of_quiet (ha.trd ho).quiet, rfl⟩
  | @notOpened descriptors name mode e registry world hp ho =>
    have ha := descriptors.adds_openFile k.registry k.world name mode
    exact .inl ⟨powerOffs_of_quiet (ha.trd ho).quiet, rfl⟩
  | @closed pid process fd descriptors registry world hp hl hc =>
    have ha := process.descriptors.adds_close k.registry k.world fd
    exact .inl ⟨powerOffs_of_quiet (ha.trd hc), rfl⟩
  | unlinked name hp => exact .inl ⟨powerOffs_of_quiet (Registry.adds_unlink k.registry k.world name).quiet, rfl⟩
  | @read pid process fd count deliver bytes memory descriptors world hp hl hr =>
    have ha := process.descriptors.adds_readWith k.world fd count deliver
    exact .inl ⟨powerOffs_of_quiet (ha.snd hr).quiet, rfl⟩
  | @notRead descriptors fd count deliver e world hp hr =>
    have ha := descriptors.adds_readWith k.world fd count deliver
    exact .inl ⟨powerOffs_of_quiet (ha.snd hr).quiet, rfl⟩
  | @written pid process fd data count descriptors world hp hl hw =>
    have ha := process.descriptors.adds_write k.world fd data
    exact .inl ⟨powerOffs_of_quiet (ha.snd hw).quiet, rfl⟩
  | @notWritten descriptors fd data e world hp hw =>
    have ha := descriptors.adds_write k.world fd data
    exact .inl ⟨powerOffs_of_quiet (ha.snd hw).quiet, rfl⟩
  | ended pid status hp => exact .inl ⟨powerOffs_endProcess k pid status, rfl⟩
  | shutDown hp =>
    have hw := powerOffs_shutDown k
    cases hk : k.halted with
    | true =>
      rw [shutDown_eq hk, hk]
      exact .inl ⟨rfl, rfl⟩
    | false =>
      rw [hk, if_neg Bool.false_ne_true] at hw
      exact .inr ⟨rfl, halted_shutDown k, hw⟩
  | dropped hp => exact .inl ⟨powerOffs_unblockAll _ _, rfl⟩

/-- What governs a halt is kept by every move. -/
theorem governed_of_move {settings : Settings} (h : Move powers k k') (hg : k.Governed settings) : k'.Governed settings where
  settings := (settings_of_move h).trans hg.settings
  root := by
    obtain ⟨more, he, hc⟩ := changed_of_move h
    rw [hc.root, hg.root, firstTopLevel?, firstTopLevel?, he, List.findSome?_append]
  powerOffs := by
    rcases powerOffs_of_move h with ⟨hw, hh⟩ | ⟨h0, h1, hw⟩
    · rw [hw, hh, hg.powerOffs]
    · rw [hw, h1, hg.powerOffs, h0]
      rfl

/-- What governs a halt is kept by any number of moves. -/
theorem governed_of_moves {settings : Settings} (h : Moves powers k k') (hg : k.Governed settings) : k'.Governed settings := by
  induction h with
  | refl => exact hg
  | tail _ hm ih => exact governed_of_move hm ih

/-- Whoever runs runs on after a move that ends no process, unless the machine has halted. -/
theorem isRunning_of_move (hp : ¬powers .finish) (hd : ¬powers .drop) (hf : Forest k.processes) (h : Move powers k k')
    (hr : k.processes.isRunning pid = true) : k'.halted = true ∨ k'.processes.isRunning pid = true := by
  obtain ⟨record, hrec, hi⟩ := isRunning_eq_true_iff.mp hr
  cases h with
  | enrolled _ info he =>
    obtain ⟨record', hr', -, hi', -⟩ := hf.kept_enrol he hrec
    exact .inr (isRunning_eq_true_iff.mpr ⟨record', hr', hi'.trans hi⟩)
  | reaped _ hre =>
    obtain ⟨process, hl⟩ := isRunning_iff_exists_live.mp hr
    exact .inr (isRunning_iff_exists_live.mpr ⟨process, live_reap_of_live hre hl⟩)
  | memory hl memory => exact .inr (isRunning_putLive hr _ _)
  | opened _ hl ho => exact .inr (isRunning_putLive hr _ _)
  | closed _ hl hc => exact .inr (isRunning_putLive hr _ _)
  | read _ hl hre => exact .inr (isRunning_putLive hr _ _)
  | written _ hl hw => exact .inr (isRunning_putLive hr _ _)
  | ended owner status he => exact absurd he hp
  | shutDown _ => exact .inl (halted_shutDown k)
  | dropped hdrop => exact absurd hdrop hd
  | _ => exact .inr hr

/-- The same of any number of moves. -/
theorem isRunning_of_moves (hp : ¬powers .finish) (hd : ¬powers .drop) (h : Moves powers k k')
    (hs : k'.world.starts < UInt32.size - 1) (ho : k.Orderly) (hr : k.processes.isRunning pid = true) :
    k'.halted = true ∨ k'.processes.isRunning pid = true := by
  have hkeep : k'.Orderly ∧ (k'.halted = true ∨ k'.processes.isRunning pid = true) := by
    refine h.keeps (P := fun k => k.Orderly ∧ (k.halted = true ∨ k.processes.isRunning pid = true)) hs ⟨ho, .inr hr⟩ ?_
    rintro k₁ k₂ hm hb ⟨ho₁, hrun | hrun⟩
    · refine ⟨orderly_of_move hm hb ho₁, .inl ?_⟩
      rcases halted_of_move hm with he | ⟨-, hstop⟩
      · exact he.trans hrun
      · exact hstop.halted
    · exact ⟨orderly_of_move hm hb ho₁, isRunning_of_move hp hd ho₁.1 hm hrun⟩
  exact hkeep.2

/-- Moves that enrol nothing start nothing. -/
theorem starts_of_moves (hn : ¬powers .enrol) (h : Moves powers k k') : k'.world.starts = k.world.starts := by
  induction h with
  | refl => rfl
  | tail _ hm ih =>
    rcases starts_of_move hm with ⟨he, -⟩ | ⟨hp, -⟩
    · exact he.trans ih
    · exact absurd hp hn

end Moves

/-! ## Ends and halts -/

section Operations

variable [Medium μ] {status : ExitStatus}

/-- Whoever does not run does not end. -/
theorem endProcess_of_not_running (h : k.processes.isRunning pid = false) (status : ExitStatus) :
    k.endProcess pid status = (.error .noSuchProcess, k) := by
  unfold endProcess ProcessTable.exit
  cases hr : k.processes.record? pid with
  | none => rfl
  | some record =>
    have hp := Record.process?_eq_none (isRunning_eq_false_iff.mp h record hr)
    dsimp only
    rw [hp]

/-- Whoever runs ends, and how many are left running is reported. -/
theorem exists_report {record : Record} {process : Process} (hr : k.processes.record? pid = some record)
    (hp : record.process? = some process) (status : ExitStatus) :
    ∃ report : ExitReport, report.running = (k.processes.retire pid record status).running ∧
      k.endProcess pid status = (.ok report, k.afterEnd pid record process status) := by
  unfold endProcess ProcessTable.exit
  rw [hr]
  dsimp only
  rw [hp]
  exact ⟨_, rfl, rfl⟩

/-- The end of a process halts the machine exactly if that is what the settings ask for, the process runs, and it runs alone. -/
theorem halted_exit_iff (hf : Forest k.processes) (h0 : k.halted = false) :
    (k.exit pid status).2.halted = true ↔
      k.settings.haltWhenIdle = true ∧ k.processes.isRunning pid = true ∧
        ∀ other, k.processes.isRunning other = true → other = pid := by
  cases hrun : k.processes.isRunning pid with
  | false =>
    unfold exit
    rw [endProcess_of_not_running hrun]
    simp [h0]
  | true =>
    obtain ⟨record, hr, hi⟩ := isRunning_eq_true_iff.mp hrun
    obtain ⟨process, hp⟩ := Option.isSome_iff_exists.mp hi
    obtain ⟨report, hreport, he⟩ := exists_report hr hp status
    rw [← hf.running_retire_eq_zero_iff hr hi status, ← hreport]
    unfold exit
    rw [he]
    dsimp only
    split
    · rename_i hidle
      exact iff_of_true (halted_shutDown _) ⟨hidle.2, rfl, hidle.1⟩
    · rename_i hidle
      refine iff_of_false (fun h => ?_) fun h => hidle ⟨h.2.2, h.1⟩
      exact Bool.false_ne_true (h0.symm.trans h)

/-- Whoever else runs runs on when a process ends, unless the machine halts by that. -/
theorem isRunning_exit (hf : Forest k.processes) {other : Pid} (hne : other ≠ pid) (ho : k.processes.isRunning other = true) :
    (k.exit pid status).2.halted = true ∨ (k.exit pid status).2.processes.isRunning other = true := by
  cases hrun : k.processes.isRunning pid with
  | false =>
    unfold exit
    rw [endProcess_of_not_running hrun]
    exact .inr ho
  | true =>
    obtain ⟨record, hr, hi⟩ := isRunning_eq_true_iff.mp hrun
    obtain ⟨process, hp⟩ := Option.isSome_iff_exists.mp hi
    obtain ⟨report, -, he⟩ := exists_report hr hp status
    unfold exit
    rw [he]
    dsimp only
    split
    · exact .inl (halted_shutDown _)
    · obtain ⟨r, hro, hir⟩ := isRunning_eq_true_iff.mp ho
      obtain ⟨r', hr', hi', -⟩ := hf.kept_retire hr status hne hro hir
      exact .inr (isRunning_eq_true_iff.mpr ⟨r', hr', hi'⟩)

omit [Medium μ] in
/-- A halt that is asked for happens exactly if the process runs and is admitted: under the stricter policy it has to be the root. -/
theorem halted_halt_iff (h0 : k.halted = false) :
    (k.halt pid).2.halted = true ↔
      k.processes.isRunning pid = true ∧ (k.settings.haltPolicy = .rootOnly → k.processes.root = some pid) := by
  unfold halt
  cases hl : k.processes.live pid with
  | error e =>
    refine iff_of_false (fun h => Bool.false_ne_true (h0.symm.trans h)) fun h => ?_
    obtain ⟨process, hl'⟩ := isRunning_iff_exists_live.mp h.1
    cases hl.symm.trans hl'
  | ok process =>
    have hrun : k.processes.isRunning pid = true := isRunning_iff_exists_live.mpr ⟨process, hl⟩
    dsimp only
    split
    · rename_i hrefused
      exact iff_of_false (fun h => Bool.false_ne_true (h0.symm.trans h)) fun h => hrefused.2 (h.2 hrefused.1)
    · rename_i hadmitted
      refine iff_of_true (halted_shutDown _) ⟨hrun, fun hpolicy => ?_⟩
      by_contra hroot
      exact hadmitted ⟨hpolicy, hroot⟩

omit [Medium μ] in
/-- The same of a halt that is asked for by a system call. -/
theorem halted_sysHalt (k : Kernel μ κ) (pid : Pid) : (k.sysHalt pid).2.halted = (k.halt pid).2.halted := by
  unfold sysHalt
  split <;> rename_i he <;> rw [he]
  rfl

variable [Console κ]

/-- A call to the kernel that ends a process ends it, after a report at most. -/
theorem exists_exit_of_endOf {c : Call} (hk : c.isKernelCall = true) (h : k.endOf c = some (pid, status)) (thread : ThreadId) :
    ∃ world, k.world.Adds Effect.isQuiet world ∧ (k.begin thread c).kernel = ({ k with world }.exit pid status).2 := by
  have hnoted : ∀ event, (Effect.notice event).isQuiet = true → k.world.Adds Effect.isQuiet (k.world.note event) :=
    (Adds.refl k.world).note
  have hcall : ∀ caller number args trap, k.exitedBy caller number args = some (pid, status) →
      ∃ world, k.world.Adds Effect.isQuiet world ∧
        (k.dispatch thread caller number args trap).kernel = ({ k with world }.exit pid status).2 := by
    intro caller number args trap he
    obtain ⟨outcome, hd⟩ := dispatch_of_exitedBy he thread trap
    exact ⟨k.world.note (.syscall caller number args.toList), hnoted _ rfl, by rw [hd]; rfl⟩
  cases c with
  | systemCall caller number args => exact hcall caller number args none h
  | trap caller cause frame =>
    simp only [begin, takeTrap]
    split
    · exact hcall caller frame.v0 frame.args (some frame) h
    · rename_i hc
      rw [endOf, if_neg hc] at h
      cases h
      exact ⟨k.world.note (.exception pid cause frame.badAddress frame.counter), hnoted _ rfl, rfl⟩
  | exit ending ended =>
    cases h
    exact ⟨k.world, .refl _, rfl⟩
  | endProcess ending ended => cases hk
  | _ => cases h

/-- A call by which a process asks for a halt halts the machine exactly if such a request does, after a report at most. -/
theorem exists_halt_of_haltOf {c : Call} (h : k.haltOf c = some pid) (thread : ThreadId) :
    ∃ world : World μ κ, (k.begin thread c).kernel.halted = ({ k with world }.halt pid).2.halted := by
  have hcall : ∀ caller number args trap, k.haltedBy caller number = some pid →
      ∃ world : World μ κ, (k.dispatch thread caller number args trap).kernel.halted = ({ k with world }.halt pid).2.halted := by
    intro caller number args trap hh
    obtain ⟨hk, hn, rfl⟩ := haltedBy_eq_some hh
    refine ⟨k.world.note (.syscall pid number args.toList), ?_⟩
    unfold dispatch
    rw [if_neg (Bool.eq_false_iff.mp hk), hn]
    exact halted_sysHalt (k.note (.syscall pid number args.toList)) pid
  cases c with
  | systemCall caller number args => exact hcall caller number args none h
  | trap caller cause frame =>
    cases cause with
    | syscall => exact hcall caller frame.v0 frame.args (some frame) h
    | _ => cases h
  | halt caller =>
    cases h
    exact ⟨k.world, rfl⟩
  | _ => cases h

omit [Medium μ] [Console κ] in
/-- A call by which a process asks for a halt ends none. -/
theorem endOf_of_haltOf {c : Call} (h : k.haltOf c = some pid) : k.endOf c = none := by
  have hcall : ∀ caller number (args : Arguments), k.haltedBy caller number = some pid → k.exitedBy caller number args = none := by
    intro caller number args hh
    obtain ⟨hk, hn, -⟩ := haltedBy_eq_some hh
    rw [exitedBy, hk, if_neg Bool.false_ne_true, hn]
    rfl
  cases c with
  | systemCall caller number args => exact hcall caller number args h
  | trap caller cause frame =>
    cases cause with
    | syscall => exact hcall caller frame.v0 frame.args h
    | _ => cases h
  | halt caller => rfl
  | _ => cases h

/-- A call to the kernel halts the machine exactly if a process asks for that by it which runs and is admitted, or if it ends the
last process that runs and the settings ask for a halt then. -/
theorem halted_begin_iff (hf : Forest k.processes) (h0 : k.halted = false) {c : Call} (hk : c.isKernelCall = true)
    (thread : ThreadId) :
    (k.begin thread c).kernel.halted = true ↔
      (∃ pid, k.haltOf c = some pid ∧ k.processes.isRunning pid = true ∧
        (k.settings.haltPolicy = .rootOnly → k.processes.root = some pid)) ∨
      k.settings.haltWhenIdle = true ∧ ∃ pid status, k.endOf c = some (pid, status) ∧ k.processes.isRunning pid = true ∧
        ∀ other, k.processes.isRunning other = true → other = pid := by
  cases hh : k.haltOf c with
  | some caller =>
    obtain ⟨world, he⟩ := exists_halt_of_haltOf hh thread
    rw [he, halted_halt_iff (k := { k with world }) h0, endOf_of_haltOf hh]
    simp
  | none =>
    cases he : k.endOf c with
    | some asked =>
      obtain ⟨pid, status⟩ := asked
      obtain ⟨world, -, hb⟩ := exists_exit_of_endOf hk he thread
      rw [hb, halted_exit_iff (k := { k with world }) hf h0]
      simp
    | none =>
      have hm : Moves (· ≠ .halt) k (k.begin thread c).kernel :=
        moves_begin k thread c (by decide) (fun caller ha => by cases hh.symm.trans ha) (fun _ => by decide)
          (fun asked ha => by cases he.symm.trans ha) fun _ _ => by simp
      rw [halted_eq_of_moves (fun hn => hn rfl) hm, h0]
      simp

end Operations

end Kernel

namespace Machine

variable {μ κ : Type} [Medium μ] [Console κ] {settings : Settings} {m m' : Machine μ κ} {r : Machine μ κ × Option Outcome}
  {allowed : Call → Prop} {pid root : Pid}

open Kernel ProcessTable

/-! ## Steps -/

/-- A step in which the kernel is called may end a process. Everything else comes down to moves that end none. -/
theorem ends_or_moves (h : Step allowed m r) (hk : ∀ c, allowed c → c.isKernelCall = true) :
    (∃ c pid status world, allowed c ∧ m.kernel.endOf c = some (pid, status) ∧ m.kernel.world.Adds Effect.isQuiet world ∧
      r.1.kernel = ({ m.kernel with world }.exit pid status).2) ∨
      Moves (fun power => power ≠ .finish ∧ power ≠ .drop) m.kernel r.1.kernel := by
  cases h with
  | call _ thread c hc =>
    rw [call, kernel_settle]
    cases he : m.kernel.endOf c with
    | some asked =>
      obtain ⟨world, hq, hb⟩ := exists_exit_of_endOf (hk c hc) he thread
      exact .inl ⟨c, asked.1, asked.2, world, hc, he, hq, hb⟩
    | none =>
      refine .inr (moves_begin _ thread c (by decide) (fun _ _ => by decide) ?_ (fun asked ha => by cases he.symm.trans ha)
        fun _ _ => by simp)
      rintro rfl
      cases hk _ hc
  | answer k before after s a =>
    rw [kernel_settle]
    exact .inr (moves_resume k s a (fun _ => by decide) fun _ _ => by simp)
  | memory _ pid change => exact .inr (moves_changeMemory _ pid change)

/-- A step halts the machine exactly if in it a call to the kernel is made that halts it. -/
theorem halted_step_iff (h : Step allowed m r) (hk : ∀ c, allowed c → c.isKernelCall = true) (ho : m.kernel.Orderly)
    (h0 : m.kernel.halted = false) :
    r.1.kernel.halted = true ↔
      ∃ thread c, allowed c ∧ r = m.call thread c ∧
        ((∃ pid, m.kernel.haltOf c = some pid ∧ m.kernel.processes.isRunning pid = true ∧
            (m.kernel.settings.haltPolicy = .rootOnly → m.kernel.processes.root = some pid)) ∨
          m.kernel.settings.haltWhenIdle = true ∧ ∃ pid status, m.kernel.endOf c = some (pid, status) ∧
            m.kernel.processes.isRunning pid = true ∧ ∀ other, m.kernel.processes.isRunning other = true → other = pid) := by
  constructor
  · intro h1
    have hnot : ¬Moves (· ≠ .halt) m.kernel r.1.kernel := by
      intro hm
      exact Bool.false_ne_true (h0.symm.trans ((halted_eq_of_moves (fun hn => hn rfl) hm).symm.trans h1))
    cases h with
    | call _ thread c hc =>
      rw [call, kernel_settle, halted_begin_iff ho.1 h0 (hk c hc)] at h1
      exact ⟨thread, c, hc, rfl, h1⟩
    | answer k before after s a =>
      rw [kernel_settle] at hnot
      exact absurd (moves_resume k s a (fun _ => by decide) fun _ _ => by simp) hnot
    | memory _ pid change => exact absurd (moves_changeMemory _ pid change) hnot
  · rintro ⟨thread, c, hc, rfl, hadmitted⟩
    rw [call, kernel_settle, halted_begin_iff ho.1 h0 (hk c hc)]
    exact hadmitted

/-! ## The root -/

/-- The calls to the kernel that are not made by one process. -/
def OfOthers (root : Pid) (c : Call) : Prop := c.isKernelCall = true ∧ c.caller? ≠ some root

/-- While the root runs, and nobody else may halt the machine, a step of others neither halts the machine nor ends the root. -/
theorem root_spared_of_step (h : Step (OfOthers root) m r) (hs : r.1.kernel.world.starts < UInt32.size - 1)
    (ho : m.kernel.Orderly) (h0 : m.kernel.halted = false) (hpolicy : m.kernel.settings.haltPolicy = .rootOnly)
    (hroot : m.kernel.processes.root = some root) (hr : m.kernel.processes.isRunning root = true) :
    r.1.kernel.halted = false ∧ r.1.kernel.processes.isRunning root = true := by
  have hgoes : r.1.kernel.halted = false := by
    rw [← Bool.not_eq_true]
    intro h1
    obtain ⟨thread, c, hc, rfl, hadmitted⟩ := (halted_step_iff h (fun _ hc => hc.1) ho h0).mp h1
    rcases hadmitted with ⟨pid, hh, -, honly⟩ | ⟨-, pid, status, he, -, hlast⟩
    · cases hroot.symm.trans (honly hpolicy)
      exact hc.2 (caller?_of_haltOf hh)
    · obtain rfl := hlast root hr
      exact hc.2 (caller?_of_endOf he)
  refine ⟨hgoes, ?_⟩
  have hrun : r.1.kernel.halted = true ∨ r.1.kernel.processes.isRunning root = true := by
    rcases ends_or_moves h fun _ hc => hc.1 with ⟨c, pid, status, world, hc, he, -, hb⟩ | hm
    · rw [hb]
      refine isRunning_exit (k := { m.kernel with world }) ho.1 ?_ hr
      rintro rfl
      exact hc.2 (caller?_of_endOf he)
    · exact isRunning_of_moves (fun hp => hp.1 rfl) (fun hp => hp.2 rfl) hm hs ho hr
  rcases hrun with h1 | hrun
  · exact absurd (hgoes.symm.trans h1) Bool.false_ne_true
  · exact hrun

/-- The root stays the root. -/
theorem root_of_moves {powers : Power → Prop} {k k' : Kernel μ κ} (h : Moves powers k k') (hr : k.processes.root = some root) :
    k'.processes.root = some root := by
  induction h with
  | refl => exact hr
  | tail _ hm ih =>
    obtain ⟨more, -, hc⟩ := changed_of_move hm
    rw [hc.root, ih, Option.some_or]

/-- Nor does it matter how many steps others take, and in what order. -/
theorem root_spared (h : Leads (OfOthers root) m m') (hs : m'.kernel.world.starts < UInt32.size - 1) (ho : m.kernel.Orderly)
    (hg : m.kernel.Governed settings) (hpolicy : settings.haltPolicy = .rootOnly) (h0 : m.kernel.halted = false)
    (hroot : m.kernel.processes.root = some root) (hr : m.kernel.processes.isRunning root = true) :
    m'.kernel.halted = false ∧ m'.kernel.processes.isRunning root = true := by
  induction h with
  | refl => exact ⟨h0, hr⟩
  | @step m₁ r hl hstep ih =>
    have hm := moves_of_leads hl
    have hs₁ : m₁.kernel.world.starts < UInt32.size - 1 := Nat.lt_of_le_of_lt (starts_le_of_moves (moves_of_step hstep)) hs
    obtain ⟨h0₁, hr₁⟩ := ih hs₁
    have ho₁ : m₁.kernel.Orderly := hm.keeps hs₁ ho fun _ _ => orderly_of_move
    have hpolicy₁ : m₁.kernel.settings.haltPolicy = .rootOnly := by rw [(governed_of_moves hm hg).settings, hpolicy]
    exact root_spared_of_step hstep hs ho₁ h0₁ hpolicy₁ (root_of_moves hm hroot) hr₁

/-! ## Idleness -/

/-- Something runs, or the machine has halted, or nothing was ever started. -/
def Busy (k : Kernel μ κ) : Prop := 0 < k.world.starts → k.halted = true ∨ ∃ pid, k.processes.isRunning pid = true

/-- Moves that end no process leave a machine busy. -/
theorem busy_of_moves {powers : Power → Prop} {k k' : Kernel μ κ} (hp : ¬powers .finish) (hd : ¬powers .drop)
    (h : Moves powers k k') (hs : k'.world.starts < UInt32.size - 1) (ho : k.Orderly) (hb : Busy k) : Busy k' := by
  have hkeep : k'.Orderly ∧ Busy k' := by
    refine h.keeps (P := fun k => k.Orderly ∧ Busy k) hs ⟨ho, hb⟩ ?_
    rintro k₁ k₂ hm hbound ⟨ho₁, hb₁⟩
    refine ⟨orderly_of_move hm hbound ho₁, fun hpos => ?_⟩
    rcases starts_of_move hm with ⟨he, -⟩ | ⟨-, -, parent, program, image, pid, hen⟩
    · rcases hb₁ (he ▸ hpos) with hhalt | ⟨pid, hr⟩
      · refine .inl ?_
        rcases halted_of_move hm with hsame | ⟨-, hstop⟩
        · exact hsame.trans hhalt
        · exact hstop.halted
      · exact (isRunning_of_move hp hd ho₁.1 hm hr).imp id fun hr' => ⟨pid, hr'⟩
    · exact .inr ⟨pid, isRunning_enrol hen⟩
  exact hkeep.2

/-- The end of a process leaves a machine busy that halts when idle. -/
theorem busy_exit {k : Kernel μ κ} (hf : Forest k.processes) (hidle : k.settings.haltWhenIdle = true) (hb : Busy k)
    (status : ExitStatus) : Busy (k.exit pid status).2 := by
  have hm : Moves (· ≠ .enrol) k (k.exit pid status).2 := moves_exit k pid status (by decide) (by decide)
  intro hpos
  rw [starts_of_moves (fun hn => hn rfl) hm] at hpos
  cases h0 : k.halted with
  | true =>
    refine .inl ?_
    rcases halted_of_moves (fun hn => hn rfl) hm with he | hstop
    · exact he.trans h0
    · exact hstop.halted
  | false =>
    rcases hb hpos with h1 | ⟨q, hq⟩
    · exact absurd (h0.symm.trans h1) Bool.false_ne_true
    by_cases halone : ∀ other, k.processes.isRunning other = true → other = pid
    · obtain rfl := halone q hq
      exact .inl ((halted_exit_iff hf h0).mpr ⟨hidle, hq, halone⟩)
    · push Not at halone
      obtain ⟨other, ho, hne⟩ := halone
      exact (isRunning_exit hf hne ho).imp id fun hr => ⟨other, hr⟩

/-- So does every step in which the kernel is called. -/
theorem busy_of_step (h : Step ToKernel m r) (hs : r.1.kernel.world.starts < UInt32.size - 1) (ho : m.kernel.Orderly)
    (hidle : m.kernel.settings.haltWhenIdle = true) (hb : Busy m.kernel) : Busy r.1.kernel := by
  rcases ends_or_moves h fun _ hc => hc with ⟨c, pid, status, world, -, -, hq, hexit⟩ | hm
  · rw [hexit]
    refine busy_exit (k := { m.kernel with world }) ho.1 hidle (fun hpos => hb ?_) status
    rw [← hq.starts_of_quiet]
    exact hpos
  · exact busy_of_moves (fun hp => hp.1 rfl) (fun hp => hp.2 rfl) hm hs ho hb

/-- A machine that halts when idle is busy at every point of every run of calls to the kernel. -/
theorem busy_of_leads (h : Leads ToKernel m m') (hs : m'.kernel.world.starts < UInt32.size - 1) (ho : m.kernel.Orderly)
    (hg : m.kernel.Governed settings) (hidle : settings.haltWhenIdle = true) (hb : Busy m.kernel) : Busy m'.kernel := by
  induction h with
  | refl => exact hb
  | @step m₁ r hl hstep ih =>
    have hm := moves_of_leads hl
    have hs₁ : m₁.kernel.world.starts < UInt32.size - 1 := Nat.lt_of_le_of_lt (starts_le_of_moves (moves_of_step hstep)) hs
    have hidle₁ : m₁.kernel.settings.haltWhenIdle = true := by rw [(governed_of_moves hm hg).settings, hidle]
    exact busy_of_step hstep hs (hm.keeps hs₁ ho fun _ _ => orderly_of_move) hidle₁ (ih hs₁)

/-! ## Every run of the kernel -/

/-- At every point of every run of calls to the kernel, with any operations waiting, as long as the process numbers last: the next
step halts the machine exactly if in it a running process asks for a halt that the policy admits, which under the stricter policy is the
first that was started without a parent, or if the settings ask for a halt in idleness and it ends the only process that runs. While
that first process runs, nobody else brings the stricter machine to a halt by any number of calls in any order. A machine that is to
halt when idle has halted whenever something was started and nothing runs. And the scheduler was told of the halt once if the machine
has halted, and otherwise never. -/
theorem halt_authority (h : Reached ToKernel settings m) (hs : m.kernel.world.starts < UInt32.size - 1) :
    (m.kernel.halted = false → ∀ r, Step ToKernel m r →
      (r.1.kernel.halted = true ↔
        ∃ thread c, c.isKernelCall = true ∧ r = m.call thread c ∧
          ((∃ pid, m.kernel.haltOf c = some pid ∧ m.kernel.processes.isRunning pid = true ∧
              (settings.haltPolicy = .rootOnly → m.kernel.world.firstTopLevel? = some pid)) ∨
            settings.haltWhenIdle = true ∧ ∃ pid status, m.kernel.endOf c = some (pid, status) ∧
              m.kernel.processes.isRunning pid = true ∧ ∀ other, m.kernel.processes.isRunning other = true → other = pid))) ∧
    (m.kernel.halted = false → settings.haltPolicy = .rootOnly →
      ∀ root, m.kernel.world.firstTopLevel? = some root → m.kernel.processes.isRunning root = true →
        ∀ m', Leads (OfOthers root) m m' → m'.kernel.world.starts < UInt32.size - 1 →
          m'.kernel.halted = false ∧ m'.kernel.processes.isRunning root = true) ∧
    (settings.haltWhenIdle = true → 0 < m.kernel.world.starts → (∀ pid, m.kernel.processes.isRunning pid = false) →
      m.kernel.halted = true) ∧
    m.kernel.world.effects.count .poweredOff = if m.kernel.halted then 1 else 0 := by
  have ho : m.kernel.Orderly := h.orderly hs
  have hg : m.kernel.Governed settings :=
    h.keeps hs (governed_create settings) fun _ _ hm _ => governed_of_move hm
  refine ⟨fun h0 r hstep => ?_, fun h0 hpolicy root hroot hr m' hl hs' => ?_, fun hidle hpos hnone => ?_, hg.powerOffs⟩
  · rw [halted_step_iff hstep (fun _ hc => hc) ho h0, hg.settings, hg.root]
  · exact root_spared hl hs' ho hg hpolicy h0 (hg.root.trans hroot) hr
  · obtain ⟨medium, console, hl⟩ := h
    have hstart : Orderly (Kernel.create settings medium console) := ⟨forest_of_no_records rfl rfl, rfl⟩
    have hb : Busy m.kernel :=
      busy_of_leads hl hs hstart (governed_create settings medium console) hidle fun hpos => absurd hpos (Nat.lt_irrefl 0)
    rcases hb hpos with hhalt | ⟨pid, hr⟩
    · exact hhalt
    · exact absurd ((hnone pid).symm.trans hr) Bool.false_ne_true

/-- Two programs run side by side. -/
def sideBySide : List Turn := started (.boot "first" []) ++ started (.boot "second" [])

/-- The first may halt the machine and the second may not, whatever others do before. -/
theorem sideBySide_authority :
    let m := (start {} (RamDisk.empty none) Silent.mk).play sideBySide
    (m.kernel.world.firstTopLevel? = some ⟨1⟩ ∧ m.kernel.processes.isRunning ⟨2⟩ = true ∧
      (m.call ⟨0⟩ (.halt ⟨2⟩)).1.kernel.halted = false ∧ (m.call ⟨0⟩ (.halt ⟨1⟩)).1.kernel.halted = true) ∧
    ∀ m', Leads (OfOthers ⟨1⟩) m m' → m'.kernel.world.starts < UInt32.size - 1 →
      m'.kernel.halted = false ∧ m'.kernel.processes.isRunning ⟨1⟩ = true :=
  ⟨by decide, (halt_authority (reached_play _ _ _ sideBySide (by decide)) (by decide)).2.1 (by decide) rfl ⟨1⟩ (by decide) (by decide)⟩

end Machine

end Nucleus
