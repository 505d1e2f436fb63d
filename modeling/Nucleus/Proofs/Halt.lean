import Nucleus.Proofs.Slots
import Nucleus.Proofs.Table
import Nucleus.Proofs.Scripts
import Nucleus.Device.RamDisk

/-!
# What is final about the halt

A halt drops all tables. Whatever waited then or is called later finds neither a process nor a file: a child cannot be made
without its parent, a status cannot be taken, and no call to the kernel gets past the halt. The one thing that is not turned away
is a program that was being booted when the machine halted. It asked for no parent and was let in before the halt, so it becomes a
process after it.
-/

namespace Nucleus

/-- Whether an operation waits for a program without a parent to be loaded. -/
def Suspended.isBoot : Suspended → Bool
  | .loading none .. => true
  | _ => false

/-- Who does not wait for the loader is no boot. -/
theorem Suspended.isBoot_eq_false {s : Suspended} (h : s.isLoading = false) : s.isBoot = false := by
  cases s with
  | loading parent program args use => cases h
  | starting pid use => rfl
  | sleeping thread caller child use => rfl

/-- What asking for a child may lead to: the thread passes through the queue, and takes the status. -/
def Power.ofJoins : Power → Prop
  | .sleep _ => True
  | .take => True
  | _ => False

/-- What an answer may lead to: that, or a program becomes a process. -/
def Power.ofAnswers (power : Power) : Prop := power = .enrol ∨ power.ofJoins

/-- What a call to the kernel may lead to after the halt: a process ends, or the machine halts again. -/
def Power.ofEnds (power : Power) : Prop := power = .finish ∨ power = .halt

instance : DecidablePred Power.ofJoins
  | .sleep _ => inferInstanceAs (Decidable True)
  | .take => inferInstanceAs (Decidable True)
  | .enrol | .files | .finish | .halt | .drop => inferInstanceAs (Decidable False)

instance : DecidablePred Power.ofAnswers := fun power => inferInstanceAs (Decidable (power = .enrol ∨ power.ofJoins))

instance : DecidablePred Power.ofEnds := fun power => inferInstanceAs (Decidable (power = .finish ∨ power = .halt))

namespace Kernel

/-- The machine has halted, and nothing is in its tables. -/
structure Stopped {μ κ : Type} (k : Kernel μ κ) : Prop where
  /-- It has halted. -/
  halted : k.halted = true
  /-- There is no record of a process. -/
  recordless : k.processes.records = ∅
  /-- No process is counted as running. -/
  idle : k.processes.running = 0
  /-- No file is registered. -/
  unregistered : k.registry = .empty

/-- The machine has halted, and no file is open. -/
structure Closed {μ κ : Type} (k : Kernel μ κ) : Prop where
  /-- It has halted. -/
  halted : k.halted = true
  /-- No file is registered. -/
  unregistered : k.registry = .empty
  /-- No descriptor refers to a file. -/
  fileless : ∀ pid process, k.processes.live pid = .ok process → process.descriptors.files = []

variable {μ κ : Type} {k k' : Kernel μ κ}

/-- Where there are no records none is found. -/
theorem Stopped.record?_eq_none (hs : k.Stopped) (pid : Pid) : k.processes.record? pid = none := by
  rw [ProcessTable.record?, hs.recordless, Std.ExtTreeMap.getElem?_empty]

/-- Nor does any process run. -/
theorem Stopped.not_live (hs : k.Stopped) {pid : Pid} {process : Process} : k.processes.live pid ≠ .ok process :=
  ProcessTable.not_live_of_no_records hs.recordless

/-- A machine with nothing in its tables has no open file. -/
theorem Stopped.closed (hs : k.Stopped) : k.Closed :=
  ⟨hs.halted, hs.unregistered, fun _ _ hl => absurd hl hs.not_live⟩

/-- A halt leaves nothing in the tables. -/
theorem stopped_shutDown (h : k.halted = false) : k.shutDown.Stopped := by
  unfold shutDown
  rw [h, if_neg Bool.false_ne_true]
  exact ⟨rfl, rfl, rfl, rfl⟩

/-- A machine that has halted does not halt again. -/
theorem shutDown_eq (h : k.halted = true) : k.shutDown = k := if_pos h

/-! ## What waits after an answer -/

/-- A join waits for a child to end, if it waits. -/
theorem not_isLoading_of_mem_waits_join (k : Kernel μ κ) (thread : ThreadId) (caller child : Pid) (use : JoinUse) {s' : Suspended}
    (h : s' ∈ (k.join thread caller child use).waits) : s'.isLoading = false := by
  unfold join at h
  split at h
  · rw [waits_finishJoin] at h
    cases h
  · dsimp only at h
    rw [waits_finishJoin] at h
    cases h
  · rw [List.mem_singleton.mp h]
    rfl

/-- Whatever an operation waits for after it was answered, it is not the loader. -/
theorem not_isLoading_of_mem_waits (k : Kernel μ κ) (s : Suspended) (a : s.Answer) {s' : Suspended}
    (h : s' ∈ (k.resume s a).waits) : s'.isLoading = false := by
  cases s with
  | loading parent program args use =>
    cases a with
    | error cause => simp [resume, enrol] at h
    | ok image =>
      simp only [resume, enrol] at h
      split at h
      · simp at h
      · rw [List.mem_singleton.mp h]
        rfl
  | starting pid use =>
    rw [show k.resume (.starting pid use) a = k.finishSpawn use (.ok pid) from rfl, waits_finishSpawn] at h
    cases h
  | sleeping thread caller child use => exact not_isLoading_of_mem_waits_join _ thread caller child use h

/-- A program without a parent is always let in. -/
theorem starts_enrol_none (k : Kernel μ κ) (program : String) (use : SpawnUse) (image : ProgramImage) :
    (k.enrol none program use (.ok image)).kernel.world.starts = k.world.starts + 1 := by
  have he : ∃ processes, k.processes.enrol none program image k.settings.slots = .ok (⟨k.processes.next⟩, processes) := ⟨_, rfl⟩
  obtain ⟨processes, he⟩ := he
  simp only [enrol, he, Progress.kernel]
  simp [World.starts, Effect.isStart]

/-! ## Moves -/

variable [Medium μ] [Console κ] {powers : Power → Prop}

omit [Console κ] in
/-- A name can be unlinked without the registry being changed when it is not registered. -/
theorem unlink_empty (w : World μ κ) (name : String) : (Registry.unlink .empty w name).2.1 = .empty := by
  unfold Registry.unlink
  rw [Registry.find?_empty]
  dsimp only
  split <;> rfl

/-- A move halts the machine and empties its tables, or leaves the machine halted or not as it was. -/
theorem halted_of_move (h : Move powers k k') :
    k'.halted = k.halted ∨ powers .halt ∧ k'.Stopped := by
  cases h with
  | shutDown hp =>
    cases hk : k.halted with
    | false => exact .inr ⟨hp, stopped_shutDown hk⟩
    | true =>
      rw [shutDown_eq hk]
      exact .inl hk
  | ended pid status hp =>
    rcases endProcess_cases k pid status with he | ⟨record, process, -, -, he⟩ <;> rw [he] <;> exact .inl rfl
  | _ => exact .inl rfl

/-- As long as nothing is enrolled, the tables stay empty. -/
theorem stopped_of_move (hn : ¬powers .enrol) (h : Move powers k k') (hs : k.Stopped) : k'.Stopped := by
  cases h with
  | note event he => exact ⟨hs.halted, hs.recordless, hs.idle, hs.unregistered⟩
  | asleep thread hp => exact ⟨hs.halted, hs.recordless, hs.idle, hs.unregistered⟩
  | awake thread hp => exact ⟨hs.halted, hs.recordless, hs.idle, hs.unregistered⟩
  | enrolled hp info he => exact absurd hp hn
  | @reaped caller child status records hp hr =>
    obtain ⟨parent, -, hp, -⟩ := ProcessTable.reap_reaped hr
    exact absurd (hp.symm.trans (hs.record?_eq_none caller)) (Option.some_ne_none parent)
  | memory hl memory => exact absurd hl hs.not_live
  | opened hp hl ho => exact absurd hl hs.not_live
  | notOpened hp ho =>
    rw [Descriptors.registry_of_openFile_error ho]
    exact ⟨hs.halted, hs.recordless, hs.idle, hs.unregistered⟩
  | closed hp hl hc => exact absurd hl hs.not_live
  | unlinked name hp =>
    rw [hs.unregistered]
    exact ⟨hs.halted, hs.recordless, hs.idle, unlink_empty _ name⟩
  | read hp hl hr => exact absurd hl hs.not_live
  | notRead hp hr => exact ⟨hs.halted, hs.recordless, hs.idle, hs.unregistered⟩
  | written hp hl hw => exact absurd hl hs.not_live
  | notWritten hp hw => exact ⟨hs.halted, hs.recordless, hs.idle, hs.unregistered⟩
  | ended pid status hp =>
    rcases endProcess_cases k pid status with he | ⟨record, process, hr, -, -⟩
    · rw [he]
      exact hs
    · exact absurd (hr.symm.trans (hs.record?_eq_none pid)) (Option.some_ne_none record)
  | shutDown hp =>
    rw [shutDown_eq hs.halted]
    exact hs
  | dropped hp => exact ⟨hs.halted, rfl, rfl, hs.unregistered⟩

/-- As long as no file is worked on, none is open after the halt: a new process has none, and nobody gets one. -/
theorem closed_of_move (hn : ¬powers .files) (h : Move powers k k') (hc : k.Closed) : k'.Closed := by
  cases h with
  | note event he => exact ⟨hc.halted, hc.unregistered, hc.fileless⟩
  | asleep thread hp => exact ⟨hc.halted, hc.unregistered, hc.fileless⟩
  | awake thread hp => exact ⟨hc.halted, hc.unregistered, hc.fileless⟩
  | enrolled hp info he =>
    refine ⟨hc.halted, hc.unregistered, ?_⟩
    intro pid process hl
    rcases ProcessTable.live_enrol he hl with rfl | hl
    · exact ProcessTable.files_create _
    · exact hc.fileless pid process hl
  | reaped hp hr =>
    exact ⟨hc.halted, hc.unregistered, fun pid process hl => hc.fileless pid process (ProcessTable.live_reap hr hl)⟩
  | @memory pid process hl memory =>
    refine ⟨hc.halted, hc.unregistered, ?_⟩
    intro other owner ho
    rcases ProcessTable.live_putLive hl ho with rfl | ho
    · exact hc.fileless pid process hl
    · exact hc.fileless other owner ho
  | opened hp hl ho => exact absurd hp hn
  | notOpened hp ho => exact absurd hp hn
  | closed hp hl hcl => exact absurd hp hn
  | unlinked name hp => exact absurd hp hn
  | read hp hl hr => exact absurd hp hn
  | notRead hp hr => exact absurd hp hn
  | written hp hl hw => exact absurd hp hn
  | notWritten hp hw => exact absurd hp hn
  | ended pid status hp =>
    rcases endProcess_cases k pid status with he | ⟨record, process, hr, hproc, he⟩
    · rw [he]
      exact hc
    · have hnone : process.descriptors.files = [] :=
        hc.fileless pid process (ProcessTable.live_eq_ok_iff.mpr ⟨record, hr, hproc⟩)
      rw [he]
      refine ⟨hc.halted, ?_, fun other owner ho => hc.fileless other owner (ProcessTable.live_retire _ pid record status ho)⟩
      unfold afterEnd
      rw [hnone]
      exact hc.unregistered
  | shutDown hp =>
    rw [shutDown_eq hc.halted]
    exact hc
  | dropped hp =>
    exact ⟨hc.halted, hc.unregistered, fun _ _ hl => absurd hl (ProcessTable.not_live_of_no_records rfl)⟩

/-- Whatever moves are made after the halt, as long as nothing is enrolled the tables stay empty and nothing is started. -/
theorem stopped_of_moves (hn : ¬powers .enrol) (h : Moves powers k k') (hs : k.Stopped) :
    k'.Stopped ∧ k'.world.starts = k.world.starts := by
  induction h with
  | refl => exact ⟨hs, rfl⟩
  | tail _ hm ih =>
    refine ⟨stopped_of_move hn hm ih.1, ?_⟩
    rcases starts_of_move hm with ⟨he, -⟩ | ⟨hp, -⟩
    · exact he.trans ih.2
    · exact absurd hp hn

/-- Whatever moves are made after the halt, as long as no file is worked on none is open. -/
theorem closed_of_moves (hn : ¬powers .files) (h : Moves powers k k') (hc : k.Closed) : k'.Closed := by
  induction h with
  | refl => exact hc
  | tail _ hm ih => exact closed_of_move hn hm ih

/-- When moves that enrol nothing halt the machine, nothing is left in its tables. -/
theorem halted_of_moves (hn : ¬powers .enrol) (h : Moves powers k k') : k'.halted = k.halted ∨ k'.Stopped := by
  induction h with
  | refl => exact .inl rfl
  | tail _ hm ih =>
    rcases ih with ih | hs
    · rcases halted_of_move hm with he | ⟨-, hs⟩
      · exact .inl (he.trans ih)
      · exact .inr hs
    · exact .inr (stopped_of_move hn hm hs)

/-- Without the power to halt the machine goes on. -/
theorem halted_eq_of_moves (hn : ¬powers .halt) (h : Moves powers k k') : k'.halted = k.halted := by
  induction h with
  | refl => rfl
  | tail _ hm ih =>
    rcases halted_of_move hm with he | ⟨hp, -⟩
    · exact he.trans ih
    · exact absurd hp hn

/-! ## Operations -/

/-- After the halt every call to the kernel finishes at once, and no more than ends a process. -/
theorem begin_halted (h : k.halted = true) (thread : ThreadId) {c : Call} (hc : c.isKernelCall = true) (hp : powers .finish)
    (hh : powers .halt) : ∃ outcome k', k.begin thread c = .finished outcome k' ∧ Moves powers k k' := by
  have hdispatch : ∀ pid number args trap,
      k.dispatch thread pid number args trap = .finished (.ofDisposition trap .halted) k := fun _ _ _ _ => if_pos h
  cases c with
  | boot program args => exact ⟨_, k, if_pos h, .refl⟩
  | systemCall pid number args => exact ⟨_, k, hdispatch pid number args none, .refl⟩
  | trap pid cause frame =>
    simp only [begin, takeTrap]
    split
    · exact ⟨_, k, hdispatch pid _ _ _, .refl⟩
    · exact ⟨_, _, rfl, (moves_note k _ rfl).trans (moves_exit _ pid _ hp hh)⟩
  | exit pid status => exact ⟨_, _, rfl, moves_exit k pid status hp hh⟩
  | halt pid => exact ⟨_, _, rfl, moves_halt k pid hh⟩
  | spawn parent program args => cases hc
  | join caller child => cases hc
  | endProcess pid status => cases hc
  | dropProcesses => cases hc

/-- After the halt no call works on a file. -/
theorem moves_begin_halted (h : k.halted = true) (thread : ThreadId) (c : Call) :
    Moves (· ≠ .files) k (k.begin thread c).kernel := by
  have hp : Power.finish ≠ .files ∧ Power.halt ≠ .files := ⟨nofun, nofun⟩
  cases hc : c.isKernelCall with
  | true =>
    have hb : ∃ outcome k', k.begin thread c = .finished outcome k' ∧ Moves (· ≠ .files) k k' :=
      begin_halted h thread hc hp.1 hp.2
    obtain ⟨outcome, k', he, hm⟩ := hb
    rw [he]
    exact hm
  | false =>
    cases c with
    | spawn parent program args => exact .refl
    | join caller child => exact moves_join k thread caller child .outcome (fun _ => nofun) fun _ _ _ => nofun
    | endProcess pid status => exact .single (.ended k pid status hp.1)
    | dropProcesses => exact .single (.dropped k nofun)
    | _ => cases hc

omit [Medium μ] [Console κ] in
/-- After the halt no program is made a child of a process, since none runs. -/
theorem enrol_stopped (hs : k.Stopped) (parent : Pid) (program : String) (image : ProgramImage) (slots : Nat) :
    k.processes.enrol (some parent) program image slots = .error .noSuchProcess := by
  have hr : k.processes.isRunning parent = false := by
    rw [ProcessTable.isRunning, hs.record?_eq_none]
    rfl
  unfold ProcessTable.enrol
  simp [hr]

/-- After the halt nothing that is answered makes a process, unless it is a boot. -/
theorem moves_resume_stopped (hs : k.Stopped) (s : Suspended) (a : s.Answer) (hb : s.isBoot = false)
    (hq : ∀ thread, powers (.sleep thread) ∧ powers .take) : Moves powers k (k.resume s a).kernel := by
  cases s with
  | starting pid use =>
    exact moves_resume k (.starting pid use) a (fun hl => absurd hl Bool.false_ne_true) fun thread _ => hq thread
  | sleeping thread caller child use =>
    exact moves_resume k (.sleeping thread caller child use) a (fun hl => absurd hl Bool.false_ne_true) fun thread _ => hq thread
  | loading parent program args use =>
    cases parent with
    | none => cases hb
    | some p =>
      cases a with
      | error cause =>
        simp only [resume, enrol, kernel_finishSpawn]
        exact moves_note k _ rfl
      | ok image =>
        simp only [resume, enrol, enrol_stopped hs, kernel_finishSpawn]
        exact .refl

end Kernel

namespace Machine

variable {μ κ : Type}

/-- A call to the kernel. -/
abbrev ToKernel (c : Call) : Prop := c.isKernelCall = true

variable [Medium μ] [Console κ] {m m' : Machine μ κ} {r : Machine μ κ × Option Outcome} {allowed : Call → Prop}

/-- A step that halts the machine leaves nothing in its tables. -/
theorem stopped_of_step_of_halted (h : Step allowed m r) (h0 : m.kernel.halted = false) (h1 : r.1.kernel.halted = true) :
    r.1.kernel.Stopped := by
  have hflip : r.1.kernel.halted ≠ m.kernel.halted := by
    rw [h0, h1]
    decide
  have hstop : Kernel.Moves (· ≠ .enrol) m.kernel r.1.kernel → r.1.kernel.Stopped := by
    intro hm
    rcases Kernel.halted_of_moves (fun hn => hn rfl) hm with he | hs
    · exact absurd he hflip
    · exact hs
  cases h with
  | call _ thread c hc =>
    refine hstop ?_
    rw [call, kernel_settle]
    exact Kernel.moves_begin _ thread c (by decide) (fun _ _ => by decide) (fun _ => by decide) (fun _ _ => by decide)
      fun _ _ => by simp
  | memory _ pid change => exact hstop (Kernel.moves_changeMemory _ pid change)
  | answer k before after s a =>
    rw [kernel_settle] at hflip hstop ⊢
    cases hl : s.isLoading with
    | false =>
      exact hstop (Kernel.moves_resume k s a (fun hs => absurd (hl.symm.trans hs) Bool.false_ne_true) fun _ _ => by simp)
    | true =>
      -- Whoever waited for the loader makes a process at most.
      have hm : Kernel.Moves Power.ofAnswers k (k.resume s a).kernel := 
        Kernel.moves_resume k s a (fun _ => .inl rfl) fun _ _ => ⟨.inr trivial, .inr trivial⟩
      exact absurd (Kernel.halted_eq_of_moves (by decide) hm) hflip

/-- No file is open after the halt, and none is after the next step. -/
theorem closed_of_step (h : Step allowed m r) (hc : m.kernel.Closed) : r.1.kernel.Closed := by
  cases h with
  | call _ thread c _ =>
    have hm : Kernel.Moves (· ≠ .files) m.kernel (m.kernel.begin thread c).kernel := Kernel.moves_begin_halted hc.halted thread c
    rw [call, kernel_settle]
    exact Kernel.closed_of_moves (fun hn => hn rfl) hm hc
  | answer k before after s a =>
    have hm : Kernel.Moves Power.ofAnswers k (k.resume s a).kernel := 
        Kernel.moves_resume k s a (fun _ => .inl rfl) fun _ _ => ⟨.inr trivial, .inr trivial⟩
    rw [kernel_settle]
    exact Kernel.closed_of_moves (by decide) hm hc
  | memory _ pid change =>
    have hm : Kernel.Moves (fun _ => False) m.kernel _ := Kernel.moves_changeMemory m.kernel pid change
    exact Kernel.closed_of_moves id hm hc

/-- Nothing is in the tables after the halt and no boot waits, and so it is after the next step, which starts nothing. -/
theorem stopped_of_step (h : Step ToKernel m r) (hs : m.kernel.Stopped) (hw : ∀ s ∈ m.waiting, s.isBoot = false) :
    r.1.kernel.Stopped ∧ r.1.kernel.world.starts = m.kernel.world.starts ∧ ∀ s ∈ r.1.waiting, s.isBoot = false := by
  cases h with
  | call _ thread c hk =>
    have hb : ∃ outcome k', m.kernel.begin thread c = .finished outcome k' ∧ Kernel.Moves Power.ofEnds m.kernel k' :=
      Kernel.begin_halted hs.halted thread hk (.inl rfl) (.inr rfl)
    obtain ⟨outcome, k', he, hm⟩ := hb
    obtain ⟨hs', hn⟩ := Kernel.stopped_of_moves (by decide) hm hs
    rw [call, he]
    exact ⟨hs', hn, hw⟩
  | answer k before after s a =>
    have hm : Kernel.Moves Power.ofJoins k (k.resume s a).kernel :=
      Kernel.moves_resume_stopped hs s a (hw s (List.mem_append_right _ List.mem_cons_self)) fun _ => ⟨trivial, trivial⟩
    obtain ⟨hs', hn⟩ := Kernel.stopped_of_moves (by decide) hm hs
    rw [kernel_settle, waiting_settle]
    refine ⟨hs', hn, ?_⟩
    intro other ho
    rcases List.mem_append.mp ho with ho | ho
    · exact Suspended.isBoot_eq_false (Kernel.not_isLoading_of_mem_waits k s a ho)
    · refine hw other ?_
      rcases List.mem_append.mp ho with ho | ho
      · exact List.mem_append_left _ ho
      · exact List.mem_append_right _ (List.mem_cons_of_mem _ ho)
  | memory _ pid change =>
    have hm : Kernel.Moves (fun _ => False) m.kernel _ := Kernel.moves_changeMemory m.kernel pid change
    obtain ⟨hs', hn⟩ := Kernel.stopped_of_moves id hm hs
    exact ⟨hs', hn, hw⟩

/-- No file is open in any machine that comes after. -/
theorem closed_of_leads (h : Leads allowed m m') (hc : m.kernel.Closed) : m'.kernel.Closed := by
  induction h with
  | refl => exact hc
  | step _ hs ih => exact closed_of_step hs ih

/-- Nothing is in the tables of any machine that comes after, as long as no boot waits, and nothing is ever started. -/
theorem stopped_of_leads (h : Leads ToKernel m m') (hs : m.kernel.Stopped) (hw : ∀ s ∈ m.waiting, s.isBoot = false) :
    m'.kernel.Stopped ∧ m'.kernel.world.starts = m.kernel.world.starts := by
  have hkeep : m'.kernel.Stopped ∧ m'.kernel.world.starts = m.kernel.world.starts ∧ ∀ s ∈ m'.waiting, s.isBoot = false := by
    induction h with
    | refl => exact ⟨hs, rfl, hw⟩
    | step _ hstep ih =>
      obtain ⟨hs', hn, hw'⟩ := stopped_of_step hstep ih.1 ih.2.2
      exact ⟨hs', hn.trans ih.2.1, hw'⟩
  exact ⟨hkeep.1, hkeep.2.1⟩

/-- A boot that waits for the loader can be answered, halted or not, and then a program is started. -/
theorem exists_started_of_isBoot {s : Suspended} (hm : s ∈ m.waiting) (hb : s.isBoot = true) :
    ∃ m', Leads ToKernel m m' ∧ m'.kernel.world.starts = m.kernel.world.starts + 1 := by
  obtain ⟨before, after, hw⟩ := List.append_of_mem hm
  cases s with
  | starting pid use => cases hb
  | sleeping thread caller child use => cases hb
  | loading parent program args use =>
    cases parent with
    | some p => cases hb
    | none =>
      have hstep : Step ToKernel ⟨m.kernel, before ++ .loading none program args use :: after⟩ _ :=
        .answer m.kernel before after (.loading none program args use) (.ok ⟨.blank 1, 0, .ofNat 0, 0, .ofNat 0⟩)
      rw [← hw] at hstep
      refine ⟨_, (Leads.refl m).step hstep, ?_⟩
      rw [kernel_settle]
      exact Kernel.starts_enrol_none m.kernel program use _

/-- From the step on that halts the machine, whatever waits then and is called later, it stays halted with no file open, neither
in the registry nor by a process. No process is left either, and none is ever started again, exactly if no boot waits for the
loader when the machine halts: one that does becomes a process afterwards. -/
theorem halt_final_iff (h : Step ToKernel m r) (h0 : m.kernel.halted = false) (h1 : r.1.kernel.halted = true) :
    (∀ m', Leads ToKernel r.1 m' → m'.kernel.halted = true ∧ m'.kernel.registry = .empty ∧
      ∀ pid process, m'.kernel.processes.live pid = .ok process → process.descriptors.files = []) ∧
    ((∀ m', Leads ToKernel r.1 m' → m'.kernel.processes.records = ∅ ∧ m'.kernel.processes.running = 0 ∧
        m'.kernel.registry = .empty ∧ m'.kernel.world.starts = r.1.kernel.world.starts) ↔
      ∀ s ∈ r.1.waiting, s.isBoot = false) := by
  have hstop : r.1.kernel.Stopped := stopped_of_step_of_halted h h0 h1
  refine ⟨?_, ?_, ?_⟩
  · intro m' hl
    have hc : m'.kernel.Closed := closed_of_leads hl hstop.closed
    exact ⟨hc.halted, hc.unregistered, hc.fileless⟩
  · intro hfinal s hm
    cases hb : s.isBoot with
    | false => rfl
    | true =>
      obtain ⟨m', hl, hstart⟩ := exists_started_of_isBoot hm hb
      have := (hfinal m' hl).2.2.2
      omega
  · intro hw m' hl
    obtain ⟨hs, hn⟩ := stopped_of_leads hl hstop hw
    exact ⟨hs.recordless, hs.idle, hs.unregistered, hn⟩

/-- While the loader loads a second program, the first one runs. -/
def bootUnderWay : List Turn := started (.boot "first" []) ++ [.call ⟨0⟩ (.boot "second" [])]

/-- When the first program halts the machine then, the halt is not final: the second is let in and started after it. -/
theorem bootUnderWay_not_final :
    let m := (start {} (RamDisk.empty none) Silent.mk).play bootUnderWay
    let halted := (m.call ⟨0⟩ (.halt ⟨1⟩)).1
    let after := halted.turn (.answer 0 (.loaded (ProgramImage.build (.blank 1) 0 [])))
    (halted.kernel.halted = true ∧ halted.kernel.processes.running = 0 ∧
      after.kernel.halted = true ∧ after.kernel.processes.running = 1) ∧
      ¬∀ m', Leads ToKernel halted m' → m'.kernel.processes.records = ∅ ∧ m'.kernel.processes.running = 0 ∧
        m'.kernel.registry = .empty ∧ m'.kernel.world.starts = halted.kernel.world.starts := by
  refine ⟨by decide, fun hfinal => ?_⟩
  have hboots := (halt_final_iff (.call _ ⟨0⟩ (.halt ⟨1⟩) rfl) (by decide) (by decide)).2.mp hfinal
  exact absurd hboots (by decide)

end Machine

end Nucleus
