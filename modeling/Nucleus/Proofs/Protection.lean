import Nucleus.Proofs.Pages
import Nucleus.Proofs.Results
import Nucleus.Proofs.Spawning

/-!
# Page protections bind every system call

A system call changes no byte of a page of its caller that cannot be written, and what cannot be read makes no difference to it:
after bytes of unreadable pages were exchanged the call comes to the same outcome, does the same to the outside, and leaves the same
kernel but for those bytes. Both are one statement about two runs of a call side by side (`Kernel.Twin`, `Progress.Alike`), which
every step keeps; the two runs may be the same.
-/

namespace Nucleus

/-! ## Two runs side by side -/

variable {μ κ : Type}

/-- Two kernels that are the same, but that a process which runs in both has one memory here and another there. -/
inductive Kernel.Twin (pid : Pid) (s s' : AddressSpace) : Kernel μ κ → Kernel μ κ → Prop where
  /-- The process, as it is here. -/
  | intro {k : Kernel μ κ} {process : Process} (hl : k.processes.live pid = .ok process) (hm : process.memory = s) :
      Twin pid s s' k (k.putLive pid { process with memory := s' })

/-- No process has been started since. -/
structure Kernel.SameNumbers (k₀ k : Kernel μ κ) : Prop where
  /-- The numbers given out. -/
  handedOut : k.world.handedOut = k₀.world.handedOut
  /-- The next one. -/
  next : k.processes.next = k₀.processes.next

/-- A process has been started under a number that was the next one, and was in use. -/
structure Kernel.Reuses (pid : Pid) (k₀ k : Kernel μ κ) : Prop where
  /-- The number. -/
  next : ⟨k₀.processes.next⟩ = pid
  /-- It was given out. -/
  handedOut : k.world.handedOut = k₀.world.handedOut ++ [pid]

/-- What two runs of a call have come to: the process has the memory that it had, with the same bytes stored in both, or it does not
run any more, or its number was handed out again. -/
inductive Kernel.Alike (pid : Pid) (s s' : AddressSpace) (k₀ : Kernel μ κ) : Kernel μ κ → Kernel μ κ → Prop where
  /-- It runs, and bytes may have been stored in a range that can be written. -/
  | owned {k k' : Kernel μ κ} (a : Address) (data : List UInt8) (hc : s.check a data.length .write = .ok ())
      (h : Kernel.Twin pid (s.stored a data) (s'.stored a data) k k') : Alike pid s s' k₀ k k'
  /-- It does not run. -/
  | gone {k : Kernel μ κ} (h : ∀ process, k.processes.live pid ≠ .ok process) : Alike pid s s' k₀ k k
  /-- Another process has its number. -/
  | replaced {k : Kernel μ κ} (h : k₀.Reuses pid k) : Alike pid s s' k₀ k k

/-- How far two runs of a call have come, which has finished in both or waits for the same in both. -/
inductive Progress.Alike (pid : Pid) (s s' : AddressSpace) (k₀ : Kernel μ κ) : Progress μ κ → Progress μ κ → Prop where
  /-- It has finished. -/
  | finished (outcome : Outcome) {k k' : Kernel μ κ} (h : Kernel.Alike pid s s' k₀ k k') :
      Alike pid s s' k₀ (.finished outcome k) (.finished outcome k')
  /-- It waits for the loader. -/
  | loading (program : String) (words : List String) (use : SpawnUse) {k k' : Kernel μ κ} (h : Kernel.Twin pid s s' k k')
      (h₀ : k₀.SameNumbers k) :
      Alike pid s s' k₀ (.suspended (.loading (some pid) program words use) k)
        (.suspended (.loading (some pid) program words use) k')
  /-- It waits for the scheduler. -/
  | starting (child : Pid) (use : SpawnUse) {k k' : Kernel μ κ} (h : Kernel.Alike pid s s' k₀ k k') :
      Alike pid s s' k₀ (.suspended (.starting child use) k) (.suspended (.starting child use) k')
  /-- It waits for a child. -/
  | sleeping (thread : ThreadId) (child : Pid) (target : Address) (trap : Option TrapFrame) {k k' : Kernel μ κ}
      (h : Kernel.Twin pid s s' k k') :
      Alike pid s s' k₀ (.suspended (.sleeping thread pid child (.systemCall target trap)) k)
        (.suspended (.sleeping thread pid child (.systemCall target trap)) k')

namespace Kernel

variable {pid : Pid} {s s' : AddressSpace} {k₀ k k' : Kernel μ κ}

open ProcessTable

theorem SameNumbers.note (h : k₀.SameNumbers k) (event : Notice) : k₀.SameNumbers (k.note event) :=
  ⟨(World.handedOut_note ..).trans h.handedOut, h.next⟩

namespace Twin

/-- Nothing but the records differs. -/
theorem frame (h : Twin pid s s' k k') : k' = { k with processes := { k.processes with records := k'.processes.records } } := by
  cases h with
  | @intro process hl hm =>
    rw [Kernel.putLive, putLive_eq]

theorem settings (h : Twin pid s s' k k') : k'.settings = k.settings := by rw [h.frame]

theorem registry (h : Twin pid s s' k k') : k'.registry = k.registry := by rw [h.frame]

theorem world (h : Twin pid s s' k k') : k'.world = k.world := by rw [h.frame]

theorem halted (h : Twin pid s s' k k') : k'.halted = k.halted := by rw [h.frame]

theorem waiting (h : Twin pid s s' k k') : k'.processes.waiting = k.processes.waiting := by rw [h.frame]

theorem root (h : Twin pid s s' k k') : k'.processes.root = k.processes.root := by rw [h.frame]

/-- The process here and there. -/
theorem live (h : Twin pid s s' k k') :
    ∃ process, process.memory = s ∧ k.processes.live pid = .ok process ∧
      k'.processes.live pid = .ok { process with memory := s' } := by
  cases h with
  | intro hl hm => exact ⟨_, hm, hl, live_putLive_self hl _⟩

/-- Files and the outside may become what they like, if they do so in both. -/
theorem withFiles (h : Twin pid s s' k k') (registry : Registry) (world : World μ κ) :
    Twin pid s s' (k.withFiles registry world) (k'.withFiles registry world) := by
  cases h with
  | intro hl hm => exact .intro (k := k.withFiles registry world) hl hm

theorem withWorld (h : Twin pid s s' k k') (world : World μ κ) : Twin pid s s' { k with world } { k' with world } := by
  cases h with
  | intro hl hm => exact .intro (k := { k with world }) hl hm

theorem note (h : Twin pid s s' k k') (event : Notice) : Twin pid s s' (k.note event) (k'.note event) := by
  cases h with
  | intro hl hm => exact .intro (k := k.note event) hl hm

/-- So may the queue. -/
theorem withQueue (h : Twin pid s s' k k') {waiting waiting' : WaitQueue} {world world' : World μ κ} (hq : waiting' = waiting)
    (hw : world' = world) :
    Twin pid s s' { k with processes := { k.processes with waiting }, world }
      { k' with processes := { k'.processes with waiting := waiting' }, world := world' } := by
  subst hq hw
  cases h with
  | intro hl hm =>
    unfold Kernel.putLive
    rw [putLive_waiting]
    exact .intro (k := { k with processes := { k.processes with waiting := waiting' }, world := world' }) hl hm

/-- Other belongings may be given to the process in both. -/
theorem putLive (h : Twin pid s s' k k') (process : Process) {memory : AddressSpace} :
    Twin pid process.memory memory (k.putLive pid process) (k'.putLive pid { process with memory }) := by
  cases h with
  | intro hl hm =>
    have hput : Twin pid process.memory memory (k.putLive pid process) _ := .intro (live_putLive_self hl process) rfl
    unfold Kernel.putLive at hput ⊢
    dsimp only at hput ⊢
    rw [putLive_putLive _ hl] at hput ⊢
    exact hput

/-- Nothing may have been stored. -/
theorem alike (h : Twin pid s s' k k') : Alike pid s s' k₀ k k' := by
  refine .owned ⟨0⟩ [] rfl ?_
  rwa [AddressSpace.stored_nil, AddressSpace.stored_nil]

end Twin

/-! ### What waits -/

/-- A call that ends with a result. -/
theorem Alike.answer (h : Alike pid s s' k₀ k k') (trap : Option TrapFrame) (result : Except KernelError Int64) :
    Progress.Alike pid s s' k₀ (k.answer trap result) (k'.answer trap result) :=
  .finished _ h

theorem Alike.finishSpawn (h : Alike pid s s' k₀ k k') (use : SpawnUse) (result : Except KernelError Pid) :
    Progress.Alike pid s s' k₀ (k.finishSpawn use result) (k'.finishSpawn use result) := by
  cases use <;> exact .finished _ h

/-- The loader's answer enrols the same child in both. -/
theorem Twin.enrol (h : Twin pid s s' k k') (h₀ : k₀.SameNumbers k) (program : String) (use : SpawnUse)
    (image : Except LoadError ProgramImage) :
    Progress.Alike pid s s' k₀ (k.enrol (some pid) program use image) (k'.enrol (some pid) program use image) := by
  cases image with
  | error cause => exact (h.note _).alike.finishSpawn use _
  | ok image =>
    cases h with
    | @intro process hl hm =>
      obtain ⟨t', he, ⟨hn, he'⟩ | ⟨hl', he'⟩⟩ := enrol_putLive { process with memory := s' } hl program image k.settings.slots
      · -- The child has taken the number of its parent.
        simp only [Kernel.enrol, Kernel.putLive, he, he', hn]
        refine .starting _ use (.replaced ⟨h₀.next ▸ hn, ?_⟩)
        rw [World.handedOut_started, World.handedOut_note, h₀.handedOut]
      · simp only [Kernel.enrol, Kernel.putLive, he, he']
        exact .starting _ use (Twin.intro (k := { k with processes := t', world := _ }) hl' hm).alike

/-- The same code is stored in both. -/
theorem Twin.finishJoin (h : Twin pid s s' k k') (hs : s.SameReadable s') (target : Address) (trap : Option TrapFrame)
    (result : Except KernelError ExitStatus) :
    Progress.Alike pid s s' k₀ (k.finishJoin pid (.systemCall target trap) result)
      (k'.finishJoin pid (.systemCall target trap) result) := by
  cases result with
  | error e => exact h.alike.answer trap _
  | ok status =>
    unfold Kernel.finishJoin
    dsimp only
    split
    · exact h.alike.answer trap _
    · obtain ⟨process, rfl, hl, hl'⟩ := h.live
      simp only [changeMemory, hl, hl', AddressSpace.writeWord, AddressSpace.copyOut, hs.check]
      cases hc : process.memory.check target (wordBytes status.code.toUInt32).length .write with
      | error e => exact h.alike.answer trap _
      | ok =>
        refine Alike.answer (.owned target (wordBytes status.code.toUInt32) hc ?_) trap _
        exact h.putLive { process with memory := process.memory.stored target _ }

/-- Asking for a child comes to the same in both. -/
theorem Twin.reap (h : Twin pid s s' k k') (child : Pid) :
    match k.processes.reap pid child with
    | .refused => k'.processes.reap pid child = .refused
    | .running => k'.processes.reap pid child = .running
    | .reaped status records => ∃ records', k'.processes.reap pid child = .reaped status records' ∧
        Twin pid s s' { k with processes := { k.processes with records } }
          { k' with processes := { k'.processes with records := records' } } := by
  cases h with
  | @intro process hl hm =>
    have he := reap_putLive { process with memory := s' } hl child
    cases hr : k.processes.reap pid child with
    | refused => exact he.trans (by rw [hr])
    | running => exact he.trans (by rw [hr])
    | reaped status records =>
      refine ⟨_, he.trans (by rw [hr]), ?_⟩
      have hput : Twin pid s s' { k with processes := { k.processes with records } } _ := .intro (live_reap_of_live hr hl) hm
      unfold Kernel.putLive at hput ⊢
      rw [putLive_eq] at hput
      rw [putLive_eq]
      exact hput

/-- So does the wait for one. -/
theorem Twin.join (h : Twin pid s s' k k') (hs : s.SameReadable s') (thread : ThreadId) (child : Pid) (target : Address)
    (trap : Option TrapFrame) :
    Progress.Alike pid s s' k₀ (k.join thread pid child (.systemCall target trap))
      (k'.join thread pid child (.systemCall target trap)) := by
  have hreap := h.reap child
  unfold Kernel.join
  cases hr : k.processes.reap pid child with
  | refused =>
    rw [hr] at hreap
    rw [hreap]
    exact h.finishJoin hs target trap _
  | running =>
    rw [hr] at hreap
    rw [hreap]
    exact .sleeping thread child target trap (h.withQueue (by rw [h.waiting]) (by rw [h.world]))
  | reaped status records =>
    rw [hr] at hreap
    obtain ⟨records', hr', htaken⟩ := hreap
    rw [hr']
    exact (htaken.note _).finishJoin hs target trap _

/-- What waits goes on in the same way in both. -/
theorem alike_onward (hs : s.SameReadable s') {p p' : Progress μ κ} (h : p.Alike pid s s' k₀ p')
    (image : Except LoadError ProgramImage) : (p.onward image).Alike pid s s' k₀ (p'.onward image) := by
  cases h with
  | finished outcome h => exact .finished outcome h
  | loading program words use h h₀ => exact h.enrol h₀ program use image
  | starting child use h => exact h.finishSpawn use _
  | sleeping thread child target trap h => exact (h.withQueue (by rw [h.waiting]) h.world).join hs thread child target trap

/-- What waits comes as far in both, however often it is answered. -/
theorem alike_after (hs : s.SameReadable s') {p p' : Progress μ κ} (h : p.Alike pid s s' k₀ p')
    (image : Except LoadError ProgramImage) (n : Nat) : (p.after image n).Alike pid s s' k₀ (p'.after image n) := by
  induction n with
  | zero => exact h
  | succ n ih => exact alike_onward hs ih image

/-! ### What a caller passes -/

/-- The same name is read in both. -/
theorem Twin.nameArgument (h : Twin pid s s' k k') (hs : s.SameReadable s') (word : UInt64) :
    k'.nameArgument pid word = (k.nameArgument pid word).map fun found => ({ found.1 with memory := s' }, found.2) := by
  obtain ⟨process, rfl, hl, hl'⟩ := h.live
  unfold Kernel.nameArgument
  rw [hl, hl']
  dsimp only
  rw [hs.readText]
  cases process.memory.readText ⟨word⟩ maxTextLength <;> rfl

/-- A name that was read, and the memory of who passed it. -/
theorem Twin.memory_of_nameArgument (h : Twin pid s s' k k') {word : UInt64} {process : Process} {name : String}
    (hn : k.nameArgument pid word = .ok (process, name)) : process.memory = s := by
  obtain ⟨owned, hm, hl, -⟩ := h.live
  cases hl.symm.trans (live_of_nameArgument hn)
  exact hm

/-- The same program and arguments are read in both. -/
theorem Twin.execArguments (h : Twin pid s s' k k') (hs : s.SameReadable s') (args : Arguments) :
    k'.execArguments pid args = k.execArguments pid args := by
  unfold Kernel.execArguments
  rw [h.nameArgument hs]
  cases hn : k.nameArgument pid args.a0 with
  | error e => rfl
  | ok found =>
    obtain rfl := h.memory_of_nameArgument hn
    simp only [Except.map, hs.programArguments]

/-- The same child is asked for in both. -/
theorem Twin.joinArguments (h : Twin pid s s' k k') (hs : s.SameReadable s') (args : Arguments) :
    k'.joinArguments pid args = k.joinArguments pid args := by
  obtain ⟨process, rfl, hl, hl'⟩ := h.live
  unfold Kernel.joinArguments
  simp only [hl, hl', hs.check]

/-! ### The calls -/

/-- Two runs of a call that finishes at once: the same result, and kernels that are alike. -/
structure AlikeResult (pid : Pid) (s s' : AddressSpace) (k₀ : Kernel μ κ) {α : Type} (found found' : α × Kernel μ κ) : Prop where
  /-- The result. -/
  result : found'.1 = found.1
  /-- The kernel. -/
  kernel : Alike pid s s' k₀ found.2 found'.2

/-- A call that fails before anything was touched. -/
theorem Twin.refused (h : Twin pid s s' k k') {α : Type} (a : α) : AlikeResult pid s s' k₀ (a, k) (a, k') := ⟨rfl, h.alike⟩

/-- A call that returns a result. -/
theorem AlikeResult.reply {found found' : Except KernelError Int64 × Kernel μ κ} (h : AlikeResult pid s s' k₀ found found')
    (trap : Option TrapFrame) : Progress.Alike pid s s' k₀ (reply trap found) (reply trap found') := by
  unfold Kernel.reply
  rw [h.result]
  exact h.kernel.answer trap _

theorem Twin.sysExec (h : Twin pid s s' k k') (hs : s.SameReadable s') (h₀ : k₀.SameNumbers k) (args : Arguments)
    (trap : Option TrapFrame) : Progress.Alike pid s s' k₀ (k.sysExec pid args trap) (k'.sysExec pid args trap) := by
  unfold Kernel.sysExec
  rw [h.execArguments hs]
  cases k.execArguments pid args with
  | error e => exact h.alike.answer trap _
  | ok found => exact .loading _ _ _ (h.note _) (h₀.note _)

theorem Twin.sysJoin (h : Twin pid s s' k k') (hs : s.SameReadable s') (thread : ThreadId) (args : Arguments)
    (trap : Option TrapFrame) :
    Progress.Alike pid s s' k₀ (k.sysJoin thread pid args trap) (k'.sysJoin thread pid args trap) := by
  unfold Kernel.sysJoin
  rw [h.joinArguments hs]
  cases k.joinArguments pid args with
  | error e => exact h.alike.answer trap _
  | ok child => exact h.join hs thread child _ trap

/-- After a halt nobody runs, nor does who did not run before. -/
theorem not_live_shutDown (h : k.halted = false ∨ ∀ process, k.processes.live pid ≠ .ok process) (process : Process) :
    k.shutDown.processes.live pid ≠ .ok process := by
  rw [processes_shutDown]
  split
  · rename_i h1
    rcases h with h0 | hgone
    · exact absurd (h0.symm.trans h1) Bool.false_ne_true
    · exact hgone process
  · exact not_live_of_no_records rfl

/-- All processes are dropped in both. -/
theorem Twin.shutDown (h : Twin pid s s' k k') (hk : k.halted = false) : k'.shutDown = k.shutDown := by
  cases h with
  | intro hl hm =>
    simp only [Kernel.shutDown, dropProcesses, Kernel.putLive, hk, clear_putLive, waiting_putLive, Bool.false_eq_true, if_false]

/-- A halt is refused in both, or drops all processes in both. -/
theorem Twin.sysHalt (h : Twin pid s s' k k') (hk : k.halted = false) :
    AlikeResult pid s s' k₀ (k.sysHalt pid) (k'.sysHalt pid) := by
  obtain ⟨process, hm, hl, hl'⟩ := h.live
  unfold Kernel.sysHalt Kernel.halt
  simp only [hl, hl', h.settings, h.root]
  by_cases hroot : k.settings.haltPolicy = .rootOnly ∧ k.processes.root ≠ some pid
  · simp only [if_pos hroot]
    exact ((h.note _).note _).refused _
  · simp only [if_neg hroot, (h.note _).shutDown hk]
    exact ⟨rfl, .gone (not_live_shutDown (.inl hk))⟩

section Files

variable [Medium μ]

/-- A process ends in the same way in both. -/
theorem Twin.endProcess (h : Twin pid s s' k k') (status : ExitStatus) : k'.endProcess pid status = k.endProcess pid status := by
  cases h with
  | @intro process hl hm =>
    obtain ⟨record, hr, hlife, he⟩ := putLive_of_live { process with memory := s' } hl
    have hr' : (k.processes.putLive pid { process with memory := s' }).record? pid =
        some { record with life := .running { process with memory := s' } } := by
      rw [record?_putLive, if_pos rfl, hr, Option.map_some]
    simp only [Kernel.endProcess, ProcessTable.exit, Kernel.putLive, hr, hr', Record.process?, hlife, Descriptors.closeAll,
      retire_putLive _ hr, forsaken_putLive _ hl, waiting_putLive]

/-- Who ends does not run after that. -/
theorem not_live_exit {owned : Process} (hl : k.processes.live pid = .ok owned) (status : ExitStatus) (process : Process) :
    (k.exit pid status).2.processes.live pid ≠ .ok process := by
  obtain ⟨record, hr, hp⟩ := live_eq_ok_iff.mp hl
  have hgone : ∀ process, (k.endProcess pid status).2.processes.live pid ≠ .ok process := by
    intro process
    rw [endProcess_of_running hr hp status]
    exact not_live_retire k.processes pid record status
  unfold Kernel.exit
  split
  · rename_i report k₁ he
    rw [he] at hgone
    split
    · exact not_live_shutDown (k := k₁.note .idle) (.inr hgone) process
    · exact hgone process
  · rename_i e k₁ he
    rw [he] at hgone
    exact hgone process

/-- So the call that ends it comes to the same. -/
theorem Twin.exit (h : Twin pid s s' k k') (status : ExitStatus) :
    AlikeResult pid s s' k₀ (k.exit pid status) (k'.exit pid status) := by
  have he : k'.exit pid status = k.exit pid status := by
    unfold Kernel.exit
    rw [h.endProcess]
  obtain ⟨process, -, hl, -⟩ := h.live
  rw [he]
  exact ⟨rfl, .gone (not_live_exit hl status)⟩

theorem Twin.sysOpen (h : Twin pid s s' k k') (hs : s.SameReadable s') (args : Arguments) (mode : OpenMode) :
    AlikeResult pid s s' k₀ (k.sysOpen pid args mode) (k'.sysOpen pid args mode) := by
  unfold Kernel.sysOpen
  rw [h.nameArgument hs]
  cases hn : k.nameArgument pid args.a0 with
  | error e => exact h.refused _
  | ok found =>
    obtain ⟨process, name⟩ := found
    obtain rfl := h.memory_of_nameArgument hn
    simp only [Except.map, h.registry, h.world]
    obtain ⟨result, registry, world⟩ := process.descriptors.openFile k.registry k.world name mode
    have hf := h.withFiles registry world
    cases result with
    | error e => exact hf.refused _
    | ok opened => exact ⟨rfl, (hf.putLive { process with descriptors := opened.2 }).alike⟩

theorem Twin.sysClose (h : Twin pid s s' k k') (args : Arguments) :
    AlikeResult pid s s' k₀ (k.sysClose pid args) (k'.sysClose pid args) := by
  obtain ⟨process, rfl, hl, hl'⟩ := h.live
  unfold Kernel.sysClose
  simp only [hl, hl', h.registry, h.world]
  cases Fd.argument args.a0 with
  | error e => exact h.refused _
  | ok fd =>
    dsimp only
    obtain ⟨result, registry, world⟩ := process.descriptors.close k.registry k.world fd
    have hf := h.withFiles registry world
    cases result with
    | error e => exact hf.refused _
    | ok descriptors => exact ⟨rfl, (hf.putLive { process with descriptors }).alike⟩

theorem Twin.sysUnlink (h : Twin pid s s' k k') (hs : s.SameReadable s') (args : Arguments) :
    AlikeResult pid s s' k₀ (k.sysUnlink pid args) (k'.sysUnlink pid args) := by
  unfold Kernel.sysUnlink
  rw [h.nameArgument hs]
  cases k.nameArgument pid args.a0 with
  | error e => exact h.refused _
  | ok found =>
    simp only [Except.map, h.registry, h.world]
    obtain ⟨result, registry, world⟩ := k.registry.unlink k.world found.2
    cases result <;> exact (h.withFiles registry world).refused _

variable [Console κ]

theorem Twin.sysRead (h : Twin pid s s' k k') (hs : s.SameReadable s') (args : Arguments) :
    AlikeResult pid s s' k₀ (k.sysRead pid args) (k'.sysRead pid args) := by
  obtain ⟨process, rfl, hl, hl'⟩ := h.live
  unfold Kernel.sysRead Kernel.readArguments
  simp only [hl, hl', hs.check, h.world]
  cases process.memory.check ⟨args.a1⟩ args.a2.toNat .write with
  | error e => exact h.refused _
  | ok =>
    dsimp only
    cases Fd.argument args.a0 with
    | error e => exact h.refused _
    | ok fd =>
      simp only [Descriptors.readWith, AddressSpace.copyOut, hs.check]
      obtain ⟨fetched, world⟩ := process.descriptors.fetch k.world fd args.a2.toNat
      cases fetched with
      | error e => exact (h.withWorld world).refused _
      | ok found =>
        obtain ⟨d, bytes⟩ := found
        dsimp only
        cases hc : process.memory.check ⟨args.a1⟩ bytes.length .write with
        | error e => exact (h.withWorld world).refused _
        | ok =>
          refine ⟨rfl, .owned ⟨args.a1⟩ bytes hc ?_⟩
          exact (h.withWorld _).putLive
            { process with
              memory := process.memory.stored ⟨args.a1⟩ bytes
              descriptors := process.descriptors.advance fd d bytes.length }

theorem Twin.sysWrite (h : Twin pid s s' k k') (hs : s.SameReadable s') (args : Arguments) :
    AlikeResult pid s s' k₀ (k.sysWrite pid args) (k'.sysWrite pid args) := by
  obtain ⟨process, rfl, hl, hl'⟩ := h.live
  unfold Kernel.sysWrite Kernel.writeArguments
  simp only [hl, hl', hs.copyIn, h.world]
  cases process.memory.copyIn ⟨args.a1⟩ args.a2.toNat with
  | error e => exact h.refused _
  | ok data =>
    dsimp only
    cases Fd.argument args.a0 with
    | error e => exact h.refused _
    | ok fd =>
      dsimp only
      obtain ⟨written, world⟩ := process.descriptors.write k.world fd data
      cases written with
      | error e => exact (h.withWorld world).refused _
      | ok counted => exact ⟨rfl, ((h.withWorld world).putLive { process with descriptors := counted.2 }).alike⟩

/-- A system call comes as far in both. -/
theorem Twin.perform (h : Twin pid s s' k k') (hs : s.SameReadable s') (hk : k.halted = false) (h₀ : k₀.SameNumbers k)
    (thread : ThreadId) (args : Arguments) (trap : Option TrapFrame) (call : SystemCall) :
    Progress.Alike pid s s' k₀ (k.perform thread pid args trap call) (k'.perform thread pid args trap call) := by
  cases call with
  | halt =>
    have hr : AlikeResult pid s s' k₀ (k.sysHalt pid) (k'.sysHalt pid) := h.sysHalt hk
    unfold Kernel.perform
    rw [hr.result]
    exact .finished _ hr.kernel
  | exit =>
    have hr : AlikeResult pid s s' k₀ (k.exit pid (.normal args.a0.toUInt32.toInt32)) _ := h.exit _
    unfold Kernel.perform
    dsimp only
    rw [hr.result]
    exact .finished _ hr.kernel
  | exec => exact h.sysExec hs h₀ args trap
  | join => exact h.sysJoin hs thread args trap
  | creat => exact (h.sysOpen hs args .fresh).reply trap
  | openFile => exact (h.sysOpen hs args .plain).reply trap
  | read => exact (h.sysRead hs args).reply trap
  | write => exact (h.sysWrite hs args).reply trap
  | close => exact (h.sysClose args).reply trap
  | unlink => exact (h.sysUnlink hs args).reply trap

theorem Twin.dispatch (h : Twin pid s s' k k') (hs : s.SameReadable s') (h₀ : k₀.SameNumbers k) (thread : ThreadId)
    (number : UInt64) (args : Arguments) (trap : Option TrapFrame) :
    Progress.Alike pid s s' k₀ (k.dispatch thread pid number args trap) (k'.dispatch thread pid number args trap) := by
  unfold Kernel.dispatch
  rw [h.halted]
  split
  · exact .finished _ h.alike
  · rename_i hk
    have hn := h.note (.syscall pid number args.toList)
    cases SystemCall.ofWord? number with
    | none => exact (hn.note _).alike.answer trap _
    | some call => exact hn.perform hs ((Bool.not_eq_true _).mp hk) (h₀.note _) thread args trap call

end Files

end Kernel

/-! ## The law -/

/-- The outcome of an operation, if it has finished. -/
def Progress.outcome? : Progress μ κ → Option Outcome
  | .finished outcome _ => some outcome
  | .suspended .. => none

/-- A call comes to the same in two runs that begin with one memory of its process or the other. -/
structure Progress.Agrees (pid : Pid) (s s' : AddressSpace) (p p' : Progress μ κ) : Prop where
  /-- The outcome is the same, if there is one. -/
  outcome : p'.outcome? = p.outcome?
  /-- What is waited for is the same: the loader has been asked for the same program with the same arguments. -/
  waits : p'.waits = p.waits
  /-- The kernels are the same, with all that was done to the outside. At most the process has different memories: those that it had,
  with the same bytes stored in both, which look the same again. -/
  kernel : p'.kernel = p.kernel ∨
    ∃ process a data, p.kernel.processes.live pid = .ok process ∧ process.memory = s.stored a data ∧
      process.memory.SameReadable (s'.stored a data) ∧ p'.kernel = p.kernel.putLive pid { process with memory := s'.stored a data }

namespace Kernel

variable {pid : Pid} {s s' : AddressSpace} {k₀ k k' : Kernel μ κ}

theorem Alike.kernel_eq (h : Alike pid s s' k₀ k k') (hs : s.SameReadable s') :
    k' = k ∨ ∃ process a data, k.processes.live pid = .ok process ∧ process.memory = s.stored a data ∧
      process.memory.SameReadable (s'.stored a data) ∧ k' = k.putLive pid { process with memory := s'.stored a data } := by
  cases h with
  | owned a data hc h =>
    cases h with
    | intro hl hm => exact .inr ⟨_, a, data, hl, hm, hm ▸ hs.stored a data, rfl⟩
  | gone h => exact .inl rfl
  | replaced h => exact .inl rfl

/-- What has come as far in both runs has come to the same. -/
theorem agrees_of_alike (hs : s.SameReadable s') {p p' : Progress μ κ} (h : p.Alike pid s s' k₀ p') : p.Agrees pid s s' p' := by
  cases h with
  | finished outcome h => exact ⟨rfl, rfl, h.kernel_eq hs⟩
  | loading program words use h h₀ => exact ⟨rfl, rfl, (h.alike : Alike pid s s' k₀ _ _).kernel_eq hs⟩
  | starting child use h => exact ⟨rfl, rfl, h.kernel_eq hs⟩
  | sleeping thread child target trap h => exact ⟨rfl, rfl, (h.alike : Alike pid s s' k₀ _ _).kernel_eq hs⟩

theorem Alike.keeps (h : Alike pid s s' k₀ k k') {process : Process} (hl : k.processes.live pid = .ok process) :
    s.Keeps process.memory ∨ k₀.Reuses pid k := by
  cases h with
  | owned a data hc h =>
    obtain ⟨process', hm, hl', -⟩ := h.live
    cases hl.symm.trans hl'
    rw [hm]
    exact .inl (AddressSpace.keeps_stored hc)
  | gone h => exact absurd hl (h process)
  | replaced h => exact .inr h

/-- Wherever the call has come, pages that cannot be written are as they were. -/
theorem keeps_of_alike {p p' : Progress μ κ} (h : p.Alike pid s s' k₀ p') {process : Process}
    (hl : p.kernel.processes.live pid = .ok process) : s.Keeps process.memory ∨ k₀.Reuses pid p.kernel := by
  cases h with
  | finished outcome h => exact h.keeps hl
  | loading program words use h h₀ => exact h.alike.keeps hl
  | starting child use h => exact h.keeps hl
  | sleeping thread child target trap h => exact h.alike.keeps hl

variable [Medium μ] [Console κ]

/-- A system call comes as far, however often it is answered, with one memory of its caller as with another that looks the same. -/
theorem alike_dispatch {process : Process} (hl : k.processes.live pid = .ok process) {memory : AddressSpace}
    (hs : process.memory.SameReadable memory) (thread : ThreadId) (number : UInt64) (args : Arguments) (trap : Option TrapFrame)
    (image : Except LoadError ProgramImage) (n : Nat) :
    ((k.dispatch thread pid number args trap).after image n).Alike pid process.memory memory k
      (((k.putLive pid { process with memory }).dispatch thread pid number args trap).after image n) :=
  alike_after hs ((Twin.intro hl rfl).dispatch hs ⟨rfl, rfl⟩ thread number args trap) image n

end Kernel

namespace Machine

variable [Medium μ] [Console κ] {settings : Settings} {m : Machine μ κ} {pid : Pid} {process : Process}

/-- A system call, however far it has come when nothing else happens meanwhile, has changed no page of its caller that cannot be
written; only if the numbers were exhausted the caller may have been replaced by a child under its own number. And where the call
has come does not depend on the bytes of pages that cannot be read. -/
theorem protections_bind (h : Reached (fun _ => True) settings m) (hl : m.kernel.processes.live pid = .ok process)
    (thread : ThreadId) (number : UInt64) (args : Arguments) (trap : Option TrapFrame) (image : Except LoadError ProgramImage)
    (n : Nat) :
    let p := (m.kernel.dispatch thread pid number args trap).after image n
    (∀ process', p.kernel.processes.live pid = .ok process' →
      process.memory.Keeps process'.memory ∨ UInt32.size - 1 ≤ m.kernel.world.starts ∧ m.kernel.Reuses pid p.kernel) ∧
    ∀ memory, process.memory.SameReadable memory →
      p.Agrees pid process.memory memory
        (((m.kernel.putLive pid { process with memory }).dispatch thread pid number args trap).after image n) := by
  intro p
  refine ⟨fun process' hl' => ?_, fun memory hs => ?_⟩
  · refine (Kernel.keeps_of_alike (Kernel.alike_dispatch hl (.refl _) thread number args trap image n) hl').imp_right fun hr => ?_
    refine ⟨?_, hr⟩
    -- As long as there are numbers left the next one is free, but the caller has a record.
    by_contra hs
    obtain ⟨record, hrecord, -⟩ := ProcessTable.live_eq_ok_iff.mp hl
    have hfree := (h.orderly (Nat.lt_of_not_le hs)).1.free
    rw [hr.next, hrecord] at hfree
    cases hfree
  · exact Kernel.agrees_of_alike hs (Kernel.alike_dispatch hl hs thread number args trap image n)

/-- The calls that start a program in two pages, the second of which loses the right to be read. -/
def secretive : List Turn :=
  [.call ⟨0⟩ (.boot "init" []), .answer 0 (.loaded (ProgramImage.build (.blank 2) 0 [])), .answer 0 .goOn,
    .memory ⟨1⟩ (·.setRights 1 .write)]

/-- The machine after them; something has been typed. -/
def guarded : Machine RamDisk Terminal := (start {} (RamDisk.empty none) ⟨[1, 2, 3, 4]⟩).play secretive

/-- The program reads four bytes across the border of its pages. A seven in the second page makes no difference to that. -/
theorem guarded_bound :
    let p := guarded.kernel.dispatch ⟨0⟩ ⟨1⟩ 6 ⟨0, 1022, 4, 0⟩ none
    ∃ process memory process', guarded.kernel.processes.live ⟨1⟩ = .ok process ∧ process.memory.SameReadable memory ∧
      process.memory.pages.map (·.slice 6 1) = [[0], [0]] ∧ memory.pages.map (·.slice 6 1) = [[0], [7]] ∧
      p.kernel.processes.live ⟨1⟩ = .ok process' ∧ process.memory.Keeps process'.memory ∧
      process'.memory.pages.map (·.slice 0 2) = [[0, 0], [3, 4]] ∧
      p.Agrees ⟨1⟩ process.memory memory
        ((guarded.kernel.putLive ⟨1⟩ { process with memory }).dispatch ⟨0⟩ ⟨1⟩ 6 ⟨0, 1022, 4, 0⟩ none) := by
  have hm : Reached (fun _ => True) {} guarded :=
    reached_play {} (RamDisk.empty none) (Terminal.mk [1, 2, 3, 4]) secretive (by decide)
  obtain ⟨process, hl, hmemory⟩ : ∃ process, guarded.kernel.processes.live ⟨1⟩ = .ok process ∧
      process.memory = ⟨[.blank, Page.blank.withRights .write]⟩ := ⟨_, rfl, rfl⟩
  have hs : process.memory.SameReadable ⟨[.blank, (Page.blank.withRights .write).store 6 [7]]⟩ := by
    rw [hmemory]
    exact .cons (.refl _) (.cons ⟨rfl, fun hr => absurd hr (by decide)⟩ .nil)
  obtain ⟨process', hl', hread⟩ : ∃ process',
      (guarded.kernel.dispatch ⟨0⟩ ⟨1⟩ 6 ⟨0, 1022, 4, 0⟩ none).kernel.processes.live ⟨1⟩ = .ok process' ∧
        process'.memory.pages.map (·.slice 0 2) = [[0, 0], [3, 4]] := ⟨_, rfl, rfl⟩
  obtain ⟨hkeeps, hagrees⟩ := protections_bind hm hl ⟨0⟩ 6 ⟨0, 1022, 4, 0⟩ none (.error .notFound) 0
  refine ⟨process, _, process', hl, hs, by rw [hmemory]; rfl, rfl, hl', ?_, hread, hagrees _ hs⟩
  exact (hkeeps process' hl').resolve_right fun hexhausted => absurd hexhausted.1 (by decide)

end Machine

end Nucleus
