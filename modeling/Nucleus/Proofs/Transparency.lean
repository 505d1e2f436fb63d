import Nucleus.Proofs.Wakeups
import Nucleus.Proofs.Forest

/-!
# Blocking in a join is transparent

A join that finds its child running sleeps, and looks at the table anew when its thread goes on; nothing that it saw before it
slept is kept. So it makes no difference whether a join begins before other work and sleeps through it, or begins after it. The
kernel of a run in which the join sleeps and that of a run in which it has not yet begun differ in nothing but that the thread
stands in the queue, and in what was reported (`Kernel.SameBut`). Every operation on the process table that does not pass this
thread through the queue keeps that, with the same outcome, and the answer to the join makes up for the difference.
-/

namespace Nucleus

/-! ## Worlds in which other things were reported -/

/-- Two worlds have the same medium and the same console, and as many files were opened in both. -/
structure World.Alike {μ κ : Type} (w w' : World μ κ) : Prop where
  /-- The medium. -/
  medium : w'.medium = w.medium
  /-- The console. -/
  console : w'.console = w.console
  /-- How many files were opened. -/
  opened : w'.opened = w.opened

namespace World.Alike

variable {μ κ : Type} {w w' : World μ κ}

/-- Whatever is done to the outside in each. -/
theorem emit (h : w.Alike w') (effect effect' : Effect) : (w.emit effect).Alike (w'.emit effect') :=
  ⟨h.medium, h.console, h.opened⟩

theorem noteAll (h : w.Alike w') (events events' : List Notice) : (w.noteAll events).Alike (w'.noteAll events') := by
  rw [noteAll_eq, noteAll_eq]
  exact ⟨h.medium, h.console, h.opened⟩

theorem unblockAll (h : w.Alike w') (threads threads' : List ThreadId) :
    (w.unblockAll threads).Alike (w'.unblockAll threads') := by
  rw [unblockAll_eq, unblockAll_eq]
  exact ⟨h.medium, h.console, h.opened⟩

variable [Medium μ]

/-- The medium takes a name off in both, or in neither. -/
theorem remove (h : w.Alike w') (name : String) :
    (w'.remove name).1 = (w.remove name).1 ∧ (w.remove name).2.Alike (w'.remove name).2 := by
  unfold World.remove
  rw [h.medium]
  cases Medium.remove w.medium name with
  | mk result medium => cases result <;> exact ⟨rfl, rfl, h.console, h.opened⟩

theorem deleteClosed (h : w.Alike w') (name : String) :
    (Registry.deleteClosed w name).Alike (Registry.deleteClosed w' name) := by
  obtain ⟨he, ha⟩ := h.remove name
  unfold Registry.deleteClosed
  cases hr : w.remove name with
  | mk result w1 =>
    cases hr' : w'.remove name with
    | mk result' w1' =>
      rw [hr, hr'] at he ha
      cases he
      cases result <;> exact ha.emit _ _

theorem release (h : w.Alike w') (r : Registry) (file : OpenFile) :
    (r.release w' file).1 = (r.release w file).1 ∧ (r.release w file).2.Alike (r.release w' file).2 := by
  unfold Registry.release
  cases r.find? file.name with
  | none => exact ⟨rfl, h.emit _ _⟩
  | some entry =>
    dsimp only
    split
    · exact ⟨rfl, h.emit _ _⟩
    · split
      · exact ⟨rfl, h.emit _ _⟩
      · refine ⟨rfl, ?_⟩
        cases entry.pending with
        | false => exact h.emit _ _
        | true => exact (h.emit _ _).deleteClosed file.name

/-- References are given back in both alike. -/
theorem releaseAll (h : w.Alike w') (r : Registry) (files : List OpenFile) :
    (Descriptors.releaseAll r w' files).1 = (Descriptors.releaseAll r w files).1 ∧
      (Descriptors.releaseAll r w files).2.Alike (Descriptors.releaseAll r w' files).2 := by
  induction files generalizing r w w' with
  | nil => exact ⟨rfl, h⟩
  | cons file rest ih =>
    obtain ⟨hr, hw⟩ := h.release r file
    simp only [Descriptors.releaseAll, List.foldl_cons] at ih ⊢
    rw [show r.release w' file = ((r.release w file).1, (r.release w' file).2) from Prod.ext hr rfl]
    exact ih hw (r.release w file).1

end World.Alike

/-! ## A table without a thread in its queue -/

namespace WaitQueue

theorem leave_leave (q : WaitQueue) (thread other : ThreadId) : (q.leave thread).leave other = (q.leave other).leave thread := by
  unfold leave
  rw [List.filter_comm]

/-- It does not matter whether a thread leaves before or after another enters. -/
theorem leave_enter_of_ne (q : WaitQueue) {thread other : ThreadId} (h : other ≠ thread) :
    (q.enter other).leave thread = (q.leave thread).enter other := by
  simp [leave, enter, h]

end WaitQueue

namespace ProcessTable

/-- The table when a thread has left the queue. -/
def without (t : ProcessTable) (thread : ThreadId) : ProcessTable := { t with waiting := t.waiting.leave thread }

variable (t : ProcessTable) (thread : ThreadId)

theorem putLive_without (pid : Pid) (process : Process) :
    (t.without thread).putLive pid process = (t.putLive pid process).without thread := by
  unfold putLive
  rw [show (t.without thread).record? pid = t.record? pid from rfl]
  cases t.record? pid <;> rfl

theorem enrol_without (parent : Option Pid) (program : String) (image : ProgramImage) (slots : Nat) :
    (t.without thread).enrol parent program image slots =
      (t.enrol parent program image slots).map fun created => (created.1, created.2.without thread) := by
  unfold enrol
  rw [show (t.without thread).isRunning = t.isRunning from rfl]
  split <;> rfl

end ProcessTable

/-! ## Kernels that differ in one sleeping thread -/

/-- A kernel is as another, but that a thread has left the queue, and that other things were done to the outside. -/
inductive Kernel.SameBut {μ κ : Type} (thread : ThreadId) (k : Kernel μ κ) : Kernel μ κ → Prop where
  /-- In a world like the other's. -/
  | intro (world : World μ κ) (h : k.world.Alike world) :
      SameBut thread k { k with processes := k.processes.without thread, world }

/-- An operation has come as far in both kernels, with the same outcome if it has finished. -/
inductive Progress.SameBut {μ κ : Type} (thread : ThreadId) : Progress μ κ → Progress μ κ → Prop where
  /-- It has finished in both. -/
  | finished (outcome : Outcome) {k k' : Kernel μ κ} (h : k.SameBut thread k') :
      SameBut thread (.finished outcome k) (.finished outcome k')
  /-- It waits in both. -/
  | suspended (s : Suspended) {k k' : Kernel μ κ} (h : k.SameBut thread k') :
      SameBut thread (.suspended s k) (.suspended s k')

namespace Kernel.SameBut

variable {μ κ : Type} {thread : ThreadId} {k k' : Kernel μ κ}

theorem emit (h : k.SameBut thread k') (effect effect' : Effect) :
    SameBut thread { k with world := k.world.emit effect } { k' with world := k'.world.emit effect' } := by
  cases h with
  | intro world hw => exact .intro _ (hw.emit effect effect')

theorem live (h : k.SameBut thread k') (pid : Pid) : k'.processes.live pid = k.processes.live pid := by
  cases h with
  | intro world hw => rfl

theorem reap (h : k.SameBut thread k') (caller child : Pid) : k'.processes.reap caller child = k.processes.reap caller child := by
  cases h with
  | intro world hw => rfl

theorem putLive (h : k.SameBut thread k') (pid : Pid) (process : Process) :
    SameBut thread (k.putLive pid process) (k'.putLive pid process) := by
  cases h with
  | intro world hw =>
    unfold Kernel.putLive
    rw [ProcessTable.putLive_without]
    exact .intro world hw

theorem changeMemory (h : k.SameBut thread k') (pid : Pid) (change : AddressSpace → Except KernelError AddressSpace) :
    (k'.changeMemory pid change).1 = (k.changeMemory pid change).1 ∧
      SameBut thread (k.changeMemory pid change).2 (k'.changeMemory pid change).2 := by
  unfold Kernel.changeMemory
  rw [h.live]
  cases k.processes.live pid with
  | error e => exact ⟨rfl, h⟩
  | ok process =>
    dsimp only
    cases change process.memory with
    | error e => exact ⟨rfl, h⟩
    | ok memory => exact ⟨rfl, h.putLive pid _⟩

theorem finishSpawn (h : k.SameBut thread k') (use : SpawnUse) (result : Except KernelError Pid) :
    (k.finishSpawn use result).SameBut thread (k'.finishSpawn use result) := by
  cases use <;> exact .finished _ h

theorem finishJoin (h : k.SameBut thread k') (caller : Pid) (use : JoinUse) (result : Except KernelError ExitStatus) :
    (k.finishJoin caller use result).SameBut thread (k'.finishJoin caller use result) := by
  unfold Kernel.finishJoin
  cases use with
  | outcome => exact .finished _ h
  | systemCall target trap =>
    cases result with
    | error e => exact .finished _ h
    | ok status =>
      dsimp only
      split
      · exact .finished _ h
      · obtain ⟨he, hk⟩ := h.changeMemory caller (·.writeWord target status.code.toUInt32)
        cases hc : k.changeMemory caller (·.writeWord target status.code.toUInt32) with
        | mk stored k1 =>
          cases hc' : k'.changeMemory caller (·.writeWord target status.code.toUInt32) with
          | mk stored' k1' =>
            rw [hc, hc'] at he hk
            cases he
            cases stored <;> exact .finished _ hk

theorem enrol (h : k.SameBut thread k') (parent : Option Pid) (program : String) (use : SpawnUse)
    (image : Except LoadError ProgramImage) :
    (k.enrol parent program use image).SameBut thread (k'.enrol parent program use image) := by
  cases image with
  | error cause => exact (h.emit _ _).finishSpawn use _
  | ok image =>
    cases h with
    | intro world hw =>
      simp only [Kernel.enrol, ProcessTable.enrol_without]
      cases k.processes.enrol parent program image k.settings.slots with
      | error e => exact (SameBut.intro world hw).finishSpawn use _
      | ok created => exact .suspended _ (.intro _ ((hw.emit _ _).emit _ _))

/-- A join by another thread. -/
theorem join (h : k.SameBut thread k') {other : ThreadId} (hne : other ≠ thread) (caller child : Pid) (use : JoinUse) :
    (k.join other caller child use).SameBut thread (k'.join other caller child use) := by
  unfold Kernel.join
  rw [h.reap]
  cases k.processes.reap caller child with
  | refused => exact h.finishJoin caller use _
  | reaped status records =>
    refine finishJoin ?_ caller use _
    cases h with
    | intro world hw => exact .intro _ (hw.emit _ _)
  | running =>
    refine .suspended _ ?_
    cases h with
    | intro world hw =>
      unfold ProcessTable.without
      rw [← WaitQueue.leave_enter_of_ne _ hne]
      exact .intro _ ((hw.emit _ _).emit _ _)

/-- An answer to another thread that sleeps. -/
theorem wake (h : k.SameBut thread k') {other : ThreadId} (hne : other ≠ thread) (caller child : Pid) (use : JoinUse) :
    (k.wake other caller child use).SameBut thread (k'.wake other caller child use) := by
  refine join ?_ hne caller child use
  cases h with
  | intro world hw =>
    unfold ProcessTable.without
    rw [WaitQueue.leave_leave]
    exact .intro world hw

/-- An answer to an operation in which the thread does not sleep. -/
theorem resume (h : k.SameBut thread k') {s : Suspended} (hs : s.sleeper? ≠ some thread) (a : s.Answer) :
    (k.resume s a).SameBut thread (k'.resume s a) := by
  cases s with
  | loading parent program args use => exact h.enrol parent program use a
  | starting pid use => exact h.finishSpawn use _
  | sleeping other caller child use => exact h.wake (fun he => hs (congrArg some he)) caller child use

theorem dropProcesses (h : k.SameBut thread k') : SameBut thread k.dropProcesses k'.dropProcesses := by
  cases h with
  | intro world hw => exact .intro _ (hw.unblockAll _ _)

variable [Medium μ]

theorem endProcess (h : k.SameBut thread k') (pid : Pid) (status : ExitStatus) :
    (k'.endProcess pid status).1 = (k.endProcess pid status).1 ∧
      SameBut thread (k.endProcess pid status).2 (k'.endProcess pid status).2 := by
  cases h with
  | intro world hw =>
    unfold Kernel.endProcess ProcessTable.exit
    rw [show (k.processes.without thread).record? pid = k.processes.record? pid from rfl]
    cases hr : k.processes.record? pid with
    | none => exact ⟨rfl, .intro world hw⟩
    | some record =>
      cases hp : record.process? with
      | none => exact ⟨by simp only [hp], by simpa only [hp] using .intro world hw⟩
      | some process =>
        obtain ⟨he, ha⟩ := hw.releaseAll k.registry process.descriptors.files
        simp only [hp, Descriptors.closeAll, he]
        exact ⟨rfl, .intro _ (((ha.noteAll _ _).unblockAll _ _).emit _ _)⟩

/-- A call that is not made to the kernel, unless the thread itself joins. -/
theorem begin [Console κ] (h : k.SameBut thread k') {other : ThreadId} {c : Call} (hc : c.isKernelCall = false)
    (hj : ∀ caller child, c = .join caller child → other ≠ thread) :
    (k.begin other c).SameBut thread (k'.begin other c) := by
  cases c with
  | spawn parent program args => exact .suspended _ h
  | join caller child => exact h.join (hj caller child rfl) caller child .outcome
  | endProcess pid status =>
    obtain ⟨he, hk⟩ := h.endProcess pid status
    have hf := Progress.SameBut.finished (.ended (k'.endProcess pid status).1) hk
    nth_rewrite 1 [he] at hf
    exact hf
  | dropProcesses => exact .finished _ h.dropProcesses
  | _ => cases hc

end Kernel.SameBut

/-! ## Work on the process table -/

/-- What outside does in a step, an answer being given to an operation and not to a place. -/
inductive Act where
  /-- It makes a call. -/
  | call (thread : ThreadId) (c : Call)
  /-- It answers an operation, if that waits. -/
  | answer (s : Suspended) (a : s.Answer)
  /-- It changes the memory of a running process. -/
  | memory (pid : Pid) (change : AddressSpace → Except KernelError AddressSpace)

/-- Whether outside makes no call to the kernel, and a thread neither joins nor is answered. Every other work on the process table
is allowed: spawns, ends of processes, joins of other threads, and the drop of all processes. -/
def Act.IsBeside (thread : ThreadId) : Act → Prop
  | .call other c => c.isKernelCall = false ∧ ∀ caller child, c = .join caller child → other ≠ thread
  | .answer s _ => s.sleeper? ≠ some thread
  | .memory .. => True

namespace Kernel

variable {μ κ : Type} {k : Kernel μ κ} {thread : ThreadId} {s : Suspended}

/-- In a join no other thread goes to sleep than the one that joins. -/
theorem sleeper?_of_mem_waits_join {caller child : Pid} {use : JoinUse} (h : s ∈ (k.join thread caller child use).waits) :
    s.sleeper? = some thread := by
  by_cases hr : k.processes.reap caller child = .running
  · rw [join_of_running hr] at h
    cases List.mem_singleton.mp h
    rfl
  · rw [waits_join hr] at h
    cases h

/-- A thread that is not answered does not go to sleep. -/
theorem sleeper?_ne_of_mem_waits_resume {answered : Suspended} {a : answered.Answer} (ha : answered.sleeper? ≠ some thread)
    (h : s ∈ (k.resume answered a).waits) : s.sleeper? ≠ some thread := by
  cases hs : answered.sleeper? with
  | none =>
    rw [sleeper?_of_mem_waits_resume k a hs h]
    exact Option.some_ne_none thread |>.symm
  | some other =>
    cases answered with
    | sleeping other' caller child use =>
      rw [sleeper?_of_mem_waits_join h]
      exact ha
    | _ => cases hs

/-- Nor does one that does not join. -/
theorem sleeper?_ne_of_mem_waits_begin [Medium μ] [Console κ] {other : ThreadId} {c : Call} (hc : c.isKernelCall = false)
    (hj : ∀ caller child, c = .join caller child → other ≠ thread) (h : s ∈ (k.begin other c).waits) :
    s.sleeper? ≠ some thread := by
  cases c with
  | join caller child =>
    rw [sleeper?_of_mem_waits_join h]
    exact fun he => hj caller child rfl (Option.some.inj he)
  | spawn parent program args =>
    rw [List.mem_singleton.mp h]
    exact Option.some_ne_none thread |>.symm
  | endProcess pid status => cases h
  | dropProcesses => cases h
  | _ => cases hc

end Kernel

namespace Machine

variable {μ κ : Type} [Medium μ] [Console κ]

/-- The machine after outside did something, and the outcome if an operation finished by it. An answer for which nobody waits
changes nothing. -/
def act (m : Machine μ κ) : Act → Machine μ κ × Option Outcome
  | .call thread c => m.call thread c
  | .answer s a => if s ∈ m.waiting then settle (m.waiting.erase s) (m.kernel.resume s a) else (m, none)
  | .memory pid change => (⟨(m.kernel.changeMemory pid change).2, m.waiting⟩, none)

/-- The machine after outside did one thing after another, and the outcomes in their order. -/
def acts (m : Machine μ κ) : List Act → Machine μ κ × List (Option Outcome)
  | [] => (m, [])
  | a :: rest => (((m.act a).1.acts rest).1, (m.act a).2 :: ((m.act a).1.acts rest).2)

variable {m m' : Machine μ κ} {s : Suspended} {thread : ThreadId}

/-- In the one machine an operation waits in which a thread sleeps; the other is as it, but that the operation does not wait. -/
structure SameBut (s : Suspended) (thread : ThreadId) (m m' : Machine μ κ) : Prop where
  /-- The kernels. -/
  kernel : m.kernel.SameBut thread m'.kernel
  /-- The operation waits. -/
  waits : s ∈ m.waiting
  /-- What else waits. -/
  waiting : m'.waiting = m.waiting.erase s

omit [Medium μ] [Console κ] in
/-- When an operation has come as far in both, and what waits now is not the one that waits in the first only. -/
theorem SameBut.settle {waiting : List Suspended} (hs : s ∈ waiting) {p p' : Progress μ κ} (hp : p.SameBut thread p')
    (hne : ∀ s' ∈ p.waits, s' ≠ s) :
    SameBut s thread (settle waiting p).1 (settle (waiting.erase s) p').1 ∧
      (settle waiting p).2 = (Machine.settle (waiting.erase s) p').2 := by
  cases hp with
  | finished outcome h => exact ⟨⟨h, hs, rfl⟩, rfl⟩
  | suspended s' h =>
    have hs' : s' ≠ s := hne s' List.mem_cons_self
    exact ⟨⟨h, List.mem_cons_of_mem s' hs, (List.erase_cons_tail (by simpa using hs')).symm⟩, rfl⟩

/-- Whatever is done besides keeps machines alike but for the operation, and has the same outcome in both. -/
theorem SameBut.act (h : SameBut s thread m m') (hs : s.sleeper? = some thread) {a : Act} (ha : a.IsBeside thread) :
    SameBut s thread (m.act a).1 (m'.act a).1 ∧ (m.act a).2 = (m'.act a).2 := by
  -- An operation in which the thread does not sleep is another.
  have hother : ∀ {s' : Suspended}, s'.sleeper? ≠ some thread → s' ≠ s := by
    rintro s' hs' rfl
    exact hs' hs
  cases a with
  | call other c =>
    obtain ⟨hc, hj⟩ := ha
    have hnext := SameBut.settle h.waits (h.kernel.begin hc hj) fun s' hm =>
      hother (Kernel.sleeper?_ne_of_mem_waits_begin hc hj hm)
    rw [← h.waiting] at hnext
    exact hnext
  | memory pid change => exact ⟨⟨(h.kernel.changeMemory pid change).2, h.waits, h.waiting⟩, rfl⟩
  | answer s' a =>
    have hne : s' ≠ s := hother ha
    have hmem : s' ∈ m'.waiting ↔ s' ∈ m.waiting := by rw [h.waiting, List.mem_erase_of_ne hne]
    unfold Machine.act
    dsimp only
    by_cases hw : s' ∈ m.waiting
    · rw [if_pos hw, if_pos (hmem.mpr hw), h.waiting, List.erase_comm]
      exact SameBut.settle ((List.mem_erase_of_ne (Ne.symm hne)).mpr h.waits) (h.kernel.resume ha a) fun s'' hm =>
        hother (Kernel.sleeper?_ne_of_mem_waits_resume ha hm)
    · rw [if_neg hw, if_neg fun hw' => hw (hmem.mp hw')]
      exact ⟨h, rfl⟩

/-- And so does any amount of such work. -/
theorem SameBut.acts (h : SameBut s thread m m') (hs : s.sleeper? = some thread) {w : List Act}
    (hw : ∀ a ∈ w, a.IsBeside thread) :
    SameBut s thread (m.acts w).1 (m'.acts w).1 ∧ (m.acts w).2 = (m'.acts w).2 := by
  induction w generalizing m m' with
  | nil => exact ⟨h, rfl⟩
  | cons a rest ih =>
    obtain ⟨hnext, ho⟩ := h.act hs (hw a List.mem_cons_self)
    obtain ⟨hend, hos⟩ := ih hnext fun a' ha' => hw a' (List.mem_cons_of_mem a ha')
    exact ⟨hend, congrArg₂ List.cons ho hos⟩

/-! ## Who stands in the queue -/

/-- Whoever stands in the queue sleeps in an operation that waits. -/
def Queued (m : Machine μ κ) : Prop := ∀ thread ∈ m.kernel.processes.waiting.threads, thread ∈ m.sleepers

variable {k : Kernel μ κ} {waiting : List Suspended} {caller child : Pid} {use : JoinUse}

/-- A join puts a thread into the queue that sleeps in it. -/
theorem Queued.join (h : Queued ⟨k, waiting⟩) : Queued (Machine.settle waiting (k.join thread caller child use)).1 := by
  intro other hm
  rw [kernel_settle] at hm
  rw [sleepers, waiting_settle, List.filterMap_append, List.mem_append]
  by_cases hr : k.processes.reap caller child = .running
  · rw [Kernel.join_of_running hr] at hm ⊢
    rcases List.mem_append.mp hm with hm | hm
    · exact .inr (h other hm)
    · exact .inl hm
  · exact .inr (h other ((Kernel.changes_join_of_not_running hr thread use).mem_waiting id hm))

/-- Every step keeps to it that whoever stands in the queue sleeps. -/
theorem Queued.step {allowed : Call → Prop} {r : Machine μ κ × Option Outcome} (h : Queued m) (hs : Step allowed m r) :
    Queued r.1 := by
  cases hs with
  | call _ thread c hc =>
    cases hj : m.kernel.joinOf c with
    | none =>
      intro other hm
      rw [Machine.call, kernel_settle] at hm
      rw [sleepers, Machine.call, waiting_settle, List.filterMap_append, List.mem_append]
      exact .inr (h other ((Kernel.changes_begin_of_joinOf hj thread).mem_waiting id hm))
    | some asked =>
      rw [Machine.call, Kernel.begin_of_joinOf hj]
      refine Queued.join fun other hm => h other ?_
      rcases m.kernel.heard_cases c with he | ⟨pid, number, args, he⟩ <;> rwa [he] at hm
  | memory _ pid change =>
    intro other hm
    have hc : Kernel.Changes (Power.passing fun _ => False) m.kernel _ := Kernel.changes_changeMemory m.kernel pid change
    exact h other (hc.mem_waiting id hm)
  | answer k before after s a =>
    -- Who sleeps in another operation than the one that is answered sleeps on.
    have hrest : ∀ other, s.sleeper? ≠ some other → other ∈ k.processes.waiting.threads →
        other ∈ (before ++ after).filterMap Suspended.sleeper? := by
      intro other hne hm
      obtain ⟨s', hs', hth⟩ := List.mem_filterMap.mp (h other hm)
      refine List.mem_filterMap.mpr ⟨s', ?_, hth⟩
      rcases List.mem_append.mp hs' with hs' | hs'
      · exact List.mem_append_left _ hs'
      · rcases List.mem_cons.mp hs' with rfl | hs'
        · exact absurd hth hne
        · exact List.mem_append_right _ hs'
    cases hs : s.sleeper? with
    | none =>
      intro other hm
      rw [kernel_settle] at hm
      rw [sleepers, waiting_settle, List.filterMap_append, List.mem_append]
      exact .inr (hrest other (hs ▸ Option.some_ne_none other |>.symm) ((Kernel.changes_resume a hs).mem_waiting id hm))
    | some thread =>
      cases s with
      | sleeping thread' caller child use =>
        refine Queued.join fun other hm => hrest other ?_ (List.mem_of_mem_filter hm)
        rintro he
        cases he
        exact WaitQueue.not_mem_leave _ _ hm
      | _ => cases hs

/-- In every run whoever stands in the queue sleeps. -/
theorem Reached.queued {allowed : Call → Prop} {settings : Settings} (h : Reached allowed settings m) : Queued m := by
  obtain ⟨medium, console, hl⟩ := h
  have hrun : ∀ {m₀ m' : Machine μ κ}, Leads allowed m₀ m' → Queued m₀ → Queued m' := by
    intro m₀ m' hl hq
    induction hl with
    | refl => exact hq
    | step _ hs ih => exact ih.step hs
  exact hrun hl fun _ hm => absurd hm List.not_mem_nil

end Machine

/-! ## A join that sleeps and a join that comes later -/

/-- Two kernels have the same settings, the same tables and the same devices. -/
structure Kernel.SameTables {μ κ : Type} (k k' : Kernel μ κ) : Prop where
  /-- The settings. -/
  settings : k'.settings = k.settings
  /-- The processes, and the threads that wait for one to end. -/
  processes : k'.processes = k.processes
  /-- The open files. -/
  registry : k'.registry = k.registry
  /-- Whether the machine has halted. -/
  halted : k'.halted = k.halted
  /-- The medium and the console. -/
  world : k.world.Alike k'.world

namespace Kernel

variable {μ κ : Type} {k k' : Kernel μ κ} {thread : ThreadId} {caller child : Pid}

/-- A thread that goes on looks at the table as one that joins when the thread was never in the queue. -/
theorem SameBut.wake_self (h : k.SameBut thread k') (caller child : Pid) (waiting : List Suspended) :
    let resumed := Machine.settle waiting (k.wake thread caller child .outcome)
    let later := Machine.settle waiting (k'.join thread caller child .outcome)
    resumed.2 = later.2 ∧ resumed.1.kernel.SameTables later.1.kernel ∧ resumed.1.waiting = later.1.waiting := by
  cases h with
  | intro world hw =>
    have hsame : ProcessTable.reap { k.processes with waiting := k.processes.waiting.leave thread } caller child =
        k.processes.reap caller child := rfl
    dsimp only
    unfold Kernel.wake Kernel.join
    rw [hsame, show (k.processes.without thread).reap caller child = k.processes.reap caller child from rfl]
    cases k.processes.reap caller child with
    | refused => exact ⟨rfl, ⟨rfl, rfl, rfl, rfl, hw⟩, rfl⟩
    | reaped status records => exact ⟨rfl, ⟨rfl, rfl, rfl, rfl, hw.emit _ _⟩, rfl⟩
    | running => exact ⟨rfl, ⟨rfl, rfl, rfl, rfl, (hw.emit _ _).emit _ _⟩, rfl⟩

/-- Before it sleeps and while it does a thread makes no other difference than that it stands in the queue. -/
theorem sameBut_join (hr : k.processes.reap caller child = .running) (hq : thread ∉ k.processes.waiting.threads) (use : JoinUse) :
    (k.join thread caller child use).kernel.SameBut thread k := by
  rw [join_of_running hr]
  have hback : (k.processes.waiting.enter thread).leave thread = k.processes.waiting := WaitQueue.leave_enter _ thread hq
  have hw : ((k.world.note (.waits caller child)).emit (.blocked thread)).Alike k.world := ⟨rfl, rfl, rfl⟩
  have h : SameBut thread
      { k with
        processes := { k.processes with waiting := k.processes.waiting.enter thread }
        world := (k.world.note (.waits caller child)).emit (.blocked thread) } _ := .intro k.world hw
  simp only [ProcessTable.without, hback] at h
  exact h

end Kernel

/-- The status of a child that ran and has ended can be taken by its parent, in a forest. -/
theorem ProcessTable.Forest.reap_retire {t : ProcessTable} (h : Forest t) {caller child : Pid} {record : Record}
    (hk : t.RunningChild caller child) (hr : t.record? child = some record) (status : ExitStatus) :
    ∃ records, (t.retire child record status).reap caller child = .reaped status records := by
  obtain ⟨parent, record', hp, hm, hr', hi⟩ := runningChild_iff.mp hk
  cases hr.symm.trans hr'
  obtain ⟨hip, rc, hrc, hpar⟩ := h.listed caller parent child hp hm
  cases hr.symm.trans hrc
  have hne : caller ≠ child := by
    rintro rfl
    cases hr.symm.trans hp
    exact h.not_own_child hr hm
  obtain ⟨parent', hp', -, -, hch⟩ := h.kept_retire hr status hne hp hip
  -- The child is no orphan, so its record stays until the status is taken.
  have horph := h.orphaned_eq_false hr hpar (isRunning_eq_true_iff.mpr ⟨parent, hp, hip⟩)
  have hself := record?_retire_self t child status (h.not_own_child hr)
  rw [if_pos ((h.isAwaited_iff hr status).mpr ⟨horph, caller, hpar⟩)] at hself
  exact exists_reaped hp' (hch ▸ hm) hself rfl

namespace Machine

variable {μ κ : Type} [Medium μ] [Console κ] {m : Machine μ κ} {thread : ThreadId} {caller child : Pid}

/-- A join that comes when its child has just ended returns with the child's status. -/
theorem join_after_end (ho : m.kernel.Orderly) (hc : m.kernel.processes.RunningChild caller child) (other thread : ThreadId)
    (status : ExitStatus) :
    ((m.call other (.endProcess child status)).1.call thread (.join caller child)).2 = some (.joined (.ok status)) := by
  obtain ⟨record, hr, hi⟩ := ProcessTable.isRunning_eq_true_iff.mp hc.2
  obtain ⟨process, hp⟩ := Option.isSome_iff_exists.mp hi
  obtain ⟨records, ht⟩ := ho.1.reap_retire hc hr status
  have hk : (m.call other (.endProcess child status)).1.kernel = m.kernel.afterEnd child record process status :=
    Kernel.endProcess_of_running hr hp status
  have hreap : (m.kernel.afterEnd child record process status).processes.reap caller child = .reaped status records := ht
  rw [Machine.call, hk]
  simp only [Kernel.begin, Kernel.join, hreap]
  rfl

/-- A thread that does not sleep asks for a child that runs. Whether it sleeps through other work on the process table and goes on
when that is done, or asks when that is done, the outcomes are the same, that of the join and those of the other work, and so are
the tables that are left, whether the join has come to an end then or the thread sleeps (again). In particular, as long as the
process numbers last, a join that sleeps through the end of its child returns with the status just as one that comes after it. -/
theorem join_transparent {settings : Settings} (hm : Reached (fun _ => True) settings m) (ht : thread ∉ m.sleepers)
    (hc : m.kernel.processes.RunningChild caller child) {w : List Act} (hw : ∀ a ∈ w, a.IsBeside thread) :
    let blocked := m.call thread (.join caller child)
    let during := blocked.1.acts w
    let resumed := during.1.act (.answer (.sleeping thread caller child .outcome) ())
    let after := m.acts w
    let later := after.1.call thread (.join caller child)
    (blocked.2 = none ∧ Suspended.sleeping thread caller child .outcome ∈ during.1.waiting) ∧
      during.2 = after.2 ∧ resumed.2 = later.2 ∧
      resumed.1.kernel.SameTables later.1.kernel ∧ resumed.1.waiting = later.1.waiting ∧
      (m.kernel.world.starts < UInt32.size - 1 → ∀ other status, w = [.call other (.endProcess child status)] →
        resumed.2 = some (.joined (.ok status))) := by
  intro blocked during resumed after later
  have hr := ProcessTable.reap_eq_running_iff.mpr hc
  have hblocked : blocked = (⟨_, .sleeping thread caller child .outcome :: m.waiting⟩, none) :=
    congrArg (settle m.waiting) (Kernel.join_of_running hr thread .outcome)
  have hsame : SameBut (.sleeping thread caller child .outcome) thread blocked.1 m := by
    have hk := Kernel.sameBut_join hr (fun hq => ht (hm.queued thread hq)) .outcome
    rw [Kernel.join_of_running hr] at hk
    rw [hblocked]
    exact ⟨hk, List.mem_cons_self, (List.erase_cons_head _ _).symm⟩
  obtain ⟨hend, hos⟩ := hsame.acts rfl hw
  have hresumed : resumed = settle after.1.waiting (during.1.kernel.wake thread caller child .outcome) := by
    rw [hend.waiting]
    exact if_pos hend.waits
  obtain ⟨hout, htables, hwaiting⟩ := hend.kernel.wake_self caller child after.1.waiting
  rw [← hresumed] at hout htables hwaiting
  refine ⟨⟨by rw [hblocked], hend.waits⟩, hos, hout, htables, hwaiting, ?_⟩
  rintro hs other status rfl
  exact hout.trans (join_after_end (hm.orderly hs) hc other thread status)

/-- While a thread sleeps for a child, another asks for it too, one more child is to be started, and the child ends. -/
def interlude : List Act :=
  [.call ⟨6⟩ (.join ⟨1⟩ ⟨2⟩), .call ⟨7⟩ (.spawn (some ⟨1⟩) "other" []), .call ⟨2⟩ (.endProcess ⟨2⟩ (.normal 3))]

/-- The join that slept through this returns with the status, as the one that comes after it does. -/
theorem interlude_transparent :
    let m := (start {} (RamDisk.empty none) Silent.mk).play
      (started (.boot "init" []) ++ started (.spawn (some ⟨1⟩) "child" []))
    let during := (m.call ⟨5⟩ (.join ⟨1⟩ ⟨2⟩)).1.acts interlude
    let resumed := during.1.act (.answer (.sleeping ⟨5⟩ ⟨1⟩ ⟨2⟩ .outcome) ())
    let later := (m.acts interlude).1.call ⟨5⟩ (.join ⟨1⟩ ⟨2⟩)
    during.2 = (m.acts interlude).2 ∧ resumed.2 = some (.joined (.ok (.normal 3))) ∧
      later.2 = some (.joined (.ok (.normal 3))) ∧ resumed.1.kernel.SameTables later.1.kernel := by
  intro m during resumed later
  have hm : Reached (fun _ => True) {} m := reached_play {} (RamDisk.empty none) Silent.mk _ (by decide)
  have hw : ∀ a ∈ interlude, a.IsBeside ⟨5⟩ := by simp [interlude, Act.IsBeside, Call.isKernelCall]
  have hc : m.kernel.processes.RunningChild ⟨1⟩ ⟨2⟩ := ⟨by decide, by decide⟩
  have ht : ⟨5⟩ ∉ m.sleepers := by decide
  have hlater : later.2 = some (.joined (.ok (.normal 3))) := by rfl
  obtain ⟨-, hos, hout, htables, -⟩ := join_transparent hm ht hc hw
  exact ⟨hos, hout.trans hlater, hlater, htables⟩

end Machine

end Nucleus
