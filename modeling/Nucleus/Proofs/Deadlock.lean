import Nucleus.Proofs.Deliveries
import Nucleus.Proofs.Forest

/-!
# Joins do not deadlock

A thread sleeps in a join only for a child of its process, and a child's number is above its parent's, whatever has ended in
between. So who waits for whom goes up with the numbers: there is no cycle in it, and from every running process it leads to one that
runs and waits for no running child.
-/

namespace Nucleus

/-- A running child's number is above its parent's. -/
theorem ProcessTable.Forest.lt_of_runningChild {t : ProcessTable} (h : t.Forest) {parent child : Pid}
    (hc : t.RunningChild parent child) : parent.raw.toNat < child.raw.toNat := by
  obtain ⟨record, r, hp, hm, hr, -⟩ := runningChild_iff.mp hc
  exact h.younger child r parent hr (h.parent_of_mem hp hm hr)

namespace Machine

variable {μ κ : Type}

/-- A thread of a process is blocked in a join for a child that runs. -/
def WaitsFor (m : Machine μ κ) (caller child : Pid) : Prop :=
  (∃ thread use, Suspended.sleeping thread caller child use ∈ m.waiting) ∧ m.kernel.processes.RunningChild caller child

/-- Whoever sleeps in a join sleeps for a process with a number above its own. -/
def SleepsUpward (m : Machine μ κ) : Prop :=
  ∀ thread caller child use, Suspended.sleeping thread caller child use ∈ m.waiting → caller.raw.toNat < child.raw.toNat

/-- Who is waited for goes up. -/
theorem lt_of_transGen {m : Machine μ κ} (h : m.kernel.processes.Forest) {first last : Pid}
    (hw : Relation.TransGen m.WaitsFor first last) : first.raw.toNat < last.raw.toNat := by
  induction hw with
  | single hw => exact h.lt_of_runningChild hw.2
  | tail _ hw ih => exact Nat.lt_trans ih (h.lt_of_runningChild hw.2)

/-- From a running process who waits for whom leads to a running process that waits for nobody who runs. -/
theorem exists_not_waiting {m : Machine μ κ} (h : m.kernel.processes.Forest) {pid : Pid}
    (hr : m.kernel.processes.isRunning pid = true) :
    ∃ last, Relation.ReflTransGen m.WaitsFor pid last ∧ m.kernel.processes.isRunning last = true ∧
      ∀ child, ¬m.WaitsFor last child := by
  -- The numbers above get fewer with every child that is waited for.
  generalize habove : UInt32.size - pid.raw.toNat = above
  induction above using Nat.strongRecOn generalizing pid with
  | ind above ih =>
    by_cases hw : ∃ child, m.WaitsFor pid child
    · obtain ⟨child, hw⟩ := hw
      have hlt := h.lt_of_runningChild hw.2
      have hbound : child.raw.toNat < UInt32.size := child.raw.toNat_lt_size
      obtain ⟨last, hpath, hlast⟩ := ih (UInt32.size - child.raw.toNat) (by omega) hw.2.2 rfl
      exact ⟨last, hpath.head hw, hlast⟩
    · exact ⟨pid, .refl, hr, fun child hc => hw ⟨child, hc⟩⟩

variable [Medium μ] [Console κ] {allowed : Call → Prop} {m m' : Machine μ κ} {r : Machine μ κ × Option Outcome}

/-- A thread sleeps after a step only if it slept before, or for a child that ran. -/
theorem runningChild_of_step (h : Step allowed m r) {thread : ThreadId} {caller child : Pid} {use : JoinUse}
    (hw : Suspended.sleeping thread caller child use ∈ r.1.waiting) :
    Suspended.sleeping thread caller child use ∈ m.waiting ∨ m.kernel.processes.RunningChild caller child := by
  rcases sleeping_of_step h hw with hold | ⟨c, hj, rfl⟩
  · exact .inl hold
  · rw [Machine.call, Kernel.begin_of_joinOf hj, waiting_settle] at hw
    have hrecords : (m.kernel.heard c).processes.records = m.kernel.processes.records := by
      rcases m.kernel.heard_cases c with he | ⟨pid, number, args, he⟩ <;> rw [he]
      rfl
    by_cases hr : (m.kernel.heard c).processes.reap caller child = .running
    · rw [ProcessTable.reap_congr hrecords] at hr
      exact .inr (ProcessTable.reap_eq_running_iff.mp hr)
    · rw [Kernel.waits_join hr] at hw
      exact .inl hw

/-- In a step sleepers go on to sleep upward. -/
theorem SleepsUpward.step (hu : m.SleepsUpward) (h : Step allowed m r) (hf : m.kernel.processes.Forest) : r.1.SleepsUpward := by
  intro thread caller child use hw
  rcases runningChild_of_step h hw with hold | hc
  · exact hu thread caller child use hold
  · exact hf.lt_of_runningChild hc

variable {settings : Settings}

/-- In every run sleepers sleep upward, as long as the process numbers last. -/
theorem Reached.sleepsUpward (h : Reached allowed settings m) (hs : m.kernel.world.starts < UInt32.size - 1) : m.SleepsUpward := by
  obtain ⟨medium, console, hl⟩ := h
  induction hl with
  | refl => exact fun _ _ _ _ hm => absurd hm List.not_mem_nil
  | @step m₁ r hl hstep ih =>
    have hs₁ := Nat.lt_of_le_of_lt (Kernel.starts_le_of_moves (moves_of_step hstep)) hs
    have ho : m₁.kernel.Orderly := Reached.orderly ⟨medium, console, hl⟩ hs₁
    exact (ih hs₁).step hstep ho.1

/-- Joins cannot deadlock among themselves. At every point of every run, as long as the process numbers last, a parent's number is
below those of its children, and a process that a thread sleeps for has a number above that of the thread's own process, whether it
still runs or not. So no process waits for itself through others. If any process runs, then the running children that are waited for
lead from it to a running process of which no thread waits for a running child. -/
theorem joins_never_deadlock (h : Reached allowed settings m) (hs : m.kernel.world.starts < UInt32.size - 1) :
    (∀ pid record parent, m.kernel.processes.record? pid = some record → record.parent = some parent →
      parent.raw.toNat < pid.raw.toNat) ∧
    (∀ thread caller child use, Suspended.sleeping thread caller child use ∈ m.waiting → caller.raw.toNat < child.raw.toNat) ∧
    (∀ pid, ¬Relation.TransGen m.WaitsFor pid pid) ∧
    ∀ pid, m.kernel.processes.isRunning pid = true →
      ∃ last, Relation.ReflTransGen m.WaitsFor pid last ∧ m.kernel.processes.isRunning last = true ∧
        ∀ child, ¬m.WaitsFor last child := by
  have hf : m.kernel.processes.Forest := (h.orderly hs).1
  refine ⟨hf.younger, h.sleepsUpward hs, fun pid hcycle => ?_, fun pid hr => exists_not_waiting hf hr⟩
  exact Nat.lt_irrefl _ (lt_of_transGen hf hcycle)

/-- A program waits for a second one, which waits for a third. -/
def chain : List Turn :=
  started (.boot "first" []) ++ started (.spawn (some ⟨1⟩) "second" []) ++ started (.spawn (some ⟨2⟩) "third" []) ++
    [.call ⟨5⟩ (.join ⟨1⟩ ⟨2⟩), .call ⟨6⟩ (.join ⟨2⟩ ⟨3⟩)]

/-- The third one waits for nobody. -/
theorem chain_ends :
    let m := (start {} (RamDisk.empty none) Silent.mk).play chain
    (m.WaitsFor ⟨1⟩ ⟨2⟩ ∧ m.WaitsFor ⟨2⟩ ⟨3⟩) ∧ ¬Relation.TransGen m.WaitsFor ⟨1⟩ ⟨1⟩ ∧
      ∃ last, Relation.ReflTransGen m.WaitsFor ⟨1⟩ last ∧ m.kernel.processes.isRunning last = true ∧
        ∀ child, ¬m.WaitsFor last child := by
  intro m
  obtain ⟨-, -, hnone, hlast⟩ := joins_never_deadlock
    (reached_play {} (RamDisk.empty none) Silent.mk chain (by decide) : Reached (fun _ => True) {} m) (by decide)
  exact ⟨⟨⟨⟨⟨5⟩, .outcome, by decide⟩, by decide, by decide⟩, ⟨⟨6⟩, .outcome, by decide⟩, by decide, by decide⟩, hnone ⟨1⟩,
    hlast ⟨1⟩ (by decide)⟩

end Machine

end Nucleus
