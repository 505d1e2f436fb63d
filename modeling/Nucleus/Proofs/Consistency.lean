import Nucleus.Proofs.Forest
import Nucleus.Proofs.Scripts
import Nucleus.Device.RamDisk

/-!
# What may be relied on of the process table

The table counts the processes that run, parents and children know each other, and who has ended can still be asked for its
status. All of it follows from the forest, at every point of every run between two steps, whatever operations wait there.
-/

namespace Nucleus

namespace ProcessTable

open Records

/-- What may be relied on of a process table. -/
structure Consistent (t : ProcessTable) : Prop where
  /-- As many processes run as are counted. -/
  counted : t.running = runningCount t.records
  /-- While a process runs the count is not zero, and can be counted down when the process ends. -/
  countable : ∀ pid, t.isRunning pid = true → 0 < t.running
  /-- Who lists a child runs, and the child has a record that points back. -/
  listed : ∀ pid record child, t.record? pid = some record → child ∈ record.children →
    record.isRunning = true ∧ ∃ r, t.record? child = some r ∧ r.parent = some pid
  /-- Who has ended has a status and owns nothing, and its parent, which runs and lists it, can take the status. -/
  joinable : ∀ pid record, t.record? pid = some record → record.isZombie = true →
    record.process? = none ∧ ∃ status parent records, record.status? = some status ∧ record.parent = some parent ∧
      t.Minds parent pid ∧ t.reap parent pid = .reaped status records
  /-- Who runs and has a parent is listed by it, and the parent runs, or is an orphan. -/
  parented : ∀ pid record parent, t.record? pid = some record → record.isRunning = true → record.parent = some parent →
    t.Minds parent pid ∨ record.orphaned = true
  /-- An orphan's parent does not run. -/
  abandoned : ∀ pid record parent, t.record? pid = some record → record.orphaned = true → record.parent = some parent →
    t.isRunning parent = false
  /-- Nothing runs exactly when there is no record. -/
  idle : t.running = 0 ↔ t.size = 0

/-- There are no records exactly when none is found. -/
theorem size_eq_zero_iff (t : ProcessTable) : t.size = 0 ↔ ∀ pid, t.record? pid = none := by
  unfold size record?
  rw [← Std.ExtTreeMap.eq_empty_iff_size_eq_zero]
  constructor
  · intro h pid
    rw [h, Std.ExtTreeMap.getElem?_empty]
  · intro h
    refine Std.ExtTreeMap.ext_getElem? fun pid => ?_
    rw [h pid, Std.ExtTreeMap.getElem?_empty]

variable {t : ProcessTable}

/-- A process that runs is counted. -/
theorem Forest.running_pos (h : Forest t) {pid : Pid} (hr : t.isRunning pid = true) : 0 < t.running := by
  rw [h.counted, runningCount_pos_iff]
  obtain ⟨record, hrec, hi⟩ := isRunning_eq_true_iff.mp hr
  exact ⟨pid, record, hrec, hi⟩

/-- Who has ended is listed by its parent, which runs and can take the status. -/
theorem Forest.joinable (h : Forest t) {pid : Pid} {record : Record} (hr : t.record? pid = some record)
    (hz : record.isZombie = true) :
    record.process? = none ∧ ∃ status parent records, record.status? = some status ∧ record.parent = some parent ∧
      t.Minds parent pid ∧ t.reap parent pid = .reaped status records := by
  have hi : record.isRunning = false := by rw [Record.isRunning_eq, hz, Bool.not_true]
  obtain ⟨ho, parent, hp⟩ := h.awaited pid record hr hi
  obtain ⟨rp, hrp, hir, hm⟩ := h.minded pid record parent hr hp ho
  refine ⟨Record.process?_eq_none hi, ?_⟩
  cases hl : record.life with
  | running process => rw [Record.isZombie, Record.status?, hl] at hz; cases hz
  | zombie status =>
    obtain ⟨records, hreap⟩ := exists_reaped hrp hm hr hl
    exact ⟨status, parent, records, by rw [Record.status?, hl], hp, ⟨rp, hrp, hir, hm⟩, hreap⟩

/-- In a forest where nothing runs there is no record: who has ended has a parent that runs. -/
theorem Forest.idle_iff (h : Forest t) : t.running = 0 ↔ t.size = 0 := by
  rw [size_eq_zero_iff]
  constructor
  · intro h0 pid
    cases hr : t.record? pid with
    | none => rfl
    | some record =>
      have hrun : ∃ p, t.isRunning p = true := by
        cases hi : record.isRunning with
        | true => exact ⟨pid, isRunning_eq_true_iff.mpr ⟨record, hr, hi⟩⟩
        | false =>
          obtain ⟨ho, parent, hp⟩ := h.awaited pid record hr hi
          obtain ⟨rp, hrp, hip, -⟩ := h.minded pid record parent hr hp ho
          exact ⟨parent, isRunning_eq_true_iff.mpr ⟨rp, hrp, hip⟩⟩
      obtain ⟨p, hp⟩ := hrun
      have := h.running_pos hp
      omega
  · intro hnone
    rw [h.counted]
    have hnot : ¬0 < runningCount t.records := by
      rw [runningCount_pos_iff]
      rintro ⟨pid, record, hr, -⟩
      exact absurd (hr.symm.trans (hnone pid)) (Option.some_ne_none record)
    omega

/-- A forest may be relied on. -/
theorem Forest.consistent (h : Forest t) : t.Consistent where
  counted := h.counted
  countable _ := h.running_pos
  listed := h.listed
  joinable _ _ := h.joinable
  parented pid record parent hr _ hp := by
    cases ho : record.orphaned with
    | true => exact .inr rfl
    | false => exact .inl (h.minded pid record parent hr hp ho)
  abandoned pid record parent hr ho hp := h.abandoned pid record parent hr hp ho
  idle := h.idle_iff

end ProcessTable

namespace Machine

variable {μ κ : Type} [Medium μ] [Console κ]

/-- At every point of every run, of calls to the kernel and to the table behind it and with any operations waiting, the process
table may be relied on, as long as the process numbers last. -/
theorem reached_consistent {settings : Settings} {m : Machine μ κ} (h : Reached (fun _ => True) settings m)
    (hs : m.kernel.world.starts < UInt32.size - 1) : m.kernel.processes.Consistent :=
  (h.orderly hs).1.consistent

/-- A program starts a second one, which starts a third and ends: the status of the second waits, and the third is an orphan. -/
def family : List Turn :=
  started (.boot "first" []) ++ started (.spawn (some ⟨1⟩) "second" []) ++ started (.spawn (some ⟨2⟩) "third" []) ++
    [.call ⟨0⟩ (.endProcess ⟨2⟩ (.normal 7))]

/-- The table of such a run has an ended process and an orphan in it. -/
theorem family_consistent :
    let t := ((start {} (RamDisk.empty none) Silent.mk).play family).kernel.processes
    t.running = 2 ∧ t.size = 3 ∧ (t.record? ⟨2⟩).any Record.isZombie ∧ (t.record? ⟨3⟩).any Record.orphaned ∧ t.Consistent :=
  ⟨by decide, by decide, by decide, by decide, reached_consistent (reached_play _ _ _ family (by decide)) (by decide)⟩

end Machine

end Nucleus
