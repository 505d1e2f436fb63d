import Nucleus.Proofs.Table
import Nucleus.Proofs.Effects

/-!
# The process table as a forest

Processes point to their parents and parents list their children, and the two agree as far as they are to: a process that is not
orphaned is listed by its parent, which runs, and an orphan's parent does not run any more. Who has ended is awaited, so an ended
process is never an orphan. `Forest` says all this in one invariant, with what its proof needs besides: numbers grow from parent
to child, and the next number is above all of them. Every step of the table keeps it, and so does every run as long as the numbers
last.
-/

namespace Nucleus

namespace ProcessTable

open Records

/-- A running process lists another as a child whose status it has not taken. -/
def Minds (t : ProcessTable) (parent child : Pid) : Prop :=
  ∃ record, t.record? parent = some record ∧ record.isRunning = true ∧ child ∈ record.children

/-- The process table is a forest. -/
structure Forest (t : ProcessTable) : Prop where
  /-- As many processes run as are counted. -/
  counted : t.running = runningCount t.records
  /-- Every number in use is below the next one. -/
  fresh : ∀ pid record, t.record? pid = some record → pid.raw.toNat < t.next.toNat
  /-- A child's number is above its parent's. -/
  younger : ∀ pid record parent, t.record? pid = some record → record.parent = some parent → parent.raw.toNat < pid.raw.toNat
  /-- Who lists a child runs, and the child has a record that points back. -/
  listed : ∀ pid record child, t.record? pid = some record → child ∈ record.children →
    record.isRunning = true ∧ ∃ r, t.record? child = some r ∧ r.parent = some pid
  /-- Who has a parent and is no orphan is listed by it, and the parent runs. -/
  minded : ∀ pid record parent, t.record? pid = some record → record.parent = some parent → record.orphaned = false →
    t.Minds parent pid
  /-- An orphan's parent does not run. -/
  abandoned : ∀ pid record parent, t.record? pid = some record → record.parent = some parent → record.orphaned = true →
    t.isRunning parent = false
  /-- Who has ended has a parent and is no orphan. -/
  awaited : ∀ pid record, t.record? pid = some record → record.isRunning = false →
    record.orphaned = false ∧ ∃ parent, record.parent = some parent

/-- A table without records is a forest. -/
theorem forest_of_no_records {t : ProcessTable} (hr : t.records = ∅) (hn : t.running = 0) : Forest t := by
  have he : ∀ pid record, t.record? pid ≠ some record := by
    intro pid record h
    rw [record?, hr, Std.ExtTreeMap.getElem?_empty] at h
    cases h
  exact
    { counted := by
        rw [hn, hr]
        rfl
      fresh := fun pid record h => absurd h (he pid record)
      younger := fun pid record _ h => absurd h (he pid record)
      listed := fun pid record _ h => absurd h (he pid record)
      minded := fun pid record _ h => absurd h (he pid record)
      abandoned := fun pid record _ h => absurd h (he pid record)
      awaited := fun pid record h => absurd h (he pid record) }

namespace Forest

variable {t : ProcessTable} {parent child : Pid} {record r : Record}

/-- A child points back to whoever lists it. -/
theorem parent_of_mem (h : Forest t) (hp : t.record? parent = some record) (hm : child ∈ record.children)
    (hc : t.record? child = some r) : r.parent = some parent := by
  obtain ⟨-, r', hc', hr⟩ := h.listed parent record child hp hm
  cases hc.symm.trans hc'
  exact hr

/-- No process is its own parent. -/
theorem ne_parent (h : Forest t) (hr : t.record? child = some r) (hp : r.parent = some parent) : parent ≠ child := by
  rintro rfl
  exact Nat.lt_irrefl _ (h.younger parent r parent hr hp)

/-- No process is its own child. -/
theorem not_own_child (h : Forest t) (hr : t.record? child = some r) : child ∉ r.children :=
  fun hm => h.ne_parent hr (h.parent_of_mem hr hm hr) rfl

/-- No process is its own grandchild. -/
theorem parent_not_child (h : Forest t) (hr : t.record? child = some r) (hp : r.parent = some parent) : parent ∉ r.children := by
  intro hm
  obtain ⟨-, r', hr', hp'⟩ := h.listed child r parent hr hm
  have h1 := h.younger child r parent hr hp
  have h2 := h.younger parent r' child hr' hp'
  omega

/-- A process whose parent runs is no orphan. -/
theorem orphaned_eq_false (h : Forest t) (hr : t.record? child = some r) (hp : r.parent = some parent)
    (hi : t.isRunning parent = true) : r.orphaned = false := by
  cases ho : r.orphaned with
  | false => rfl
  | true => exact hi.symm.trans (h.abandoned child r parent hr hp ho)

end Forest

/-! ## Steps that change no kinship -/

/-- What a record says of kinship, and whether its process runs. -/
def kinship (record : Record) : Option Pid × Std.ExtTreeSet Pid × Bool × Bool :=
  (record.parent, record.children, record.orphaned, record.isRunning)

section Kinship

variable {t t' : ProcessTable}

/-- With equal kinship under a number, a record there has one that is akin to it in the other table. -/
theorem exists_akin (hk : ∀ pid, (t'.record? pid).map kinship = (t.record? pid).map kinship) {pid : Pid} {record' : Record}
    (h : t'.record? pid = some record') :
    ∃ record, t.record? pid = some record ∧ record.parent = record'.parent ∧ record.children = record'.children ∧
      record.orphaned = record'.orphaned ∧ record.isRunning = record'.isRunning := by
  have hp := hk pid
  rw [h, Option.map_some] at hp
  obtain ⟨record, hr, ha⟩ := Option.map_eq_some_iff.mp hp.symm
  simp only [kinship, Prod.mk.injEq] at ha
  exact ⟨record, hr, ha⟩

/-- A forest stays one when kinship stays and the count is right. -/
theorem Forest.congr (h : Forest t) (hk : ∀ pid, (t'.record? pid).map kinship = (t.record? pid).map kinship)
    (hn : t'.next = t.next) (hc : t'.running = runningCount t'.records) : Forest t' where
  counted := hc
  fresh := by
    intro pid record' hr'
    obtain ⟨record, hr, -⟩ := exists_akin hk hr'
    rw [hn]
    exact h.fresh pid record hr
  younger := by
    intro pid record' parent hr' hp
    obtain ⟨record, hr, hpar, -⟩ := exists_akin hk hr'
    exact h.younger pid record parent hr (hpar.trans hp)
  listed := by
    intro pid record' child hr' hm
    obtain ⟨record, hr, -, hch, -, hrun⟩ := exists_akin hk hr'
    obtain ⟨hi, rc, hrc, hpc⟩ := h.listed pid record child hr (hch ▸ hm)
    obtain ⟨rc', hrc', hpar, -⟩ := exists_akin (fun pid => (hk pid).symm) hrc
    exact ⟨hrun.symm.trans hi, rc', hrc', hpar.trans hpc⟩
  minded := by
    intro pid record' parent hr' hp ho
    obtain ⟨record, hr, hpar, -, horph, -⟩ := exists_akin hk hr'
    obtain ⟨rp, hrp, hi, hm⟩ := h.minded pid record parent hr (hpar.trans hp) (horph.trans ho)
    obtain ⟨rp', hrp', -, hch, -, hrun⟩ := exists_akin (fun pid => (hk pid).symm) hrp
    exact ⟨rp', hrp', hrun.trans hi, hch ▸ hm⟩
  abandoned := by
    intro pid record' parent hr' hp ho
    obtain ⟨record, hr, hpar, -, horph, -⟩ := exists_akin hk hr'
    have hf := h.abandoned pid record parent hr (hpar.trans hp) (horph.trans ho)
    rw [isRunning_eq_false_iff] at hf ⊢
    intro rp' hrp'
    obtain ⟨rp, hrp, -, -, -, hrun⟩ := exists_akin hk hrp'
    exact hrun.symm.trans (hf rp hrp)
  awaited := by
    intro pid record' hr' hi
    obtain ⟨record, hr, hpar, -, horph, hrun⟩ := exists_akin hk hr'
    obtain ⟨ho, parent, hp⟩ := h.awaited pid record hr (hrun.trans hi)
    exact ⟨horph.symm.trans ho, parent, hpar.symm.trans hp⟩

/-- Who waits does not matter. -/
theorem Forest.queue (h : Forest t) (waiting : WaitQueue) : Forest { t with waiting } :=
  h.congr (fun _ => rfl) rfl h.counted

/-- Nor does what a running process owns. -/
theorem Forest.putLive {pid : Pid} {process : Process} (h : Forest t) (hl : t.live pid = .ok process) (process' : Process) :
    Forest (t.putLive pid process') := by
  obtain ⟨record, hr, hp⟩ := live_eq_ok_iff.mp hl
  have hi := (records_putLive process' hr hp).2
  have hput : (t.putLive pid process').next = t.next ∧ (t.putLive pid process').running = t.running := by
    rw [ProcessTable.putLive, hr]
    exact ⟨rfl, rfl⟩
  refine h.congr ?_ hput.1 ?_
  · intro other
    rw [record?_putLive]
    by_cases ho : pid = other
    · subst ho
      simp only [hr, if_true, Option.map_some, kinship, hi]
    · rw [if_neg ho]
  · rw [hput.2, runningCount_putLive hl]
    exact h.counted

end Kinship

/-! ## Enrolment -/

section Enrol

variable {t t' : ProcessTable} {parent : Option Pid} {program : String} {image : ProgramImage} {slots : Nat} {pid : Pid}

/-- The next number is free. -/
theorem Forest.free (h : Forest t) : t.record? ⟨t.next⟩ = none := by
  cases hr : t.record? ⟨t.next⟩ with
  | none => rfl
  | some record => exact absurd (h.fresh _ record hr) (Nat.lt_irrefl _)

/-- Whoever is found after an enrolment is the new process, or was there before with the same parent and at least the same
children. -/
theorem Forest.found_enrol (h : Forest t) (he : t.enrol parent program image slots = .ok (pid, t')) {other : Pid}
    {record' : Record} (hr' : t'.record? other = some record') :
    other = pid ∧ record' = newcomer parent program image slots ∨
      other ≠ pid ∧ ∃ record, t.record? other = some record ∧ record'.parent = record.parent ∧
        record'.orphaned = record.orphaned ∧ record'.isRunning = record.isRunning ∧
        ∀ child, child ∈ record'.children ↔ child ∈ record.children ∨ parent = some other ∧ child = pid := by
  rw [record?_enrol he h.free] at hr'
  by_cases ho : other = pid
  · rw [if_pos ho] at hr'
    exact .inl ⟨ho, (Option.some.inj hr').symm⟩
  · rw [if_neg ho] at hr'
    refine .inr ⟨ho, ?_⟩
    by_cases hp : parent = some other
    · rw [if_pos hp] at hr'
      obtain ⟨record, hr, rfl⟩ := Option.map_eq_some_iff.mp hr'
      refine ⟨record, hr, rfl, rfl, rfl, ?_⟩
      intro child
      simp only [Std.ExtTreeSet.mem_insert, Std.LawfulEqOrd.compare_eq_iff_eq, hp, true_and]
      constructor
      · rintro (rfl | hm)
        · exact .inr rfl
        · exact .inl hm
      · rintro (hm | rfl)
        · exact .inr hm
        · exact .inl rfl
    · rw [if_neg hp] at hr'
      refine ⟨record', hr', rfl, rfl, rfl, ?_⟩
      intro child
      simp [hp]

/-- Whoever was there before an enrolment is found after it, with the same parent and at least the same children. -/
theorem Forest.kept_enrol (h : Forest t) (he : t.enrol parent program image slots = .ok (pid, t')) {other : Pid}
    {record : Record} (hr : t.record? other = some record) :
    ∃ record', t'.record? other = some record' ∧ record'.parent = record.parent ∧ record'.isRunning = record.isRunning ∧
      (∀ child ∈ record.children, child ∈ record'.children) ∧ (parent = some other → pid ∈ record'.children) := by
  have ho : other ≠ pid := by
    rintro rfl
    rw [(enrol_ok he).1, h.free] at hr
    cases hr
  have hr' := record?_enrol he h.free other
  rw [if_neg ho, hr] at hr'
  by_cases hp : parent = some other
  · rw [if_pos hp, Option.map_some] at hr'
    refine ⟨_, hr', rfl, rfl, fun child hm => ?_, fun _ => ?_⟩
    · exact Std.ExtTreeSet.mem_insert.mpr (.inr hm)
    · exact Std.ExtTreeSet.mem_insert.mpr (.inl Std.ReflOrd.compare_self)
  · rw [if_neg hp] at hr'
    exact ⟨record, hr', rfl, rfl, fun _ hm => hm, fun e => absurd e hp⟩

/-- An enrolment keeps a forest one, as long as there is a number after the next. -/
theorem Forest.enrol (h : Forest t) (he : t.enrol parent program image slots = .ok (pid, t'))
    (hnext : t.next.toNat + 1 < UInt32.size) : Forest t' := by
  obtain ⟨hpid, hn, hrun, hparent, -⟩ := enrol_ok he
  have hn' : t'.next.toNat = t.next.toNat + 1 := by
    rw [hn, UInt32.toNat_add]
    exact Nat.mod_eq_of_lt hnext
  have hpidn : pid.raw.toNat = t.next.toNat := by rw [hpid]
  have hnew : t'.record? pid = some (newcomer parent program image slots) := by
    rw [record?_enrol he h.free, if_pos rfl]
  exact
    { counted := by rw [hrun, runningCount_enrol he h.free, h.counted]
      fresh := by
        intro other record' hr'
        rcases h.found_enrol he hr' with ⟨rfl, -⟩ | ⟨-, record, hr, -⟩
        · omega
        · have := h.fresh other record hr
          omega
      younger := by
        intro other record' p hr' hp
        rcases h.found_enrol he hr' with ⟨rfl, rfl⟩ | ⟨-, record, hr, hpp, -⟩
        · obtain ⟨rp, hrp, -⟩ := isRunning_eq_true_iff.mp (hparent p hp)
          have := h.fresh p rp hrp
          omega
        · exact h.younger other record p hr (hpp ▸ hp)
      listed := by
        intro other record' child hr' hm
        rcases h.found_enrol he hr' with ⟨rfl, rfl⟩ | ⟨-, record, hr, -, -, hi, hc⟩
        · exact absurd hm Std.ExtTreeSet.not_mem_empty
        · rcases (hc child).mp hm with hm | ⟨hp, rfl⟩
          · obtain ⟨hir, rc, hrc, hpc⟩ := h.listed other record child hr hm
            obtain ⟨rc', hrc', hpc', -⟩ := h.kept_enrol he hrc
            exact ⟨hi.trans hir, rc', hrc', hpc'.trans hpc⟩
          · obtain ⟨rp, hrp, hir⟩ := isRunning_eq_true_iff.mp (hparent other hp)
            cases hr.symm.trans hrp
            exact ⟨hi.trans hir, _, hnew, hp⟩
      minded := by
        intro other record' p hr' hp ho
        rcases h.found_enrol he hr' with ⟨rfl, rfl⟩ | ⟨-, record, hr, hpp, hoo, -⟩
        · obtain ⟨rp, hrp, hir⟩ := isRunning_eq_true_iff.mp (hparent p hp)
          obtain ⟨rp', hrp', -, hi', -, hin⟩ := h.kept_enrol he hrp
          exact ⟨rp', hrp', hi'.trans hir, hin hp⟩
        · obtain ⟨rp, hrp, hir, hm⟩ := h.minded other record p hr (hpp ▸ hp) (hoo ▸ ho)
          obtain ⟨rp', hrp', -, hi', hsub, -⟩ := h.kept_enrol he hrp
          exact ⟨rp', hrp', hi'.trans hir, hsub other hm⟩
      abandoned := by
        intro other record' p hr' hp ho
        rcases h.found_enrol he hr' with ⟨rfl, rfl⟩ | ⟨-, record, hr, hpp, hoo, -⟩
        · cases ho
        · have hf := h.abandoned other record p hr (hpp ▸ hp) (hoo ▸ ho)
          -- The parent's number is below the orphan's, so it is not the one that has just been given out.
          have hlt := h.younger other record p hr (hpp ▸ hp)
          have hlt' := h.fresh other record hr
          rw [isRunning_eq_false_iff] at hf ⊢
          intro rp' hrp'
          rcases h.found_enrol he hrp' with ⟨rfl, -⟩ | ⟨-, rp, hrp, -, -, hi', -⟩
          · omega
          · exact hi'.trans (hf rp hrp)
      awaited := by
        intro other record' hr' hi
        rcases h.found_enrol he hr' with ⟨rfl, rfl⟩ | ⟨-, record, hr, hpp, hoo, hir, -⟩
        · cases hi
        · obtain ⟨ho, p, hp⟩ := h.awaited other record hr (hir ▸ hi)
          exact ⟨hoo.trans ho, p, hpp.trans hp⟩ }

end Enrol

/-! ## Reaping -/

section Reap

variable {t : ProcessTable} {caller child : Pid} {status : ExitStatus} {records : Records}

/-- Nobody takes the status of itself. -/
theorem Forest.reap_ne (h : Forest t) (hr : t.reap caller child = .reaped status records) : caller ≠ child := by
  obtain ⟨parent, -, hp, hm, -⟩ := reap_reaped hr
  rintro rfl
  exact h.not_own_child hp hm

/-- Who takes a status runs. -/
theorem Forest.exists_live_of_reap (h : Forest t) (hr : t.reap caller child = .reaped status records) :
    ∃ process, t.live caller = .ok process := by
  obtain ⟨parent, -, hp, hm, -⟩ := reap_reaped hr
  obtain ⟨process, hproc⟩ := Option.isSome_iff_exists.mp (h.listed caller parent child hp hm).1
  exact ⟨process, live_eq_ok_iff.mpr ⟨parent, hp, hproc⟩⟩

/-- Whoever is found after a status was taken was there before, and is not the one it was taken of. -/
theorem Forest.found_reap (h : Forest t) (hr : t.reap caller child = .reaped status records) {other : Pid} {record' : Record}
    (hr' : records[other]? = some record') :
    other ≠ child ∧ ∃ record, t.record? other = some record ∧ record'.parent = record.parent ∧
      record'.orphaned = record.orphaned ∧ record'.isRunning = record.isRunning ∧
      ∀ c, c ∈ record'.children ↔ c ∈ record.children ∧ ¬(other = caller ∧ c = child) := by
  rw [record?_reap hr (h.reap_ne hr)] at hr'
  by_cases ho : other = child
  · rw [if_pos ho] at hr'
    cases hr'
  · rw [if_neg ho] at hr'
    refine ⟨ho, ?_⟩
    by_cases hc : other = caller
    · rw [if_pos hc] at hr'
      obtain ⟨record, hr, rfl⟩ := Option.map_eq_some_iff.mp hr'
      refine ⟨record, hr, rfl, rfl, rfl, ?_⟩
      intro c
      simp only [Std.ExtTreeSet.mem_erase, hc, true_and, ne_eq, Std.LawfulEqOrd.compare_eq_iff_eq]
      exact ⟨fun ⟨hne, hm⟩ => ⟨hm, fun e => hne e.symm⟩, fun ⟨hm, hne⟩ => ⟨fun e => hne e.symm, hm⟩⟩
    · rw [if_neg hc] at hr'
      refine ⟨record', hr', rfl, rfl, rfl, ?_⟩
      intro c
      simp [hc]

/-- Taking a status keeps a forest one. -/
theorem Forest.reap (h : Forest t) (hr : t.reap caller child = .reaped status records) : Forest { t with records } := by
  obtain ⟨parent, ended, hp, hm, he, hz, -⟩ := reap_reaped hr
  have hended : ended.isRunning = false := by
    rw [Record.isRunning, Record.process?, hz]
    rfl
  exact
    { counted := h.counted.trans (reap_counts hr).1.symm
      fresh := by
        intro other record' hr'
        obtain ⟨-, record, ho, -⟩ := h.found_reap hr hr'
        exact h.fresh other record ho
      younger := by
        intro other record' p hr' hpp
        obtain ⟨-, record, ho, hpar, -⟩ := h.found_reap hr hr'
        exact h.younger other record p ho (hpar ▸ hpp)
      listed := by
        intro other record' c hr' hmc
        obtain ⟨-, record, ho, -, -, hi, hch⟩ := h.found_reap hr hr'
        obtain ⟨hmc, hnot⟩ := (hch c).mp hmc
        obtain ⟨hir, rc, hrc, hpc⟩ := h.listed other record c ho hmc
        -- A child that another lists is not the one that was reaped, since the latter points to its own parent.
        have hcc : c ≠ child := by
          rintro rfl
          exact hnot ⟨Option.some.inj (hpc.symm.trans (h.parent_of_mem hp hm hrc)), rfl⟩
        obtain ⟨rc', hrc', -, hpc', -⟩ := kept_reap hr hcc hrc
        exact ⟨hi.trans hir, rc', hrc', hpc'.trans hpc⟩
      minded := by
        intro other record' p hr' hpp hoo
        obtain ⟨hne, record, ho, hpar, horph, -⟩ := h.found_reap hr hr'
        obtain ⟨rp, hrp, hir, hmp⟩ := h.minded other record p ho (hpar ▸ hpp) (horph ▸ hoo)
        have hpc : p ≠ child := by
          rintro rfl
          cases hrp.symm.trans he
          exact absurd (hir.symm.trans hended) (by simp)
        obtain ⟨rp', hrp', hlife, -, hsub⟩ := kept_reap hr hpc hrp
        exact ⟨rp', hrp', (Record.isRunning_of_life hlife).trans hir, hsub other hmp hne⟩
      abandoned := by
        intro other record' p hr' hpp hoo
        obtain ⟨-, record, ho, hpar, horph, -⟩ := h.found_reap hr hr'
        have hf := h.abandoned other record p ho (hpar ▸ hpp) (horph ▸ hoo)
        rw [isRunning_eq_false_iff] at hf ⊢
        intro rp' hrp'
        obtain ⟨-, rp, hrp, -, -, hi', -⟩ := h.found_reap hr hrp'
        exact hi'.trans (hf rp hrp)
      awaited := by
        intro other record' hr' hi
        obtain ⟨-, record, ho, hpar, horph, hir, -⟩ := h.found_reap hr hr'
        obtain ⟨hoo, p, hpp⟩ := h.awaited other record ho (hir ▸ hi)
        exact ⟨horph.trans hoo, p, hpar.trans hpp⟩ }

end Reap

/-! ## The end of a process -/

section Retire

variable {t : ProcessTable} {pid : Pid} {record : Record}

/-- A process that ends is awaited exactly when it has a parent and is no orphan. -/
theorem Forest.isAwaited_iff (h : Forest t) (hr : t.record? pid = some record) (status : ExitStatus) :
    t.isAwaited pid record status = true ↔ record.orphaned = false ∧ ∃ parent, record.parent = some parent := by
  unfold isAwaited
  rw [Bool.and_eq_true, Bool.not_eq_true', Option.any_eq_true]
  constructor
  · rintro ⟨ho, parent, hp, -⟩
    exact ⟨ho, parent, hp⟩
  · rintro ⟨ho, parent, hp⟩
    refine ⟨ho, parent, hp, ?_⟩
    obtain ⟨rp, hrp, -, -⟩ := h.minded pid record parent hr hp ho
    have hb := getElem?_bereaved t pid status (h.not_own_child hr) parent
    rw [if_neg (h.ne_parent hr hp), if_neg (h.parent_not_child hr hp), hrp] at hb
    rw [← Std.ExtTreeMap.mem_iff_contains, Std.ExtTreeMap.mem_iff_isSome_getElem?, hb]
    rfl

/-- Whoever is found after the end of a process is that process itself, which is awaited, or a running child of it, which is an
orphan now, or neither and as it was. -/
theorem Forest.found_retire (h : Forest t) (hr : t.record? pid = some record) (status : ExitStatus) {other : Pid}
    {record' : Record} (hr' : (t.retire pid record status).record? other = some record') :
    other = pid ∧ record' = atEnd record status ∧ record.orphaned = false ∧ (∃ parent, record.parent = some parent) ∨
      other ≠ pid ∧ ∃ r, t.record? other = some r ∧
        (other ∈ record.children ∧ r.isRunning = true ∧ record' = { r with orphaned := true } ∨
          other ∉ record.children ∧ record' = r) := by
  by_cases ho : other = pid
  · subst ho
    rw [record?_retire_self t other status (h.not_own_child hr)] at hr'
    split at hr'
    · rename_i hk
      obtain ⟨horph, hp⟩ := (h.isAwaited_iff hr status).mp hk
      exact .inl ⟨rfl, (Option.some.inj hr').symm, horph, hp⟩
    · cases hr'
  · rw [record?_retire_other t pid status (h.not_own_child hr) ho] at hr'
    refine .inr ⟨ho, ?_⟩
    by_cases hm : other ∈ record.children
    · rw [if_pos hm] at hr'
      obtain ⟨r, hro, hfo⟩ := Option.bind_eq_some_iff.mp hr'
      unfold Forsaken at hfo
      split at hfo
      · cases hfo
      · rename_i hz
        refine ⟨r, hro, .inl ⟨hm, ?_, (Option.some.inj hfo).symm⟩⟩
        rw [Record.isRunning_eq]
        simpa using hz
    · rw [if_neg hm] at hr'
      exact ⟨record', hr', .inr ⟨hm, rfl⟩⟩

/-- A running process other than the one that ends is found afterwards, running, with the same parent and the same children. -/
theorem Forest.kept_retire (h : Forest t) (hr : t.record? pid = some record) (status : ExitStatus) {other : Pid} {r : Record}
    (hne : other ≠ pid) (hro : t.record? other = some r) (hi : r.isRunning = true) :
    ∃ r', (t.retire pid record status).record? other = some r' ∧ r'.isRunning = true ∧ r'.parent = r.parent ∧
      r'.children = r.children := by
  have hrec := record?_retire_other t pid status (h.not_own_child hr) hne
  rw [hro, Option.bind_some] at hrec
  by_cases hm : other ∈ record.children
  · have hz : r.isZombie = false := by simpa [Record.isRunning_eq] using hi
    rw [if_pos hm, Forsaken, hz, if_neg Bool.false_ne_true] at hrec
    exact ⟨_, hrec, hi, rfl, rfl⟩
  · rw [if_neg hm] at hrec
    exact ⟨r, hrec, hi, rfl, rfl⟩

/-- Whoever runs after the end of a process is another, and ran before. -/
theorem Forest.ran_retire (h : Forest t) (hr : t.record? pid = some record) (status : ExitStatus) {other : Pid}
    (hi : (t.retire pid record status).isRunning other = true) : other ≠ pid ∧ t.isRunning other = true := by
  obtain ⟨r', hr', hir⟩ := isRunning_eq_true_iff.mp hi
  rcases h.found_retire hr status hr' with ⟨-, rfl, -⟩ | ⟨hne, r, hro, ⟨-, hi', -⟩ | ⟨-, rfl⟩⟩
  · cases hir
  · exact ⟨hne, isRunning_eq_true_iff.mpr ⟨r, hro, hi'⟩⟩
  · exact ⟨hne, isRunning_eq_true_iff.mpr ⟨_, hro, hir⟩⟩

/-- A child of another process than the one that ends is found afterwards, and still points to its parent. -/
theorem Forest.child_retire (h : Forest t) (hr : t.record? pid = some record) (status : ExitStatus) {other child : Pid}
    {r : Record} (hne : other ≠ pid) (hro : t.record? other = some r) (hm : child ∈ r.children) :
    ∃ rc, (t.retire pid record status).record? child = some rc ∧ rc.parent = some other := by
  obtain ⟨hi, rc, hrc, hpc⟩ := h.listed other r child hro hm
  by_cases hcp : child = pid
  · -- The process that ends has a parent that runs, so its record stays until the status is taken.
    subst hcp
    cases hr.symm.trans hrc
    have horph := h.orphaned_eq_false hr hpc (isRunning_eq_true_iff.mpr ⟨r, hro, hi⟩)
    have hself := record?_retire_self t child status (h.not_own_child hr)
    rw [if_pos ((h.isAwaited_iff hr status).mpr ⟨horph, other, hpc⟩)] at hself
    exact ⟨_, hself, hpc⟩
  · have hnc : child ∉ record.children := by
      intro hmc
      exact hne (Option.some.inj (hpc.symm.trans (h.parent_of_mem hr hmc hrc)))
    have hrec := record?_retire_other t pid status (h.not_own_child hr) hcp
    rw [if_neg hnc] at hrec
    exact ⟨rc, hrec.trans hrc, hpc⟩

/-- Who has a parent other than the process that ends, and is no orphan, is still listed by that parent. -/
theorem Forest.minds_retire (h : Forest t) (hr : t.record? pid = some record) (status : ExitStatus) {other parent : Pid}
    {r : Record} (hro : t.record? other = some r) (hp : r.parent = some parent) (ho : r.orphaned = false) (hne : parent ≠ pid) :
    (t.retire pid record status).Minds parent other := by
  obtain ⟨rp, hrp, hi, hm⟩ := h.minded other r parent hro hp ho
  obtain ⟨rp', hrp', hi', -, hc⟩ := h.kept_retire hr status hne hrp hi
  exact ⟨rp', hrp', hi', hc ▸ hm⟩

/-- The end of a running process keeps a forest one. -/
theorem Forest.retire (h : Forest t) (hr : t.record? pid = some record) (hrun : record.isRunning = true) (status : ExitStatus) :
    Forest (t.retire pid record status) where
  counted := by
    have hc := runningCount_retire t pid status (h.not_own_child hr) hr hrun
    have hn : (t.retire pid record status).running = t.running - 1 := rfl
    have := h.counted
    omega
  fresh := by
    intro other record' hr'
    have hlt : ∀ r, t.record? other = some r → other.raw.toNat < t.next.toNat := fun r => h.fresh other r
    rcases h.found_retire hr status hr' with ⟨rfl, -⟩ | ⟨-, r, hro, -⟩
    · exact hlt record hr
    · exact hlt r hro
  younger := by
    intro other record' p hr' hp
    rcases h.found_retire hr status hr' with ⟨rfl, rfl, -⟩ | ⟨-, r, hro, ⟨-, -, rfl⟩ | ⟨-, rfl⟩⟩
    · exact h.younger other record p hr hp
    · exact h.younger other r p hro hp
    · exact h.younger other record' p hro hp
  listed := by
    intro other record' child hr' hm
    rcases h.found_retire hr status hr' with ⟨rfl, rfl, -⟩ | ⟨hne, r, hro, ⟨-, hi, rfl⟩ | ⟨-, rfl⟩⟩
    · exact absurd hm Std.ExtTreeSet.not_mem_empty
    · exact ⟨hi, h.child_retire hr status hne hro hm⟩
    · exact ⟨(h.listed other record' child hro hm).1, h.child_retire hr status hne hro hm⟩
  minded := by
    intro other record' p hr' hp ho
    rcases h.found_retire hr status hr' with ⟨rfl, rfl, -⟩ | ⟨hne, r, hro, ⟨-, -, rfl⟩ | ⟨hnc, rfl⟩⟩
    · exact h.minds_retire hr status hr hp ho (h.ne_parent hr hp)
    · cases ho
    · refine h.minds_retire hr status hro hp ho ?_
      rintro rfl
      obtain ⟨rp, hrp, -, hm⟩ := h.minded other record' p hro hp ho
      cases hr.symm.trans hrp
      exact hnc hm
  abandoned := by
    intro other record' p hr' hp ho
    rw [Bool.eq_false_iff]
    intro hi
    obtain ⟨hne, hip⟩ := h.ran_retire hr status hi
    rcases h.found_retire hr status hr' with ⟨rfl, rfl, horph, -⟩ | ⟨-, r, hro, ⟨hm, -, rfl⟩ | ⟨-, rfl⟩⟩
    · exact absurd (ho.symm.trans horph) (by simp)
    · have hpar : r.parent = some pid := h.parent_of_mem hr hm hro
      exact hne (Option.some.inj (hp.symm.trans hpar))
    · exact absurd (ho.symm.trans (h.orphaned_eq_false hro hp hip)) (by simp)
  awaited := by
    intro other record' hr' hi
    rcases h.found_retire hr status hr' with ⟨rfl, rfl, horph, hp⟩ | ⟨-, r, hro, ⟨-, hir, rfl⟩ | ⟨-, rfl⟩⟩
    · exact ⟨horph, hp⟩
    · exact absurd (hir.symm.trans hi) (by simp)
    · exact h.awaited other record' hro hi

end Retire

end ProcessTable

/-! ## Moves and runs -/

namespace Kernel

open ProcessTable

/-- The process table is a forest, and the next number is one above the number of processes started so far. -/
def Orderly {μ κ : Type} (k : Kernel μ κ) : Prop :=
  Forest k.processes ∧ k.processes.next.toNat = k.world.starts + 1

variable {μ κ : Type} {k k' : Kernel μ κ}

/-- Dropping the processes leaves a forest without trees. -/
theorem forest_dropProcesses (k : Kernel μ κ) : Forest k.dropProcesses.processes := forest_of_no_records rfl rfl

variable [Medium μ] [Console κ] {powers : Power → Prop}

/-- Every move that starts no process keeps a forest one. -/
theorem forest_of_move (h : Move powers k k') (hs : k'.world.starts = k.world.starts) (hf : Forest k.processes) :
    Forest k'.processes := by
  cases h with
  | note event he => exact hf
  | asleep thread => exact hf.queue _
  | awake thread => exact hf.queue _
  | enrolled hp info he => simp [World.starts, Effect.isStart] at hs
  | reaped hp hr => exact hf.reap hr
  | memory hl memory => exact hf.putLive hl _
  | opened hp hl ho => exact hf.putLive hl _
  | notOpened hp ho => exact hf
  | closed hp hl hc => exact hf.putLive hl _
  | unlinked name hp => exact hf
  | read hp hl hr => exact hf.putLive hl _
  | notRead hp hr => exact hf
  | written hp hl hw => exact hf.putLive hl _
  | notWritten hp hw => exact hf
  | ended pid status hp =>
    rcases endProcess_cases k pid status with he | ⟨record, process, hr, hproc, he⟩
    · rw [he]
      exact hf
    · rw [he]
      exact hf.retire hr (Record.isRunning_of_process? hproc) status
  | shutDown hp =>
    rw [processes_shutDown]
    split
    · exact hf
    · exact forest_dropProcesses k
  | dropped hp => exact forest_dropProcesses k

/-- Every move keeps an orderly kernel orderly, as long as the numbers last. -/
theorem orderly_of_move (h : Move powers k k') (hs : k'.world.starts < UInt32.size - 1) (ho : k.Orderly) : k'.Orderly := by
  obtain ⟨hf, hn⟩ := ho
  rcases starts_of_move h with ⟨he, hn'⟩ | ⟨-, he, parent, program, image, pid, hen⟩
  · exact ⟨forest_of_move h he hf, by rw [hn', hn, he]⟩
  · have hnext : k.processes.next.toNat + 1 < UInt32.size := by omega
    refine ⟨hf.enrol hen hnext, ?_⟩
    rw [(enrol_ok hen).2.1, UInt32.toNat_add, he, ← hn]
    exact Nat.mod_eq_of_lt hnext

end Kernel

namespace Machine

variable {μ κ : Type} [Medium μ] [Console κ] {allowed : Call → Prop} {settings : Settings} {m : Machine μ κ}

/-- What holds before the first call and is kept by every move holds of every machine reached, as long as the numbers last. -/
theorem Reached.keeps {P : Kernel μ κ → Prop} (h : Reached allowed settings m) (hs : m.kernel.world.starts < UInt32.size - 1)
    (hstart : ∀ medium console, P (.create settings medium console))
    (hmove : ∀ k k' : Kernel μ κ, Kernel.Move (Power.within allowed) k k' → k'.world.starts < UInt32.size - 1 → P k → P k') :
    P m.kernel := by
  obtain ⟨medium, console, hl⟩ := h
  exact (moves_of_leads hl).keeps hs (hstart medium console) hmove

/-- Every kernel that a run reaches is orderly, as long as the numbers last. -/
theorem Reached.orderly (h : Reached allowed settings m) (hs : m.kernel.world.starts < UInt32.size - 1) : m.kernel.Orderly :=
  h.keeps hs (fun _ _ => ⟨ProcessTable.forest_of_no_records rfl rfl, rfl⟩) fun _ _ => Kernel.orderly_of_move

end Machine

end Nucleus
