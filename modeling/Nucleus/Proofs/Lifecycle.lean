import Nucleus.Proofs.Deliveries
import Nucleus.Proofs.Spawning
import Nucleus.Proofs.Consistency

/-!
# A process lives once

What is to be seen of a process in the table is a course in one direction: it is absent, runs, has ended for a while perhaps, and
is absent from then on (`Course`). Meanwhile its record ages: its parent never changes, an orphan stays one, its status is set
when it ends and kept, and a child leaves it only when its status is taken or the process ends itself (`Record.Ages`). One change
of the table ages a record by what is told of it, and ages add up over the changes of a step.
-/

namespace Nucleus

/-! ## How a record ages -/

/-- A process runs as long as it has no status. -/
theorem Record.isRunning_eq_isNone (r : Record) : r.isRunning = r.status?.isNone := by
  rw [isRunning_eq, isZombie, Option.not_isSome]

/-- A record of a process is a later one of the same process, when meanwhile such deeds were done. -/
structure Record.Ages (done : Deed → Prop) (pid : Pid) (r r' : Record) : Prop where
  /-- The parent is the same. -/
  parent : r'.parent = r.parent
  /-- Who is an orphan stays one. -/
  orphaned : r.orphaned = true → r'.orphaned = true
  /-- The status is the same, or was set when the process ended. -/
  status : r'.status? = r.status? ∨ r.isRunning = true ∧ ∃ status, r'.status? = some status ∧ done (.ended pid status)
  /-- A child that is not listed any more was taken, or the process has ended. -/
  children : ∀ child ∈ r.children, child ∉ r'.children →
    (∃ status, done (.taken pid child status)) ∨ ∃ status, done (.ended pid status)

namespace Record.Ages

variable {done done' : Deed → Prop} {pid : Pid} {r r' r'' : Record}

theorem refl (r : Record) : r.Ages done pid r where
  parent := rfl
  orphaned := id
  status := .inl rfl
  children _ hm hn := absurd hm hn

/-- Who runs ran before. -/
theorem isRunning (h : r.Ages done pid r') (hr : r'.isRunning = true) : r.isRunning = true := by
  rcases h.status with hsame | ⟨hrun, -⟩
  · rwa [Record.isRunning_eq_isNone, ← hsame, ← Record.isRunning_eq_isNone]
  · exact hrun

theorem trans (h : r.Ages done pid r') (h' : r'.Ages done pid r'') : r.Ages done pid r'' where
  parent := h'.parent.trans h.parent
  orphaned ho := h'.orphaned (h.orphaned ho)
  status := by
    rcases h'.status with hsame | ⟨hrun, hset⟩
    · rw [hsame]
      exact h.status
    · exact .inr ⟨h.isRunning hrun, hset⟩
  children child hm hn := by
    by_cases hm' : child ∈ r'.children
    · exact h'.children child hm' hn
    · exact h.children child hm hm'

/-- The same when at least these deeds were done. -/
theorem mono (h : r.Ages done pid r') (hd : ∀ deed, done deed → done' deed) : r.Ages done' pid r' where
  parent := h.parent
  orphaned := h.orphaned
  status := h.status.imp_right fun ⟨hrun, status, hs, hdone⟩ => ⟨hrun, status, hs, hd _ hdone⟩
  children child hm hn :=
    (h.children child hm hn).imp (fun ⟨status, hdone⟩ => ⟨status, hd _ hdone⟩) fun ⟨status, hdone⟩ => ⟨status, hd _ hdone⟩

end Record.Ages

namespace ProcessTable

variable {powers : Power → Prop} {t t' : ProcessTable} {more : List Effect} {pid other caller child : Pid} {record' : Record}
  {done : Deed → Prop}

/-- Other belongings do not age a record. -/
theorem ages_putLive {process process' : Process} (hl : t.live pid = .ok process)
    (ho : (t.putLive pid process').record? other = some record') :
    ∃ record, t.record? other = some record ∧ record.Ages done other record' := by
  rw [record?_putLive] at ho
  split at ho
  · rename_i hp
    subst hp
    obtain ⟨record, hr, rfl⟩ := Option.map_eq_some_iff.mp ho
    obtain ⟨running, hrunning, hproc⟩ := live_eq_ok_iff.mp hl
    cases hr.symm.trans hrunning
    exact ⟨record, hr, rfl, id, .inl (Record.status?_eq_none hproc).symm, fun _ hm hn => absurd hm hn⟩
  · exact ⟨record', ho, .refl record'⟩

/-- An enrolment ages no record but that the parent has a child more. -/
theorem Forest.ages_enrol (hf : t.Forest) {parent : Option Pid} {program : String} {image : ProgramImage} {slots : Nat}
    (h : t.enrol parent program image slots = .ok (pid, t')) (ho : t'.record? other = some record') :
    other = pid ∨ ∃ record, t.record? other = some record ∧ record.Ages done other record' := by
  rw [record?_enrol h hf.free] at ho
  split at ho
  · exact .inl ‹_›
  · split at ho
    · obtain ⟨record, hr, rfl⟩ := Option.map_eq_some_iff.mp ho
      exact .inr ⟨record, hr, rfl, id, .inl rfl, fun c hm hn => absurd (Std.ExtTreeSet.mem_insert.mpr (.inr hm)) hn⟩
    · exact .inr ⟨record', ho, .refl record'⟩

/-- When a status is taken, the one who takes it has a child less. -/
theorem Forest.ages_reap (hf : t.Forest) {status : ExitStatus} {records : Records}
    (h : t.reap caller child = .reaped status records) (hd : done (.taken caller child status))
    (ho : records[other]? = some record') : ∃ record, t.record? other = some record ∧ record.Ages done other record' := by
  rw [record?_reap h (hf.reap_ne h)] at ho
  split at ho
  · cases ho
  · split at ho
    · rename_i hc
      subst hc
      obtain ⟨record, hr, rfl⟩ := Option.map_eq_some_iff.mp ho
      refine ⟨record, hr, rfl, id, .inl rfl, fun c hm hn => .inl ⟨status, ?_⟩⟩
      -- The only child that is not listed any more is the one that was taken.
      have hc : child = c := by
        by_contra hne
        exact hn (Std.ExtTreeSet.mem_erase.mpr ⟨by simpa using hne, hm⟩)
      exact hc ▸ hd
    · exact ⟨record', ho, .refl record'⟩

/-- When a process ends its status is set and its children leave it, and they become orphans. -/
theorem Forest.ages_retire (hf : t.Forest) {record : Record} {process : Process} (hr : t.record? pid = some record)
    (hp : record.process? = some process) (status : ExitStatus) (hd : done (.ended pid status))
    (ho : (t.retire pid record status).record? other = some record') :
    ∃ record, t.record? other = some record ∧ record.Ages done other record' := by
  rcases hf.found_retire hr status ho with ⟨rfl, rfl, -⟩ | ⟨-, r, hold, ⟨-, -, rfl⟩ | ⟨-, rfl⟩⟩
  · exact ⟨record, hr, rfl, id, .inr ⟨Record.isRunning_of_process? hp, status, rfl, hd⟩, fun c hm hn => .inr ⟨status, hd⟩⟩
  · exact ⟨r, hold, rfl, fun _ => rfl, .inl rfl, fun _ hm hn => absurd hm hn⟩
  · exact ⟨record', hold, .refl record'⟩

/-- Whoever is found after a change has just got the next number, or was there before and has aged by what is told. -/
theorem Change.ages (h : Change powers t more t') (hf : t.Forest) (ho : t'.record? other = some record') :
    other = ⟨t.next⟩ ∨
      ∃ record, t.record? other = some record ∧ record.Ages (· ∈ more.filterMap Effect.deed?) other record' := by
  cases h with
  | quiet hq => exact .inr ⟨record', ho, .refl record'⟩
  | owned hl process' hq => exact .inr (ages_putLive hl ho)
  | asleep hp => exact .inr ⟨record', ho, .refl record'⟩
  | awake hp => exact .inr ⟨record', ho, .refl record'⟩
  | enrolled hp info he =>
    rcases hf.ages_enrol he ho with rfl | hold
    · exact .inl (enrol_ok he).1
    · exact .inr hold
  | reaped hp hr => exact .inr (hf.ages_reap hr (List.mem_singleton_self _) ho)
  | ended hp status hr hproc hq =>
    refine .inr (hf.ages_retire hr hproc status ?_ ho)
    rw [List.filterMap_append]
    exact List.mem_append_right _ (List.mem_singleton_self _)
  | cleared hq =>
    rw [clear, record?, Std.ExtTreeMap.getElem?_empty] at ho
    cases ho

end ProcessTable

namespace Kernel

variable {μ κ : Type} {powers : Power → Prop} {k k' : Kernel μ κ}

/-- Something is told of whoever has a record. -/
theorem Chronicled.story_of_record? (hc : k.Chronicled) {pid : Pid} {record : Record}
    (h : k.processes.record? pid = some record) : k.world.story pid = record.story pid :=
  hc.known pid _ (by rw [ProcessTable.told?, h, Option.map_some])

variable [Medium μ] [Console κ]

/-- In a part of a run, whoever is found at its end is one of whom nothing had been told, or was there before and has aged by what
is told meanwhile. -/
theorem ages_of_moves (h : Moves powers k k') (hb : k'.world.starts < UInt32.size - 1) (ho : k.Orderly) (hc : k.Chronicled) :
    ∃ more, k'.world.effects = k.world.effects ++ more ∧
      ∀ pid record', k'.processes.record? pid = some record' → k.world.story pid = [] ∨
        ∃ record, k.processes.record? pid = some record ∧ record.Ages (· ∈ more.filterMap Effect.deed?) pid record' := by
  refine (h.keeps (P := fun k₁ => (k₁.Orderly ∧ k₁.Chronicled) ∧ ∃ more, k₁.world.effects = k.world.effects ++ more ∧
    ∀ pid record₁, k₁.processes.record? pid = some record₁ → k.world.story pid = [] ∨
      ∃ record, k.processes.record? pid = some record ∧ record.Ages (· ∈ more.filterMap Effect.deed?) pid record₁)
    hb ⟨⟨ho, hc⟩, [], (List.append_nil _).symm, fun pid record hr => .inr ⟨record, hr, .refl record⟩⟩ ?_).2
  rintro k₁ k₂ hm hb₂ ⟨⟨ho₁, hc₁⟩, before, hbefore, hages⟩
  have ho₂ : k₂.Orderly := orderly_of_move hm hb₂ ho₁
  have hchanged : Changed powers k₁ k₂ := changed_of_move hm
  refine ⟨⟨ho₂, hc₁.changed ho₁ ho₂ hchanged⟩, ?_⟩
  obtain ⟨next, hnext, hchange⟩ := hchanged
  refine ⟨before ++ next, by rw [hnext, hbefore, List.append_assoc], fun pid record₂ hr₂ => ?_⟩
  rcases hchange.ages ho₁.1 hr₂ with rfl | ⟨record₁, hr₁, hlater⟩
  · -- Nothing had been told of the process of the next number.
    have hnone := hc₁.unborn ⟨k₁.processes.next⟩ (Nat.le_refl _)
    rw [story_append hbefore, List.append_eq_nil_iff] at hnone
    exact .inl hnone.1
  · refine (hages pid record₁ hr₁).imp_right ?_
    rintro ⟨record, hr, hearlier⟩
    simp only [List.filterMap_append, List.mem_append]
    exact ⟨record, hr, (hearlier.mono fun _ => .inl).trans (hlater.mono fun _ => .inr)⟩

end Kernel

/-! ## The course of a life -/

/-- What is to be seen of a process in the table. -/
inductive Standing where
  /-- It has no record. -/
  | absent
  /-- It runs. -/
  | running
  /-- It has ended, and its status waits to be taken. -/
  | ended
  deriving DecidableEq, Repr

/-- What the table shows of a process. -/
def ProcessTable.standing (t : ProcessTable) (pid : Pid) : Standing :=
  match t.record? pid with
  | none => .absent
  | some record => if record.isRunning then .running else .ended

namespace ProcessTable

variable {t : ProcessTable} {pid : Pid} {record : Record}

theorem standing_of_record? (h : t.record? pid = some record) :
    t.standing pid = if record.isRunning then .running else .ended := by
  rw [standing, h]

theorem standing_eq_running_iff : t.standing pid = .running ↔ ∃ record, t.record? pid = some record ∧ record.isRunning = true := by
  unfold standing
  cases t.record? pid with
  | none => simp
  | some record => cases h : record.isRunning <;> simp [h]

theorem standing_eq_ended_iff : t.standing pid = .ended ↔ ∃ record, t.record? pid = some record ∧ record.isRunning = false := by
  unfold standing
  cases t.record? pid with
  | none => simp
  | some record => cases h : record.isRunning <;> simp [h]

end ProcessTable

/-- A life takes this course: for a time the process is absent, then it runs, then it has ended for a while, if at all, and then it is
absent for ever. It may not have come so far yet. -/
def Course (seen : List Standing) : Prop :=
  ∃ before running ended after, (running = 0 → ended = 0) ∧
    seen = .replicate (before + 1) .absent ++ .replicate running .running ++ .replicate ended .ended ++ .replicate after .absent

/-- What is seen last is not seen after something else. -/
theorem eq_zero_of_getLast? {seen : List Standing} {n : Nat} {x last : Standing}
    (h : (seen ++ .replicate n x).getLast? = some last) (hne : last ≠ x) : n = 0 := by
  cases n with
  | zero => rfl
  | succ n =>
    rw [List.replicate_succ', ← List.append_assoc, List.getLast?_concat] at h
    exact absurd (Option.some.inj h).symm hne

/-- A course goes on: a process runs next only if it runs or never ran, and has ended next only if it was there. -/
theorem Course.snoc {seen : List Standing} {last next : Standing} (h : Course seen) (hlast : seen.getLast? = some last)
    (hrun : next = .running → last = .running ∨ .running ∉ seen) (hend : next = .ended → last ≠ .absent) :
    Course (seen ++ [next]) := by
  obtain ⟨before, running, ended, after, hsome, rfl⟩ := h
  cases next with
  | absent => exact ⟨before, running, ended, after + 1, hsome, by simp [List.replicate_succ']⟩
  | running =>
    rcases hrun rfl with rfl | hnever
    · -- It runs, so it has not ended.
      obtain rfl := eq_zero_of_getLast? hlast (by simp)
      rw [List.replicate_zero, List.append_nil] at hlast
      obtain rfl := eq_zero_of_getLast? hlast (by simp)
      exact ⟨before, running + 1, 0, 0, fun _ => rfl, by simp [List.replicate_succ']⟩
    · -- It never ran, so it was absent all the time.
      obtain rfl : running = 0 := by
        by_contra hne
        exact hnever (by simp [hne])
      obtain rfl := hsome rfl
      exact ⟨before + after, 1, 0, 0, fun _ => rfl, by simp [Nat.add_right_comm]⟩
  | ended =>
    obtain rfl := eq_zero_of_getLast? hlast (hend rfl)
    refine ⟨before, running, ended + 1, 0, fun hz => ?_, by simp [List.replicate_succ']⟩
    -- Had it never run, it would be absent.
    obtain rfl := hz
    obtain rfl := hsome rfl
    simp_all [List.replicate_succ']

namespace Machine

variable {μ κ : Type} [Medium μ] [Console κ] {allowed : Call → Prop} {m m' : Machine μ κ} {r : Machine μ κ × Option Outcome}
  {pid : Pid}

/-- Whatever is told in a step is done in it. -/
theorem does_of_told (h : Step allowed m r) {more : List Effect} (he : r.1.kernel.world.effects = m.kernel.world.effects ++ more)
    {deed : Deed} (hd : deed ∈ more.filterMap Effect.deed?) : Does m r deed := by
  have hmem : deed ∈ Effect.story more deed.subject := List.mem_filter.mpr ⟨hd, by simp⟩
  have hadded := Kernel.story_append he deed.subject
  rcases story_of_step h with ⟨done, hdone⟩ | hsame
  · rw [hdone.story] at hadded
    rw [← List.append_cancel_left hadded] at hmem
    split at hmem
    · rwa [List.mem_singleton.mp hmem]
    · cases hmem
  · rw [hsame] at hadded
    rw [List.self_eq_append_right.mp hadded] at hmem
    cases hmem

/-- Whoever is found after a step is one of whom nothing had been told, or was there before and has aged by what was done. -/
theorem ages_of_step (h : Step allowed m r) (hb : r.1.kernel.world.starts < UInt32.size - 1) (ho : m.kernel.Orderly)
    (hc : m.kernel.Chronicled) {record' : Record} (hr' : r.1.kernel.processes.record? pid = some record') :
    m.kernel.world.story pid = [] ∨
      ∃ record, m.kernel.processes.record? pid = some record ∧ record.Ages (Does m r) pid record' := by
  obtain ⟨more, he, hages⟩ := Kernel.ages_of_moves (moves_of_step h) hb ho hc
  refine (hages pid record' hr').imp_right ?_
  rintro ⟨record, hr, ha⟩
  exact ⟨record, hr, ha.mono fun _ => does_of_told h he⟩

/-- Whoever is found after a step and was not told of before it runs. -/
theorem isRunning_of_step (h : Step allowed m r) (hc : r.1.kernel.Chronicled) (hnone : m.kernel.world.story pid = [])
    {record' : Record} (hr' : r.1.kernel.processes.record? pid = some record') : record'.isRunning = true := by
  have hstory := hc.story_of_record? hr'
  rw [Record.isRunning_eq_isNone]
  -- In a step not more than one thing is told of a process, so it is not told to have ended.
  cases hs : record'.status? with
  | none => rfl
  | some status =>
    rw [Record.story, hs] at hstory
    rcases story_of_step h with ⟨deed, hd⟩ | hsame
    · rw [hd.story, hnone] at hstory
      split at hstory <;> simp at hstory
    · rw [hsame, hnone] at hstory
      simp at hstory

/-- What is to be seen of a process along a run. -/
def observed (pid : Pid) (m : Machine μ κ) (steps : List (Moment μ κ)) : List Standing :=
  m.kernel.processes.standing pid :: steps.map fun moment => moment.2.1.kernel.processes.standing pid

omit [Medium μ] [Console κ] in
theorem observed_concat (pid : Pid) (m : Machine μ κ) (steps : List (Moment μ κ)) (moment : Moment μ κ) :
    observed pid m (steps ++ [moment]) = observed pid m steps ++ [moment.2.1.kernel.processes.standing pid] := by
  simp [observed]

/-- The last thing to be seen is what is to be seen at the end. -/
theorem Runs.getLast?_observed {steps : List (Moment μ κ)} (h : Runs allowed m steps m') (pid : Pid) :
    (observed pid m steps).getLast? = some (m'.kernel.processes.standing pid) := by
  cases h with
  | refl => rfl
  | step hrun hs => rw [observed_concat, List.getLast?_concat]

section Life

variable {settings : Settings} {medium : μ} {console : κ} {steps : List (Moment μ κ)}

/-- A run from before the first call shows the course of a life, and something has been told of whom it shows running. -/
theorem Runs.course (h : Runs allowed (start settings medium console) steps m) (hb : m.kernel.world.starts < UInt32.size - 1)
    (pid : Pid) :
    Course (observed pid (start settings medium console) steps) ∧
      (.running ∈ observed pid (start settings medium console) steps → m.kernel.world.story pid ≠ []) := by
  generalize hm : start settings medium console = first at h ⊢
  induction h with
  | refl =>
    subst hm
    have habsent : observed pid (start settings medium console) [] = [.absent] := rfl
    rw [habsent]
    exact ⟨⟨0, 0, 0, 0, fun _ => rfl, rfl⟩, by simp⟩
  | @step m₁ steps r hrun hs ih =>
    have hle : m₁.kernel.world.starts ≤ r.1.kernel.world.starts := Kernel.starts_le_of_moves (moves_of_step hs)
    have hb₁ : m₁.kernel.world.starts < UInt32.size - 1 := Nat.lt_of_le_of_lt hle hb
    subst hm
    have ho : m₁.kernel.Orderly := hrun.reached.orderly hb₁
    have hc : m₁.kernel.Chronicled := hrun.reached.chronicled hb₁
    have hc' : r.1.kernel.Chronicled := (hrun.step hs).reached.chronicled hb
    obtain ⟨hcourse, hborn⟩ := ih hb₁
    rw [observed_concat]
    refine ⟨hcourse.snoc (hrun.getLast?_observed pid) (fun hnext => ?_) fun hnext => ?_, fun hmem => ?_⟩
    · obtain ⟨record', hr', hi⟩ := ProcessTable.standing_eq_running_iff.mp hnext
      rcases ages_of_step hs hb ho hc hr' with hnone | ⟨record, hr, ha⟩
      · exact .inr fun hmem => hborn hmem hnone
      · exact .inl (ProcessTable.standing_eq_running_iff.mpr ⟨record, hr, ha.isRunning hi⟩)
    · obtain ⟨record', hr', hi⟩ := ProcessTable.standing_eq_ended_iff.mp hnext
      rcases ages_of_step hs hb ho hc hr' with hnone | ⟨record, hr, -⟩
      · cases (isRunning_of_step hs hc' hnone hr').symm.trans hi
      · rw [ProcessTable.standing_of_record? hr]
        split <;> simp
    · rcases List.mem_append.mp hmem with hmem | hmem
      · -- What was told stays told.
        obtain ⟨more, he, -⟩ := (changes_of_step hs).exists_append
        rw [Kernel.story_append he]
        simp [hborn hmem]
      · obtain ⟨record', hr', -⟩ := ProcessTable.standing_eq_running_iff.mp (List.mem_singleton.mp hmem).symm
        rw [hc'.story_of_record? hr']
        exact List.cons_ne_nil _ _

/-- Every process lives once, as long as the process numbers last. Along every run it is absent, runs, has ended for a while at most,
and is absent from then on, and its number is given out once at most. In every step, as long as it has a record, its parent is the
same, its status is set just when it ends and stays the same then, and it lists a child no longer only if it takes the status of
that child in this step or ends in it. A process without a parent and an orphan are never seen to have ended. -/
theorem one_way_life (h : Runs allowed (start settings medium console) steps m)
    (hb : m.kernel.world.starts < UInt32.size - 1) (pid : Pid) :
    Course (observed pid (start settings medium console) steps) ∧
    m.kernel.world.handedOut.count pid ≤ 1 ∧
    ∀ moment ∈ steps, ∀ record record', moment.1.kernel.processes.record? pid = some record →
      moment.2.1.kernel.processes.record? pid = some record' →
        record.Ages (Does moment.1 moment.2) pid record' ∧
        (record.parent = none ∨ record.orphaned = true → record'.isRunning = true) := by
  refine ⟨(h.course hb pid).1, ?_, fun moment hmoment record record' hr hr' => ?_⟩
  · by_cases hout : pid ∈ m.kernel.world.handedOut
    · exact Nat.le_of_eq (h.reached.numbered.count_eq_one (by omega) hout)
    · rw [List.count_eq_zero.mpr hout]
      exact Nat.zero_le 1
  · obtain ⟨before, after, rfl⟩ := List.append_of_mem hmoment
    obtain ⟨hbefore, hs, hafter⟩ := h.split
    have hle : moment.2.1.kernel.world.starts ≤ m.kernel.world.starts := Kernel.starts_le_of_moves (moves_of_leads hafter.leads)
    have hle₁ : moment.1.kernel.world.starts ≤ moment.2.1.kernel.world.starts := Kernel.starts_le_of_moves (moves_of_step hs)
    have hb' : moment.2.1.kernel.world.starts < UInt32.size - 1 := Nat.lt_of_le_of_lt hle hb
    have hb₁ : moment.1.kernel.world.starts < UInt32.size - 1 := Nat.lt_of_le_of_lt hle₁ hb'
    have hc : moment.1.kernel.Chronicled := hbefore.reached.chronicled hb₁
    have ha : record.Ages (Does moment.1 moment.2) pid record' := by
      rcases ages_of_step hs hb' (hbefore.reached.orderly hb₁) hc hr' with hnone | ⟨old, hold, ha⟩
      · rw [hc.story_of_record? hr] at hnone
        cases hnone
      · cases hr.symm.trans hold
        exact ha
    refine ⟨ha, fun hkin => ?_⟩
    by_contra hi
    obtain ⟨horphaned, parent, hparent⟩ := ((hbefore.step hs).reached.orderly hb').1.awaited pid record' hr' (Bool.eq_false_iff.mpr hi)
    rcases hkin with hnone | horphan
    · cases (hparent.symm.trans ha.parent).trans hnone
    · cases (ha.orphaned horphan).symm.trans horphaned

end Life

/-- The first program of a family takes the status of the second, which is there no longer then. -/
theorem family_parts :
    let m₀ := start {} (RamDisk.empty none) Silent.mk
    let m := m₀.play family
    let r := m.call ⟨0⟩ (.join ⟨1⟩ ⟨2⟩)
    (m.kernel.processes.standing ⟨2⟩ = .ended ∧ r.1.kernel.processes.standing ⟨2⟩ = .absent) ∧
    (m.kernel.processes.isChild ⟨1⟩ ⟨2⟩ = true ∧ r.1.kernel.processes.isChild ⟨1⟩ ⟨2⟩ = false) ∧
    ∃ steps, Course (observed ⟨1⟩ m₀ (steps ++ [(m, r)])) ∧ r.1.kernel.world.handedOut.count ⟨1⟩ ≤ 1 ∧
      ∀ moment ∈ steps ++ [(m, r)], ∀ record record', moment.1.kernel.processes.record? ⟨1⟩ = some record →
        moment.2.1.kernel.processes.record? ⟨1⟩ = some record' →
          record.Ages (Does moment.1 moment.2) ⟨1⟩ record' ∧
          (record.parent = none ∨ record.orphaned = true → record'.isRunning = true) := by
  intro m₀ m r
  obtain ⟨steps, hsteps⟩ := leads_iff_exists_runs.mp
    (leads_iff_exists_play.mpr ⟨family, by decide, rfl⟩ : Leads (fun _ => True) m₀ m)
  have hrun : Runs (fun _ => True) m₀ (steps ++ [(m, r)]) r.1 := hsteps.step (.call m ⟨0⟩ (.join ⟨1⟩ ⟨2⟩) trivial)
  exact ⟨by decide, by decide, steps, one_way_life hrun (by decide) ⟨1⟩⟩

end Machine

end Nucleus
