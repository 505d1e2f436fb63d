import Nucleus.Proofs.StatusPlace

/-!
# The code of an abnormal end

All exceptions share one exit code, and no error number is like it. But it is a code like any other: a process may also pass it when it
ends itself, and its parent cannot tell the two ends apart. `abnormal_code_iff` says just when a system call that asks for a child
resumes with it. What the call takes is the status that the child has ended with last; this is so in all runs, also when a number is
given out a second time (`Runs.exists_endedLast`).
-/

namespace Nucleus

/-! ## Codes -/

/-- Codes keep their differences when they are widened. -/
theorem toInt64_inj {a b : Int32} : a.toInt64 = b.toInt64 ↔ a = b := by
  rw [← Int64.toInt_inj, Int32.toInt_toInt64, Int32.toInt_toInt64, Int32.toInt_inj]

/-- No error number is the code of an abnormal end. -/
theorem KernelError.errno_ne_abnormalCode (e : KernelError) : e.errno ≠ abnormalCode.toInt64 := by
  cases e with
  | load cause => exact (by decide : (-8 : Int64) ≠ abnormalCode.toInt64)
  | storage cause => cases cause <;> decide
  | _ => decide

/-- The code of an abnormal end is that of every exception, and that of a process that has passed it. -/
theorem ExitStatus.code_eq_abnormalCode_iff {status : ExitStatus} :
    status.code = abnormalCode ↔ status.isNormal = false ∨ status = .normal abnormalCode := by
  cases status with
  | normal passed => simp [ExitStatus.code, isNormal]
  | abnormal cause => simp [ExitStatus.code, isNormal]

/-- The process that a call ends for an exception, and the exception. -/
def Call.raised? : Call → Option (Pid × Cause)
  | .trap pid cause _ => if cause = .syscall then none else some (pid, cause)
  | .exit pid (.abnormal cause) => some (pid, cause)
  | .endProcess pid (.abnormal cause) => some (pid, cause)
  | _ => none

/-- A word passes the code of an abnormal end in its low half just when this is the word of the least code. -/
theorem toInt32_eq_abnormalCode_iff {word : UInt32} : word.toInt32 = abnormalCode ↔ word = 0x80000000 := by
  constructor
  · intro h
    rw [← UInt32.toUInt32_toInt32 word, h]
    rfl
  · rintro rfl
    rfl

/-! ## The status that waits to be taken -/

/-- A process that has a status does not run. -/
theorem Record.isRunning_eq_false {record : Record} {status : ExitStatus} (h : record.status? = some status) :
    record.isRunning = false := by
  rw [isRunning_eq, isZombie, h]
  rfl

namespace ProcessTable

open Records

/-- The status that a process has ended with, while it waits to be taken. -/
def statusOf (t : ProcessTable) (pid : Pid) : Option ExitStatus := (t.record? pid).bind Record.status?

variable {powers : Power → Prop} {t t' : ProcessTable} {more : List Effect} {pid caller child : Pid} {status : ExitStatus}

theorem statusOf_eq_some_iff :
    t.statusOf pid = some status ↔ ∃ record, t.record? pid = some record ∧ record.status? = some status := Option.bind_eq_some_iff

/-- Other belongings of a running process are no status. -/
theorem statusOf_putLive {owner : Pid} {process : Process} (hl : t.live owner = .ok process) (process' : Process) :
    (t.putLive owner process').statusOf pid = t.statusOf pid := by
  unfold statusOf
  rw [record?_putLive]
  split
  · rename_i he
    obtain ⟨record, hr, hp⟩ := live_eq_ok_iff.mp hl
    rw [← he, hr, Option.map_some, Option.bind_some, Option.bind_some, Record.status?_eq_none hp]
    rfl
  · rfl

/-- A new process has no status, and no other gets one by its enrolment. -/
theorem statusOf_enrol {parent : Option Pid} {program : String} {image : ProgramImage} {slots : Nat} {new : Pid}
    (h : t.enrol parent program image slots = .ok (new, t')) (hs : t'.statusOf pid = some status) :
    pid ≠ new ∧ t.statusOf pid = some status := by
  obtain ⟨record', hr', hs'⟩ := statusOf_eq_some_iff.mp hs
  have hi := Record.isRunning_eq_false hs'
  constructor
  · rintro rfl
    obtain ⟨record, hr, hrun⟩ := isRunning_eq_true_iff.mp (isRunning_enrol h)
    cases hr.symm.trans hr'
    exact Bool.false_ne_true (hi.symm.trans hrun)
  · rcases found_enrol h hr' with ⟨-, hrun⟩ | ⟨record, hr, hsame⟩
    · exact absurd (hi.symm.trans hrun) Bool.false_ne_true
    · exact statusOf_eq_some_iff.mpr ⟨record, hr, hsame hi ▸ hs'⟩

/-- A status that is taken is that of the child, which has none any more, and all others have the one that they had. -/
theorem statusOf_reap {taken : ExitStatus} {records : Records} (h : t.reap caller child = .reaped taken records) :
    t.statusOf child = some taken ∧
      ∀ pid status, statusOf { t with records } pid = some status → pid ≠ child ∧ t.statusOf pid = some status := by
  constructor
  · obtain ⟨-, ended, -, -, he, hz, -⟩ := reap_reaped h
    exact statusOf_eq_some_iff.mpr ⟨ended, he, by rw [Record.status?, hz]⟩
  · intro pid status hs
    obtain ⟨record', hr', hs'⟩ := statusOf_eq_some_iff.mp hs
    constructor
    · rintro rfl
      cases (reap_of_reaped h).1.symm.trans hr'
    · obtain ⟨record, hr, hlife, -⟩ := found_reap h hr'
      exact statusOf_eq_some_iff.mpr ⟨record, hr, by rw [Record.status?, ← hlife]; exact hs'⟩

/-- Whoever has a status after the end of a process is that process, or had it before. -/
theorem statusOf_retire {ending : Pid} {record : Record} (hr : t.record? ending = some record) {last : ExitStatus}
    (h : (t.retire ending record last).statusOf pid = some status) :
    pid = ending ∧ status = last ∨ pid ≠ ending ∧ t.statusOf pid = some status := by
  obtain ⟨record', hr', hs⟩ := statusOf_eq_some_iff.mp h
  obtain ⟨before, hbefore, hended⟩ := found_retire hr last hr'
  rcases hended (Record.isRunning_eq_false hs) with ⟨hself, rfl⟩ | ⟨hne, rfl⟩
  · exact .inl ⟨hself, (Option.some.inj hs).symm⟩
  · exact .inr ⟨hne, statusOf_eq_some_iff.mpr ⟨record', hbefore, hs⟩⟩

/-- Whoever has a status after a change has just ended with it, or had it before and nothing was told of the process. -/
theorem Change.statusOf (h : Change powers t more t') (hs : t'.statusOf pid = some status) :
    Effect.story more pid = [.ended pid status] ∨ Effect.story more pid = [] ∧ t.statusOf pid = some status := by
  have hquiet : ∀ {more : List Effect}, (∀ effect ∈ more, effect.isQuiet = true) → Effect.story more pid = [] :=
    fun hq => Effect.story_eq_nil pid fun effect hm => Effect.deed?_of_isQuiet (hq effect hm)
  cases h with
  | quiet hq => exact .inr ⟨hquiet hq, hs⟩
  | owned hl process' hq => exact .inr ⟨hquiet hq, statusOf_putLive hl process' ▸ hs⟩
  | asleep hp => exact .inr ⟨rfl, hs⟩
  | awake hp => exact .inr ⟨rfl, hs⟩
  | enrolled hp info he =>
    obtain ⟨hne, hold⟩ := statusOf_enrol he hs
    rw [Effect.story_spawned, if_neg fun e => hne e.symm]
    exact .inr ⟨rfl, hold⟩
  | reaped hp hr =>
    obtain ⟨hne, hold⟩ := (statusOf_reap hr).2 pid status hs
    rw [Effect.story_taken, if_neg fun e => hne e.symm]
    exact .inr ⟨rfl, hold⟩
  | ended hp last hr hproc hq =>
    rw [Effect.story_append, Effect.story_append, hquiet hq, Effect.story_unblocked, Effect.story_ended]
    rcases statusOf_retire hr hs with ⟨rfl, rfl⟩ | ⟨hne, hold⟩
    · rw [if_pos rfl]
      exact .inl rfl
    · rw [if_neg fun e => hne e.symm]
      exact .inr ⟨rfl, hold⟩
  | cleared hq =>
    rw [ProcessTable.statusOf, clear, record?, Std.ExtTreeMap.getElem?_empty] at hs
    cases hs

end ProcessTable

namespace Kernel

variable {μ κ : Type} {k k' : Kernel μ κ} {powers : Power → Prop} {caller child : Pid} {target : Address} {status : ExitStatus}

/-- A process that ends itself by system call does not end for an exception. -/
theorem exitedBy_ne_abnormal {pid ending : Pid} {number : UInt64} {args : Arguments} {cause : Cause} :
    k.exitedBy pid number args ≠ some (ending, .abnormal cause) := by
  unfold exitedBy
  split_ifs <;> simp

/-- A call gives a process the status of an exception just when it ends it for this exception. -/
theorem endOf_abnormal_iff {c : Call} {pid : Pid} {cause : Cause} :
    k.endOf c = some (pid, .abnormal cause) ↔ c.raised? = some (pid, cause) := by
  cases c with
  | systemCall ending number args => exact iff_of_false exitedBy_ne_abnormal (by simp [Call.raised?])
  | trap ending raised frame =>
    by_cases hc : raised = .syscall
    · rw [endOf, Call.raised?, if_pos hc, if_pos hc]
      exact iff_of_false exitedBy_ne_abnormal (by simp)
    · rw [endOf, Call.raised?, if_neg hc, if_neg hc]
      simp
  | exit ending status => cases status <;> simp [endOf, Call.raised?]
  | endProcess ending status => cases status <;> simp [endOf, Call.raised?]
  | _ => simp [endOf, Call.raised?]

/-- Of a process whose status waits to be taken, the last thing told is that it ended with this status. -/
def Remembers (k : Kernel μ κ) : Prop :=
  ∀ pid status, k.processes.statusOf pid = some status → (k.world.story pid).getLast? = some (.ended pid status)

theorem remembers_create (settings : Settings) (medium : μ) (console : κ) : (create settings medium console).Remembers := by
  intro pid status h
  rw [ProcessTable.statusOf, ProcessTable.record?, create, ProcessTable.empty, Std.ExtTreeMap.getElem?_empty] at h
  cases h

/-- This is so after every change. -/
theorem Remembers.changed (hk : k.Remembers) (h : Changed powers k k') : k'.Remembers := by
  obtain ⟨more, he, hchange⟩ := h
  intro pid status hs
  rw [story_append he]
  rcases hchange.statusOf hs with hended | ⟨hnone, hold⟩
  · rw [hended, List.getLast?_concat]
  · rw [hnone, List.append_nil]
    exact hk pid status hold

theorem Remembers.changes (hk : k.Remembers) (h : Changes powers k k') : k'.Remembers := by
  induction h with
  | refl => exact hk
  | tail _ hc ih => exact ih.changed hc

/-- A process can be given a status: it wants none stored, or it runs and the place for it can be written. -/
def GoodPlace (k : Kernel μ κ) (caller : Pid) (target : Address) : Prop :=
  target.isNull = false → ∃ process, k.processes.live caller = .ok process ∧ process.memory.check target 4 .write = .ok ()

/-- A status is stored in a good place, and its code is returned. -/
theorem storeCode_of_goodPlace (h : k.GoodPlace caller target) (status : ExitStatus) :
    (k.storeCode caller target status).1 = .ok status.code.toInt64 := by
  cases hn : target.isNull with
  | true => rw [storeCode_of_isNull hn]
  | false =>
    obtain ⟨process, hl, hc⟩ := h hn
    obtain ⟨memory, -, hstore⟩ := storeCode_of_check hn hl hc status
    rw [hstore]

/-- Otherwise an error is. -/
theorem storeCode_of_not_goodPlace (h : ¬k.GoodPlace caller target) (status : ExitStatus) :
    ∃ e, (k.storeCode caller target status).1 = .error e := by
  obtain ⟨hn, hbad⟩ := Classical.not_imp.mp h
  cases hl : k.processes.live caller with
  | error e =>
    refine ⟨e, ?_⟩
    rw [storeCode, if_neg (by simp [hn])]
    simp only [changeMemory, hl]
  | ok process => exact ⟨_, congrArg Prod.fst (storeCode_of_badPlace ⟨hn, process, hl, fun hc => hbad ⟨process, hl, hc⟩⟩ status)⟩

/-- A place is as good after a status was taken as before. -/
theorem goodPlace_congr (h : ∀ process, k'.processes.live caller = .ok process ↔ k.processes.live caller = .ok process) :
    k'.GoodPlace caller target ↔ k.GoodPlace caller target := by
  unfold GoodPlace
  simp only [h]

end Kernel

namespace Machine

variable {μ κ : Type} [Medium μ] [Console κ] {allowed : Call → Prop} {m m' : Machine μ κ} {r : Machine μ κ × Option Outcome}
  {thread : ThreadId} {caller child pid : Pid} {target : Address} {trap : Option TrapFrame} {status : ExitStatus}

/-- In a step an exception ends a running process. -/
inductive Raises (m : Machine μ κ) : Machine μ κ × Option Outcome → Pid → Cause → Prop where
  /-- It is raised by the process, or whoever ends the process reports it. -/
  | call (thread : ThreadId) {c : Call} {pid : Pid} {cause : Cause} (h : c.raised? = some (pid, cause))
      (hr : m.kernel.processes.isRunning pid = true) : Raises m (m.call thread c) pid cause

/-- This is what gives a process an abnormal status. -/
theorem raises_iff {cause : Cause} : Raises m r pid cause ↔ Does m r (.ended pid (.abnormal cause)) := by
  constructor
  · rintro ⟨thread, hc, hr⟩
    exact .ends m thread (Kernel.endOf_abnormal_iff.mpr hc) hr
  · intro h
    cases h with
    | ends _ thread he hr => exact .call thread (Kernel.endOf_abnormal_iff.mp he) hr

/-- A system call that asks for a child takes its status and returns the code. -/
structure Succeeds (m : Machine μ κ) (r : Machine μ κ × Option Outcome) (thread : ThreadId) (caller child : Pid) (target : Address)
    (trap : Option TrapFrame) (status : ExitStatus) : Prop where
  /-- The status is taken. -/
  delivers : Delivers m r thread caller child (.systemCall target trap) status
  /-- It can be stored where the caller wants it. -/
  place : m.kernel.GoodPlace caller target

omit [Medium μ] [Console κ] in
/-- System calls that resume with the same value resume the same, and no others do. -/
theorem ofDisposition_resume_inj {a b : Int64} : Outcome.ofDisposition trap (.resume a) = .ofDisposition trap (.resume b) ↔ a = b := by
  constructor
  · intro h
    cases trap with
    | none =>
      cases h
      rfl
    | some frame =>
      cases h
      rfl
  · rintro rfl
    rfl

/-- A system call that takes a status returns its code if it can be stored, and an error otherwise. -/
theorem Delivers.resumes (h : Delivers m r thread caller child (.systemCall target trap) status) :
    (m.kernel.GoodPlace caller target → r.2 = some (.ofDisposition trap (.resume status.code.toInt64))) ∧
      (¬m.kernel.GoodPlace caller target → ∃ e : KernelError, r.2 = some (.ofDisposition trap (.resume e.errno))) := by
  obtain ⟨k, waiting, rfl, hlive⟩ := h.exists_finishJoin
  have hplace : k.GoodPlace caller target ↔ m.kernel.GoodPlace caller target := Kernel.goodPlace_congr (hlive caller)
  rw [Kernel.finishJoin_eq_answer]
  constructor
  · intro hgood
    rw [Kernel.storeCode_of_goodPlace (hplace.mpr hgood)]
    rfl
  · intro hbad
    obtain ⟨e, he⟩ := Kernel.storeCode_of_not_goodPlace (fun hgood => hbad (hplace.mp hgood)) status
    rw [he]
    exact ⟨e, rfl⟩

/-- One that succeeds returns the code. -/
theorem Succeeds.resumes (h : Succeeds m r thread caller child target trap status) :
    r.2 = some (.ofDisposition trap (.resume status.code.toInt64)) := h.delivers.resumes.1 h.place

/-- A system call that asks for a child sleeps, or resumes with an error, or succeeds. -/
theorem Joining.succeeds_or (h : Joining m r thread caller child target trap) :
    (∃ status, Succeeds m r thread caller child target trap status) ∨ r.2 = none ∨
      ∃ e : KernelError, r.2 = some (.ofDisposition trap (.resume e.errno)) := by
  rcases h.refused_or_asks with ⟨-, -, he⟩ | ha
  · exact .inr (.inr he)
  · rcases ha.delivers_or with ⟨status, hd⟩ | ⟨-, hn | he⟩
    · by_cases hgood : m.kernel.GoodPlace caller target
      · exact .inl ⟨status, hd, hgood⟩
      · exact .inr (.inr (hd.resumes.2 hgood))
    · exact .inr (.inl hn)
    · exact .inr (.inr ⟨_, he⟩)

/-- One that succeeds resumes with the code of an abnormal end just when this is the code of the status. -/
theorem Succeeds.resumes_abnormal_iff (h : Succeeds m r thread caller child target trap status) :
    r.2 = some (.ofDisposition trap (.resume abnormalCode.toInt64)) ↔ status.code = abnormalCode := by
  rw [h.resumes, Option.some_inj, ofDisposition_resume_inj, toInt64_inj]

section Ended

variable {settings : Settings} {medium : μ} {console : κ} {before : List (Moment μ κ)}

/-- Whatever run leads to a machine, of a process whose status waits to be taken it was told last that it ended with it. -/
theorem Runs.remembers (h : Runs allowed (start settings medium console) before m) : m.kernel.Remembers := by
  generalize hm : start settings medium console = first at h
  induction h with
  | refl =>
    subst hm
    exact Kernel.remembers_create settings medium console
  | step _ hs ih => exact ih.changes (changes_of_step hs)

/-- A step of a run is the last that did anything in the life of a process, and it ended it with a status. -/
def EndedLast (steps : List (Moment μ κ)) (pid : Pid) (ending : Moment μ κ) (status : ExitStatus) : Prop :=
  ∃ earlier later, steps = earlier ++ ending :: later ∧ Does ending.1 ending.2 (.ended pid status) ∧ LeaveAlone pid later

/-- A status that waits to be taken was set by a step after which nothing was done in the life of the process. -/
theorem Runs.exists_endedLast (h : Runs allowed (start settings medium console) before m)
    (hs : m.kernel.processes.statusOf pid = some status) : ∃ ending, EndedLast before pid ending status := by
  obtain ⟨deeds, htells, hstory⟩ := h.tells pid
  have hlast := h.remembers pid status hs
  rw [hstory, show (start settings medium console).kernel.world.story pid = [] from rfl, List.nil_append,
    List.getLast?_eq_some_iff] at hlast
  obtain ⟨front, rfl⟩ := hlast
  obtain ⟨earlier, ending, later, rfl, hdoes, -, hlater⟩ := htells.split
  exact ⟨ending, earlier, later, rfl, hdoes, hlater.leaveAlone⟩

/-- Its code is that of an abnormal end just when an exception ended the process, or the process has passed this very code. -/
theorem EndedLast.code_iff {steps : List (Moment μ κ)} {ending : Moment μ κ} (h : EndedLast steps pid ending status) :
    status.code = abnormalCode ↔ (∃ cause, Raises ending.1 ending.2 pid cause) ∨ status = .normal abnormalCode := by
  obtain ⟨-, -, -, hdoes, -⟩ := h
  rw [ExitStatus.code_eq_abnormalCode_iff]
  refine or_congr_left ⟨fun hs => ?_, fun ⟨cause, hc⟩ => ?_⟩
  · cases status with
    | normal passed => cases hs
    | abnormal cause => exact ⟨cause, raises_iff.mpr hdoes⟩
  · obtain ⟨-, rfl⟩ := Deed.ended.inj (hdoes.unique (raises_iff.mp hc) rfl)
    rfl

/-- After every run, a system call that asks for a child resumes with the code of an abnormal end just when it takes a status, for
which it has a place, and an exception ended the child last, or the child has ended with this very code. And whenever such a call
takes a status and has a place for it, it resumes with the code of the status, and the status is that of the step that ended the
child last; if the child passed a word to the kernel in this step to end itself, the code is that of an abnormal end just when the
low half of the word is the least number. -/
theorem abnormal_code_iff (h : Runs allowed (start settings medium console) before m)
    (hj : Joining m r thread caller child target trap) :
    (r.2 = some (.ofDisposition trap (.resume abnormalCode.toInt64)) ↔
      ∃ status ending, Succeeds m r thread caller child target trap status ∧ EndedLast before child ending status ∧
        ((∃ cause, Raises ending.1 ending.2 child cause) ∨ status = .normal abnormalCode)) ∧
    ∀ status, Succeeds m r thread caller child target trap status →
      r.2 = some (.ofDisposition trap (.resume status.code.toInt64)) ∧
      ∃ ending, EndedLast before child ending status ∧
        ∀ word, Exits ending.1 ending.2 child word →
          (r.2 = some (.ofDisposition trap (.resume abnormalCode.toInt64)) ↔ word.toUInt32 = 0x80000000) := by
  have hended : ∀ {status}, Succeeds m r thread caller child target trap status → ∃ ending, EndedLast before child ending status := by
    intro status hs
    obtain ⟨records, hreap⟩ := hs.delivers.taken
    exact h.exists_endedLast (ProcessTable.statusOf_reap hreap).1
  refine ⟨⟨fun hr => ?_, fun ⟨status, ending, hs, hlast, hcode⟩ => ?_⟩, fun status hs => ⟨hs.resumes, ?_⟩⟩
  · rcases hj.succeeds_or with ⟨status, hs⟩ | hn | ⟨e, he⟩
    · obtain ⟨ending, hlast⟩ := hended hs
      exact ⟨status, ending, hs, hlast, hlast.code_iff.mp (hs.resumes_abnormal_iff.mp hr)⟩
    · cases hr.symm.trans hn
    · -- An error has another number.
      have heq := ofDisposition_resume_inj.mp (Option.some.inj (he.symm.trans hr))
      exact absurd heq e.errno_ne_abnormalCode
  · exact hs.resumes_abnormal_iff.mpr (hlast.code_iff.mpr hcode)
  · obtain ⟨ending, hlast⟩ := hended hs
    refine ⟨ending, hlast, fun word hword => ?_⟩
    obtain ⟨-, -, -, hdoes, -⟩ := hlast
    -- The step ended the child once, with this word.
    obtain ⟨-, hstatus⟩ := Deed.ended.inj (hdoes.unique hword.does rfl)
    rw [hs.resumes_abnormal_iff, hstatus]
    exact toInt32_eq_abnormalCode_iff

end Ended

/-- A child that ends itself with the least number looks to its parent as if an exception had ended it. -/
theorem pretender_resumes :
    let m₁ := (start {} (RamDisk.empty none) Silent.mk).play errand
    let r₁ := m₁.call ⟨0⟩ (.systemCall ⟨2⟩ 1 ⟨0x80000000, 0, 0, 0⟩)
    let r := r₁.1.call ⟨0⟩ (.systemCall ⟨1⟩ 3 ⟨2, 0, 0, 0⟩)
    Exits m₁ r₁ ⟨2⟩ 0x80000000 ∧ Succeeds r₁.1 r ⟨0⟩ ⟨1⟩ ⟨2⟩ ⟨0⟩ none (.normal abnormalCode) ∧
      r.2 = some (.returned (.resume abnormalCode.toInt64)) := by
  intro m₁ r₁ r
  obtain ⟨steps, hsteps⟩ := leads_iff_exists_runs.mp
    (leads_iff_exists_play.mpr ⟨errand, by decide, rfl⟩ : Leads (fun _ => True) (start {} (RamDisk.empty none) Silent.mk) m₁)
  have hrun : Runs (fun _ => True) (start {} (RamDisk.empty none) Silent.mk) (steps ++ [(m₁, r₁)]) r₁.1 :=
    hsteps.step (.call m₁ _ _ trivial)
  have hrunning : r₁.1.kernel.halted = false := by decide
  have hmade : Made r₁.1 r ⟨0⟩ ⟨1⟩ ⟨2⟩ ⟨0⟩ none :=
    Made.call ⟨0⟩ (by rfl : (Call.systemCall ⟨1⟩ 3 ⟨2, 0, 0, 0⟩).joinArguments? = some (⟨1⟩, ⟨2, 0, 0, 0⟩, none)) hrunning (by decide)
  have hs : Succeeds r₁.1 r ⟨0⟩ ⟨1⟩ ⟨2⟩ ⟨0⟩ none (.normal abnormalCode) :=
    ⟨⟨.call r₁.1 ⟨0⟩ _ (by decide), ⟨_, by rfl⟩⟩, fun hn => absurd hn (by decide)⟩
  have hexits : Exits m₁ r₁ ⟨2⟩ 0x80000000 := .call ⟨0⟩ rfl (by decide) (by decide)
  have hends : Does m₁ r₁ (.ended ⟨2⟩ (.normal abnormalCode)) := hexits.does
  have hlast : EndedLast (steps ++ [(m₁, r₁)]) ⟨2⟩ (m₁, r₁) (.normal abnormalCode) := ⟨steps, [], rfl, hends, List.forall_mem_nil _⟩
  exact ⟨hexits, hs, (abnormal_code_iff hrun (.made hmade)).1.mpr ⟨_, _, hs, hlast, .inr rfl⟩⟩

end Machine

end Nucleus
