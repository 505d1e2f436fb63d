import Nucleus.Proofs.Stories
import Nucleus.Proofs.Joins
import Nucleus.Proofs.Wakeups

/-!
# Every status is delivered once

In a step of a run at most one thing is done in the life of a process, and it is told: `story_of_step` and `Does.story` tie what is
told to the steps that did it. Since only certain stories can be told, a child whose status is taken was created for the one who
takes it, has ended once, and with this status; and nobody takes it again. As a join answers with a status just when it takes it, no
child's status is the answer of two joins (`delivered_once`). The system call that asks for the child passes the status on to its
caller, to a register and to memory.
-/

namespace Nucleus

namespace Kernel

variable {μ κ : Type} {k : Kernel μ κ} {caller : Pid} {target : Address}

/-- When a system call asks for a child, the caller runs, and the place for the status can be written. -/
theorem check_of_joinOf {c : Call} {child : Pid} {trap : Option TrapFrame}
    (h : k.joinOf c = some (caller, child, .systemCall target trap)) (hn : target.isNull = false) :
    ∃ process, k.processes.live caller = .ok process ∧ process.memory.check target 4 .write = .ok () := by
  have hargs : ∀ {pid child : Pid} {number : UInt64} {args : Arguments}, k.joinedBy pid number args = some child →
      (Address.mk args.a1).isNull = false →
      ∃ process, k.processes.live pid = .ok process ∧ process.memory.check ⟨args.a1⟩ 4 .write = .ok () := by
    intro pid child number args hj hnull
    obtain ⟨-, -, ha⟩ := joinedBy_eq_some hj
    obtain ⟨process, hl, hc⟩ := joinArguments_eq_ok ha
    exact ⟨process, hl, hc hnull⟩
  unfold joinOf at h
  split at h
  · cases h
  · obtain ⟨child', hj, he⟩ := Option.map_eq_some_iff.mp h
    cases he
    exact hargs hj hn
  · obtain ⟨child', hj, he⟩ := Option.map_eq_some_iff.mp h
    cases he
    exact hargs hj hn
  · cases h

end Kernel

namespace Machine

variable {μ κ : Type}

/-- A step of a run: the machine before it, and what came of it. -/
abbrev Moment (μ κ : Type) : Type := Machine μ κ × (Machine μ κ × Option Outcome)

variable [Medium μ] [Console κ]

/-! ## What is done in a step -/

/-- In a step something is done in the life of a process. -/
inductive Does : Machine μ κ → Machine μ κ × Option Outcome → Deed → Prop where
  /-- The loader has answered with a program, which becomes a process. -/
  | creates (k : Kernel μ κ) (before after : List Suspended) {parent : Option Pid} {program : String} (args : List String)
      (use : SpawnUse) {image : ProgramImage} {pid : Pid} {processes : ProcessTable}
      (h : k.processes.enrol parent program image k.settings.slots = .ok (pid, processes)) :
      Does ⟨k, before ++ .loading parent program args use :: after⟩
        (settle (before ++ after) (k.resume (.loading parent program args use) (.ok image))) (.created parent pid)
  /-- A call ends a process that runs. -/
  | ends (m : Machine μ κ) (thread : ThreadId) {c : Call} {pid : Pid} {status : ExitStatus} (h : m.kernel.endOf c = some (pid, status))
      (hr : m.kernel.processes.isRunning pid = true) : Does m (m.call thread c) (.ended pid status)
  /-- Who asks for a child takes its status. -/
  | takes {m : Machine μ κ} {r : Machine μ κ × Option Outcome} {thread : ThreadId} {caller child : Pid} {use : JoinUse}
      {status : ExitStatus} {records : Records} (h : Asks m r thread caller child use)
      (hr : m.kernel.processes.reap caller child = .reaped status records) : Does m r (.taken caller child status)

variable {allowed : Call → Prop} {m m' : Machine μ κ} {r : Machine μ κ × Option Outcome} {pid : Pid} {deed : Deed}

/-- What is done is told of the process that it concerns. -/
theorem Does.story (h : Does m r deed) (pid : Pid) :
    r.1.kernel.world.story pid = m.kernel.world.story pid ++ if deed.subject = pid then [deed] else [] := by
  cases h with
  | @creates k before after parent program args use image new processes hen =>
    rw [kernel_settle]
    simp only [Kernel.resume, Kernel.enrol, hen, Progress.kernel]
    rw [Deed.subject, ← Effect.story_spawned pid new program parent ⟨program, image.entry, image.stack, image.argc, image.argv⟩,
      World.story, World.effects_emit, World.effects_note, List.append_assoc]
    exact Effect.story_append pid _ _
  | @ends _ thread c ending status he hr =>
    rw [Machine.call, kernel_settle, Kernel.story_begin_of_endOf he]
    simp only [hr, true_and]
    rfl
  | takes ha hr =>
    obtain ⟨k, waiting, rfl, hk, hq⟩ := ha.exists_join
    rw [← ProcessTable.reap_congr hk] at hr
    rw [kernel_settle, Kernel.story_join_of_reaped hr, Kernel.story_of_quiet hq]
    rfl

/-- It goes on with the story of that process. -/
theorem Does.story_subject (h : Does m r deed) (hs : deed.subject = pid) :
    r.1.kernel.world.story pid = m.kernel.world.story pid ++ [deed] := by
  rw [h.story, if_pos hs]

/-- In a step something is done in the life of a process, or nothing is told of any. -/
theorem story_of_step (h : Step allowed m r) :
    (∃ deed, Does m r deed) ∨ ∀ pid, r.1.kernel.world.story pid = m.kernel.world.story pid := by
  have hasks : ∀ {thread caller child use}, Asks m r thread caller child use →
      (∃ deed, Does m r deed) ∨ ∀ pid, r.1.kernel.world.story pid = m.kernel.world.story pid := by
    intro thread caller child use ha
    by_cases hr : ∃ status records, m.kernel.processes.reap caller child = .reaped status records
    · obtain ⟨status, records, hr⟩ := hr
      exact .inl ⟨_, .takes ha hr⟩
    · refine .inr fun pid => ?_
      obtain ⟨k, waiting, rfl, hk, hq⟩ := ha.exists_join
      rw [← ProcessTable.reap_congr hk] at hr
      rw [kernel_settle, Kernel.story_join (fun status records he => hr ⟨status, records, he⟩), Kernel.story_of_quiet hq]
  cases h with
  | call _ thread c hc =>
    cases hj : m.kernel.joinOf c with
    | some asked => exact hasks (.call m thread c hj)
    | none =>
      cases he : m.kernel.endOf c with
      | none =>
        refine .inr fun pid => ?_
        rw [Machine.call, kernel_settle]
        exact Kernel.story_begin he hj thread pid
      | some ended =>
        obtain ⟨pid, status⟩ := ended
        by_cases hr : m.kernel.processes.isRunning pid = true
        · exact .inl ⟨_, .ends m thread he hr⟩
        · refine .inr fun other => ?_
          rw [Machine.call, kernel_settle, Kernel.story_begin_of_endOf he, if_neg fun hc => hr hc.1, List.append_nil]
  | answer k before after s a =>
    cases s with
    | loading parent program args use =>
      cases a with
      | error cause =>
        refine .inr fun pid => ?_
        rw [kernel_settle]
        simp only [Kernel.resume, Kernel.enrol, Kernel.kernel_finishSpawn]
        exact Kernel.story_of_quiet ((World.Adds.refl _).note _ rfl) pid
      | ok image =>
        cases hen : k.processes.enrol parent program image k.settings.slots with
        | ok created => exact .inl ⟨_, .creates k before after args use hen⟩
        | error e =>
          refine .inr fun pid => ?_
          rw [kernel_settle]
          simp only [Kernel.resume, Kernel.enrol, hen, Kernel.kernel_finishSpawn]
    | starting pid use =>
      refine .inr fun pid => ?_
      rw [kernel_settle, show k.resume (.starting _ use) a = k.finishSpawn use (.ok _) from rfl, Kernel.kernel_finishSpawn]
    | sleeping thread caller child use => exact hasks (.again k before after thread caller child use)
  | memory _ pid change =>
    refine .inr fun other => ?_
    have hm : Kernel.Changes (fun _ => False) m.kernel (m.kernel.changeMemory pid change).2 :=
      Kernel.changes_changeMemory _ pid change
    exact Kernel.story_of_changes hm id id id other

/-- Of one process no two different things are done in a step. -/
theorem Does.unique {deed' : Deed} (h : Does m r deed) (h' : Does m r deed') (hs : deed.subject = deed'.subject) :
    deed = deed' := by
  have hboth := (h.story_subject hs).symm.trans (h'.story_subject rfl)
  exact List.singleton_inj.mp (List.append_cancel_left hboth)

/-! ## What is done in a run -/

/-- A run, with the steps that it goes through. -/
inductive Runs (allowed : Call → Prop) : Machine μ κ → List (Moment μ κ) → Machine μ κ → Prop where
  /-- A run may be over at once. -/
  | refl (m : Machine μ κ) : Runs allowed m [] m
  /-- It may go on by a step. -/
  | step {m m' : Machine μ κ} {steps : List (Moment μ κ)} {r : Machine μ κ × Option Outcome} :
      Runs allowed m steps m' → Step allowed m' r → Runs allowed m (steps ++ [(m', r)]) r.1

/-- A run leads from one machine to another just when it does so by some steps. -/
theorem leads_iff_exists_runs : Leads allowed m m' ↔ ∃ steps, Runs allowed m steps m' := by
  constructor
  · intro h
    induction h with
    | refl => exact ⟨[], .refl m⟩
    | step _ hs ih =>
      obtain ⟨steps, hr⟩ := ih
      exact ⟨_, hr.step hs⟩
  · rintro ⟨steps, h⟩
    induction h with
    | refl => exact .refl _
    | step _ hs ih => exact ih.step hs

theorem Runs.leads {steps : List (Moment μ κ)} (h : Runs allowed m steps m') : Leads allowed m m' := leads_iff_exists_runs.mpr ⟨steps, h⟩

/-- What a run from before the first call leads to is reached. -/
theorem Runs.reached {settings : Settings} {medium : μ} {console : κ} {steps : List (Moment μ κ)}
    (h : Runs allowed (start settings medium console) steps m) : Reached allowed settings m :=
  ⟨medium, console, h.leads⟩

/-- A run can be taken apart at any of its steps. -/
theorem Runs.split {before after : List (Moment μ κ)} {moment : Moment μ κ} (h : Runs allowed m (before ++ moment :: after) m') :
    Runs allowed m before moment.1 ∧ Step allowed moment.1 moment.2 ∧ Runs allowed moment.2.1 after m' := by
  generalize hsteps : before ++ moment :: after = steps at h
  induction h generalizing after with
  | refl => simp at hsteps
  | @step m₁ steps r hrun hs ih =>
    rcases List.eq_nil_or_concat after with rfl | ⟨rest, last, rfl⟩
    · obtain ⟨rfl, he⟩ := List.append_inj' hsteps rfl
      cases he
      exact ⟨hrun, hs, .refl _⟩
    · rw [List.concat_eq_append, ← List.cons_append, ← List.append_assoc] at hsteps
      obtain ⟨hinit, he⟩ := List.append_inj' hsteps rfl
      cases he
      obtain ⟨hbefore, hstep, hafter⟩ := ih hinit
      rw [List.concat_eq_append]
      exact ⟨hbefore, hstep, hafter.step hs⟩

/-- No step does anything in the life of a process. -/
def LeaveAlone (pid : Pid) (steps : List (Moment μ κ)) : Prop := ∀ moment ∈ steps, ∀ deed, Does moment.1 moment.2 deed → deed.subject ≠ pid

/-- The steps in which something is done in the life of a process do these deeds in turn. -/
inductive Tells (pid : Pid) : List (Moment μ κ) → List Deed → Prop where
  /-- There are none. -/
  | nil : Tells pid [] []
  /-- A step does nothing in the life of the process. -/
  | skip {steps : List (Moment μ κ)} {deeds : List Deed} {moment : Moment μ κ} (h : Tells pid steps deeds)
      (hs : ∀ deed, Does moment.1 moment.2 deed → deed.subject ≠ pid) : Tells pid (steps ++ [moment]) deeds
  /-- A step does something. -/
  | tell {steps : List (Moment μ κ)} {deeds : List Deed} {moment : Moment μ κ} {deed : Deed} (h : Tells pid steps deeds)
      (hd : Does moment.1 moment.2 deed) (hs : deed.subject = pid) : Tells pid (steps ++ [moment]) (deeds ++ [deed])

/-- What a run adds to the story of a process is what its steps did. -/
theorem Runs.tells {steps : List (Moment μ κ)} (h : Runs allowed m steps m') (pid : Pid) :
    ∃ deeds, Tells pid steps deeds ∧ m'.kernel.world.story pid = m.kernel.world.story pid ++ deeds := by
  induction h with
  | refl => exact ⟨[], .nil, (List.append_nil _).symm⟩
  | @step m₁ steps r hrun hs ih =>
    obtain ⟨deeds, ht, he⟩ := ih
    by_cases hd : ∃ deed, Does m₁ r deed ∧ deed.subject = pid
    · obtain ⟨deed, hd, hp⟩ := hd
      refine ⟨deeds ++ [deed], ht.tell hd hp, ?_⟩
      rw [hd.story_subject hp, he, List.append_assoc]
    · refine ⟨deeds, ht.skip fun deed hdoes hp => hd ⟨deed, hdoes, hp⟩, ?_⟩
      rcases story_of_step hs with ⟨deed, hdoes⟩ | hsame
      · rw [hdoes.story, if_neg fun hp => hd ⟨deed, hdoes, hp⟩, List.append_nil, he]
      · rw [hsame, he]

/-- If nothing is told, nothing was done. -/
theorem Tells.leaveAlone {steps : List (Moment μ κ)} (h : Tells pid steps []) : LeaveAlone pid steps := by
  generalize hd : ([] : List Deed) = deeds at h
  induction h with
  | nil => exact fun moment hm => absurd hm List.not_mem_nil
  | skip _ hs ih =>
    intro moment hm
    rcases List.mem_append.mp hm with hm | hm
    · exact ih hd moment hm
    · rw [List.mem_singleton.mp hm]
      exact hs
  | tell => simp at hd

/-- For each thing that is told there is a step that did it, and the others come before or after. -/
theorem Tells.split {steps : List (Moment μ κ)} {deeds more : List Deed} (h : Tells pid steps (deeds ++ deed :: more)) :
    ∃ before moment after, steps = before ++ moment :: after ∧ Does moment.1 moment.2 deed ∧ Tells pid before deeds ∧
      Tells pid after more := by
  generalize hd : deeds ++ deed :: more = all at h
  induction h generalizing more with
  | nil => simp at hd
  | @skip steps all last h hs ih =>
    obtain ⟨before, moment, after, rfl, hdoes, hbefore, hafter⟩ := ih hd
    exact ⟨before, moment, after ++ [last], by rw [List.append_assoc, List.cons_append], hdoes, hbefore, hafter.skip hs⟩
  | @tell steps all last lastDeed h hdoes hs ih =>
    rcases List.eq_nil_or_concat more with rfl | ⟨rest, final, rfl⟩
    · obtain ⟨rfl, he⟩ := List.append_inj' hd rfl
      cases he
      exact ⟨steps, last, [], rfl, hdoes, h, .nil⟩
    · rw [List.concat_eq_append, ← List.cons_append, ← List.append_assoc] at hd
      obtain ⟨hinit, he⟩ := List.append_inj' hd rfl
      cases he
      obtain ⟨before, moment, after, rfl, hd', hbefore, hafter⟩ := ih hinit
      rw [List.concat_eq_append]
      exact ⟨before, moment, after ++ [last], by rw [List.append_assoc, List.cons_append], hd', hbefore, hafter.tell hdoes hs⟩

/-- What is told of the processes agrees with their records in every machine reached, as long as the numbers last. -/
theorem Reached.chronicled {settings : Settings} (h : Reached allowed settings m) (hs : m.kernel.world.starts < UInt32.size - 1) :
    m.kernel.Chronicled := by
  refine (h.keeps (P := fun k => k.Orderly ∧ k.Chronicled) hs ?_ ?_).2
  · exact fun medium console =>
      ⟨⟨ProcessTable.forest_of_no_records rfl rfl, rfl⟩, Kernel.chronicled_create settings medium console⟩
  · intro k k' hm hb hp
    have ho' : k'.Orderly := Kernel.orderly_of_move hm hb hp.1
    exact ⟨ho', hp.2.changed hp.1 ho' (Kernel.changed_of_move hm)⟩

/-! ## Joins -/

/-- In a step a thread asks for a child for the first time. -/
def Begins (m : Machine μ κ) (r : Machine μ κ × Option Outcome) (thread : ThreadId) (caller child : Pid) (use : JoinUse) : Prop :=
  ∃ c, m.kernel.joinOf c = some (caller, child, use) ∧ r = m.call thread c

/-- In a step a running process ends itself by system call, with a word for its status. -/
inductive Exits (m : Machine μ κ) : Machine μ κ × Option Outcome → Pid → UInt64 → Prop where
  /-- The machine has not halted. -/
  | call (thread : ThreadId) {c : Call} {pid : Pid} {word : UInt64} (h : c.exitWord? = some (pid, word))
      (hk : m.kernel.halted = false) (hr : m.kernel.processes.isRunning pid = true) : Exits m (m.call thread c) pid word

/-- Its status is the low half of the word. -/
theorem Exits.does {word : UInt64} (h : Exits m r pid word) : Does m r (.ended pid (.normal word.toUInt32.toInt32)) := by
  cases h with
  | call thread hc hk hr => exact .ends m thread (Kernel.endOf_of_exitWord hc hk) hr

variable {thread : ThreadId} {caller child : Pid} {use : JoinUse} {status : ExitStatus}

theorem Delivers.does (h : Delivers m r thread caller child use status) : Does m r (.taken caller child status) := by
  obtain ⟨records, hr⟩ := h.taken
  exact .takes h.asks hr

/-- A thread sleeps after a step only if it slept before, or has begun to ask. -/
theorem sleeping_of_step (h : Step allowed m r) (hw : Suspended.sleeping thread caller child use ∈ r.1.waiting) :
    Suspended.sleeping thread caller child use ∈ m.waiting ∨ Begins m r thread caller child use := by
  have hjoin : ∀ {k : Kernel μ κ} {s : Suspended} {thread caller child use},
      s ∈ (k.join thread caller child use).waits → s = .sleeping thread caller child use := by
    intro k s thread caller child use hs
    by_cases hr : k.processes.reap caller child = .running
    · rw [Kernel.join_of_running hr] at hs
      exact List.mem_singleton.mp hs
    · rw [Kernel.waits_join hr] at hs
      cases hs
  cases h with
  | call _ thread' c hc =>
    rw [Machine.call, waiting_settle] at hw
    rcases List.mem_append.mp hw with hw | hw
    · cases hj : m.kernel.joinOf c with
      | none => cases Kernel.sleeper?_of_mem_waits_begin _ thread' hj hw
      | some asked =>
        rw [Kernel.begin_of_joinOf hj] at hw
        cases hjoin hw
        exact .inr ⟨c, hj, rfl⟩
    · exact .inl hw
  | answer k before after s a =>
    rw [waiting_settle] at hw
    left
    rcases List.mem_append.mp hw with hw | hw
    · cases hs : s.sleeper? with
      | none => cases Kernel.sleeper?_of_mem_waits_resume k a hs hw
      | some thread' =>
        cases s with
        | sleeping thread₁ caller₁ child₁ use₁ =>
          rw [hjoin hw]
          exact List.mem_append_right _ List.mem_cons_self
        | _ => cases hs
    · rcases List.mem_append.mp hw with hw | hw
      · exact List.mem_append_left _ hw
      · exact List.mem_append_right _ (List.mem_cons_of_mem _ hw)
  | memory _ pid change => exact .inl hw

/-- Who sleeps after a run from before the first call has begun to ask in it. -/
theorem Runs.exists_begins {settings : Settings} {medium : μ} {console : κ} {steps : List (Moment μ κ)}
    (h : Runs allowed (start settings medium console) steps m) (hw : Suspended.sleeping thread caller child use ∈ m.waiting) :
    ∃ moment ∈ steps, Begins moment.1 moment.2 thread caller child use := by
  generalize hm : start settings medium console = first at h
  induction h with
  | refl =>
    subst hm
    cases hw
  | step hrun hs ih =>
    rcases sleeping_of_step hs hw with hw | hb
    · obtain ⟨moment, hmem, hb⟩ := ih hw
      exact ⟨moment, List.mem_append_left _ hmem, hb⟩
    · exact ⟨_, List.mem_append_right _ (List.mem_singleton_self _), hb⟩

/-- So has who gets a status, in the same step or before. -/
theorem Runs.begins_of_asks {settings : Settings} {medium : μ} {console : κ} {steps : List (Moment μ κ)}
    (h : Runs allowed (start settings medium console) steps m) (ha : Asks m r thread caller child use) :
    ∃ moment ∈ steps ++ [(m, r)], Begins moment.1 moment.2 thread caller child use := by
  cases ha with
  | call _ _ c hj => exact ⟨_, List.mem_append_right _ (List.mem_singleton_self _), c, hj, rfl⟩
  | again k before after =>
    obtain ⟨moment, hmem, hb⟩ := h.exists_begins (List.mem_append_right _ List.mem_cons_self)
    exact ⟨moment, List.mem_append_left _ hmem, hb⟩

/-- A system call returns the low half of a word, with its sign, and has stored it in its caller's memory if it was to. -/
def Passes (m : Machine μ κ) (r : Machine μ κ × Option Outcome) (caller : Pid) (target : Address) (trap : Option TrapFrame)
    (word : UInt64) : Prop :=
  r.2 = some (.ofDisposition trap (.resume word.toUInt32.toInt32.toInt64)) ∧
    ∃ process memory, m.kernel.processes.live caller = .ok process ∧
      r.1.kernel.processes.live caller = .ok { process with memory } ∧
      if target.isNull then memory = process.memory else process.memory.Stores target (wordBytes word.toUInt32) memory

/-- A system call passes the word on that its child ended with, if the place for it can still be written. -/
theorem Delivers.passes {target : Address} {trap : Option TrapFrame} {word : UInt64} {process : Process}
    (h : Delivers m r thread caller child (.systemCall target trap) (.normal word.toUInt32.toInt32))
    (hl : m.kernel.processes.live caller = .ok process)
    (hc : target.isNull = false → process.memory.check target 4 .write = .ok ()) : Passes m r caller target trap word := by
  obtain ⟨k, waiting, rfl, hlive⟩ := h.exists_finishJoin
  have hk := (hlive caller process).mpr hl
  rw [Kernel.finishJoin_eq_answer]
  cases hn : target.isNull with
  | true =>
    rw [Kernel.storeCode_of_isNull hn]
    refine ⟨rfl, process, process.memory, hl, hk, ?_⟩
    rw [if_pos hn]
  | false =>
    obtain ⟨memory, hs, hstore⟩ := Kernel.storeCode_of_check hn hk (hc hn) (.normal word.toUInt32.toInt32)
    rw [hstore]
    refine ⟨rfl, process, memory, hl, ProcessTable.live_putLive_self hk _, ?_⟩
    rw [if_neg (by simp [hn])]
    exact hs

section Delivered

variable {settings : Settings} {medium : μ} {console : κ} {before after : List (Moment μ κ)}

/-- When the status of a child is taken, its whole life is told: it was created for the caller and then ended with this status, and
no other step of the run does anything in its life. -/
theorem Runs.life_of_delivers (h : Runs allowed (start settings medium console) (before ++ (m, r) :: after) m')
    (hb : m'.kernel.world.starts < UInt32.size - 1) (hd : Delivers m r thread caller child use status) :
    ∃ b₁ b₂ b₃ creation ending, before = b₁ ++ creation :: (b₂ ++ ending :: b₃) ∧
      Does creation.1 creation.2 (.created (some caller) child) ∧ Does ending.1 ending.2 (.ended child status) ∧
      LeaveAlone child b₁ ∧ LeaveAlone child b₂ ∧ LeaveAlone child b₃ ∧ LeaveAlone child after := by
  obtain ⟨hbefore, -, hafter⟩ : Runs allowed _ before m ∧ Step allowed m r ∧ Runs allowed r.1 after m' := h.split
  obtain ⟨early, htold, hm⟩ := hbefore.tells child
  obtain ⟨late, hlate, hm'⟩ := hafter.tells child
  have htaken : r.1.kernel.world.story child = m.kernel.world.story child ++ [.taken caller child status] :=
    hd.does.story_subject rfl
  have hstory : m'.kernel.world.story child = early ++ .taken caller child status :: late := by
    rw [hm', htaken, hm, show (start settings medium console).kernel.world.story child = [] from rfl, List.nil_append,
      List.append_assoc, List.singleton_append]
  have hall := (h.reached.chronicled hb).told child
  rw [hstory] at hall
  obtain ⟨rfl, rfl⟩ := hall.of_taken
  have hwhole : Tells child before ([] ++ .created (some caller) child :: [.ended child status]) := htold
  obtain ⟨b₁, creation, rest, rfl, hcreated, h₁, hrest⟩ := hwhole.split
  have hend : Tells child rest ([] ++ .ended child status :: []) := hrest
  obtain ⟨b₂, ending, b₃, rfl, hended, h₂, h₃⟩ := hend.split
  exact ⟨b₁, b₂, b₃, creation, ending, rfl, hcreated, hended, h₁.leaveAlone, h₂.leaveAlone, h₃.leaveAlone, hlate.leaveAlone⟩

/-- Whatever other steps do in the life of a child whose status is taken, they create it, or they end it with this status. -/
theorem Runs.deed_of_delivers (h : Runs allowed (start settings medium console) (before ++ (m, r) :: after) m')
    (hb : m'.kernel.world.starts < UInt32.size - 1) (hd : Delivers m r thread caller child use status) {moment : Moment μ κ}
    (hm : moment ∈ before ++ after) (hdoes : Does moment.1 moment.2 deed) (hs : deed.subject = child) :
    deed = .created (some caller) child ∨ deed = .ended child status := by
  obtain ⟨b₁, b₂, b₃, creation, ending, rfl, hcreated, hended, h₁, h₂, h₃, h₄⟩ := h.life_of_delivers hb hd
  simp only [List.mem_append, List.mem_cons] at hm
  rcases hm with (hm | rfl | hm | rfl | hm) | hm
  · exact absurd hs (h₁ moment hm deed hdoes)
  · exact .inl (hdoes.unique hcreated hs)
  · exact absurd hs (h₂ moment hm deed hdoes)
  · exact .inr (hdoes.unique hended hs)
  · exact absurd hs (h₃ moment hm deed hdoes)
  · exact absurd hs (h₄ moment hm deed hdoes)

/-- A child whose status is taken ended but once, so if it passed a word for its status, then this is what is taken. -/
theorem Runs.status_of_exits (h : Runs allowed (start settings medium console) (before ++ (m, r) :: after) m')
    (hb : m'.kernel.world.starts < UInt32.size - 1) (hd : Delivers m r thread caller child use status) {word : UInt64}
    {exit : Moment μ κ} (hexit : exit ∈ before) (hword : Exits exit.1 exit.2 child word) : status = .normal word.toUInt32.toInt32 := by
  rcases h.deed_of_delivers hb hd (List.mem_append_left _ hexit) hword.does rfl with he | he
  · cases he
  · cases he
    rfl

/-- No other join in the run answers with a status of this child. -/
theorem Runs.unserved_of_delivers (h : Runs allowed (start settings medium console) (before ++ (m, r) :: after) m')
    (hb : m'.kernel.world.starts < UInt32.size - 1) (hd : Delivers m r thread caller child use status) {moment : Moment μ κ}
    (hm : moment ∈ before ++ after) {thread' : ThreadId} {caller' : Pid} {use' : JoinUse}
    (hj : Joins moment.1 moment.2 thread' caller' child use') : use'.Unserved moment.2.2 := by
  rcases hj.delivers_or with ⟨again, hd'⟩ | hn
  · rcases h.deed_of_delivers hb hd hm hd'.does rfl with he | he <;> cases he
  · exact hn

/-- Who takes a status runs. -/
theorem Runs.exists_live_of_delivers (h : Runs allowed (start settings medium console) (before ++ (m, r) :: after) m')
    (hb : m'.kernel.world.starts < UInt32.size - 1) (hd : Delivers m r thread caller child use status) :
    ∃ process, m.kernel.processes.live caller = .ok process := by
  obtain ⟨hbefore, hs, hafter⟩ : Runs allowed _ before m ∧ Step allowed m r ∧ Runs allowed r.1 after m' := h.split
  have hleads : Leads allowed m m' := ((Leads.refl m).step hs).trans hafter.leads
  have hle : m.kernel.world.starts ≤ m'.kernel.world.starts := Kernel.starts_le_of_moves (moves_of_leads hleads)
  obtain ⟨records, hreap⟩ := hd.taken
  exact (hbefore.reached.orderly (Nat.lt_of_le_of_lt hle hb)).1.exists_live_of_reap hreap

/-- Every status is delivered once. Only a join answers with the result of one; a step of a join takes the child's status, or it sleeps
or fails; and a join answers with a status just when it takes it. When in a run a child's status is taken, by whichever thread and
after however many wakes, the child was created for the caller before and ended then, with this status, and in no other step of the
run is anything done in its life: it is not ended twice, and its status is not taken twice, so every other join for it, whoever makes
it, sleeps or fails. If the child ended itself by system call with some word, and the join is a system call, it passes the low half of
the word on, provided that the pages of the place for it have the rights that they had when the call was made. -/
theorem delivered_once (h : Runs allowed (start settings medium console) (before ++ (m, r) :: after) m')
    (hb : m'.kernel.world.starts < UInt32.size - 1) :
    (∀ result, r.2 = some (.joined result) → ∃ thread caller child, Joins m r thread caller child .outcome) ∧
    (∀ thread caller child use, Joins m r thread caller child use →
      (∃ status, Delivers m r thread caller child use status) ∨ use.Unserved r.2) ∧
    (∀ thread caller child status, Joins m r thread caller child .outcome →
      (r.2 = some (.joined (.ok status)) ↔ Delivers m r thread caller child .outcome status)) ∧
    ∀ thread caller child use status, Delivers m r thread caller child use status →
      (∃ b₁ b₂ b₃ creation ending, before = b₁ ++ creation :: (b₂ ++ ending :: b₃) ∧
        Does creation.1 creation.2 (.created (some caller) child) ∧ Does ending.1 ending.2 (.ended child status) ∧
        LeaveAlone child b₁ ∧ LeaveAlone child b₂ ∧ LeaveAlone child b₃ ∧ LeaveAlone child after) ∧
      (∀ moment ∈ before ++ after, ∀ thread' caller' use', Joins moment.1 moment.2 thread' caller' child use' →
        use'.Unserved moment.2.2) ∧
      ∀ target trap, use = .systemCall target trap →
        (∃ call ∈ before ++ [(m, r)], Begins call.1 call.2 thread caller child use) ∧
        ∀ word, ∀ exit ∈ before, Exits exit.1 exit.2 child word →
          ∀ call ∈ before ++ [(m, r)], Begins call.1 call.2 thread caller child use →
            (target.isNull = false → ∀ process₀ process, call.1.kernel.processes.live caller = .ok process₀ →
              m.kernel.processes.live caller = .ok process → process₀.memory.SameRights process.memory target 4) →
            Passes m r caller target trap word := by
  obtain ⟨hbefore, hstep, -⟩ : Runs allowed _ before m ∧ Step allowed m r ∧ Runs allowed r.1 after m' := h.split
  refine ⟨fun result he => ?_, fun thread caller child use hj => hj.delivers_or, fun thread caller child status hj => hj.joined_iff,
    fun thread caller child use status hd => ⟨h.life_of_delivers hb hd, ?_, ?_⟩⟩
  · obtain ⟨thread, caller, child, ha⟩ := asks_of_joined hstep he
    exact ⟨thread, caller, child, .asks ha⟩
  · intro moment hm thread' caller' use' hj
    exact h.unserved_of_delivers hb hd hm hj
  · rintro target trap rfl
    refine ⟨hbefore.begins_of_asks hd.asks, ?_⟩
    rintro word exit hexit hword call - ⟨c, hj, -⟩ hrights
    obtain rfl := h.status_of_exits hb hd hexit hword
    obtain ⟨process, hl⟩ := h.exists_live_of_delivers hb hd
    refine hd.passes hl fun hn => ?_
    -- The place was checked when the call was made, and the check sees no more than the rights.
    obtain ⟨process₀, hl₀, hc⟩ := Kernel.check_of_joinOf hj hn
    exact AddressSpace.check_congr hc (hrights hn process₀ process hl₀ hl)

end Delivered

/-- A child ends itself with minus five, and its parent asks for it, with an address for the status. -/
def errand : List Turn := started (.boot "init" []) ++ started (.spawn (some ⟨1⟩) "child" [])

/-- The parent gets it, in its register and at the address, and does not get it again. -/
theorem errand_passes :
    let m₁ := (start {} (RamDisk.empty none) Silent.mk).play errand
    let r₁ := m₁.call ⟨0⟩ (.systemCall ⟨2⟩ 1 ⟨0xfffffffb, 0, 0, 0⟩)
    let r := r₁.1.call ⟨0⟩ (.systemCall ⟨1⟩ 3 ⟨2, 16, 0, 0⟩)
    let r₂ := r.1.call ⟨0⟩ (.join ⟨1⟩ ⟨2⟩)
    Exits m₁ r₁ ⟨2⟩ 0xfffffffb ∧ Passes r₁.1 r ⟨1⟩ ⟨16⟩ none 0xfffffffb ∧ r.2 = some (.returned (.resume (-5))) ∧
      JoinUse.outcome.Unserved r₂.2 := by
  intro m₁ r₁ r r₂
  obtain ⟨steps, hsteps⟩ := leads_iff_exists_runs.mp
    (leads_iff_exists_play.mpr ⟨errand, by decide, rfl⟩ : Leads (fun _ => True) (start {} (RamDisk.empty none) Silent.mk) m₁)
  have hended : Runs (fun _ => True) (start {} (RamDisk.empty none) Silent.mk) (steps ++ [(m₁, r₁)]) r₁.1 :=
    hsteps.step (.call m₁ _ _ trivial)
  have htaken : Runs (fun _ => True) (start {} (RamDisk.empty none) Silent.mk) ((steps ++ [(m₁, r₁)]) ++ [(r₁.1, r)]) r.1 :=
    hended.step (.call r₁.1 _ _ trivial)
  have hrun : Runs (fun _ => True) (start {} (RamDisk.empty none) Silent.mk) ((steps ++ [(m₁, r₁)]) ++ (r₁.1, r) :: [(r.1, r₂)])
      r₂.1 := by
    have hthree := htaken.step (.call r.1 ⟨0⟩ (.join ⟨1⟩ ⟨2⟩) trivial)
    rwa [List.append_assoc, List.singleton_append] at hthree
  have hexits : Exits m₁ r₁ ⟨2⟩ 0xfffffffb := .call ⟨0⟩ rfl (by decide) (by decide)
  have hbegins : Begins r₁.1 r ⟨0⟩ ⟨1⟩ ⟨2⟩ (.systemCall ⟨16⟩ none) := ⟨_, by decide, rfl⟩
  have hd : Delivers r₁.1 r ⟨0⟩ ⟨1⟩ ⟨2⟩ (.systemCall ⟨16⟩ none) (.normal (-5)) :=
    ⟨.call r₁.1 ⟨0⟩ _ (by decide), ⟨_, by rfl⟩⟩
  have hagain : Joins r.1 r₂ ⟨0⟩ ⟨1⟩ ⟨2⟩ .outcome := .asks (.call r.1 ⟨0⟩ (.join ⟨1⟩ ⟨2⟩) rfl)
  obtain ⟨-, -, -, hdelivered⟩ := delivered_once hrun (by decide)
  obtain ⟨-, hothers, hpass⟩ := hdelivered ⟨0⟩ ⟨1⟩ ⟨2⟩ _ _ hd
  obtain ⟨-, hword⟩ := hpass ⟨16⟩ none rfl
  refine ⟨hexits, ?_, rfl, hothers (r.1, r₂) (by simp) ⟨0⟩ ⟨1⟩ .outcome hagain⟩
  refine hword 0xfffffffb (m₁, r₁) (by simp) hexits (r₁.1, r) (by simp) hbegins fun _ process₀ process h₀ h => ?_
  cases h₀.symm.trans h
  exact fun i hi => rfl

end Machine

end Nucleus
