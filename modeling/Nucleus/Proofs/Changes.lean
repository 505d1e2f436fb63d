import Nucleus.Proofs.Table
import Nucleus.Proofs.Effects

/-!
# What a move does to the process table

Of all that a move does, only a few things concern the process table, and each has its own effects: `ProcessTable.Change` says
which table comes from which, with what was added to the outside meanwhile. What may be done is a parameter of it, as it is of a
move; in a step only those threads pass through the queue that ask for a child (`changes_of_step`).
-/

namespace Nucleus

namespace ProcessTable

open Records

/-- One change of the process table and the effects that go with it, in a part of a run with such powers. -/
inductive Change (powers : Power → Prop) : ProcessTable → List Effect → ProcessTable → Prop where
  /-- Something else is reported or shown. -/
  | quiet (t : ProcessTable) {more : List Effect} (h : ∀ effect ∈ more, effect.isQuiet = true) : Change powers t more t
  /-- A running process gets other belongings. -/
  | owned {t : ProcessTable} {pid : Pid} {process : Process} {more : List Effect} (hl : t.live pid = .ok process)
      (process' : Process) (h : ∀ effect ∈ more, effect.isQuiet = true) : Change powers t more (t.putLive pid process')
  /-- A thread queues itself and sleeps. -/
  | asleep (t : ProcessTable) {thread : ThreadId} (hp : powers (.sleep thread)) :
      Change powers t [.blocked thread] { t with waiting := t.waiting.enter thread }
  /-- A thread leaves the queue. -/
  | awake (t : ProcessTable) {thread : ThreadId} (hp : powers (.sleep thread)) :
      Change powers t [] { t with waiting := t.waiting.leave thread }
  /-- A program becomes a process and is started. -/
  | enrolled {t t' : ProcessTable} {parent : Option Pid} {program : String} {image : ProgramImage} {slots : Nat} {pid : Pid}
      (hp : powers .enrol) (info : StartInfo) (h : t.enrol parent program image slots = .ok (pid, t')) :
      Change powers t [.notice (.spawned pid program parent), .started pid info] t'
  /-- A child's status is taken. -/
  | reaped {t : ProcessTable} {caller child : Pid} {status : ExitStatus} {records : Records} (hp : powers .take)
      (h : t.reap caller child = .reaped status records) :
      Change powers t [.notice (.reaped caller child status)] { t with records }
  /-- A process ends, and all who wait are woken. -/
  | ended {t : ProcessTable} {pid : Pid} {record : Record} {process : Process} (hp : powers .finish)
      (status : ExitStatus) {more : List Effect} (hr : t.record? pid = some record) (hproc : record.process? = some process)
      (h : ∀ effect ∈ more, effect.isQuiet = true) :
      Change powers t
        (more ++ t.waiting.threads.map .unblocked ++ [.notice (.exited pid status (t.retire pid record status).running)])
        (t.retire pid record status)
  /-- All processes are dropped, and all who wait are woken; the machine may be stopped after that. -/
  | cleared (t : ProcessTable) {more : List Effect} (h : more = [] ∨ more = [.poweredOff]) :
      Change powers t (t.waiting.threads.map .unblocked ++ more) t.clear

variable {powers powers' : Power → Prop} {t t' : ProcessTable} {more : List Effect}

/-- A change starts the process that it enrols, and no other. -/
theorem Change.starts (h : Change powers t more t') :
    more.countP Effect.isStart = 0 ∧ t'.next = t.next ∨
      more.countP Effect.isStart = 1 ∧ t'.next = t.next + 1 ∧ ∀ pid info, Effect.started pid info ∈ more → pid = ⟨t.next⟩ := by
  have hquiet : ∀ more : List Effect, (∀ effect ∈ more, effect.isQuiet = true) → more.countP Effect.isStart = 0 := by
    intro more hq
    rw [List.countP_eq_zero]
    intro effect he
    simpa using World.not_isStart_of_isQuiet effect (hq effect he)
  have hwoken : ∀ threads : List ThreadId, (threads.map Effect.unblocked).countP Effect.isStart = 0 := by
    intro threads
    rw [List.countP_eq_zero]
    rintro effect he
    obtain ⟨thread, -, rfl⟩ := List.mem_map.mp he
    exact Bool.false_ne_true
  cases h with
  | quiet hq => exact .inl ⟨hquiet more hq, rfl⟩
  | owned hl process' hq => exact .inl ⟨hquiet more hq, Kernel.next_putLive ..⟩
  | asleep hp => exact .inl ⟨rfl, rfl⟩
  | awake hp => exact .inl ⟨rfl, rfl⟩
  | enrolled hp info he =>
    obtain ⟨rfl, hn, -⟩ := enrol_ok he
    refine .inr ⟨rfl, hn, fun pid info' hm => ?_⟩
    simp only [List.mem_cons, reduceCtorEq, false_or, List.not_mem_nil, or_false, Effect.started.injEq] at hm
    exact hm.1
  | reaped hp hr => exact .inl ⟨rfl, rfl⟩
  | ended hp status hr hproc hq =>
    refine .inl ⟨?_, rfl⟩
    rw [List.countP_append, List.countP_append, hquiet _ hq, hwoken]
    rfl
  | cleared hq =>
    refine .inl ⟨?_, rfl⟩
    rw [List.countP_append, hwoken]
    rcases hq with rfl | rfl <;> rfl

/-- Who is started gets the next number. -/
theorem Change.of_started (h : Change powers t more t') {pid : Pid} {info : StartInfo} (hm : Effect.started pid info ∈ more) :
    pid = ⟨t.next⟩ ∧ more.countP Effect.isStart = 1 := by
  rcases h.starts with ⟨h0, -⟩ | ⟨h1, -, hp⟩
  · exact absurd rfl (List.countP_eq_zero.mp h0 _ hm)
  · exact ⟨hp pid info hm, h1⟩

/-- A thread that a change puts to sleep is one that may pass through the queue. -/
theorem Change.of_blocked (h : Change powers t more t') {thread : ThreadId} (hb : Effect.blocked thread ∈ more) :
    powers (.sleep thread) := by
  have hquiet : ∀ more : List Effect, (∀ effect ∈ more, effect.isQuiet = true) → Effect.blocked thread ∉ more :=
    fun more hq hm => Bool.false_ne_true (hq _ hm)
  cases h with
  | quiet hq => exact absurd hb (hquiet _ hq)
  | owned hl process' hq => exact absurd hb (hquiet _ hq)
  | asleep hp =>
    cases List.mem_singleton.mp hb
    exact hp
  | awake hp => cases hb
  | enrolled hp info he => simp at hb
  | reaped hp hr => simp at hb
  | ended hp status hr hproc hq => simp [hquiet _ hq] at hb
  | cleared hq => rcases hq with rfl | rfl <;> simp at hb

/-! ## Who is found after a change -/

section Found

variable {other caller child : Pid} {record' : Record}

/-- Whoever is found after an enrolment is the new process, or was there before; who has ended is as it was. -/
theorem found_enrol {parent : Option Pid} {program : String} {image : ProgramImage} {slots : Nat} {pid : Pid}
    (h : t.enrol parent program image slots = .ok (pid, t')) (ho : t'.record? other = some record') :
    other = pid ∧ record'.isRunning = true ∨
      ∃ record, t.record? other = some record ∧ (record'.isRunning = false → record' = record) := by
  obtain ⟨rfl, -, -, hp, hr⟩ := enrol_ok h
  unfold record? at ho ⊢
  rw [hr] at ho
  have hins : ∀ {r : Record}, (t.records.insert ⟨t.next⟩ (newcomer parent program image slots))[other]? = some r →
      other = ⟨t.next⟩ ∧ r.isRunning = true ∨ t.records[other]? = some r := by
    intro r hi
    rw [getElem?_insert_pid] at hi
    split at hi
    · rename_i he
      cases hi
      exact .inl ⟨he.symm, rfl⟩
    · exact .inr hi
  cases parent with
  | none =>
    rcases hins ho with hnew | hold
    · exact .inl hnew
    · exact .inr ⟨record', hold, fun _ => rfl⟩
  | some p =>
    rw [Option.elim_some, getElem?_adopt] at ho
    split at ho
    · rename_i hpo
      subst hpo
      obtain ⟨r, hr', rfl⟩ := Option.map_eq_some_iff.mp ho
      rcases hins hr' with hnew | hold
      · exact .inl hnew
      · -- The parent of a new process runs.
        obtain ⟨rp, hrp, hi⟩ := isRunning_eq_true_iff.mp (hp p rfl)
        cases hrp.symm.trans hold
        exact .inr ⟨r, hold, fun hn => Bool.noConfusion (hi.symm.trans hn)⟩
    · rcases hins ho with hnew | hold
      · exact .inl hnew
      · exact .inr ⟨record', hold, fun _ => rfl⟩

/-- Whoever is found after a status was taken was there before, and has no new child. -/
theorem found_reap {status : ExitStatus} {records : Records} (h : t.reap caller child = .reaped status records)
    (ho : records[other]? = some record') :
    ∃ record, t.record? other = some record ∧ record'.life = record.life ∧ ∀ c ∈ record'.children, c ∈ record.children := by
  obtain ⟨parent, ended, -, -, -, -, rfl⟩ := reap_reaped h
  have herase : ∀ {r : Record}, (t.records.erase child)[other]? = some r → t.record? other = some r := by
    intro r hr
    rw [getElem?_erase_pid] at hr
    split at hr
    · cases hr
    · exact hr
  split at ho
  · rename_i record hc
    rw [getElem?_insert_pid] at ho
    split at ho
    · rename_i he
      subst he
      cases ho
      exact ⟨record, herase hc, rfl, fun c hm => Std.ExtTreeSet.mem_of_mem_erase hm⟩
    · exact ⟨record', herase ho, rfl, fun _ hm => hm⟩
  · exact ⟨record', herase ho, rfl, fun _ hm => hm⟩

/-- Whoever is found after the end of a process was there before; who does not run is the process that has ended, or is as it was. -/
theorem found_retire {pid : Pid} {record : Record} (hr : t.record? pid = some record) (status : ExitStatus)
    (ho : (t.retire pid record status).record? other = some record') :
    ∃ r, t.record? other = some r ∧
      (record'.isRunning = false → other = pid ∧ record' = atEnd record status ∨ other ≠ pid ∧ record' = r) := by
  have hb : (t.bereaved pid record status)[other]? = some record' := by
    unfold record? at ho
    rw [records_retire] at ho
    split at ho
    · exact ho
    · rw [getElem?_erase_pid] at ho
      split at ho
      · cases ho
      · exact ho
  have hins : ∀ {r : Record}, (t.records.insert pid (atEnd record status))[other]? = some r →
      (other = pid ∧ r = atEnd record status) ∧ t.record? other = some record ∨ other ≠ pid ∧ t.record? other = some r := by
    intro r hi
    rw [getElem?_insert_pid] at hi
    split at hi
    · rename_i he
      cases hi
      exact .inl ⟨⟨he.symm, rfl⟩, he ▸ hr⟩
    · rename_i hne
      exact .inr ⟨fun e => hne e.symm, hi⟩
  unfold bereaved at hb
  rw [getElem?_foldl_disown] at hb
  split at hb
  · obtain ⟨r, hi, hf⟩ := Option.bind_eq_some_iff.mp hb
    unfold Forsaken at hf
    split at hf
    · cases hf
    · rename_i hz
      cases hf
      -- Who is orphaned runs.
      have hrun : r.isRunning = true := by
        rw [Record.isRunning_eq]
        simpa using hz
      rcases hins hi with ⟨-, hold⟩ | ⟨-, hold⟩
      · exact ⟨record, hold, fun hn => Bool.noConfusion (hrun.symm.trans hn)⟩
      · exact ⟨r, hold, fun hn => Bool.noConfusion (hrun.symm.trans hn)⟩
  · rcases hins hb with ⟨hself, hold⟩ | ⟨hne, hold⟩
    · exact ⟨record, hold, fun _ => .inl hself⟩
    · exact ⟨record', hold, fun _ => .inr ⟨hne, rfl⟩⟩

/-- Whoever is found after a change was just started, or was there before; who has ended has no child that it did not have as one
who has ended. -/
theorem Change.found (h : Change powers t more t') (ho : t'.record? other = some record') :
    (∃ info, Effect.started other info ∈ more) ∧ record'.isRunning = true ∨
      ∃ record, t.record? other = some record ∧
        (record'.isRunning = false → ∀ c ∈ record'.children, record.isRunning = false ∧ c ∈ record.children) := by
  cases h with
  | quiet hq => exact .inr ⟨record', ho, fun hn c hm => ⟨hn, hm⟩⟩
  | @owned pid process _ hl process' hq =>
    rw [record?_putLive] at ho
    split at ho
    · rename_i hp
      subst hp
      obtain ⟨record, hr, rfl⟩ := Option.map_eq_some_iff.mp ho
      exact .inr ⟨record, hr, fun hn => Bool.noConfusion hn⟩
    · exact .inr ⟨record', ho, fun hn c hm => ⟨hn, hm⟩⟩
  | asleep hp => exact .inr ⟨record', ho, fun hn c hm => ⟨hn, hm⟩⟩
  | awake hp => exact .inr ⟨record', ho, fun hn c hm => ⟨hn, hm⟩⟩
  | enrolled hp info he =>
    rcases found_enrol he ho with ⟨rfl, hi⟩ | ⟨record, hr, hsame⟩
    · exact .inl ⟨⟨info, by simp⟩, hi⟩
    · refine .inr ⟨record, hr, fun hn c hm => ?_⟩
      obtain rfl := hsame hn
      exact ⟨hn, hm⟩
  | reaped hp hr =>
    obtain ⟨record, hold, hl, hc⟩ := found_reap hr ho
    exact .inr ⟨record, hold, fun hn c hm => ⟨(Record.isRunning_of_life hl).symm.trans hn, hc c hm⟩⟩
  | ended hp status hr hproc hq =>
    obtain ⟨record, hold, hc⟩ := found_retire hr status ho
    refine .inr ⟨record, hold, fun hn c hm => ?_⟩
    rcases hc hn with ⟨-, rfl⟩ | ⟨-, rfl⟩
    · exact absurd hm Std.ExtTreeSet.not_mem_empty
    · exact ⟨hn, hm⟩
  | cleared hq =>
    rw [clear, record?, Std.ExtTreeMap.getElem?_empty] at ho
    cases ho

end Found
end ProcessTable

namespace Kernel

variable {μ κ : Type}

/-- A change of the process table, with the effects that were added meanwhile. -/
def Changed (powers : Power → Prop) (k k' : Kernel μ κ) : Prop :=
  ∃ more, k'.world.effects = k.world.effects ++ more ∧ ProcessTable.Change powers k.processes more k'.processes

/-- Any number of changes. -/
abbrev Changes (powers : Power → Prop) : Kernel μ κ → Kernel μ κ → Prop := Relation.ReflTransGen (Changed powers)

variable {powers powers' : Power → Prop} {k k' : Kernel μ κ}

/-- What is added to the outside adds its starts. -/
theorem starts_append {more : List Effect} (he : k'.world.effects = k.world.effects ++ more) :
    k'.world.starts = k.world.starts + more.countP Effect.isStart := by
  rw [World.starts, he, List.countP_append, World.starts]

/-- What is quiet and leaves the processes alone. -/
theorem changed_quiet (hp : k'.processes = k.processes) (h : k.world.Adds Effect.isQuiet k'.world) : Changed powers k k' := by
  obtain ⟨more, he, hq⟩ := h
  refine ⟨more, he, ?_⟩
  rw [hp]
  exact .quiet k.processes hq

/-- What is quiet and gives a running process other belongings. -/
theorem changed_owned {pid : Pid} {process process' : Process} (hl : k.processes.live pid = .ok process)
    (hp : k'.processes = k.processes.putLive pid process') (h : k.world.Adds Effect.isQuiet k'.world) : Changed powers k k' := by
  obtain ⟨more, he, hq⟩ := h
  refine ⟨more, he, ?_⟩
  rw [hp]
  exact .owned hl process' hq

/-- A halt drops the processes, unless the machine had halted. -/
theorem changed_shutDown (k : Kernel μ κ) : Changed powers k k.shutDown := by
  unfold shutDown
  split
  · exact changed_quiet rfl (.refl _)
  · refine ⟨_, ?_, .cleared k.processes (.inr rfl)⟩
    simp only [dropProcesses, World.effects_emit, World.unblockAll_eq, WaitQueue.wakeAll, List.append_assoc]

/-- What a part of a run does to the outside is added to what was done before, and puts only such threads to sleep. -/
theorem Changes.exists_append (h : Changes powers k k') :
    ∃ more, k'.world.effects = k.world.effects ++ more ∧ ∀ thread, Effect.blocked thread ∈ more → powers (.sleep thread) := by
  induction h with
  | refl => exact ⟨[], (List.append_nil _).symm, fun _ hb => absurd hb List.not_mem_nil⟩
  | tail _ hc ih =>
    obtain ⟨before, hbefore, hsleep⟩ := ih
    obtain ⟨next, hnext, hc⟩ := hc
    refine ⟨before ++ next, by rw [hnext, hbefore, List.append_assoc], fun thread hb => ?_⟩
    rcases List.mem_append.mp hb with hb | hb
    · exact hsleep thread hb
    · exact hc.of_blocked hb

/-- The same of a given part. -/
theorem Changes.of_blocked (h : Changes powers k k') {more : List Effect} (he : k'.world.effects = k.world.effects ++ more)
    {thread : ThreadId} (hb : Effect.blocked thread ∈ more) : powers (.sleep thread) := by
  obtain ⟨more', he', hsleep⟩ := h.exists_append
  cases List.append_cancel_left (he.symm.trans he')
  exact hsleep thread hb

variable [Medium μ]

/-- What the end of a running process does to the outside: some of it is quiet, then all who wait are woken, and the end is
reported. -/
theorem effects_afterEnd (k : Kernel μ κ) (pid : Pid) (record : Record) (process : Process) (status : ExitStatus) :
    ∃ more, (∀ effect ∈ more, effect.isQuiet = true) ∧
      (k.afterEnd pid record process status).world.effects =
        k.world.effects ++ (more ++ k.processes.waiting.threads.map .unblocked ++
          [.notice (.exited pid status (k.processes.retire pid record status).running)]) := by
  -- Before the wakes the files are released and the ended children discarded, all of which is quiet.
  have hq : k.world.Adds Effect.isQuiet
      ((Descriptors.releaseAll k.registry k.world process.descriptors.files).2.noteAll
        ((k.processes.forsaken record.children.toList).map (Notice.discarded · pid))) := by
    refine (Descriptors.adds_releaseAll _ _ _).trans (World.adds_noteAll _ _ ?_)
    intro event he
    obtain ⟨child, -, rfl⟩ := List.mem_map.mp he
    rfl
  obtain ⟨more, he, hk⟩ := hq
  refine ⟨more, hk, ?_⟩
  simp only [afterEnd, World.effects_note, World.unblockAll_eq, WaitQueue.wakeAll, he, List.append_assoc]

/-- The end of a running process. -/
theorem changed_afterEnd {pid : Pid} {record : Record} {process : Process} (hp : powers .finish)
    (hr : k.processes.record? pid = some record) (hproc : record.process? = some process) (status : ExitStatus) :
    Changed powers k (k.afterEnd pid record process status) := by
  obtain ⟨more, hq, he⟩ := k.effects_afterEnd pid record process status
  exact ⟨_, he, .ended hp status hr hproc hq⟩

variable [Console κ]

/-- Every move is a change. -/
theorem changed_of_move (h : Move powers k k') : Changed powers k k' := by
  cases h with
  | note event he => exact changed_quiet rfl ((World.Adds.refl k.world).note event (World.isQuiet_of_isPlain _ he))
  | asleep thread hp => exact ⟨_, rfl, .asleep k.processes hp⟩
  | awake thread hp => exact ⟨[], (List.append_nil _).symm, .awake k.processes hp⟩
  | enrolled hp info he => exact ⟨_, by simp, .enrolled hp info he⟩
  | reaped hp hr => exact ⟨_, rfl, .reaped hp hr⟩
  | memory hl memory => exact changed_owned hl rfl (.refl _)
  | @opened pid process name mode fd descriptors registry world hp hl ho =>
    have ha := process.descriptors.adds_openFile k.registry k.world name mode
    exact changed_owned hl rfl (ha.trd ho).quiet
  | @notOpened descriptors name mode e registry world hp ho =>
    have ha := descriptors.adds_openFile k.registry k.world name mode
    exact changed_quiet rfl (ha.trd ho).quiet
  | @closed pid process fd descriptors registry world hp hl hc =>
    have ha := process.descriptors.adds_close k.registry k.world fd
    exact changed_owned hl rfl (ha.trd hc)
  | unlinked name hp => exact changed_quiet rfl (Registry.adds_unlink k.registry k.world name).quiet
  | @read pid process fd count deliver bytes memory descriptors world hp hl hr =>
    have ha := process.descriptors.adds_readWith k.world fd count deliver
    exact changed_owned hl rfl (ha.snd hr).quiet
  | @notRead descriptors fd count deliver e world hp hr =>
    have ha := descriptors.adds_readWith k.world fd count deliver
    exact changed_quiet rfl (ha.snd hr).quiet
  | @written pid process fd data count descriptors world hp hl hw =>
    have ha := process.descriptors.adds_write k.world fd data
    exact changed_owned hl rfl (ha.snd hw).quiet
  | @notWritten descriptors fd data e world hp hw =>
    have ha := descriptors.adds_write k.world fd data
    exact changed_quiet rfl (ha.snd hw).quiet
  | ended pid status hp =>
    rcases endProcess_cases k pid status with he | ⟨record, process, hr, hproc, he⟩
    · rw [he]
      exact changed_quiet rfl (.refl _)
    · rw [he]
      exact changed_afterEnd hp hr hproc status
  | shutDown hp => exact changed_shutDown k
  | dropped hp =>
    refine ⟨_, ?_, .cleared k.processes (.inl rfl)⟩
    simp only [dropProcesses, World.unblockAll_eq, WaitQueue.wakeAll, List.append_nil]

theorem changes_of_moves (h : Moves powers k k') : Changes powers k k' :=
  Relation.ReflTransGen.mono (fun _ _ hm => changed_of_move hm) _ _ h

/-! ## Joins -/

section Join

variable {caller child : Pid}

omit [Medium μ] [Console κ] in
/-- While the child runs, who asks for it goes to sleep. -/
theorem join_of_running (h : k.processes.reap caller child = .running) (thread : ThreadId) (use : JoinUse) :
    k.join thread caller child use =
      .suspended (.sleeping thread caller child use)
        { k with
          processes := { k.processes with waiting := k.processes.waiting.enter thread }
          world := (k.world.note (.waits caller child)).emit (.blocked thread) } := by
  unfold join
  rw [h]

omit [Medium μ] [Console κ] in
/-- Otherwise the join comes to an end. -/
theorem waits_join (h : k.processes.reap caller child ≠ .running) (thread : ThreadId) (use : JoinUse) :
    (k.join thread caller child use).waits = [] := by
  unfold join
  cases hr : k.processes.reap caller child with
  | refused => exact waits_finishJoin ..
  | running => exact absurd hr h
  | reaped status records => exact waits_finishJoin ..

/-- When a join comes to an end no thread passes through the queue. -/
theorem changes_join_of_not_running (h : k.processes.reap caller child ≠ .running) (thread : ThreadId) (use : JoinUse) :
    Changes (Power.passing fun _ => False) k (k.join thread caller child use).kernel :=
  changes_of_moves (moves_join k thread caller child use (fun hr => absurd hr h) fun _ _ _ => trivial)

/-- In a join no other thread passes through the queue. -/
theorem changes_join (k : Kernel μ κ) (thread : ThreadId) (caller child : Pid) (use : JoinUse) :
    Changes (Power.passing (· = thread)) k (k.join thread caller child use).kernel :=
  changes_of_moves (moves_join k thread caller child use (fun _ => rfl) fun _ _ _ => trivial)

omit [Medium μ] [Console κ] in
/-- A thread leaves the queue. -/
theorem changed_leave (k : Kernel μ κ) (thread : ThreadId) :
    Changed (Power.passing (· = thread)) k
      { k with processes := { k.processes with waiting := k.processes.waiting.leave thread } } :=
  ⟨[], (List.append_nil _).symm, .awake k.processes rfl⟩

omit [Medium μ] [Console κ] in
/-- A system call is reported, and the process table is not touched by that. -/
theorem changed_heard (k : Kernel μ κ) (c : Call) : Changed powers k (k.heard c) := by
  rcases k.heard_cases c with he | ⟨pid, number, args, he⟩
  · rw [he]
    exact changed_quiet rfl (.refl _)
  · rw [he]
    exact changed_quiet rfl ((World.Adds.refl k.world).note _ rfl)

end Join

/-! ## Calls and answers by which no thread passes through the queue -/

theorem changes_changeMemory (k : Kernel μ κ) (pid : Pid) (change : AddressSpace → Except KernelError AddressSpace) :
    Changes powers k (k.changeMemory pid change).2 :=
  changes_of_moves (moves_changeMemory k pid change)

/-- A call that asks for no child. -/
theorem changes_begin_of_joinOf {c : Call} (hj : k.joinOf c = none) (thread : ThreadId) :
    Changes (Power.passing fun _ => False) k (k.begin thread c).kernel := by
  refine changes_of_moves (moves_begin k thread c trivial (fun _ _ => trivial) (fun _ => trivial) (fun _ _ => ⟨trivial, trivial⟩) ?_)
  intro asked ha
  cases hj.symm.trans ha

/-- An answer to an operation in which no thread sleeps. -/
theorem changes_resume {s : Suspended} (a : s.Answer) (hs : s.sleeper? = none) :
    Changes (Power.passing fun _ => False) k (k.resume s a).kernel := by
  refine changes_of_moves (moves_resume k s a (fun _ => trivial) fun thread h => ?_)
  cases hs.symm.trans h

end Kernel

/-! ## Steps -/

namespace Machine

variable {μ κ : Type} [Medium μ] [Console κ] {allowed : Call → Prop}

/-- In a step only a thread that asks for a child passes through the queue. -/
theorem changes_of_step {m : Machine μ κ} {r : Machine μ κ × Option Outcome} (h : Step allowed m r) :
    Kernel.Changes (Power.passing fun thread => ∃ caller child use, Asks m r thread caller child use) m.kernel r.1.kernel := by
  cases h with
  | call _ thread c hc =>
    rw [show (m.call thread c).1.kernel = (m.kernel.begin thread c).kernel from kernel_settle ..]
    refine Kernel.changes_of_moves
      (Kernel.moves_begin _ thread c trivial (fun _ _ => trivial) (fun _ => trivial) (fun _ _ => ⟨trivial, trivial⟩) ?_)
    rintro ⟨caller, child, use⟩ hj
    exact ⟨⟨caller, child, use, .call m thread c hj⟩, trivial⟩
  | answer k before after s a =>
    rw [kernel_settle]
    refine Kernel.changes_of_moves (Kernel.moves_resume k s a (fun _ => trivial) fun thread hs => ?_)
    cases s with
    | sleeping thread' caller child use =>
      cases hs
      exact ⟨⟨caller, child, use, .again k before after thread caller child use⟩, trivial⟩
    | _ => cases hs
  | memory _ pid change => exact Kernel.changes_changeMemory m.kernel pid change

/-- Who asks for a child joins, on the same records, when no more than a system call was reported. -/
theorem Asks.exists_join {m : Machine μ κ} {r : Machine μ κ × Option Outcome} {thread : ThreadId} {caller child : Pid}
    {use : JoinUse} (h : Asks m r thread caller child use) :
    ∃ (k : Kernel μ κ) (waiting : List Suspended),
      r = settle waiting (k.join thread caller child use) ∧ k.processes.records = m.kernel.processes.records ∧
      m.kernel.world.Adds Effect.isQuiet k.world := by
  cases h with
  | call _ _ c hj =>
    refine ⟨m.kernel.heard c, m.waiting, by rw [Machine.call, Kernel.begin_of_joinOf hj], ?_⟩
    rcases m.kernel.heard_cases c with he | ⟨pid, number, args, he⟩
    · rw [he]
      exact ⟨rfl, .refl _⟩
    · rw [he]
      exact ⟨rfl, (World.Adds.refl _).note _ rfl⟩
  | again k before after => exact ⟨_, before ++ after, rfl, rfl, .refl _⟩

end Machine

end Nucleus
