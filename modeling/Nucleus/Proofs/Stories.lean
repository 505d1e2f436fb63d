import Nucleus.Proofs.Changes
import Nucleus.Proofs.Forest

/-!
# What is told of a process

A process is created, ends and has its status taken, each once and in this order, or it does not come so far: `Told` says which
stories there are. What was reported of a process so far is such a story, and as long as the process has a record, the record tells
it too (`Chronicled`). So whoever takes a status is the parent that the process was created for, and takes what the process ended
with.
-/

namespace Nucleus

/-- The process that a deed is about. -/
def Deed.subject : Deed → Pid
  | .created _ pid => pid
  | .ended pid _ => pid
  | .taken _ child _ => child

/-- What some effects tell of a process, in order. -/
def Effect.story (effects : List Effect) (pid : Pid) : List Deed := (effects.filterMap Effect.deed?).filter (·.subject = pid)

/-- What has been told of a process so far. -/
def World.story {μ κ : Type} (w : World μ κ) (pid : Pid) : List Deed := Effect.story w.effects pid

/-- What a record tells of its process. -/
def Record.story (r : Record) (pid : Pid) : List Deed := .created r.parent pid :: r.status?.toList.map (.ended pid)

/-- What can be told of a process. -/
inductive Told (pid : Pid) : List Deed → Prop where
  /-- Nothing yet. -/
  | unborn : Told pid []
  /-- It was created. -/
  | created (parent : Option Pid) : Told pid [.created parent pid]
  /-- It has ended. -/
  | ended (parent : Option Pid) (status : ExitStatus) : Told pid [.created parent pid, .ended pid status]
  /-- Its parent has taken the status that it ended with. -/
  | taken (parent : Pid) (status : ExitStatus) :
      Told pid [.created (some parent) pid, .ended pid status, .taken parent pid status]

/-- A record tells what can be told. -/
theorem told_story (r : Record) (pid : Pid) : Told pid (r.story pid) := by
  unfold Record.story
  cases r.status? with
  | none => exact .created r.parent
  | some status => exact .ended r.parent status

/-- When a status was taken, the whole story is told: the child was created for the one who took it, it ended with this status, and
nothing comes after. -/
theorem Told.of_taken {pid caller : Pid} {status : ExitStatus} {before after : List Deed}
    (h : Told pid (before ++ .taken caller pid status :: after)) :
    before = [.created (some caller) pid, .ended pid status] ∧ after = [] := by
  generalize hd : before ++ .taken caller pid status :: after = deeds at h
  cases h with
  | unborn => simp at hd
  | created parent =>
    cases before with
    | nil => simp at hd
    | cons d rest => simp at hd
  | ended parent last =>
    match before with
    | [] => simp at hd
    | [_] => simp at hd
    | _ :: _ :: _ => simp at hd
  | taken parent last =>
    match before with
    | [] => simp at hd
    | [_] => simp at hd
    | [_, _] =>
      simp only [List.cons_append, List.nil_append, List.cons.injEq, Deed.taken.injEq, true_and] at hd
      obtain ⟨rfl, rfl, ⟨rfl, rfl⟩, rfl⟩ := hd
      exact ⟨rfl, rfl⟩
    | _ :: _ :: _ :: _ => simp at hd

namespace Effect

variable {effects : List Effect} (pid : Pid)

theorem story_append (effects more : List Effect) : story (effects ++ more) pid = story effects pid ++ story more pid := by
  rw [story, List.filterMap_append, List.filter_append, story, story]

/-- Effects that report no deed tell nothing. -/
theorem story_eq_nil (h : ∀ effect ∈ effects, effect.deed? = none) : story effects pid = [] := by
  rw [story, List.filterMap_eq_nil_iff.mpr h]
  rfl

/-- Quiet effects report no deed. -/
theorem deed?_of_isQuiet {effect : Effect} (h : effect.isQuiet = true) : effect.deed? = none := by
  cases effect with
  | notice event => exact Option.isNone_iff_eq_none.mp h
  | _ => rfl

/-- Nor does a thread that is woken. -/
theorem story_unblocked (threads : List ThreadId) : story (threads.map Effect.unblocked) pid = [] := by
  refine story_eq_nil pid fun effect hm => ?_
  obtain ⟨thread, -, rfl⟩ := List.mem_map.mp hm
  rfl

/-- A deed is told of its subject. -/
theorem story_of_deed {effect : Effect} {deed : Deed} {subject : Pid} (h : effect.deed? = some deed)
    (hs : deed.subject = subject) :
    story [effect] pid = if subject = pid then [deed] else [] := by
  rw [story, List.filterMap_cons_some h, List.filterMap_nil, List.filter_cons, List.filter_nil, hs]
  simp only [decide_eq_true_eq]

theorem story_ended (ending : Pid) (status : ExitStatus) (running : Nat) :
    story [.notice (.exited ending status running)] pid = if ending = pid then [.ended ending status] else [] :=
  story_of_deed pid rfl rfl

theorem story_taken (caller child : Pid) (status : ExitStatus) :
    story [.notice (.reaped caller child status)] pid = if child = pid then [.taken caller child status] else [] :=
  story_of_deed pid rfl rfl

/-- That a program became a process and was started tells that the process was created. -/
theorem story_spawned (new : Pid) (program : String) (parent : Option Pid) (info : StartInfo) :
    story [.notice (.spawned new program parent), .started new info] pid = if new = pid then [.created parent new] else [] := by
  have hstarted : story [.started new info] pid = [] := rfl
  rw [← List.singleton_append, story_append, hstarted, List.append_nil]
  exact story_of_deed pid rfl rfl

end Effect

namespace ProcessTable

/-- What is told of a process by its record, if it has one. -/
def told? (t : ProcessTable) (pid : Pid) : Option (List Deed) := (t.record? pid).map (·.story pid)

variable {powers : Power → Prop} {t t' : ProcessTable} {more : List Effect} {pid : Pid}

/-- Without the powers to enrol, to take a status and to end a process nothing is told. -/
theorem Change.story_eq_nil (h : Change powers t more t') (he : ¬powers .enrol) (ht : ¬powers .take) (hf : ¬powers .finish) :
    Effect.story more pid = [] := by
  cases h with
  | quiet hq => exact Effect.story_eq_nil pid fun effect hm => Effect.deed?_of_isQuiet (hq effect hm)
  | owned hl process' hq => exact Effect.story_eq_nil pid fun effect hm => Effect.deed?_of_isQuiet (hq effect hm)
  | asleep hp => rfl
  | awake hp => rfl
  | enrolled hp info hen => exact absurd hp he
  | reaped hp hr => exact absurd hp ht
  | ended hp status hr hproc hq => exact absurd hp hf
  | cleared hq =>
    rw [Effect.story_append, Effect.story_unblocked]
    rcases hq with rfl | rfl <;> rfl

/-- Other belongings of a running process are not told. -/
theorem told?_putLive {owner : Pid} {process : Process} (hl : t.live owner = .ok process) (process' : Process) (pid : Pid) :
    (t.putLive owner process').told? pid = t.told? pid := by
  unfold told?
  rw [record?_putLive]
  split
  · rename_i he
    obtain ⟨record, hr, hp⟩ := live_eq_ok_iff.mp hl
    have hs := Record.status?_eq_none hp
    rw [← he, hr, Option.map_some, Option.map_some, Option.map_some]
    simp only [Record.story, hs]
    rfl
  · rfl

/-- An enrolment is told of the new process, as its record tells it; all others have the records that they had. -/
theorem told?_enrol (hf : t.Forest) {parent : Option Pid} {program : String} {image : ProgramImage} {slots : Nat} {new : Pid}
    (h : t.enrol parent program image slots = .ok (new, t')) (pid : Pid) :
    t'.told? pid = if pid = new then some [.created parent new] else t.told? pid := by
  unfold told?
  rw [record?_enrol h hf.free]
  by_cases hp : pid = new
  · rw [if_pos hp, if_pos hp, hp]
    rfl
  · rw [if_neg hp, if_neg hp]
    split
    · rw [Option.map_map]
      rfl
    · rfl

/-- A child whose status is taken has told its whole story but this; its record is gone then, and all others are told of as before.
-/
theorem told?_reap (hf : t.Forest) {caller child : Pid} {status : ExitStatus} {records : Records}
    (h : t.reap caller child = .reaped status records) (pid : Pid) :
    t.told? child = some [.created (some caller) child, .ended child status] ∧
      told? { t with records } pid = if pid = child then none else t.told? pid := by
  obtain ⟨parent, ended, hp, hm, he, hz, -⟩ := reap_reaped h
  constructor
  · rw [told?, he, Option.map_some, Record.story, hf.parent_of_mem hp hm he, Record.status?, hz]
    rfl
  · have hr := record?_reap h (hf.reap_ne h) pid
    unfold told?
    rw [show record? { t with records } pid = records[pid]? from rfl, hr]
    by_cases hpid : pid = child
    · rw [if_pos hpid, if_pos hpid]
      rfl
    · rw [if_neg hpid, if_neg hpid]
      split
      · rw [Option.map_map]
        rfl
      · rfl

/-- A process that ends had told no more than that it was created. Its record tells the end, or is gone, and all others are told of
as before, or their records are gone. -/
theorem told?_retire (hf : t.Forest) {ending : Pid} {record : Record} {process : Process} (hr : t.record? ending = some record)
    (hp : record.process? = some process) (status : ExitStatus) :
    t.told? ending = some [.created record.parent ending] ∧
      ((t.retire ending record status).told? ending = some [.created record.parent ending, .ended ending status] ∨
        (t.retire ending record status).told? ending = none) ∧
      ∀ pid ≠ ending,
        (t.retire ending record status).told? pid = t.told? pid ∨ (t.retire ending record status).told? pid = none := by
  have hself := hf.not_own_child hr
  have hs := Record.status?_eq_none hp
  refine ⟨?_, ?_, fun pid hne => ?_⟩
  · rw [told?, hr, Option.map_some, Record.story, hs]
    rfl
  · unfold told?
    rw [record?_retire_self t ending status hself]
    split
    · exact .inl rfl
    · exact .inr rfl
  · unfold told?
    rw [record?_retire_other t ending status hself hne]
    split
    · cases hrec : t.record? pid with
      | none => exact .inl rfl
      | some other =>
        rw [Option.bind_some, Forsaken]
        split
        · exact .inr rfl
        · exact .inl rfl
    · exact .inl rfl

/-- What a change tells of a process. It tells nothing, and the record stays, as far as it tells something, or goes; or it creates
the process of the next number; or it goes on with the story that the record tells. -/
theorem Change.told (h : Change powers t more t') (hf : t.Forest) (pid : Pid) :
    Effect.story more pid = [] ∧ (t'.told? pid = t.told? pid ∨ t'.told? pid = none) ∨
      pid = ⟨t.next⟩ ∧
        (∃ parent, Effect.story more pid = [.created parent pid] ∧ t'.told? pid = some [.created parent pid]) ∨
      ∃ story, t.told? pid = some story ∧ Told pid (story ++ Effect.story more pid) ∧
        (t'.told? pid = some (story ++ Effect.story more pid) ∨ t'.told? pid = none) := by
  have hquiet : ∀ {more : List Effect}, (∀ effect ∈ more, effect.isQuiet = true) → Effect.story more pid = [] :=
    fun hq => Effect.story_eq_nil pid fun effect hm => Effect.deed?_of_isQuiet (hq effect hm)
  cases h with
  | quiet hq => exact .inl ⟨hquiet hq, .inl rfl⟩
  | owned hl process' hq => exact .inl ⟨hquiet hq, .inl (told?_putLive hl process' pid)⟩
  | asleep hp => exact .inl ⟨rfl, .inl rfl⟩
  | awake hp => exact .inl ⟨rfl, .inl rfl⟩
  | @enrolled t' parent program image slots new hp info he =>
    have htold := told?_enrol hf he pid
    rw [Effect.story_spawned]
    by_cases hpid : pid = new
    · rw [if_pos hpid] at htold
      rw [if_pos hpid.symm]
      subst hpid
      exact .inr (.inl ⟨(enrol_ok he).1, parent, rfl, htold⟩)
    · rw [if_neg hpid] at htold
      rw [if_neg fun e => hpid e.symm]
      exact .inl ⟨rfl, .inl htold⟩
  | @reaped caller child status records hp hr =>
    obtain ⟨hchild, htold⟩ := told?_reap hf hr pid
    rw [Effect.story_taken]
    by_cases hpid : pid = child
    · rw [if_pos hpid] at htold
      subst hpid
      rw [if_pos rfl]
      exact .inr (.inr ⟨_, hchild, .taken caller status, .inr htold⟩)
    · rw [if_neg hpid] at htold
      rw [if_neg fun e => hpid e.symm]
      exact .inl ⟨rfl, .inl htold⟩
  | @ended ending record process hp status quiet hr hproc hq =>
    obtain ⟨hbefore, hself, hother⟩ := told?_retire hf hr hproc status
    rw [Effect.story_append, Effect.story_append, hquiet hq, Effect.story_unblocked,
      Effect.story_ended]
    by_cases hpid : pid = ending
    · subst hpid
      rw [if_pos rfl]
      exact .inr (.inr ⟨_, hbefore, .ended record.parent status, hself⟩)
    · rw [if_neg fun e => hpid e.symm]
      exact .inl ⟨rfl, hother pid hpid⟩
  | cleared hq =>
    refine .inl ⟨?_, .inr ?_⟩
    · rw [Effect.story_append, Effect.story_unblocked]
      rcases hq with rfl | rfl <;> rfl
    · rw [told?, record?, clear, Std.ExtTreeMap.getElem?_empty]
      rfl

end ProcessTable

namespace Kernel

/-- What has been told of the processes agrees with their records. -/
structure Chronicled {μ κ : Type} (k : Kernel μ κ) : Prop where
  /-- The record of a process tells what has been told of it. -/
  known : ∀ pid story, k.processes.told? pid = some story → k.world.story pid = story
  /-- Of a process without a record something has been told that can be told. -/
  gone : ∀ pid, k.processes.told? pid = none → Told pid (k.world.story pid)
  /-- Nothing has been told of a process to come. -/
  unborn : ∀ pid : Pid, k.processes.next.toNat ≤ pid.raw.toNat → k.world.story pid = []

variable {μ κ : Type} {powers : Power → Prop} {k k' : Kernel μ κ}

/-- Whatever has been told of a process can be told. -/
theorem Chronicled.told (hc : k.Chronicled) (pid : Pid) : Told pid (k.world.story pid) := by
  cases ht : k.processes.told? pid with
  | none => exact hc.gone pid ht
  | some story =>
    obtain ⟨record, -, rfl⟩ := Option.map_eq_some_iff.mp ht
    rw [hc.known pid _ ht]
    exact told_story record pid

/-- What a change adds to the outside is told besides what had been told. -/
theorem story_append {more : List Effect} (he : k'.world.effects = k.world.effects ++ more) (pid : Pid) :
    k'.world.story pid = k.world.story pid ++ Effect.story more pid := by
  rw [World.story, he, Effect.story_append, World.story]

theorem chronicled_create (settings : Settings) (medium : μ) (console : κ) : (create settings medium console).Chronicled where
  known pid story h := by
    rw [ProcessTable.told?, ProcessTable.record?, create, ProcessTable.empty, Std.ExtTreeMap.getElem?_empty] at h
    cases h
  gone pid _ := .unborn
  unborn _ _ := rfl

/-- Every change of an orderly kernel is told as it should. -/
theorem Chronicled.changed (hc : k.Chronicled) (ho : k.Orderly) (ho' : k'.Orderly) (h : Changed powers k k') : k'.Chronicled := by
  obtain ⟨more, he, hchange⟩ := h
  have hstory := story_append he
  have hfresh : ∀ {k : Kernel μ κ} {pid story}, k.Orderly → k.processes.told? pid = some story →
      ¬k.processes.next.toNat ≤ pid.raw.toNat := by
    intro k pid story ho ht
    obtain ⟨record, hr, -⟩ := Option.map_eq_some_iff.mp ht
    exact Nat.not_le.mpr (ho.1.fresh pid record hr)
  refine ⟨fun pid story ht => ?_, fun pid ht => ?_, fun pid hle => ?_⟩
  · rcases hchange.told ho.1 pid with ⟨hnil, hsame | hgone⟩ | ⟨rfl, parent, hnew, htold⟩ | ⟨before, hbefore, -, hsame | hgone⟩
    · rw [hstory, hnil, List.append_nil]
      exact hc.known pid story (hsame ▸ ht)
    · cases hgone.symm.trans ht
    · rw [hstory, hc.unborn _ (Nat.le_refl _), hnew, List.nil_append]
      exact Option.some.inj (htold.symm.trans ht)
    · rw [hstory, hc.known pid before hbefore]
      exact Option.some.inj (hsame.symm.trans ht)
    · cases hgone.symm.trans ht
  · rcases hchange.told ho.1 pid with ⟨hnil, -⟩ | ⟨rfl, parent, hnew, htold⟩ | ⟨before, hbefore, htold, -⟩
    · rw [hstory, hnil, List.append_nil]
      exact hc.told pid
    · cases htold.symm.trans ht
    · rw [hstory, hc.known pid before hbefore]
      exact htold
  · have hle' : k.processes.next.toNat ≤ pid.raw.toNat := by
      have hstarts := starts_append he
      have := ho.2
      have := ho'.2
      omega
    rw [hstory, hc.unborn pid hle']
    rcases hchange.told ho.1 pid with ⟨hnil, -⟩ | ⟨rfl, parent, -, htold⟩ | ⟨before, hbefore, -⟩
    · rw [hnil, List.append_nil]
    · exact absurd hle (hfresh ho' htold)
    · exact absurd hle' (hfresh ho hbefore)

/-! ### What operations tell -/

/-- Without the powers to enrol, to take a status and to end a process nothing is told. -/
theorem story_of_changes (h : Changes powers k k') (he : ¬powers .enrol) (ht : ¬powers .take) (hf : ¬powers .finish) (pid : Pid) :
    k'.world.story pid = k.world.story pid := by
  induction h with
  | refl => rfl
  | tail _ hc ih =>
    obtain ⟨more, heffects, hchange⟩ := hc
    rw [story_append heffects, hchange.story_eq_nil he ht hf, List.append_nil, ih]

/-- Quiet effects tell nothing. -/
theorem story_of_quiet {w w' : World μ κ} (h : w.Adds Effect.isQuiet w') (pid : Pid) : w'.story pid = w.story pid := by
  obtain ⟨more, he, hq⟩ := h
  rw [World.story, he, Effect.story_append, Effect.story_eq_nil pid fun effect hm => Effect.deed?_of_isQuiet (hq effect hm),
    List.append_nil, World.story]

section Ends

variable [Medium μ]

/-- The end of a process that runs is told. -/
theorem story_endProcess {pid : Pid} (h : k.processes.isRunning pid = true) (status : ExitStatus) (other : Pid) :
    (k.endProcess pid status).2.world.story other =
      k.world.story other ++ if pid = other then [.ended pid status] else [] := by
  obtain ⟨record, hr, hi⟩ := ProcessTable.isRunning_eq_true_iff.mp h
  obtain ⟨process, hp⟩ := Option.isSome_iff_exists.mp hi
  obtain ⟨more, hq, he⟩ := k.effects_afterEnd pid record process status
  rw [endProcess_of_running hr hp, story_append he, Effect.story_append, Effect.story_append,
    Effect.story_eq_nil other fun effect hm => Effect.deed?_of_isQuiet (hq effect hm), Effect.story_unblocked, Effect.story_ended]
  rfl

/-- Of a process that does not run no end is told. -/
theorem story_endProcess_of_not_running {pid : Pid} (h : k.processes.isRunning pid = false) (status : ExitStatus) (other : Pid) :
    (k.endProcess pid status).2.world.story other = k.world.story other := by
  rcases endProcess_cases k pid status with he | ⟨record, process, hr, hp, -⟩
  · rw [he]
  · have hi : record.isRunning = true := Record.isRunning_of_process? hp
    exact absurd (h.symm.trans (ProcessTable.isRunning_eq_true_iff.mpr ⟨record, hr, hi⟩)) Bool.false_ne_true

end Ends

section Operations

variable [Medium μ] [Console κ] {caller child : Pid}

/-- A call that is to end a process ends it, after a report at most, and may halt the machine then. -/
theorem begin_of_endOf {c : Call} {pid : Pid} {status : ExitStatus} (h : k.endOf c = some (pid, status)) (thread : ThreadId) :
    ∃ k₁ : Kernel μ κ, k₁.processes = k.processes ∧ k.world.Adds Effect.isQuiet k₁.world ∧
      Moves (· = .halt) (k₁.endProcess pid status).2 (k.begin thread c).kernel := by
  have hnoted : ∀ event, (Effect.notice event).isQuiet = true → k.world.Adds Effect.isQuiet (k.note event).world :=
    fun event => (World.Adds.refl k.world).note event
  have hcall : ∀ caller number args trap, k.exitedBy caller number args = some (pid, status) →
      ∃ k₁ : Kernel μ κ, k₁.processes = k.processes ∧ k.world.Adds Effect.isQuiet k₁.world ∧
        Moves (· = .halt) (k₁.endProcess pid status).2 (k.dispatch thread caller number args trap).kernel := by
    intro caller number args trap he
    obtain ⟨outcome, hd⟩ := dispatch_of_exitedBy he thread trap
    rw [hd]
    exact ⟨k.note (.syscall caller number args.toList), rfl, hnoted _ rfl, moves_after_endProcess _ pid status rfl⟩
  cases c with
  | systemCall caller number args => exact hcall caller number args none h
  | trap caller cause frame =>
    simp only [begin, takeTrap]
    split
    · exact hcall caller frame.v0 frame.args (some frame) h
    · rename_i hc
      rw [endOf, if_neg hc] at h
      cases h
      exact ⟨k.note (.exception pid cause frame.badAddress frame.counter), rfl, hnoted _ rfl, moves_after_endProcess _ pid _ rfl⟩
  | exit ending ended =>
    cases h
    exact ⟨k, rfl, .refl _, moves_after_endProcess k pid status rfl⟩
  | endProcess ending ended =>
    cases h
    exact ⟨k, rfl, .refl _, .refl⟩
  | _ => cases h

/-- A call that is to end a process tells its end, if it runs. -/
theorem story_begin_of_endOf {c : Call} {pid : Pid} {status : ExitStatus} (h : k.endOf c = some (pid, status)) (thread : ThreadId)
    (other : Pid) :
    (k.begin thread c).kernel.world.story other =
      k.world.story other ++ if k.processes.isRunning pid = true ∧ pid = other then [.ended pid status] else [] := by
  obtain ⟨k₁, hp, hq, hm⟩ := begin_of_endOf h thread
  rw [story_of_changes (changes_of_moves hm) (by simp) (by simp) (by simp)]
  by_cases hr : k.processes.isRunning pid = true
  · rw [story_endProcess (hp ▸ hr), story_of_quiet hq]
    simp only [hr, true_and]
  · rw [story_endProcess_of_not_running (hp ▸ Bool.eq_false_iff.mpr hr), story_of_quiet hq, if_neg fun he => hr he.1,
      List.append_nil]

/-- A call that is to end no process and asks for no child tells nothing. -/
theorem story_begin {c : Call} (he : k.endOf c = none) (hj : k.joinOf c = none) (thread : ThreadId) (pid : Pid) :
    (k.begin thread c).kernel.world.story pid = k.world.story pid := by
  have hm : Moves (fun power => power = .files ∨ power = .halt ∨ power = .drop) k (k.begin thread c).kernel :=
    moves_begin k thread c (.inl rfl) (fun _ _ => .inr (.inl rfl)) (fun _ => .inr (.inr rfl))
      (fun asked ha => by cases he.symm.trans ha)
      fun asked ha => by cases hj.symm.trans ha
  exact story_of_changes (changes_of_moves hm) (by simp) (by simp) (by simp) pid

/-- The end of a join tells nothing more. -/
theorem story_finishJoin (k : Kernel μ κ) (caller : Pid) (use : JoinUse) (result : Except KernelError ExitStatus) (pid : Pid) :
    (k.finishJoin caller use result).kernel.world.story pid = k.world.story pid := by
  have hm : Moves (fun _ => False) k (k.finishJoin caller use result).kernel := moves_finishJoin k caller use result
  exact story_of_changes (changes_of_moves hm) id id id pid

/-- A join that gets a status tells that it was taken. -/
theorem story_join_of_reaped {status : ExitStatus} {records : Records} (h : k.processes.reap caller child = .reaped status records)
    (thread : ThreadId) (use : JoinUse) (pid : Pid) :
    (k.join thread caller child use).kernel.world.story pid =
      k.world.story pid ++ if child = pid then [.taken caller child status] else [] := by
  unfold join
  rw [h]
  dsimp only
  rw [story_finishJoin, ← Effect.story_taken]
  exact Effect.story_append pid k.world.effects _

/-- A join that does not tells nothing. -/
theorem story_join (h : ∀ status records, k.processes.reap caller child ≠ .reaped status records) (thread : ThreadId)
    (use : JoinUse) (pid : Pid) : (k.join thread caller child use).kernel.world.story pid = k.world.story pid := by
  have hm : Moves (· = .sleep thread) k (k.join thread caller child use).kernel :=
    moves_join k thread caller child use (fun _ => rfl) fun status records hr => absurd hr (h status records)
  exact story_of_changes (changes_of_moves hm) (by simp) (by simp) (by simp) pid

end Operations

end Kernel

end Nucleus
