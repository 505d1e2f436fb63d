import Nucleus.Proofs.Changes
import Nucleus.Proofs.Scripts
import Nucleus.Device.RamDisk
import Mathlib.Data.List.Nodup

/-!
# No wake-up is lost

A thread goes to sleep only for a child that runs, and from then on it either stands in the queue while that child runs, or has
been woken. The end of any process and the drop of all processes empty the queue and wake who stood in it; nothing else can take
the child away from a caller that waits. The threads that sleep at one time have to be different, as the thread takes every entry
of its own out of the queue when it goes on.
-/

namespace Nucleus

/-- What has been done since a thread last went to sleep, the latest thing first. -/
def World.sinceAsleep {μ κ : Type} (w : World μ κ) (thread : ThreadId) : List Effect :=
  w.effects.reverse.takeWhile (· ≠ .blocked thread)

section Since

variable {μ κ : Type} {w w' : World μ κ} {more : List Effect} {thread : ThreadId}

/-- As long as the thread does not go to sleep again, what is done is done since it went to sleep. -/
theorem World.sinceAsleep_append (he : w'.effects = w.effects ++ more) (hb : Effect.blocked thread ∉ more) :
    w'.sinceAsleep thread = more.reverse ++ w.sinceAsleep thread := by
  unfold World.sinceAsleep
  rw [he, List.reverse_append, List.takeWhile_append_of_pos]
  intro effect hm
  have hne : effect ≠ .blocked thread := fun e => hb (e ▸ List.mem_reverse.mp hm)
  exact decide_eq_true hne

/-- Nothing has been done since a thread went to sleep just now. -/
theorem World.sinceAsleep_emit_blocked (w : World μ κ) (thread : ThreadId) :
    (w.emit (.blocked thread)).sinceAsleep thread = [] := by
  simp [World.sinceAsleep]

end Since

/-! ## The child that is waited for -/

namespace ProcessTable

open Records

/-- A process is an unreaped child of another, and runs. -/
def RunningChild (t : ProcessTable) (parent child : Pid) : Prop := t.isChild parent child = true ∧ t.isRunning child = true

/-- Who has ended lists no child. -/
def Childless (t : ProcessTable) : Prop :=
  ∀ pid record, t.record? pid = some record → record.isRunning = false → ∀ child, child ∉ record.children

variable {powers : Power → Prop} {t t' : ProcessTable} {more : List Effect} {caller child : Pid} {thread : ThreadId}

theorem runningChild_iff :
    t.RunningChild caller child ↔ ∃ rp rc, t.record? caller = some rp ∧ child ∈ rp.children ∧ t.record? child = some rc ∧
      rc.isRunning = true := by
  unfold RunningChild
  rw [isChild_eq_true_iff, isRunning_eq_true_iff]
  constructor
  · rintro ⟨⟨rp, hp, hm⟩, rc, hc, hi⟩
    exact ⟨rp, rc, hp, hm, hc, hi⟩
  · rintro ⟨rp, rc, hp, hm, hc, hi⟩
    exact ⟨⟨rp, hp, hm⟩, rc, hc, hi⟩

/-- A child's status is not there yet exactly while the child runs. -/
theorem reap_eq_running_iff : t.reap caller child = .running ↔ t.RunningChild caller child := by
  unfold reap RunningChild isRunning
  cases hc : t.isChild caller child with
  | false => simp
  | true =>
    cases hr : t.record? child with
    | none => simp
    | some record =>
      cases hl : record.life <;> simp [hl, Record.isRunning, Record.process?]

/-- Who has ended keeps listing no child. -/
theorem Change.childless (h : Change powers t more t') (hc : t.Childless) : t'.Childless := by
  intro pid record' ho hn c hm
  rcases h.found ho with ⟨-, hi⟩ | ⟨record, hr, hsub⟩
  · exact Bool.noConfusion (hi.symm.trans hn)
  · obtain ⟨hn', hm'⟩ := hsub hn c hm
    exact hc pid record hr hn' c hm'

theorem waiting_putLive (t : ProcessTable) (pid : Pid) (process : Process) : (t.putLive pid process).waiting = t.waiting := by
  unfold putLive
  split <;> rfl

theorem waiting_enrol {parent : Option Pid} {program : String} {image : ProgramImage} {slots : Nat} {pid : Pid}
    (h : t.enrol parent program image slots = .ok (pid, t')) : t'.waiting = t.waiting := by
  unfold enrol at h
  split at h
  · cases h
  · cases h
    rfl

/-- Unless a thread passes through the queue or is woken, it stands in the queue as often as before. -/
theorem Change.count (h : Change powers t more t') (ht : ¬powers (.sleep thread)) (hw : Effect.unblocked thread ∉ more) :
    t'.waiting.threads.count thread = t.waiting.threads.count thread := by
  -- Who is not woken when all are woken was not in the queue.
  have hnone : Effect.unblocked thread ∉ t.waiting.threads.map Effect.unblocked →
      WaitQueue.empty.threads.count thread = t.waiting.threads.count thread := by
    intro hn
    have hq : thread ∉ t.waiting.threads := fun hm => hn (List.mem_map_of_mem hm)
    rw [List.count_eq_zero.mpr hq]
    rfl
  cases h with
  | quiet hq => rfl
  | owned hl process' hq => rw [waiting_putLive]
  | @asleep other hp =>
    have hne : other ≠ thread := fun e => ht (e ▸ hp)
    simp [WaitQueue.enter, List.count_append, hne]
  | @awake other hp =>
    have hne : thread ≠ other := fun e => ht (e ▸ hp)
    exact List.count_filter (decide_eq_true hne)
  | enrolled hp info he => rw [waiting_enrol he]
  | reaped hp hr => rfl
  | ended hp status hr hproc hq => exact hnone fun hm => hw (by simp [hm])
  | cleared hq => exact hnone fun hm => hw (List.mem_append_left _ hm)

/-- Unless a thread passes through it, whoever stands in the queue stood there before. -/
theorem Change.mem_waiting (h : Change powers t more t') (ht : ¬powers (.sleep thread)) (hm : thread ∈ t'.waiting.threads) :
    thread ∈ t.waiting.threads := by
  cases h with
  | quiet hq => exact hm
  | owned hl process' hq => rwa [waiting_putLive] at hm
  | @asleep other hp =>
    rcases List.mem_append.mp hm with hm | hm
    · exact hm
    · cases List.mem_singleton.mp hm
      exact absurd hp ht
  | @awake other hp => exact List.mem_of_mem_filter hm
  | enrolled hp info he => rwa [waiting_enrol he] at hm
  | reaped hp hr => exact hm
  | ended hp status hr hproc hq => exact absurd hm List.not_mem_nil
  | cleared hq => exact absurd hm List.not_mem_nil

section RunningChild

/-- Other belongings of a process that runs do not matter to a child that runs. -/
theorem RunningChild.putLive (hk : t.RunningChild caller child) {pid : Pid} (process : Process) :
    (t.putLive pid process).RunningChild caller child := by
  rw [runningChild_iff] at hk ⊢
  obtain ⟨rp, rc, hp, hm, hc, hi⟩ := hk
  have hfind : ∀ {other r}, t.record? other = some r →
      ∃ r', (t.putLive pid process).record? other = some r' ∧ r'.children = r.children ∧
        (r.isRunning = true → r'.isRunning = true) := by
    intro other r hr
    rw [record?_putLive]
    by_cases he : pid = other
    · rw [if_pos he, he, hr]
      exact ⟨_, rfl, rfl, fun _ => rfl⟩
    · rw [if_neg he]
      exact ⟨r, hr, rfl, id⟩
  obtain ⟨rp', hp', hch, -⟩ := hfind hp
  obtain ⟨rc', hc', -, hi'⟩ := hfind hc
  exact ⟨rp', rc', hp', hch ▸ hm, hc', hi' hi⟩

/-- Nor does an enrolment, unless it gives the caller's number out again. -/
theorem RunningChild.enrol (hk : t.RunningChild caller child) {parent : Option Pid} {program : String} {image : ProgramImage}
    {slots : Nat} {pid : Pid} (h : t.enrol parent program image slots = .ok (pid, t')) (hne : caller ≠ pid) :
    t'.RunningChild caller child := by
  rw [runningChild_iff] at hk ⊢
  obtain ⟨rp, rc, hp, hm, hc, hi⟩ := hk
  obtain ⟨rp', hp', -, hsub⟩ := kept_enrol h hne hp
  by_cases hce : child = pid
  · obtain ⟨rc', hc', hi'⟩ := isRunning_eq_true_iff.mp (isRunning_enrol h)
    exact ⟨rp', rc', hp', hsub child hm, hce ▸ hc', hi'⟩
  · obtain ⟨rc', hc', hl, -⟩ := kept_enrol h hce hc
    exact ⟨rp', rc', hp', hsub child hm, hc', (Record.isRunning_of_life hl).trans hi⟩

/-- Nor does it matter that a status is taken, if those who have ended have no children. -/
theorem RunningChild.reap (hk : t.RunningChild caller child) (hch : t.Childless) {parent zombie : Pid} {status : ExitStatus}
    {records : Records} (h : t.reap parent zombie = .reaped status records) :
    RunningChild { t with records } caller child := by
  rw [runningChild_iff] at hk ⊢
  obtain ⟨rp, rc, hp, hm, hc, hi⟩ := hk
  obtain ⟨-, ended, -, -, he, hz, -⟩ := reap_reaped h
  have hended : ended.isRunning = false := by
    rw [Record.isRunning, Record.process?, hz]
    rfl
  -- The one whose status is taken is neither the child, which runs, nor the caller, which has a child.
  have hcz : child ≠ zombie := by
    rintro rfl
    cases hc.symm.trans he
    exact Bool.noConfusion (hi.symm.trans hended)
  have hpz : caller ≠ zombie := by
    rintro rfl
    cases hp.symm.trans he
    exact hch caller rp hp hended child hm
  obtain ⟨rp', hp', -, -, hsub⟩ := kept_reap h hpz hp
  obtain ⟨rc', hc', hl, -⟩ := kept_reap h hcz hc
  exact ⟨rp', rc', hp', hsub child hm hcz, hc', (Record.isRunning_of_life hl).trans hi⟩

/-- A child that runs goes on to do so as long as the caller's number is not given out again and a thread in the queue is not
woken. -/
theorem Change.runningChild (h : Change powers t more t') (hch : t.Childless) (hq : thread ∈ t.waiting.threads)
    (hw : Effect.unblocked thread ∉ more) (hs : ∀ info, Effect.started caller info ∉ more) (hk : t.RunningChild caller child) :
    t'.RunningChild caller child := by
  have hwoken : Effect.unblocked thread ∈ t.waiting.threads.map Effect.unblocked := List.mem_map_of_mem hq
  cases h with
  | quiet hq => exact hk
  | owned hl process' hq => exact hk.putLive process'
  | asleep hp => exact hk
  | awake hp => exact hk
  | enrolled hp info he =>
    refine hk.enrol he fun e => hs info ?_
    rw [e]
    exact List.mem_cons_of_mem _ List.mem_cons_self
  | reaped hp hr => exact hk.reap hch hr
  | ended hp status hr hproc hq => exact absurd (List.mem_append_left _ (List.mem_append_right _ hwoken)) hw
  | cleared hq => exact absurd (List.mem_append_left _ hwoken) hw

end RunningChild

end ProcessTable

/-! ## What every change keeps -/

namespace Kernel

/-- The numbers are given out in order, none in use is above the number of processes started as long as the numbers last, and who
has ended lists no child. -/
structure Tidy {μ κ : Type} (k : Kernel μ κ) : Prop where
  /-- The next number is one more than there were processes. -/
  next : k.processes.next = UInt32.ofNat (k.world.starts + 1)
  /-- No number is in use that was not given out. -/
  used : k.world.starts < UInt32.size - 1 → ∀ pid record, k.processes.record? pid = some record → pid.raw.toNat ≤ k.world.starts
  /-- Who has ended lists no child. -/
  childless : k.processes.Childless

/-- A thread that sleeps for a child has been woken, or stands in the queue while the child runs. -/
structure Watched {μ κ : Type} (k : Kernel μ κ) (thread : ThreadId) (caller child : Pid) : Prop where
  /-- It went to sleep. -/
  slept : Effect.blocked thread ∈ k.world.effects
  /-- If it was not woken since, it stands in the queue, once. -/
  queued : Effect.unblocked thread ∉ k.world.sinceAsleep thread → k.processes.waiting.threads.count thread = 1
  /-- If it was not woken since, and the caller's number was not given out again, the child runs. -/
  minded : Effect.unblocked thread ∉ k.world.sinceAsleep thread → (∀ info, Effect.started caller info ∉ k.world.sinceAsleep thread) →
    k.processes.RunningChild caller child
  /-- As long as the numbers last, the caller's number was not given out again. -/
  senior : k.world.starts < UInt32.size - 1 →
    caller.raw.toNat ≤ k.world.starts ∧ ∀ info, Effect.started caller info ∉ k.world.sinceAsleep thread

variable {μ κ : Type} {powers : Power → Prop} {k k' : Kernel μ κ}

theorem tidy_create (settings : Settings) (medium : μ) (console : κ) : (create settings medium console).Tidy := by
  have hnone : ∀ pid, (create settings medium console).processes.record? pid = none := fun pid =>
    Std.ExtTreeMap.getElem?_empty
  refine ⟨rfl, fun _ pid record hr => ?_, fun pid record hr => ?_⟩
  · exact absurd (hr.symm.trans (hnone pid)) (Option.some_ne_none record)
  · exact absurd (hr.symm.trans (hnone pid)) (Option.some_ne_none record)

/-- Who is started gets a number that is one above the number of processes there were, as long as the numbers last. -/
theorem Tidy.started (ht : k.Tidy) {more : List Effect} (he : k'.world.effects = k.world.effects ++ more)
    (hc : ProcessTable.Change powers k.processes more k'.processes) (hb : k'.world.starts < UInt32.size - 1) {pid : Pid}
    {info : StartInfo} (hm : Effect.started pid info ∈ more) :
    pid.raw.toNat = k.world.starts + 1 ∧ k'.world.starts = k.world.starts + 1 := by
  obtain ⟨rfl, h1⟩ := hc.of_started hm
  have hstarts := starts_append he
  refine ⟨?_, by omega⟩
  rw [ht.next]
  exact UInt32.toNat_ofNat_of_lt' (by omega)

/-- Every change keeps a kernel tidy. -/
theorem Tidy.changed (ht : k.Tidy) (h : Changed powers k k') : k'.Tidy := by
  obtain ⟨more, he, hc⟩ := h
  have hstarts := starts_append he
  refine ⟨?_, ?_, hc.childless ht.childless⟩
  · rcases hc.starts with ⟨h0, hn⟩ | ⟨h1, hn, -⟩
    · rw [hn, ht.next, hstarts, h0, Nat.add_zero]
    · rw [hn, ht.next, hstarts, h1, UInt32.ofNat_add (k.world.starts + 1) 1]
      rfl
  · intro hb pid record hr
    rcases hc.found hr with ⟨⟨info, hm⟩, -⟩ | ⟨old, hold, -⟩
    · obtain ⟨hpid, hs⟩ := ht.started he hc hb hm
      omega
    · have := ht.used (by omega) pid old hold
      omega

/-- Whoever else passes through the queue, a thread that sleeps stays watched. -/
theorem Watched.changed {thread : ThreadId} {caller child : Pid} (hw : k.Watched thread caller child) (ht : k.Tidy)
    (h : Changed powers k k') (hne : ¬powers (.sleep thread)) : k'.Watched thread caller child := by
  obtain ⟨more, he, hc⟩ := h
  have hsince : k'.world.sinceAsleep thread = more.reverse ++ k.world.sinceAsleep thread :=
    World.sinceAsleep_append he fun hb => hne (hc.of_blocked hb)
  have hmem : ∀ effect, effect ∉ k'.world.sinceAsleep thread → effect ∉ more ∧ effect ∉ k.world.sinceAsleep thread := by
    intro effect hn
    rw [hsince, List.mem_append, List.mem_reverse] at hn
    exact not_or.mp hn
  refine ⟨?_, ?_, ?_, ?_⟩
  · rw [he]
    exact List.mem_append_left _ hw.slept
  · intro hn
    obtain ⟨hmore, hold⟩ := hmem _ hn
    exact (hc.count hne hmore).trans (hw.queued hold)
  · intro hn hs
    obtain ⟨hmore, hold⟩ := hmem _ hn
    have hq : thread ∈ k.processes.waiting.threads := by
      rw [← List.count_pos_iff, hw.queued hold]
      exact Nat.one_pos
    have hk := hw.minded hold fun info => (hmem _ (hs info)).2
    exact hc.runningChild ht.childless hq hmore (fun info => (hmem _ (hs info)).1) hk
  · intro hb
    have hstarts := starts_append he
    obtain ⟨hle, hold⟩ := hw.senior (by omega)
    refine ⟨by omega, fun info hm => ?_⟩
    rw [hsince, List.mem_append, List.mem_reverse] at hm
    rcases hm with hm | hm
    · obtain ⟨hpid, -⟩ := ht.started he hc hb hm
      omega
    · exact hold info hm

/-- Any number of changes keep a kernel tidy. -/
theorem Tidy.changes (ht : k.Tidy) (h : Changes powers k k') : k'.Tidy := by
  induction h with
  | refl => exact ht
  | tail _ hc ih => exact ih.changed hc

/-- And they keep a thread watched that does not pass through the queue. -/
theorem Watched.changes {thread : ThreadId} {caller child : Pid} (hw : k.Watched thread caller child) (ht : k.Tidy)
    (h : Changes powers k k') (hne : ¬powers (.sleep thread)) : k'.Watched thread caller child := by
  induction h with
  | refl => exact hw
  | tail hbefore hc ih => exact ih.changed (ht.changes hbefore) hc hne

/-- Unless it passes through the queue, whoever stands in it stood there before. -/
theorem Changes.mem_waiting (h : Changes powers k k') {thread : ThreadId} (hne : ¬powers (.sleep thread))
    (hm : thread ∈ k'.processes.waiting.threads) : thread ∈ k.processes.waiting.threads := by
  induction h with
  | refl => exact hm
  | tail _ hc ih =>
    obtain ⟨more, -, hc⟩ := hc
    exact ih (hc.mem_waiting hne hm)

/-- A thread that has just gone to sleep for a child that runs is watched. -/
theorem watched_asleep (ht : k.Tidy) {thread : ThreadId} {caller child : Pid} (hk : k.processes.RunningChild caller child)
    (hq : thread ∉ k.processes.waiting.threads) :
    Watched
      { k with
        processes := { k.processes with waiting := k.processes.waiting.enter thread }
        world := (k.world.note (.waits caller child)).emit (.blocked thread) } thread caller child where
  slept := by simp
  queued _ := by simp [WaitQueue.enter, List.count_eq_zero.mpr hq]
  minded _ _ := hk
  senior hb := by
    have hs : ((k.world.note (.waits caller child)).emit (.blocked thread)).starts = k.world.starts := by
      simp [World.starts, Effect.isStart]
    dsimp only at hb ⊢
    rw [hs] at hb ⊢
    obtain ⟨rp, -, hp, -⟩ := ProcessTable.runningChild_iff.mp hk
    refine ⟨ht.used hb caller rp hp, fun info => ?_⟩
    rw [World.sinceAsleep_emit_blocked]
    exact List.not_mem_nil

end Kernel

/-! ## What waits besides -/

namespace Kernel

variable {μ κ : Type}

/-- A thread sleeps after an answer only if it slept before. -/
theorem sleeper?_of_mem_waits_resume (k : Kernel μ κ) {s : Suspended} (a : s.Answer) (hs : s.sleeper? = none)
    {s' : Suspended} (h : s' ∈ (k.resume s a).waits) : s'.sleeper? = none := by
  cases s with
  | loading parent program args use =>
    cases a with
    | error cause => simp [resume, enrol] at h
    | ok image =>
      simp only [resume, enrol] at h
      split at h
      · simp at h
      · rw [List.mem_singleton.mp h]
        rfl
  | starting pid use =>
    rw [show k.resume (.starting pid use) a = k.finishSpawn use (.ok pid) from rfl, waits_finishSpawn] at h
    cases h
  | sleeping thread caller child use => cases hs

variable [Medium μ] [Console κ]

theorem sleeper?_of_mem_waits_dispatch (k : Kernel μ κ) (thread : ThreadId) {pid : Pid} {number : UInt64} {args : Arguments}
    (trap : Option TrapFrame) (hj : k.joinedBy pid number args = none) {s : Suspended}
    (h : s ∈ (k.dispatch thread pid number args trap).waits) : s.sleeper? = none := by
  unfold dispatch at h
  split at h
  · cases h
  · rename_i hk
    dsimp only at h
    split at h
    · rename_i call hc
      cases call with
      | exec =>
        simp only [perform, sysExec] at h
        split at h
        · cases h
        · rw [List.mem_singleton.mp h]
          rfl
      | join =>
        simp only [perform, sysJoin] at h
        split at h
        · cases h
        · rename_i child ha
          -- Arguments that are good name a child, which the call would ask for.
          have ha' : k.joinArguments pid args = .ok child := ha
          rw [joinedBy, if_neg hk, if_pos hc, ha'] at hj
          cases hj
      | _ => cases h
    · cases h

/-- A thread sleeps after a call only if it asked for a child. -/
theorem sleeper?_of_mem_waits_begin (k : Kernel μ κ) (thread : ThreadId) {c : Call} (hj : k.joinOf c = none) {s : Suspended}
    (h : s ∈ (k.begin thread c).waits) : s.sleeper? = none := by
  cases c with
  | boot program args =>
    simp only [begin] at h
    split at h
    · cases h
    · rw [List.mem_singleton.mp h]
      rfl
  | systemCall pid number args =>
    exact k.sleeper?_of_mem_waits_dispatch thread none (Option.map_eq_none_iff.mp hj) h
  | trap pid cause frame =>
    simp only [begin, takeTrap] at h
    split at h
    · exact k.sleeper?_of_mem_waits_dispatch thread (some frame) (Option.map_eq_none_iff.mp hj) h
    · cases h
  | spawn parent program args =>
    rw [List.mem_singleton.mp h]
    rfl
  | join caller child => cases hj
  | _ => cases h

end Kernel

/-! ## Steps and runs -/

namespace Machine

variable {μ κ : Type}

/-- The threads that sleep, the latest in front. -/
def sleepers (m : Machine μ κ) : List ThreadId := m.waiting.filterMap Suspended.sleeper?

/-- No thread sleeps in two operations at a time. -/
def Apart (m : Machine μ κ) : Prop := m.sleepers.Nodup

/-- Every thread that sleeps is watched, and nobody else stands in the queue. -/
structure Attentive (m : Machine μ κ) : Prop where
  /-- The kernel is tidy. -/
  tidy : m.kernel.Tidy
  /-- Who stands in the queue sleeps. -/
  queued : ∀ thread ∈ m.kernel.processes.waiting.threads, thread ∈ m.sleepers
  /-- Who sleeps is watched. -/
  watched : ∀ thread caller child use, Suspended.sleeping thread caller child use ∈ m.waiting → m.kernel.Watched thread caller child

variable {k k' : Kernel μ κ} {waiting waiting' : List Suspended}

/-- What happens while no thread passes through the queue, and what else waits then, leaves a machine attentive. -/
theorem Attentive.changes (ha : Attentive ⟨k, waiting⟩) (h : Kernel.Changes (Power.passing fun _ => False) k k')
    (hw : ∀ s, s.sleeper? ≠ none → (s ∈ waiting' ↔ s ∈ waiting)) : Attentive (⟨k', waiting'⟩ : Machine μ κ) := by
  refine ⟨ha.tidy.changes h, ?_, ?_⟩
  · intro thread hm
    obtain ⟨s, hs, hth⟩ := List.mem_filterMap.mp (ha.queued thread (h.mem_waiting id hm))
    have hsleeps : s.sleeper? ≠ none := by
      rw [hth]
      exact Option.some_ne_none thread
    exact List.mem_filterMap.mpr ⟨s, (hw s hsleeps).mpr hs, hth⟩
  · intro thread caller child use hm
    have hsleeps : (Suspended.sleeping thread caller child use).sleeper? ≠ none := Option.some_ne_none thread
    exact (ha.watched thread caller child use ((hw _ hsleeps).mp hm)).changes ha.tidy h id

/-- After an operation came so far, it waits or not, and the kernel is as it left it. -/
theorem settle_fst (waiting : List Suspended) (p : Progress μ κ) : (settle waiting p).1 = ⟨p.kernel, p.waits ++ waiting⟩ := by
  cases p <;> rfl

/-- A thread that goes on leaves the queue, and the machine attentive to all others. -/
theorem Attentive.leave {before after : List Suspended} {thread : ThreadId} {caller child : Pid} {use : JoinUse}
    (ha : Attentive ⟨k, before ++ .sleeping thread caller child use :: after⟩)
    (hm : Apart (⟨k, before ++ .sleeping thread caller child use :: after⟩ : Machine μ κ)) :
    Attentive
      (⟨{ k with processes := { k.processes with waiting := k.processes.waiting.leave thread } }, before ++ after⟩ :
        Machine μ κ) := by
  have hsplit : (⟨k, before ++ .sleeping thread caller child use :: after⟩ : Machine μ κ).sleepers =
      before.filterMap Suspended.sleeper? ++ thread :: after.filterMap Suspended.sleeper? := by
    simp [sleepers, Suspended.sleeper?]
  have hrest : (before ++ after).filterMap Suspended.sleeper? =
      before.filterMap Suspended.sleeper? ++ after.filterMap Suspended.sleeper? := List.filterMap_append
  -- No other operation is one in which the thread sleeps.
  have hne : thread ∉ (before ++ after).filterMap Suspended.sleeper? := by
    have hm' := hm
    rw [Apart, hsplit, List.nodup_middle] at hm'
    rw [hrest]
    exact (List.nodup_cons.mp hm').1
  have hc := k.changed_leave thread
  refine ⟨ha.tidy.changed hc, ?_, ?_⟩
  · intro other ho
    have hold := ha.queued other (List.mem_of_mem_filter ho)
    have hother : other ≠ thread := by
      rintro rfl
      exact WaitQueue.not_mem_leave _ other ho
    rw [hsplit, List.mem_append, List.mem_cons] at hold
    rw [sleepers, hrest, List.mem_append]
    tauto
  · intro other caller' child' use' ho
    have hold : Suspended.sleeping other caller' child' use' ∈ before ++ .sleeping thread caller child use :: after := by
      rw [List.mem_append] at ho ⊢
      exact ho.imp_right (List.mem_cons_of_mem _)
    refine (ha.watched other caller' child' use' hold).changed ha.tidy hc fun he => hne ?_
    rw [← he]
    exact List.mem_filterMap.mpr ⟨_, ho, rfl⟩

variable [Medium μ] [Console κ]

/-- A join leaves a machine attentive, if the thread that it may put to sleep does not sleep in another. -/
theorem Attentive.join (ha : Attentive ⟨k, waiting⟩) {thread : ThreadId} {caller child : Pid} {use : JoinUse}
    (hr : Apart (settle waiting (k.join thread caller child use)).1) :
    Attentive (settle waiting (k.join thread caller child use)).1 := by
  by_cases h : k.processes.reap caller child = .running
  · rw [Kernel.join_of_running h] at hr ⊢
    have hk := ProcessTable.reap_eq_running_iff.mp h
    -- The thread sleeps in this operation now, so it sleeps in no other.
    obtain ⟨hthread, -⟩ := List.nodup_cons.mp hr
    have hq : thread ∉ k.processes.waiting.threads := fun hm => hthread (ha.queued thread hm)
    have hc := k.changes_join thread caller child use
    rw [Kernel.join_of_running h] at hc
    refine ⟨ha.tidy.changes hc, ?_, ?_⟩
    · intro other hm
      rcases List.mem_append.mp hm with hm | hm
      · exact List.mem_cons_of_mem _ (ha.queued other hm)
      · rw [List.mem_singleton.mp hm]
        exact List.mem_cons_self
    · intro other caller' child' use' hm
      rcases List.mem_cons.mp hm with he | hold
      · cases he
        exact Kernel.watched_asleep ha.tidy hk hq
      · refine (ha.watched other caller' child' use' hold).changes ha.tidy hc fun he => hthread ?_
        rw [← he]
        exact List.mem_filterMap.mpr ⟨_, hold, rfl⟩
  · rw [settle_fst, Kernel.waits_join h]
    exact ha.changes (Kernel.changes_join_of_not_running h thread use) fun _ _ => Iff.rfl

variable {allowed : Call → Prop} {m m' : Machine μ κ} {r : Machine μ κ × Option Outcome}

/-- A step leaves an attentive machine so, if no thread sleeps in two operations. -/
theorem Attentive.step (ha : Attentive m) (h : Step allowed m r) (hm : Apart m) (hr : Apart r.1) : Attentive r.1 := by
  cases h with
  | call _ thread c hc =>
    cases hj : m.kernel.joinOf c with
    | none =>
      rw [Machine.call, settle_fst]
      refine ha.changes (Kernel.changes_begin_of_joinOf hj thread) fun s hs => ?_
      rw [List.mem_append, or_iff_right fun hw => hs (Kernel.sleeper?_of_mem_waits_begin _ thread hj hw)]
    | some asked =>
      obtain ⟨caller, child, use⟩ := asked
      have hheard : Attentive ⟨m.kernel.heard c, m.waiting⟩ :=
        ha.changes (.single (Kernel.changed_heard m.kernel c)) fun _ _ => Iff.rfl
      rw [Machine.call, Kernel.begin_of_joinOf hj] at hr ⊢
      exact hheard.join hr
  | answer k before after s a =>
    cases hs : s.sleeper? with
    | some thread =>
      cases s with
      | sleeping thread' caller child use => exact (ha.leave hm).join hr
      | _ => cases hs
    | none =>
      rw [settle_fst]
      refine ha.changes (Kernel.changes_resume a hs) fun s' hs' => ?_
      have hne : s' ≠ s := by
        rintro rfl
        exact hs' hs
      rw [List.mem_append, or_iff_right fun hw => hs' (Kernel.sleeper?_of_mem_waits_resume k a hs hw)]
      simp [hne]
  | memory _ pid change =>
    exact ha.changes (Kernel.changes_changeMemory m.kernel pid change) fun _ _ => Iff.rfl

/-- A run in which machines always have some property. -/
inductive LeadsWithin (allowed : Call → Prop) (P : Machine μ κ → Prop) : Machine μ κ → Machine μ κ → Prop where
  /-- A run may be over at once. -/
  | refl (m : Machine μ κ) (h : P m) : LeadsWithin allowed P m m
  /-- It may go on by a step. -/
  | step {m m' : Machine μ κ} {r : Machine μ κ × Option Outcome} :
      LeadsWithin allowed P m m' → Step allowed m' r → P r.1 → LeadsWithin allowed P m r.1

theorem LeadsWithin.holds {P : Machine μ κ → Prop} (h : LeadsWithin allowed P m m') : P m' := by
  cases h with
  | refl hp => exact hp
  | step _ _ hp => exact hp

/-- In a run in which no thread ever sleeps in two operations, the machines are attentive. -/
theorem LeadsWithin.attentive (h : LeadsWithin allowed Apart m m') (ha : Attentive m) : Attentive m' := by
  induction h with
  | refl => exact ha
  | step hbefore hs hp ih => exact ih.step hs hbefore.holds hp

/-- A thread is put to sleep in a step only by asking for a child that runs, and then sleeps for it. -/
theorem asks_of_blocked (h : Step allowed m r) {more : List Effect}
    (he : r.1.kernel.world.effects = m.kernel.world.effects ++ more) {thread : ThreadId} (hb : Effect.blocked thread ∈ more) :
    ∃ caller child use, Asks m r thread caller child use ∧ Suspended.sleeping thread caller child use ∈ r.1.waiting ∧
      r.1.kernel.processes.RunningChild caller child := by
  obtain ⟨caller, child, use, hasks⟩ := (changes_of_step h).of_blocked he hb
  refine ⟨caller, child, use, hasks, ?_⟩
  obtain ⟨k, waiting, rfl, -, hquiet⟩ := hasks.exists_join
  by_cases hk : k.processes.reap caller child = .running
  · have hr := ProcessTable.reap_eq_running_iff.mp hk
    rw [Kernel.join_of_running hk]
    exact ⟨List.mem_cons_self, hr⟩
  · -- A join that comes to an end puts nobody to sleep.
    obtain ⟨before, hbefore, hq⟩ := hquiet
    have hend : Kernel.Changes (Power.passing fun _ => False) k _ := Kernel.changes_join_of_not_running hk thread use
    obtain ⟨after, hafter, hnone⟩ := hend.exists_append
    rw [kernel_settle, hafter, hbefore, List.append_assoc] at he
    rw [← List.append_cancel_left he] at hb
    rcases List.mem_append.mp hb with hb | hb
    · exact absurd (hq _ hb) Bool.false_ne_true
    · exact (hnone thread hb).elim

/-- In a run in which no thread sleeps in two operations at a time a thread goes to sleep only when it asks for a child, which runs
and whose status has not been taken. And at every point, if a thread that sleeps has not been woken since it went to sleep, it
stands in the queue, once, and the child still runs and has not been taken. The latter holds as long as the process numbers last,
and after that as long as the number of the caller has not been given out again. -/
theorem no_wakeup_lost {settings : Settings} {medium : μ} {console : κ}
    (h : LeadsWithin allowed Apart (start settings medium console) m) :
    (∀ r, Step allowed m r → ∀ thread more, r.1.kernel.world.effects = m.kernel.world.effects ++ more →
      Effect.blocked thread ∈ more →
      ∃ caller child use, Asks m r thread caller child use ∧ Suspended.sleeping thread caller child use ∈ r.1.waiting ∧
        r.1.kernel.processes.RunningChild caller child) ∧
    ∀ thread caller child use, Suspended.sleeping thread caller child use ∈ m.waiting →
      Effect.blocked thread ∈ m.kernel.world.effects ∧
      (Effect.unblocked thread ∉ m.kernel.world.sinceAsleep thread →
        m.kernel.processes.waiting.threads.count thread = 1 ∧
        (m.kernel.world.starts < UInt32.size - 1 ∨ (∀ info, Effect.started caller info ∉ m.kernel.world.sinceAsleep thread) →
          m.kernel.processes.RunningChild caller child)) := by
  have hstart : Attentive (start settings medium console) :=
    ⟨Kernel.tidy_create settings medium console, fun _ hm => absurd hm List.not_mem_nil,
      fun _ _ _ _ hm => absurd hm List.not_mem_nil⟩
  refine ⟨fun r hs thread more he hb => asks_of_blocked hs he hb, fun thread caller child use hm => ?_⟩
  have hw := (h.attentive hstart).watched thread caller child use hm
  refine ⟨hw.slept, fun hn => ⟨hw.queued hn, ?_⟩⟩
  rintro (hb | hs)
  · exact hw.minded hn (hw.senior hb).2
  · exact hw.minded hn hs

/-- Whether machines always have some property while a script is played. -/
def PlaysWithin (P : Machine μ κ → Prop) (m : Machine μ κ) : List Turn → Prop
  | [] => P m
  | t :: rest => P m ∧ (m.turn t).PlaysWithin P rest

instance decidablePlaysWithin (P : Machine μ κ → Prop) [DecidablePred P] (m : Machine μ κ) :
    (turns : List Turn) → Decidable (m.PlaysWithin P turns)
  | [] => inferInstanceAs (Decidable (P m))
  | t :: rest =>
    have := decidablePlaysWithin P (m.turn t) rest
    inferInstanceAs (Decidable (P m ∧ (m.turn t).PlaysWithin P rest))

instance : DecidablePred fun m : Machine μ κ => m.Apart := fun m => inferInstanceAs (Decidable m.sleepers.Nodup)

theorem PlaysWithin.holds {P : Machine μ κ → Prop} {turns : List Turn} (h : m.PlaysWithin P turns) : P m := by
  cases turns with
  | nil => exact h
  | cons t rest => exact h.1

/-- A script of which this is so goes on where such runs go on. -/
theorem LeadsWithin.play {P : Machine μ κ → Prop} {turns : List Turn} (h : LeadsWithin allowed P m m')
    (hm : ∀ t ∈ turns, t.Makes allowed) (hp : m'.PlaysWithin P turns) : LeadsWithin allowed P m (m'.play turns) := by
  induction turns generalizing m' with
  | nil => exact h
  | cons t rest ih =>
    refine ih ?_ (fun t' ht => hm t' (List.mem_cons_of_mem t ht)) hp.2
    have hnext : P (m'.turn t) := hp.2.holds
    rcases turn_cases m' t (hm t List.mem_cons_self) with he | ⟨r, hs, he⟩
    · rw [he]
      exact h
    · rw [he] at hnext ⊢
      exact h.step hs hnext

/-- Two threads of a process wait for one child, and one of them wakes without reason and asks again. -/
def vigil : List Turn :=
  started (.boot "init" []) ++ started (.spawn (some ⟨1⟩) "child" []) ++
    [.call ⟨5⟩ (.join ⟨1⟩ ⟨2⟩), .call ⟨6⟩ (.join ⟨1⟩ ⟨2⟩), .answer 1 .goOn]

/-- Then both stand in the queue, and the child runs. -/
theorem vigil_watched :
    let m := (start {} (RamDisk.empty none) Silent.mk).play vigil
    Suspended.sleeping ⟨5⟩ ⟨1⟩ ⟨2⟩ .outcome ∈ m.waiting ∧ m.kernel.processes.waiting.threads.count ⟨5⟩ = 1 ∧
      m.kernel.processes.RunningChild ⟨1⟩ ⟨2⟩ := by
  intro m
  have hstart : LeadsWithin (fun _ => True) Apart (start {} (RamDisk.empty none) Silent.mk) _ := .refl _ (by decide)
  have hrun : LeadsWithin (fun _ => True) Apart (start {} (RamDisk.empty none) Silent.mk) m := hstart.play (by decide) (by decide)
  have hm : Suspended.sleeping ⟨5⟩ ⟨1⟩ ⟨2⟩ .outcome ∈ m.waiting := by decide
  obtain ⟨-, hw⟩ := (no_wakeup_lost hrun).2 _ _ _ _ hm
  obtain ⟨hcount, hchild⟩ := hw (by decide)
  exact ⟨hm, hcount, hchild (.inl (by decide))⟩

end Machine

end Nucleus
