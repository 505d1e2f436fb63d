import Nucleus.Process.WaitQueue
import Mathlib.Data.List.Induction
import Mathlib.Data.List.Nodup

/-!
# Waiting in line

Threads come to a condition to wait, and others wake the first of them or all. A wait takes four steps, and between any two of them
other threads may do theirs: the thread enters the queue, is suspended, goes on when it was woken or for no reason at all, and leaves
the queue. Whatever the order in which threads go on, the queue lists those that entered and were neither woken nor have left, in the
order in which they entered (`stillWaiting`), and nobody is woken but one of them (`queue_in_order`).
-/

namespace Nucleus

/-- How far a thread has come with a wait. -/
inductive Stage where
  /-- It does not wait. -/
  | away
  /-- It stands in the queue and is about to sleep. -/
  | queued
  /-- The scheduler has suspended it. -/
  | asleep
  /-- It runs on, woken or not, and is about to leave. -/
  | awake
  deriving DecidableEq, Repr

/-- What happens at a condition. -/
inductive Happening where
  /-- A thread begins to wait. -/
  | entered (thread : ThreadId)
  /-- It asks the scheduler to suspend it. -/
  | slept (thread : ThreadId)
  /-- The scheduler lets it run on. -/
  | awoke (thread : ThreadId)
  /-- Its wait is over. -/
  | returned (thread : ThreadId)
  /-- The scheduler is told to let it run on. -/
  | notified (thread : ThreadId)
  deriving DecidableEq, Repr

/-- What is done at a condition. -/
inductive WaitAct where
  /-- A thread does the next step of its wait, or the first one. -/
  | goOn (thread : ThreadId)
  /-- Somebody has the longest waiting thread woken. -/
  | notifyOne
  /-- Somebody has all threads woken. -/
  | notifyAll
  deriving DecidableEq, Repr

/-! ## Who is waiting, by what has happened -/

/-- The threads that have entered, and have neither been notified nor returned since, in the order in which they entered. -/
def stillWaiting : List Happening → List ThreadId
  | [] => []
  | .entered thread :: rest =>
    if .notified thread ∈ rest ∨ .returned thread ∈ rest then stillWaiting rest else thread :: stillWaiting rest
  | _ :: rest => stillWaiting rest

/-- A thread has entered and not returned since. -/
def Inside (log : List Happening) (thread : ThreadId) : Prop :=
  ∃ before after, log = before ++ .entered thread :: after ∧ .returned thread ∉ after

section Log

variable {log more : List Happening} {thread : ThreadId}

/-- Those who still wait later on are those who do now and are neither notified nor return meanwhile, and behind them those who come
meanwhile. -/
theorem stillWaiting_append (log more : List Happening) :
    stillWaiting (log ++ more) =
      (stillWaiting log).filter (fun thread => .notified thread ∉ more ∧ .returned thread ∉ more) ++ stillWaiting more := by
  induction log with
  | nil => rfl
  | cons happening rest ih =>
    cases happening with
    | entered thread =>
      simp only [List.cons_append, stillWaiting, List.mem_append, ih]
      by_cases hrest : .notified thread ∈ rest ∨ .returned thread ∈ rest
      · rw [if_pos hrest, if_pos (by tauto)]
      · rw [if_neg hrest, List.filter_cons]
        by_cases hmore : .notified thread ∉ more ∧ .returned thread ∉ more
        · rw [if_neg (by tauto), if_pos (decide_eq_true hmore), List.cons_append]
        · rw [if_pos (by tauto), if_neg (by simpa using hmore)]
    | _ => exact ih

/-- Who still waits is inside. -/
theorem inside_of_mem_stillWaiting (h : thread ∈ stillWaiting log) : Inside log thread := by
  induction log with
  | nil => cases h
  | cons happening rest ih =>
    have hlater : Inside rest thread → Inside (happening :: rest) thread := by
      rintro ⟨before, after, rfl, hn⟩
      exact ⟨happening :: before, after, rfl, hn⟩
    cases happening with
    | entered other =>
      rw [stillWaiting] at h
      split at h
      · exact hlater (ih h)
      · rename_i hn
        rcases List.mem_cons.mp h with rfl | h
        · exact ⟨[], rest, rfl, fun hm => hn (.inr hm)⟩
        · exact hlater (ih h)
    | _ => exact hlater (ih h)

/-- Who enters is inside, who returns is not, and whatever else happens, whoever was inside still is. -/
theorem inside_concat {happening : Happening} :
    Inside (log ++ [happening]) thread ↔ happening = .entered thread ∨ happening ≠ .returned thread ∧ Inside log thread := by
  constructor
  · rintro ⟨before, after, he, hn⟩
    rcases List.eq_nil_or_concat after with rfl | ⟨front, last, rfl⟩
    · obtain ⟨-, hlast⟩ := List.append_inj' he rfl
      exact .inl (List.singleton_inj.mp hlast)
    · rw [List.concat_eq_append, List.mem_append, List.mem_singleton, not_or] at hn
      rw [List.concat_eq_append, ← List.cons_append, ← List.append_assoc] at he
      obtain ⟨rfl, hlast⟩ := List.append_inj' he rfl
      rw [List.singleton_inj.mp hlast]
      exact .inr ⟨fun e => hn.2 e.symm, before, front, rfl, hn.1⟩
  · rintro (rfl | ⟨hne, before, after, rfl, hn⟩)
    · exact ⟨log, [], rfl, List.not_mem_nil⟩
    · refine ⟨before, after ++ [happening], by rw [List.append_assoc, List.cons_append], ?_⟩
      rw [List.mem_append, List.mem_singleton]
      exact fun h => h.elim hn fun he => hne he.symm

/-- Who has returned is not inside until it enters again. -/
theorem not_inside_of_returned {before after : List Happening} (h : .entered thread ∉ after) :
    ¬Inside (before ++ .returned thread :: after) thread := by
  induction after using List.reverseRecOn with
  | nil => simp [inside_concat]
  | append_singleton front last ih =>
    rw [List.mem_append, List.mem_singleton, not_or] at h
    rw [← List.cons_append, ← List.append_assoc, inside_concat]
    rintro (he | ⟨-, hin⟩)
    · exact h.2 he.symm
    · exact ih h.1 hin

/-- Whenever a thread was notified it was waiting still. -/
def NotifiedInTime (log : List Happening) : Prop :=
  ∀ before thread after, log = before ++ .notified thread :: after → thread ∈ stillWaiting before

/-- This stays so when one more thing happens, if it is so of that. -/
theorem NotifiedInTime.concat (h : NotifiedInTime log) {happening : Happening}
    (hn : ∀ thread, happening = .notified thread → thread ∈ stillWaiting log) : NotifiedInTime (log ++ [happening]) := by
  intro before thread after he
  rcases List.eq_nil_or_concat after with rfl | ⟨front, last, rfl⟩
  · obtain ⟨rfl, hlast⟩ := List.append_inj' he rfl
    exact hn thread (List.singleton_inj.mp hlast)
  · rw [List.concat_eq_append, ← List.cons_append, ← List.append_assoc] at he
    obtain ⟨rfl, -⟩ := List.append_inj' he rfl
    exact h before thread front rfl

end Log

/-! ## Conditions -/

/-- A condition: the queue, where each thread is, and all that has happened so far, the first thing first. -/
structure Condition where
  /-- The threads that are to be woken. -/
  queue : WaitQueue
  /-- How far each thread has come. -/
  stage : ThreadId → Stage
  /-- What has happened. -/
  log : List Happening

namespace Condition

/-- A condition to which nobody has come. -/
def start : Condition := ⟨.empty, fun _ => .away, []⟩

/-- A thread does a step of its wait, by which the queue may change. -/
def pass (c : Condition) (thread : ThreadId) (queue : WaitQueue) (stage : Stage) (happening : Happening) : Condition where
  queue := queue
  stage other := if other = thread then stage else c.stage other
  log := c.log ++ [happening]

/-- The scheduler is told to let threads run on that were taken out of the queue. -/
def notify (c : Condition) (threads : List ThreadId) (queue : WaitQueue) : Condition :=
  { c with queue, log := c.log ++ threads.map .notified }

/-- What there is after an act. A thread enters the queue before it sleeps, and leaves it after it has slept, whether it was woken or
not. -/
def step (c : Condition) : WaitAct → Condition
  | .goOn thread =>
    match c.stage thread with
    | .away => c.pass thread (c.queue.enter thread) .queued (.entered thread)
    | .queued => c.pass thread c.queue .asleep (.slept thread)
    | .asleep => c.pass thread c.queue .awake (.awoke thread)
    | .awake => c.pass thread (c.queue.leave thread) .away (.returned thread)
  | .notifyOne => c.notify c.queue.wakeOne.1.toList c.queue.wakeOne.2
  | .notifyAll => c.notify c.queue.wakeAll.1 c.queue.wakeAll.2

/-- What there is after several acts. -/
def run (c : Condition) (acts : List WaitAct) : Condition := acts.foldl step c

/-- The queue is as what has happened says. -/
structure InOrder (c : Condition) : Prop where
  /-- It lists those who still wait. -/
  line : c.queue.threads = stillWaiting c.log
  /-- It lists nobody twice. -/
  once : c.queue.threads.Nodup
  /-- Those are inside who have begun to wait and not come to the end. -/
  inside : ∀ thread, Inside c.log thread ↔ c.stage thread ≠ .away
  /-- Nobody was notified who did not wait. -/
  notified : NotifiedInTime c.log

variable {c : Condition} {thread : ThreadId}

theorem inOrder_start : start.InOrder where
  line := rfl
  once := List.nodup_nil
  inside thread := by
    refine ⟨?_, fun h => absurd rfl h⟩
    rintro ⟨before, after, he, -⟩
    simp [start] at he
  notified before thread after he := by simp [start] at he

/-- A step of a wait concerns no other thread, and wakes nobody. -/
theorem InOrder.pass (h : c.InOrder) {queue : WaitQueue} {stage : Stage} {happening : Happening}
    (hline : queue.threads = stillWaiting (c.log ++ [happening])) (honce : queue.threads.Nodup)
    (hself : Inside (c.log ++ [happening]) thread ↔ stage ≠ .away)
    (hothers : ∀ other, other ≠ thread → happening ≠ .entered other ∧ happening ≠ .returned other)
    (hquiet : ∀ other, happening ≠ .notified other) : (c.pass thread queue stage happening).InOrder where
  line := hline
  once := honce
  inside other := by
    show Inside (c.log ++ [happening]) other ↔ (if other = thread then stage else c.stage other) ≠ .away
    by_cases he : other = thread
    · rw [if_pos he, he, hself]
    · obtain ⟨henter, hreturn⟩ := hothers other he
      rw [if_neg he, inside_concat, h.inside]
      simp [henter, hreturn]
  notified := h.notified.concat fun other he => absurd he (hquiet other)

/-- A thread enters. -/
theorem InOrder.enter (h : c.InOrder) (hs : c.stage thread = .away) :
    (c.pass thread (c.queue.enter thread) .queued (.entered thread)).InOrder := by
  have hout : thread ∉ c.queue.threads := by
    intro hm
    rw [h.line] at hm
    exact (h.inside thread).mp (inside_of_mem_stillWaiting hm) hs
  refine h.pass ?_ ?_ ?_ ?_ ?_
  · rw [stillWaiting_append, ← h.line]
    simp [WaitQueue.enter, stillWaiting]
  · have honce := List.Nodup.concat hout h.once
    rwa [List.concat_eq_append] at honce
  · simp [inside_concat]
  · intro other he
    simp [Ne.symm he]
  · simp

/-- A thread that is inside sleeps, or goes on. -/
theorem InOrder.stay (h : c.InOrder) (hs : c.stage thread ≠ .away) {stage : Stage} {happening : Happening} (hstage : stage ≠ .away)
    (hquiet : ∀ other, happening ≠ .entered other ∧ happening ≠ .returned other ∧ happening ≠ .notified other) :
    (c.pass thread c.queue stage happening).InOrder := by
  have hnone : stillWaiting [happening] = [] := by
    cases happening with
    | entered other => exact absurd rfl (hquiet other).1
    | _ => rfl
  refine h.pass ?_ h.once ?_ (fun other _ => ⟨(hquiet other).1, (hquiet other).2.1⟩) fun other => (hquiet other).2.2
  · rw [stillWaiting_append, hnone, List.append_nil, ← h.line, eq_comm, List.filter_eq_self]
    intro other _
    simpa using ⟨(hquiet other).2.2.symm, (hquiet other).2.1.symm⟩
  · rw [inside_concat]
    simp [hquiet, (h.inside thread).mpr hs, hstage]

/-- A thread leaves. -/
theorem InOrder.leave (h : c.InOrder) : (c.pass thread (c.queue.leave thread) .away (.returned thread)).InOrder := by
  refine h.pass ?_ (h.once.filter _) ?_ ?_ ?_
  · rw [stillWaiting_append, ← h.line]
    simp [WaitQueue.leave, stillWaiting]
  · simp [inside_concat]
  · intro other he
    simp [Ne.symm he]
  · simp

/-- The longest waiting thread is notified. -/
theorem InOrder.notify_head {rest : List ThreadId} (h : c.InOrder) (hq : c.queue.threads = thread :: rest) :
    (c.notify [thread] ⟨rest⟩).InOrder := by
  obtain ⟨hthread, hrest⟩ := List.nodup_cons.mp (hq ▸ h.once)
  refine ⟨?_, hrest, fun other => ?_, h.notified.concat fun other he => ?_⟩
  · show rest = stillWaiting (c.log ++ [.notified thread])
    have hnone : stillWaiting [.notified thread] = [] := rfl
    rw [stillWaiting_append, hnone, List.append_nil, ← h.line, hq, List.filter_cons, if_neg (by simp), eq_comm, List.filter_eq_self]
    intro other hm
    have hne : other ≠ thread := fun e => hthread (e ▸ hm)
    simpa using hne
  · show Inside (c.log ++ [.notified thread]) other ↔ c.stage other ≠ .away
    rw [inside_concat, h.inside]
    simp
  · cases he
    rw [← h.line, hq]
    exact List.mem_cons_self

/-- So are as many as stand in front, one after another. -/
theorem InOrder.notify {threads rest : List ThreadId} (h : c.InOrder) (hq : c.queue.threads = threads ++ rest) :
    (c.notify threads ⟨rest⟩).InOrder := by
  induction threads generalizing c with
  | nil =>
    have hsame : c.notify [] ⟨rest⟩ = c := by
      unfold Condition.notify
      rw [List.map_nil, List.append_nil, ← List.nil_append rest, ← hq]
    rwa [hsame]
  | cons thread more ih =>
    have hfirst : c.queue.threads = thread :: (more ++ rest) := hq
    have hnext := ih (h.notify_head hfirst) rfl
    have hboth : (c.notify [thread] ⟨more ++ rest⟩).notify more ⟨rest⟩ = c.notify (thread :: more) ⟨rest⟩ := by
      simp [Condition.notify]
    rwa [hboth] at hnext

/-- Every act leaves the queue in order. -/
theorem InOrder.step (h : c.InOrder) (act : WaitAct) : (c.step act).InOrder := by
  cases act with
  | goOn thread =>
    rw [Condition.step]
    split
    · rename_i hs
      exact h.enter hs
    · rename_i hs
      exact h.stay (by simp [hs]) (by simp) (by simp)
    · rename_i hs
      exact h.stay (by simp [hs]) (by simp) (by simp)
    · exact h.leave
  | notifyOne =>
    refine h.notify ?_
    cases hq : c.queue.threads with
    | nil => simp [WaitQueue.wakeOne, hq]
    | cons thread rest => simp [WaitQueue.wakeOne, hq]
  | notifyAll => exact h.notify (List.append_nil _).symm

/-- So does every run. -/
theorem InOrder.run (h : c.InOrder) (acts : List WaitAct) : (c.run acts).InOrder := by
  induction acts generalizing c with
  | nil => exact h
  | cons act rest ih => exact ih (h.step act)

/-- In whatever order threads do the steps of their waits, and whenever they go on, woken or not, the queue lists those who have
begun to wait and were neither notified nor have returned since, each once and in the order in which they began. To wake one is to
wake the first of them, if there is one, and to wake all is to wake each of them once, in this order, and nobody is in the queue
then. Nobody is ever notified who is not in a wait, and who has not been notified since the wait began; so a thread whose wait is
over, however it went on, is not notified before it waits again. -/
theorem queue_in_order (acts : List WaitAct) :
    let c := start.run acts
    (c.queue.threads = stillWaiting c.log ∧ c.queue.threads.Nodup) ∧
    ((c.step .notifyOne).log = c.log ++ ((stillWaiting c.log).head?.toList.map .notified) ∧
      (c.step .notifyOne).queue.threads = (stillWaiting c.log).tail) ∧
    ((c.step .notifyAll).log = c.log ++ (stillWaiting c.log).map .notified ∧ (c.step .notifyAll).queue.threads = []) ∧
    (∀ thread, Inside c.log thread ↔ c.stage thread ≠ .away) ∧
    (∀ before thread after, c.log = before ++ .notified thread :: after → thread ∈ stillWaiting before ∧ Inside before thread) ∧
    ∀ before thread after, c.log = before ++ .returned thread :: after → .entered thread ∉ after → .notified thread ∉ after := by
  intro c
  have h : c.InOrder := inOrder_start.run acts
  have hline : c.queue.threads = stillWaiting c.log := h.line
  refine ⟨⟨hline, h.once⟩, ⟨?_, ?_⟩, ⟨?_, rfl⟩, h.inside, fun before thread after he => ?_, fun before thread after he hn hm => ?_⟩
  · rw [← hline]
    rfl
  · rw [← hline]
    rfl
  · rw [← hline]
    rfl
  · have hwaits := h.notified before thread after he
    exact ⟨hwaits, inside_of_mem_stillWaiting hwaits⟩
  · -- Between its return and the notice the thread would have entered.
    obtain ⟨front, rest, rfl⟩ := List.append_of_mem hm
    have hsplit : c.log = (before ++ .returned thread :: front) ++ .notified thread :: rest := by
      rw [he, List.append_assoc, List.cons_append]
    have hin := inside_of_mem_stillWaiting (h.notified _ thread rest hsplit)
    exact not_inside_of_returned (fun hf => hn (List.mem_append_left _ hf)) hin

/-- Two threads wait, and a third is about to. The second goes on for no reason and leaves, the first is woken, and the second comes
back. -/
def crowd : List WaitAct :=
  [.goOn ⟨1⟩, .goOn ⟨1⟩, .goOn ⟨2⟩, .goOn ⟨2⟩, .goOn ⟨3⟩, .goOn ⟨2⟩, .goOn ⟨2⟩, .notifyOne, .goOn ⟨2⟩]

/-- The third is woken before the second then, and the first was in its wait when it was woken. -/
theorem crowd_in_order :
    let c := start.run crowd
    let before := [.entered ⟨1⟩, .slept ⟨1⟩, .entered ⟨2⟩, .slept ⟨2⟩, .entered ⟨3⟩, .awoke ⟨2⟩, .returned ⟨2⟩]
    c.log = before ++ [.notified ⟨1⟩, .entered ⟨2⟩] ∧ c.queue.threads = [⟨3⟩, ⟨2⟩] ∧ Inside before ⟨1⟩ ∧
      (c.step .notifyOne).log = c.log ++ [.notified ⟨3⟩] ∧
      (c.step .notifyAll).log = c.log ++ [.notified ⟨3⟩, .notified ⟨2⟩] ∧ (c.step .notifyAll).queue.threads = [] := by
  intro c before
  have hlog : c.log = before ++ .notified ⟨1⟩ :: [.entered ⟨2⟩] := by decide
  have hwaiting : stillWaiting c.log = [⟨3⟩, ⟨2⟩] := by decide
  obtain ⟨⟨hline, -⟩, ⟨hone, -⟩, ⟨hall, hnone⟩, -, hnotified, -⟩ := queue_in_order crowd
  rw [hwaiting] at hline hone hall
  exact ⟨hlog, hline, (hnotified before ⟨1⟩ _ hlog).2, hone, hall, hnone⟩

end Condition

end Nucleus
