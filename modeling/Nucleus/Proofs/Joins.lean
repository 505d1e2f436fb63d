import Nucleus.Proofs.Results

/-!
# What a join answers

A join is made by a call of its own or by a system call, and its thread may sleep and ask again. In each of these steps it either
takes the status of the child, or it sleeps or fails (`Joins.delivers_or`). So a join answers with a status just when it takes it
(`Joins.joined_iff`), and nothing else answers with the result of a join (`asks_of_joined`).
-/

namespace Nucleus

/-- What a join ends with that fails. -/
def JoinUse.failure (use : JoinUse) (e : KernelError) : Outcome :=
  match use with
  | .outcome => .joined (.error e)
  | .systemCall _ trap => .ofDisposition trap (.resume e.errno)

/-- A join has no status to answer with: it sleeps, or ends with an error. -/
def JoinUse.Unserved (use : JoinUse) (answer : Option Outcome) : Prop := answer = none ∨ ∃ e, answer = some (use.failure e)

/-- How a thread goes on after a system call is not the result of a join. -/
theorem Outcome.ofDisposition_ne_joined (trap : Option TrapFrame) (d : Disposition) (result : Except KernelError ExitStatus) :
    ofDisposition trap d ≠ .joined result := by
  intro h
  cases trap with
  | none => cases h
  | some frame => cases h

namespace Kernel

variable {μ κ : Type} {k k' : Kernel μ κ} {result : Except KernelError ExitStatus}

/-- The result of a system call is not that of a join. -/
theorem answer_ne_joined (k : Kernel μ κ) (trap : Option TrapFrame) (value : Except KernelError Int64) :
    k.answer trap value ≠ .finished (.joined result) k' := by
  intro h
  exact Outcome.ofDisposition_ne_joined trap _ result (Progress.finished.inj h).1

/-- Nor is that of a spawn. -/
theorem finishSpawn_ne_joined (k : Kernel μ κ) (use : SpawnUse) (created : Except KernelError Pid) :
    k.finishSpawn use created ≠ .finished (.joined result) k' := by
  cases use with
  | outcome =>
    intro h
    cases h
  | systemCall trap => exact answer_ne_joined k trap _

/-- A join by system call does not end with the result of a join itself. -/
theorem join_ne_joined {child : Pid} (k : Kernel μ κ) (thread : ThreadId) (caller : Pid) (target : Address) (trap : Option TrapFrame) :
    k.join thread caller child (.systemCall target trap) ≠ .finished (.joined result) k' := by
  cases hr : k.processes.reap caller child with
  | refused =>
    rw [join, hr]
    exact answer_ne_joined k trap _
  | running =>
    rw [join_of_running hr]
    intro h
    cases h
  | reaped status records =>
    rw [join, hr]
    dsimp only
    rw [finishJoin_eq_answer]
    exact answer_ne_joined _ trap _

/-- Only the thread of a join goes on with the result of one. -/
theorem sleeping_of_resume {s : Suspended} {a : s.Answer} (h : k.resume s a = .finished (.joined result) k') :
    ∃ thread caller child, s = .sleeping thread caller child .outcome := by
  cases s with
  | loading parent program args use =>
    exfalso
    revert h
    cases a with
    | error cause => exact finishSpawn_ne_joined _ use _
    | ok image =>
      simp only [resume, enrol]
      split
      · exact finishSpawn_ne_joined k use _
      · intro h
        cases h
  | starting pid use => exact absurd h (finishSpawn_ne_joined k use _)
  | sleeping thread caller child use =>
    cases use with
    | outcome => exact ⟨thread, caller, child, rfl⟩
    | systemCall target trap => exact absurd h (join_ne_joined _ thread caller target trap)

/-- Only a join begins with the result of one. -/
theorem joinOf_of_begin [Medium μ] [Console κ] {c : Call} {thread : ThreadId} (h : k.begin thread c = .finished (.joined result) k') :
    ∃ caller child, k.joinOf c = some (caller, child, .outcome) := by
  have hdispatch : ∀ {pid number args trap}, k.dispatch thread pid number args trap ≠ .finished (.joined result) k' := by
    intro pid number args trap hd
    obtain ⟨d, he⟩ := exists_disposition_of_dispatch hd
    exact Outcome.ofDisposition_ne_joined trap d result he.symm
  cases c with
  | join caller child => exact ⟨caller, child, rfl⟩
  | systemCall pid number args => exact absurd h hdispatch
  | trap pid cause frame =>
    simp only [begin, takeTrap] at h
    split at h
    · exact absurd h hdispatch
    · cases h
  | boot program args =>
    simp only [begin] at h
    split at h <;> cases h
  | _ => cases h

end Kernel

namespace Machine

variable {μ κ : Type} [Medium μ] [Console κ] {allowed : Call → Prop} {m : Machine μ κ} {r : Machine μ κ × Option Outcome}
  {thread : ThreadId} {caller child : Pid} {use : JoinUse} {target : Address} {trap : Option TrapFrame} {status : ExitStatus}

/-- In a step a thread asks for a child and gets its status. -/
structure Delivers (m : Machine μ κ) (r : Machine μ κ × Option Outcome) (thread : ThreadId) (caller child : Pid) (use : JoinUse)
    (status : ExitStatus) : Prop where
  /-- It asks. -/
  asks : Asks m r thread caller child use
  /-- The child has ended with the status, which is taken. -/
  taken : ∃ records, m.kernel.processes.reap caller child = .reaped status records

/-- Who asks for a child takes its status, or the records stay and the thread sleeps or is told that the child is not its own. -/
theorem Asks.delivers_or (h : Asks m r thread caller child use) :
    (∃ status, Delivers m r thread caller child use status) ∨
      r.1.kernel.processes.records = m.kernel.processes.records ∧ (r.2 = none ∨ r.2 = some (use.failure .notAChild)) := by
  obtain ⟨k, waiting, he, hk, -⟩ := h.exists_join
  have hreap := ProcessTable.reap_congr hk caller child
  cases hr : m.kernel.processes.reap caller child with
  | reaped status records => exact .inl ⟨status, h, records, hr⟩
  | running =>
    rw [he, Kernel.join_of_running (hreap.trans hr)]
    exact .inr ⟨hk, .inl rfl⟩
  | refused =>
    rw [he, Kernel.join, hreap.trans hr]
    cases use with
    | outcome => exact .inr ⟨hk, .inr rfl⟩
    | systemCall target trap => exact .inr ⟨hk, .inr rfl⟩

/-- A step of a join by system call refuses it, when it is made, or asks for the child. -/
theorem Joining.refused_or_asks (h : Joining m r thread caller child target trap) :
    (Made m r thread caller child target trap ∧ r.1.kernel.processes.records = m.kernel.processes.records ∧
        ∃ e : KernelError, r.2 = some (.ofDisposition trap (.resume e.errno))) ∨
      Asks m r thread caller child (.systemCall target trap) := by
  cases h with
  | again k before after => exact .inr (.again k before after thread caller child _)
  | made h =>
    cases h with
    | @call _ c _ args _ hc hk hchild =>
      cases ha : m.kernel.joinArguments caller args with
      | ok asked =>
        have hasked : asked = ⟨args.a0.toUInt32⟩ := Kernel.eq_of_joinArguments ha
        rw [hasked] at ha
        exact .inr (.call m thread c (Kernel.joinOf_of_joinArguments hc hk ha))
      | error e =>
        refine .inl ⟨.call thread hc hk hchild, ?_⟩
        have hheard : (m.kernel.heard c).joinArguments caller args = .error e ∧
            (m.kernel.heard c).processes.records = m.kernel.processes.records := by
          rcases m.kernel.heard_cases c with he | ⟨pid, number, words, he⟩ <;> rw [he]
          · exact ⟨ha, rfl⟩
          · exact ⟨ha, rfl⟩
        rw [Machine.call, Kernel.begin_of_joinArguments hc hk, Kernel.sysJoin, hheard.1]
        exact ⟨hheard.2, e, rfl⟩

/-- A step of a join that takes no status does not answer with one. -/
theorem Joins.delivers_or (h : Joins m r thread caller child use) :
    (∃ status, Delivers m r thread caller child use status) ∨ use.Unserved r.2 := by
  have hasks : Asks m r thread caller child use → (∃ status, Delivers m r thread caller child use status) ∨ use.Unserved r.2 := by
    intro ha
    rcases ha.delivers_or with hd | ⟨-, hn | he⟩
    · exact .inl hd
    · exact .inr (.inl hn)
    · exact .inr (.inr ⟨_, he⟩)
  cases h with
  | asks ha => exact hasks ha
  | made hm =>
    rcases (Joining.made hm).refused_or_asks with ⟨-, -, he⟩ | ha
    · exact .inr (.inr he)
    · exact hasks ha

/-- Only a join answers with the result of one. -/
theorem asks_of_joined (h : Step allowed m r) {result : Except KernelError ExitStatus} (he : r.2 = some (.joined result)) :
    ∃ thread caller child, Asks m r thread caller child .outcome := by
  have hfinished : ∀ {waiting : List Suspended} {p : Progress μ κ}, (settle waiting p).2 = some (.joined result) →
      ∃ k, p = .finished (.joined result) k := by
    intro waiting p hp
    cases p with
    | finished outcome k => exact ⟨k, congrArg (Progress.finished · k) (Option.some.inj hp)⟩
    | suspended s k => cases hp
  cases h with
  | call _ thread c hc =>
    obtain ⟨k, hk⟩ := hfinished he
    obtain ⟨caller, child, hj⟩ := Kernel.joinOf_of_begin hk
    exact ⟨thread, caller, child, .call m thread c hj⟩
  | answer k before after s a =>
    obtain ⟨k', hk⟩ := hfinished he
    obtain ⟨thread, caller, child, rfl⟩ := Kernel.sleeping_of_resume hk
    exact ⟨thread, caller, child, .again k before after thread caller child .outcome⟩
  | memory _ pid change => cases he

/-- A join that gets a status ends with it, and those run who ran before, as they did. -/
theorem Delivers.exists_finishJoin (h : Delivers m r thread caller child use status) :
    ∃ (k : Kernel μ κ) (waiting : List Suspended), r = settle waiting (k.finishJoin caller use (.ok status)) ∧
      ∀ pid process, k.processes.live pid = .ok process ↔ m.kernel.processes.live pid = .ok process := by
  obtain ⟨records, hr⟩ := h.taken
  obtain ⟨k, waiting, rfl, hk, -⟩ := h.asks.exists_join
  rw [← ProcessTable.reap_congr hk] at hr
  refine ⟨_, waiting, by rw [Kernel.join, hr], fun pid process => ?_⟩
  have hlive : k.processes.live pid = .ok process ↔ m.kernel.processes.live pid = .ok process := by
    rw [ProcessTable.live_eq_ok_iff_owned, ProcessTable.live_eq_ok_iff_owned, hk]
  rw [← hlive]
  exact ⟨ProcessTable.live_reap hr, ProcessTable.live_reap_of_live hr⟩

/-- So a join answers with a status just when it takes it. -/
theorem Joins.joined_iff (h : Joins m r thread caller child .outcome) :
    r.2 = some (.joined (.ok status)) ↔ Delivers m r thread caller child .outcome status := by
  have hanswers : ∀ {status}, Delivers m r thread caller child .outcome status → r.2 = some (.joined (.ok status)) := by
    intro status hd
    obtain ⟨k, waiting, rfl, -⟩ := hd.exists_finishJoin
    rfl
  refine ⟨fun he => ?_, hanswers⟩
  rcases h.delivers_or with ⟨taken, hd⟩ | hn | ⟨e, hfail⟩
  · cases he.symm.trans (hanswers hd)
    exact hd
  · cases he.symm.trans hn
  · cases he.symm.trans hfail

end Machine

end Nucleus
