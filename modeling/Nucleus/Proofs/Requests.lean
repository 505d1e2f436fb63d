import Nucleus.Kernel.Machine

/-!
# What calls ask for

Most of what a process may want has a call of its own and a system call besides, which may come as a trap. `endOf` says which
process a call ends, and `joinOf` which child's status it asks for; the latter is asked for again each time the thread wakes that
sleeps until then, and `Machine.Asks` says which steps do so. Each of them comes down to `Kernel.join` on the same records. A system
call that is to ask for a child may also fail before it does (`Machine.Made`, `Machine.Joins`).
-/

namespace Nucleus

/-- The process that a call is made by, or for, if there is one. -/
def Call.caller? : Call → Option Pid
  | .systemCall pid .. => some pid
  | .trap pid .. => some pid
  | .exit pid _ => some pid
  | .halt pid => some pid
  | .spawn parent .. => parent
  | .join caller _ => some caller
  | .endProcess pid _ => some pid
  | .boot .. => none
  | .dropProcesses => none

/-- The process that ends itself by system call, and the word that it passes for its status. -/
def Call.exitWord? : Call → Option (Pid × UInt64)
  | .systemCall pid number args => if SystemCall.ofWord? number = some .exit then some (pid, args.a0) else none
  | .trap pid .syscall frame => if SystemCall.ofWord? frame.v0 = some .exit then some (pid, frame.args.a0) else none
  | _ => none

/-- A process that asks for a child by system call, what it passes, and the frame if the call comes as a trap. -/
def Call.joinArguments? : Call → Option (Pid × Arguments × Option TrapFrame)
  | .systemCall pid number args => if SystemCall.ofWord? number = some .join then some (pid, args, none) else none
  | .trap pid .syscall frame =>
    if SystemCall.ofWord? frame.v0 = some .join then some (pid, frame.args, some frame) else none
  | _ => none

/-- Such a call comes as itself or as a trap. -/
theorem Call.joinArguments?_cases {c : Call} {caller : Pid} {args : Arguments} {trap : Option TrapFrame}
    (h : c.joinArguments? = some (caller, args, trap)) :
    (∃ number, c = .systemCall caller number args ∧ trap = none ∧ SystemCall.ofWord? number = some .join) ∨
      ∃ frame, c = .trap caller .syscall frame ∧ args = frame.args ∧ trap = some frame ∧
        SystemCall.ofWord? frame.v0 = some .join := by
  unfold joinArguments? at h
  split at h
  · split at h
    · rename_i hn
      cases h
      exact .inl ⟨_, rfl, rfl, hn⟩
    · cases h
  · split at h
    · rename_i hn
      cases h
      exact .inr ⟨_, rfl, rfl, rfl, hn⟩
    · cases h
  · cases h

namespace Kernel

variable {μ κ : Type}

/-- The process that a system call ends if it runs, and the status that it ends with. -/
def exitedBy (k : Kernel μ κ) (pid : Pid) (number : UInt64) (args : Arguments) : Option (Pid × ExitStatus) :=
  if k.halted then none
  else if SystemCall.ofWord? number = some .exit then some (pid, .normal args.a0.toUInt32.toInt32)
  else none

/-- The process that a call ends if it runs, and the status that it ends with. -/
def endOf (k : Kernel μ κ) : Call → Option (Pid × ExitStatus)
  | .systemCall pid number args => k.exitedBy pid number args
  | .trap pid cause frame => if cause = .syscall then k.exitedBy pid frame.v0 frame.args else some (pid, .abnormal cause)
  | .exit pid status => some (pid, status)
  | .endProcess pid status => some (pid, status)
  | _ => none

/-- The process that asks for a halt by a system call. -/
def haltedBy (k : Kernel μ κ) (pid : Pid) (number : UInt64) : Option Pid :=
  if k.halted then none else if SystemCall.ofWord? number = some .halt then some pid else none

/-- The process that asks for a halt by a call. -/
def haltOf (k : Kernel μ κ) : Call → Option Pid
  | .halt pid => some pid
  | .systemCall pid number _ => k.haltedBy pid number
  | .trap pid .syscall frame => k.haltedBy pid frame.v0
  | _ => none

/-- A process that ends itself by system call ends with the low half of the word that it passes. -/
theorem endOf_of_exitWord {k : Kernel μ κ} {c : Call} {pid : Pid} {word : UInt64} (h : c.exitWord? = some (pid, word))
    (hk : k.halted = false) : k.endOf c = some (pid, .normal word.toUInt32.toInt32) := by
  unfold Call.exitWord? at h
  split at h
  · split at h
    · rename_i hn
      cases h
      rw [endOf, exitedBy, hk, if_pos hn]
      rfl
    · cases h
  · split at h
    · rename_i hn
      cases h
      rw [endOf, if_pos rfl, exitedBy, hk, if_pos hn]
      rfl
    · cases h
  · cases h

/-- A system call that ends its process ends it with the low half of the word that it passes. -/
theorem exitedBy_eq_some {k : Kernel μ κ} {pid ending : Pid} {number : UInt64} {args : Arguments} {status : ExitStatus}
    (h : k.exitedBy pid number args = some (ending, status)) :
    k.halted = false ∧ SystemCall.ofWord? number = some .exit ∧ ending = pid ∧ status = .normal args.a0.toUInt32.toInt32 := by
  unfold exitedBy at h
  split at h
  · cases h
  · rename_i hk
    split at h
    · rename_i hn
      cases h
      exact ⟨Bool.eq_false_iff.mpr hk, hn, rfl, rfl⟩
    · cases h

/-- The child that a system call asks for, once its arguments were found good. -/
def joinedBy (k : Kernel μ κ) (pid : Pid) (number : UInt64) (args : Arguments) : Option Pid :=
  if k.halted then none
  else if SystemCall.ofWord? number = some .join then (k.joinArguments pid args).toOption
  else none

/-- Who asks for which child by a call, and what the status is wanted for. -/
def joinOf (k : Kernel μ κ) : Call → Option (Pid × Pid × JoinUse)
  | .join caller child => some (caller, child, .outcome)
  | .systemCall pid number args =>
    (k.joinedBy pid number args).map fun child => (pid, child, .systemCall ⟨args.a1⟩ none)
  | .trap pid .syscall frame =>
    (k.joinedBy pid frame.v0 frame.args).map fun child => (pid, child, .systemCall ⟨frame.args.a1⟩ (some frame))
  | _ => none

/-- The kernel when a system call was reported, if the call is one. -/
def heard (k : Kernel μ κ) : Call → Kernel μ κ
  | .systemCall pid number args => k.note (.syscall pid number args.toList)
  | .trap pid .syscall frame => k.note (.syscall pid frame.v0 frame.args.toList)
  | _ => k

/-- A system call is reported, and nothing else happens by that. -/
theorem heard_cases (k : Kernel μ κ) (c : Call) :
    k.heard c = k ∨ ∃ pid number args, k.heard c = k.note (.syscall pid number args) := by
  unfold heard
  split
  · exact .inr ⟨_, _, _, rfl⟩
  · exact .inr ⟨_, _, _, rfl⟩
  · exact .inl rfl

/-- What a system call asks for is what its good arguments name. -/
theorem joinedBy_eq_some {k : Kernel μ κ} {pid child : Pid} {number : UInt64} {args : Arguments}
    (h : k.joinedBy pid number args = some child) :
    k.halted = false ∧ SystemCall.ofWord? number = some .join ∧ k.joinArguments pid args = .ok child := by
  unfold joinedBy at h
  split at h
  · cases h
  · rename_i hk
    split at h
    · rename_i hn
      refine ⟨Bool.eq_false_iff.mpr hk, hn, ?_⟩
      cases ha : k.joinArguments pid args with
      | error e => rw [ha] at h; cases h
      | ok child' => rw [ha] at h; exact congrArg Except.ok (Option.some.inj h)
    · cases h

/-- A call asks for the child whose number it passes. -/
theorem eq_of_joinArguments {k : Kernel μ κ} {caller child : Pid} {args : Arguments}
    (h : k.joinArguments caller args = .ok child) : child = ⟨args.a0.toUInt32⟩ := by
  unfold joinArguments at h
  split at h
  · cases h
  · split at h
    · cases h
    · split at h
      · exact (Except.ok.inj h).symm
      · split at h
        · cases h
        · exact (Except.ok.inj h).symm

/-- A system call with good arguments asks for the child. -/
theorem joinOf_of_joinArguments {k : Kernel μ κ} {c : Call} {caller child : Pid} {args : Arguments} {trap : Option TrapFrame}
    (h : c.joinArguments? = some (caller, args, trap)) (hk : k.halted = false) (ha : k.joinArguments caller args = .ok child) :
    k.joinOf c = some (caller, child, .systemCall ⟨args.a1⟩ trap) := by
  have hjoined : ∀ {pid : Pid} {number : UInt64} {args : Arguments}, SystemCall.ofWord? number = some .join →
      k.joinArguments pid args = .ok child → k.joinedBy pid number args = some child := by
    intro pid number args hn ha
    unfold joinedBy
    rw [hk, if_neg Bool.false_ne_true, if_pos hn, ha]
    rfl
  rcases Call.joinArguments?_cases h with ⟨number, rfl, rfl, hn⟩ | ⟨frame, rfl, rfl, rfl, hn⟩
  · rw [joinOf, hjoined hn ha]
    rfl
  · rw [joinOf, hjoined hn ha]
    rfl

/-- Whom a call ends is who makes it. -/
theorem caller?_of_endOf {k : Kernel μ κ} {c : Call} {pid : Pid} {status : ExitStatus} (h : k.endOf c = some (pid, status)) :
    c.caller? = some pid := by
  unfold endOf at h
  split at h
  · exact congrArg some (exitedBy_eq_some h).2.2.1.symm
  · split at h
    · exact congrArg some (exitedBy_eq_some h).2.2.1.symm
    · cases h
      rfl
  · cases h
    rfl
  · cases h
    rfl
  · cases h

/-- Who asks for a halt by a system call makes it, and the machine has not halted before. -/
theorem haltedBy_eq_some {k : Kernel μ κ} {caller pid : Pid} {number : UInt64} (h : k.haltedBy caller number = some pid) :
    k.halted = false ∧ SystemCall.ofWord? number = some .halt ∧ pid = caller := by
  unfold haltedBy at h
  split at h
  · cases h
  · rename_i hk
    split at h
    · rename_i hn
      cases h
      exact ⟨Bool.eq_false_iff.mpr hk, hn, rfl⟩
    · cases h

/-- Who asks for a halt by a call is who makes it. -/
theorem caller?_of_haltOf {k : Kernel μ κ} {c : Call} {pid : Pid} (h : k.haltOf c = some pid) : c.caller? = some pid := by
  unfold haltOf at h
  split at h
  · exact h
  · exact congrArg some (haltedBy_eq_some h).2.2.symm
  · exact congrArg some (haltedBy_eq_some h).2.2.symm
  · cases h

variable [Medium μ] [Console κ]

/-- A system call that ends its process does nothing but report itself before. -/
theorem dispatch_of_exitedBy {k : Kernel μ κ} {pid ending : Pid} {number : UInt64} {args : Arguments} {status : ExitStatus}
    (h : k.exitedBy pid number args = some (ending, status)) (thread : ThreadId) (trap : Option TrapFrame) :
    ∃ outcome, k.dispatch thread pid number args trap =
      .finished outcome ((k.note (.syscall pid number args.toList)).exit ending status).2 := by
  obtain ⟨hk, hn, rfl, rfl⟩ := exitedBy_eq_some h
  unfold dispatch
  simp only [hk, Bool.false_eq_true, if_false, hn, perform]
  exact ⟨_, rfl⟩

/-- A system call that asks for a child does nothing but report itself before. -/
theorem dispatch_of_joinedBy {k : Kernel μ κ} {pid child : Pid} {number : UInt64} {args : Arguments}
    (h : k.joinedBy pid number args = some child) (thread : ThreadId) (trap : Option TrapFrame) :
    k.dispatch thread pid number args trap =
      (k.note (.syscall pid number args.toList)).join thread pid child (.systemCall ⟨args.a1⟩ trap) := by
  obtain ⟨hk, hn, ha⟩ := joinedBy_eq_some h
  have ha' : (k.note (.syscall pid number args.toList)).joinArguments pid args = .ok child := ha
  unfold dispatch
  simp only [hk, Bool.false_eq_true, if_false, hn, perform, sysJoin, ha']

/-- A call that asks for a child is a join. -/
theorem begin_of_joinOf {k : Kernel μ κ} {c : Call} {caller child : Pid} {use : JoinUse}
    (h : k.joinOf c = some (caller, child, use)) (thread : ThreadId) :
    k.begin thread c = (k.heard c).join thread caller child use := by
  unfold joinOf at h
  split at h
  · cases h
    rfl
  · rename_i pid number args
    obtain ⟨child', hj, he⟩ := Option.map_eq_some_iff.mp h
    cases he
    exact dispatch_of_joinedBy hj thread none
  · rename_i pid frame
    obtain ⟨child', hj, he⟩ := Option.map_eq_some_iff.mp h
    cases he
    exact dispatch_of_joinedBy hj thread (some frame)
  · cases h

/-- A system call that asks for a child, while the machine runs. -/
theorem begin_of_joinArguments {k : Kernel μ κ} {c : Call} {caller : Pid} {args : Arguments} {trap : Option TrapFrame}
    (h : c.joinArguments? = some (caller, args, trap)) (hk : k.halted = false) (thread : ThreadId) :
    k.begin thread c = (k.heard c).sysJoin thread caller args trap := by
  have hdispatch : ∀ {pid : Pid} {number : UInt64} {args : Arguments} (trap : Option TrapFrame),
      SystemCall.ofWord? number = some .join →
      k.dispatch thread pid number args trap = (k.note (.syscall pid number args.toList)).sysJoin thread pid args trap := by
    intro pid number args trap hn
    unfold dispatch
    simp only [hk, Bool.false_eq_true, if_false, hn, perform]
  rcases Call.joinArguments?_cases h with ⟨number, rfl, rfl, hn⟩ | ⟨frame, rfl, rfl, rfl, hn⟩
  · exact hdispatch none hn
  · exact hdispatch (some frame) hn

end Kernel

namespace Machine

variable {μ κ : Type} [Medium μ] [Console κ]

/-- In a step a thread asks for a child, for the first time or again. -/
inductive Asks : Machine μ κ → Machine μ κ × Option Outcome → ThreadId → Pid → Pid → JoinUse → Prop where
  /-- By a call. -/
  | call (m : Machine μ κ) (thread : ThreadId) (c : Call) {caller child : Pid} {use : JoinUse}
      (h : m.kernel.joinOf c = some (caller, child, use)) : Asks m (m.call thread c) thread caller child use
  /-- After it has slept. -/
  | again (k : Kernel μ κ) (before after : List Suspended) (thread : ThreadId) (caller child : Pid) (use : JoinUse) :
      Asks ⟨k, before ++ .sleeping thread caller child use :: after⟩
        (settle (before ++ after) (k.resume (.sleeping thread caller child use) ())) thread caller child use

/-- A process makes a system call that asks for a child. -/
inductive Made (m : Machine μ κ) :
    Machine μ κ × Option Outcome → ThreadId → Pid → Pid → Address → Option TrapFrame → Prop where
  /-- The machine has not halted, and the call passes a number that a process can have. -/
  | call (thread : ThreadId) {c : Call} {caller : Pid} {args : Arguments} {trap : Option TrapFrame}
      (h : c.joinArguments? = some (caller, args, trap)) (hk : m.kernel.halted = false) (hc : args.a0.toNat < UInt32.size) :
      Made m (m.call thread c) thread caller ⟨args.a0.toUInt32⟩ ⟨args.a1⟩ trap

/-- A step of such a call: it is made, or its thread goes on after it has slept. -/
inductive Joining : Machine μ κ → Machine μ κ × Option Outcome → ThreadId → Pid → Pid → Address → Option TrapFrame → Prop where
  /-- The call is made. -/
  | made {m : Machine μ κ} {r : Machine μ κ × Option Outcome} {thread : ThreadId} {caller child : Pid} {target : Address}
      {trap : Option TrapFrame} (h : Made m r thread caller child target trap) : Joining m r thread caller child target trap
  /-- The thread goes on. -/
  | again (k : Kernel μ κ) (before after : List Suspended) (thread : ThreadId) (caller child : Pid) (target : Address)
      (trap : Option TrapFrame) :
      Joining ⟨k, before ++ .sleeping thread caller child (.systemCall target trap) :: after⟩
        (settle (before ++ after) (k.resume (.sleeping thread caller child (.systemCall target trap)) ())) thread caller child
        target trap

/-- A step of a join, whatever the status is wanted for. -/
inductive Joins (m : Machine μ κ) (r : Machine μ κ × Option Outcome) (thread : ThreadId) (caller child : Pid) : JoinUse → Prop where
  /-- The thread asks for the child. -/
  | asks {use : JoinUse} (h : Asks m r thread caller child use) : Joins m r thread caller child use
  /-- The system call is made, which may fail before it asks. -/
  | made {target : Address} {trap : Option TrapFrame} (h : Made m r thread caller child target trap) :
      Joins m r thread caller child (.systemCall target trap)

end Machine

end Nucleus
