import Nucleus.Proofs.Deliveries

/-!
# The place for a status

The system call that asks for a child checks the place for the status when it is made, and stores the status there when it has
taken it. In between its thread may sleep, and the rights of the pages may change. So a place that is bad from the beginning costs
nothing: the call fails and no status is taken. But a place that becomes bad while the thread sleeps makes the call fail after
the status was taken, which is lost then. `status_kept_iff` says just when a call that fails for the place leaves the child.
-/

namespace Nucleus

namespace ProcessTable

/-- A child whose status was taken is gone, and cannot be asked for again. -/
theorem reap_of_reaped {t : ProcessTable} {caller child : Pid} {status : ExitStatus} {records : Records}
    (h : t.reap caller child = .reaped status records) :
    records[child]? = none ∧ ∀ t' : ProcessTable, t'.records = records → t'.reap caller child = .refused := by
  obtain ⟨parent, ended, -, -, -, -, he⟩ := reap_reaped h
  have hnone : (t.records.erase child)[child]? = none := by rw [Records.getElem?_erase_pid, if_pos rfl]
  have hgone : records[child]? = none := by
    rw [he]
    split
    · rename_i record hc
      have hne : caller ≠ child := by
        rintro rfl
        cases hnone.symm.trans hc
      rw [Records.getElem?_insert_pid, if_neg hne]
      exact hnone
    · exact hnone
  refine ⟨hgone, ?_⟩
  rintro t' rfl
  have hfound : t'.record? child = none := hgone
  unfold reap
  rw [hfound]
  split <;> rfl

end ProcessTable

namespace Kernel

variable {μ κ : Type} {k k' : Kernel μ κ} {caller child : Pid} {target : Address} {trap : Option TrapFrame}

/-- A process runs and wants a status stored where its memory cannot be written. -/
def BadPlace (k : Kernel μ κ) (caller : Pid) (target : Address) : Prop :=
  target.isNull = false ∧ ∃ process, k.processes.live caller = .ok process ∧ process.memory.check target 4 .write ≠ .ok ()

/-- A call with a bad place for the status is refused. -/
theorem joinArguments_of_badPlace {args : Arguments} (h : k.BadPlace caller ⟨args.a1⟩) (hc : args.a0.toNat < UInt32.size) :
    k.joinArguments caller args = .error .invalidAddress := by
  obtain ⟨hn, process, hl, hbad⟩ := h
  unfold joinArguments
  rw [if_neg (Nat.not_le.mpr hc), hl]
  dsimp only
  rw [if_neg (by simp [hn]), AddressSpace.check_eq_error hbad]

/-- A status is not stored in a bad place. -/
theorem storeCode_of_badPlace (h : k.BadPlace caller target) (status : ExitStatus) :
    k.storeCode caller target status = (.error .invalidAddress, k) := by
  obtain ⟨hn, process, hl, hbad⟩ := h
  have hw : process.memory.writeWord target status.code.toUInt32 = .error .invalidAddress := by
    unfold AddressSpace.writeWord AddressSpace.copyOut
    rw [show (wordBytes status.code.toUInt32).length = 4 from rfl, AddressSpace.check_eq_error hbad]
  unfold storeCode
  rw [if_neg (by simp [hn])]
  simp only [changeMemory, hl, hw]

end Kernel

namespace Machine

variable {μ κ : Type} [Medium μ] [Console κ]

/-- A system call resumes with the error for a bad address, and the place for the status is bad. -/
def FailsForPlace (m : Machine μ κ) (r : Machine μ κ × Option Outcome) (caller : Pid) (target : Address)
    (trap : Option TrapFrame) : Prop :=
  r.2 = some (.ofDisposition trap (.resume KernelError.invalidAddress.errno)) ∧ m.kernel.BadPlace caller target

variable {m : Machine μ κ} {r : Machine μ κ × Option Outcome} {thread : ThreadId} {caller child : Pid} {target : Address}
  {trap : Option TrapFrame} {status : ExitStatus}

/-- A call that is made with a bad place fails at once. -/
theorem Made.failsForPlace (h : Made m r thread caller child target trap) (hb : m.kernel.BadPlace caller target) :
    FailsForPlace m r caller target trap := by
  refine ⟨?_, hb⟩
  cases h with
  | @call _ c _ args _ hc hk hchild =>
    have ha : (m.kernel.heard c).joinArguments caller args = .error .invalidAddress := by
      refine Kernel.joinArguments_of_badPlace ?_ hchild
      rcases m.kernel.heard_cases c with he | ⟨pid, number, words, he⟩ <;> rw [he]
      · exact hb
      · exact hb
    rw [Machine.call, Kernel.begin_of_joinArguments hc hk, Kernel.sysJoin, ha]
    rfl

/-- Who takes a status and cannot store it has lost it: the call fails, the child is gone, and can not be asked for again. -/
theorem Delivers.lost (h : Delivers m r thread caller child (.systemCall target trap) status)
    (hb : m.kernel.BadPlace caller target) :
    FailsForPlace m r caller target trap ∧ r.1.kernel.processes.record? child = none ∧
      r.1.kernel.processes.reap caller child = .refused := by
  obtain ⟨records, hr⟩ := h.taken
  obtain ⟨k, waiting, rfl, hk, -⟩ := h.asks.exists_join
  have hreap := (ProcessTable.reap_congr hk caller child).trans hr
  obtain ⟨hgone, hrefused⟩ := ProcessTable.reap_of_reaped hr
  obtain ⟨hn, process, hl, hbad⟩ := hb
  -- Taking a status leaves the caller's memory as it is.
  have hk' : Kernel.BadPlace ({ k with processes := { k.processes with records } }.note (.reaped caller child status)) caller
      target := by
    refine ⟨hn, process, ?_, hbad⟩
    refine ProcessTable.live_reap_of_live hreap ?_
    rw [ProcessTable.live_eq_ok_iff_owned] at hl ⊢
    rwa [hk]
  rw [Kernel.join, hreap]
  dsimp only
  rw [Kernel.finishJoin_eq_answer, Kernel.storeCode_of_badPlace hk']
  exact ⟨⟨rfl, hn, process, hl, hbad⟩, hgone, hrefused _ rfl⟩

omit [Medium μ] [Console κ] in
/-- A call that fails for the place resumes with no other error. -/
theorem FailsForPlace.ne (h : FailsForPlace m r caller target trap) {value : Int64}
    (hv : value ≠ KernelError.invalidAddress.errno) : r.2 ≠ some (.ofDisposition trap (.resume value)) := by
  intro he
  have heq := h.1.symm.trans he
  cases trap with
  | none =>
    cases heq
    exact hv rfl
  | some frame =>
    cases heq
    exact hv rfl

/-- When the place is bad a call fails for it in two cases: when it is made, and when it has just taken a status. -/
theorem Joining.failsForPlace_iff (h : Joining m r thread caller child target trap) (hb : m.kernel.BadPlace caller target) :
    FailsForPlace m r caller target trap ↔
      Made m r thread caller child target trap ∨
        ∃ status, Delivers m r thread caller child (.systemCall target trap) status := by
  constructor
  · intro hf
    rcases h.refused_or_asks with ⟨hm, -⟩ | ha
    · exact .inl hm
    · rcases ha.delivers_or with hd | ⟨-, hn | he⟩
      · exact .inr hd
      · cases hf.1.symm.trans hn
      · exact absurd he (hf.ne (by decide))
  · rintro (hm | ⟨status, hd⟩)
    · exact hm.failsForPlace hb
    · exact (hd.lost hb).1

/-- A step of such a call that takes no status leaves all records as they are. -/
theorem Joining.records_eq (h : Joining m r thread caller child target trap)
    (hn : ∀ status, ¬Delivers m r thread caller child (.systemCall target trap) status) :
    r.1.kernel.processes.records = m.kernel.processes.records := by
  rcases h.refused_or_asks with ⟨-, he, -⟩ | ha
  · exact he
  · rcases ha.delivers_or with ⟨status, hd⟩ | ⟨he, -⟩
    · exact absurd hd (hn status)
    · exact he

section Kept

variable {settings : Settings} {medium : μ} {console : κ} {before : List (Moment μ κ)}

/-- A status can only be lost by a call that has slept, and whose caller's pages under the place for the status have other rights
than when the call was made. -/
theorem Runs.rights_changed (h : Runs (fun _ => True) (start settings medium console) before m)
    (hd : Delivers m r thread caller child (.systemCall target trap) status) (hb : m.kernel.BadPlace caller target) :
    (∃ call ∈ before, Begins call.1 call.2 thread caller child (.systemCall target trap)) ∧
      ∀ call ∈ before, Begins call.1 call.2 thread caller child (.systemCall target trap) →
        ∃ process₀ process, call.1.kernel.processes.live caller = .ok process₀ ∧
          m.kernel.processes.live caller = .ok process ∧ ¬process₀.memory.SameRights process.memory target 4 := by
  obtain ⟨hn, process, hl, hbad⟩ := hb
  constructor
  · obtain ⟨call, hmem, c, hj, hr⟩ := h.begins_of_asks hd.asks
    rcases List.mem_append.mp hmem with hmem | hmem
    · exact ⟨call, hmem, c, hj, hr⟩
    · -- A call that takes the status at once has a good place.
      cases List.mem_singleton.mp hmem
      obtain ⟨process', hl', hgood⟩ := Kernel.check_of_joinOf hj hn
      cases hl.symm.trans hl'
      exact absurd hgood hbad
  · rintro call - ⟨c, hj, -⟩
    obtain ⟨process₀, hl₀, hgood⟩ := Kernel.check_of_joinOf hj hn
    exact ⟨process₀, process, hl₀, hl, fun hr => hbad (AddressSpace.check_congr hgood hr)⟩

/-- After every run, a call that asks for a child and fails for the place for the status leaves the records as they are, and with
them the child and its status, unless in this step the status is taken and the place is bad. The call fails for a bad place when it
is made, which costs nothing, and when it has taken the status. In the second case the child is gone and cannot be asked for
again; the call has slept, and the rights of the pages have changed meanwhile. -/
theorem status_kept_iff (h : Runs (fun _ => True) (start settings medium console) before m)
    (hj : Joining m r thread caller child target trap) :
    ((FailsForPlace m r caller target trap → r.1.kernel.processes.records = m.kernel.processes.records) ↔
      ∀ status, Delivers m r thread caller child (.systemCall target trap) status → ¬m.kernel.BadPlace caller target) ∧
    (m.kernel.BadPlace caller target →
      (FailsForPlace m r caller target trap ↔
        Made m r thread caller child target trap ∨
          ∃ status, Delivers m r thread caller child (.systemCall target trap) status)) ∧
    ∀ status, Delivers m r thread caller child (.systemCall target trap) status → m.kernel.BadPlace caller target →
      r.1.kernel.processes.record? child = none ∧ r.1.kernel.processes.reap caller child = .refused ∧
      (∃ call ∈ before, Begins call.1 call.2 thread caller child (.systemCall target trap)) ∧
      ∀ call ∈ before, Begins call.1 call.2 thread caller child (.systemCall target trap) →
        ∃ process₀ process, call.1.kernel.processes.live caller = .ok process₀ ∧
          m.kernel.processes.live caller = .ok process ∧ ¬process₀.memory.SameRights process.memory target 4 := by
  refine ⟨⟨?_, ?_⟩, hj.failsForPlace_iff, ?_⟩
  · intro hlaw status hd hb
    obtain ⟨hf, hgone, -⟩ := hd.lost hb
    -- The child was found before its status was taken.
    obtain ⟨records, hr⟩ := hd.taken
    obtain ⟨-, ended, -, -, he, -⟩ := ProcessTable.reap_reaped hr
    rw [ProcessTable.record?, hlaw hf] at hgone
    cases hgone.symm.trans he
  · intro hgood hf
    exact hj.records_eq fun status hd => hgood status hd hf.2
  · intro status hd hb
    obtain ⟨-, hgone, hrefused⟩ := hd.lost hb
    exact ⟨hgone, hrefused, h.rights_changed hd hb⟩

end Kept

/-- A parent asks for its child with an address for the status, and sleeps. Then the page of the address is closed to it, and the
child ends. -/
def eviction : List Turn :=
  errand ++
    [.call ⟨5⟩ (.systemCall ⟨1⟩ 3 ⟨2, 16, 0, 0⟩), .memory ⟨1⟩ (·.setRights 0 .none),
      .call ⟨0⟩ (.endProcess ⟨2⟩ (.normal 4))]

/-- When its thread goes on, the call fails for the place, and the child is gone. -/
theorem eviction_lost :
    let m := (start {} (RamDisk.empty none) Silent.mk).play eviction
    let r := settle [] (m.kernel.resume (.sleeping ⟨5⟩ ⟨1⟩ ⟨2⟩ (.systemCall ⟨16⟩ none)) ())
    FailsForPlace m r ⟨1⟩ ⟨16⟩ none ∧ r.1.kernel.processes.record? ⟨2⟩ = none ∧
      ¬(FailsForPlace m r ⟨1⟩ ⟨16⟩ none → r.1.kernel.processes.records = m.kernel.processes.records) := by
  intro m r
  obtain ⟨steps, hsteps⟩ := leads_iff_exists_runs.mp
    (leads_iff_exists_play.mpr ⟨eviction, by decide, rfl⟩ : Leads (fun _ => True) (start {} (RamDisk.empty none) Silent.mk) m)
  have hw : m.waiting = [.sleeping ⟨5⟩ ⟨1⟩ ⟨2⟩ (.systemCall ⟨16⟩ none)] := by decide
  have hm : m = ⟨m.kernel, [] ++ .sleeping ⟨5⟩ ⟨1⟩ ⟨2⟩ (.systemCall ⟨16⟩ none) :: []⟩ := congrArg (Machine.mk m.kernel) hw
  have hj : Joining m r ⟨5⟩ ⟨1⟩ ⟨2⟩ ⟨16⟩ none := by
    rw [hm]
    exact .again m.kernel [] [] ⟨5⟩ ⟨1⟩ ⟨2⟩ ⟨16⟩ none
  have hd : Delivers m r ⟨5⟩ ⟨1⟩ ⟨2⟩ (.systemCall ⟨16⟩ none) (.normal 4) := by
    refine ⟨?_, _, rfl⟩
    rw [hm]
    exact .again m.kernel [] [] ⟨5⟩ ⟨1⟩ ⟨2⟩ _
  have hb : m.kernel.BadPlace ⟨1⟩ ⟨16⟩ := ⟨by decide, _, rfl, by decide⟩
  obtain ⟨hlaw, hfails, hlost⟩ := status_kept_iff hsteps hj
  exact ⟨(hfails hb).mpr (.inr ⟨_, hd⟩), (hlost _ hd hb).1, fun hkept => hlaw.mp hkept _ hd hb⟩

end Machine

end Nucleus
