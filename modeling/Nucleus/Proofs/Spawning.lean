import Nucleus.Proofs.Wakeups
import Nucleus.Proofs.Forest
import Nucleus.Proofs.Scripts
import Nucleus.Device.RamDisk

/-!
# A spawn is all or nothing

Between the call that spawns and the loader's answer anything may happen: the parent may end, other processes may be spawned, all of
them may be dropped. When the answer comes, the spawn either fails and leaves the table as it stands then, or it enters the new
process in one go, with a number above all that were ever given out, as a child of a parent that runs at that moment, and only then
is the scheduler told to start it, once and never again. The numbers given out are just those from one on, in order
(`Kernel.Numbered`).
-/

namespace Nucleus

/-- The process that the scheduler is told to run, if it is told so. -/
def Effect.started? : Effect → Option Pid
  | .started pid _ => some pid
  | _ => none

/-- The numbers that were given out to processes, the first one first. -/
def World.handedOut {μ κ : Type} (w : World μ κ) : List Pid := w.effects.filterMap Effect.started?

/-- No number is given out by a report. -/
@[simp] theorem World.handedOut_note {μ κ : Type} (w : World μ κ) (event : Notice) : (w.note event).handedOut = w.handedOut := by
  rw [handedOut, handedOut, effects_note, List.filterMap_append]
  exact List.append_nil _

/-- One is when the scheduler is told to run a process. -/
@[simp] theorem World.handedOut_started {μ κ : Type} (w : World μ κ) (pid : Pid) (info : StartInfo) :
    (w.emit (.started pid info)).handedOut = w.handedOut ++ [pid] := by
  rw [handedOut, handedOut, effects_emit, List.filterMap_append]
  rfl

/-- The process that comes after so many others. -/
def Pid.nth (n : Nat) : Pid := ⟨UInt32.ofNat (n + 1)⟩

/-- As long as the numbers last, they count. -/
theorem Pid.toNat_nth {n : Nat} (h : n < UInt32.size - 1) : (Pid.nth n).raw.toNat = n + 1 :=
  UInt32.toNat_ofNat_of_lt' (by omega)

/-- No number is given out twice before all have been. -/
theorem Pid.nth_inj {n n' : Nat} (h : n < UInt32.size) (h' : n' < UInt32.size) (he : Pid.nth n = Pid.nth n') : n = n' := by
  have hw : UInt32.ofNat (n + 1) = UInt32.ofNat (n' + 1) := congrArg Pid.raw he
  have hn : (n + 1) % 2 ^ 32 = (n' + 1) % 2 ^ 32 := by
    have := congrArg UInt32.toNat hw
    simpa only [UInt32.toNat_ofNat'] using this
  rw [UInt32.size] at h h'
  omega

/-- As many numbers were given out as processes were started. -/
theorem length_filterMap_started? (effects : List Effect) :
    (effects.filterMap Effect.started?).length = effects.countP Effect.isStart := by
  induction effects with
  | nil => rfl
  | cons effect rest ih =>
    cases effect with
    | started pid info =>
      have hs : Effect.started? (.started pid info) = some pid := rfl
      rw [List.filterMap_cons_some hs, List.countP_cons_of_pos rfl, List.length_cons, ih]
    | _ => rw [List.filterMap_cons_none rfl, List.countP_cons_of_neg Bool.false_ne_true, ih]

/-- A table of descriptors in which nothing was opened or moved yet: the console, from its beginning, and free slots. -/
structure Descriptors.Fresh (t : Descriptors) (capacity : Nat) : Prop where
  /-- The first slot reads from the console. -/
  input : t.slots[0]? = some (some ⟨.consoleIn, 0⟩)
  /-- The second one writes to it. -/
  output : t.slots[1]? = some (some ⟨.consoleOut, 0⟩)
  /-- All others are free. -/
  free : ∀ slot, 2 ≤ slot → slot < t.slots.length → t.slots[slot]? = some none
  /-- There are as many as were asked for, but at least these two. -/
  length : t.slots.length = max capacity 2

/-- The table that a process begins with is one. -/
theorem Descriptors.fresh_create (capacity : Nat) : (create capacity).Fresh capacity := by
  have hlength : (create capacity).slots.length = max capacity 2 := by
    simp only [create, firstFileSlot, List.length_cons, List.length_replicate]
    omega
  refine ⟨rfl, rfl, fun slot hslot hlt => ?_, hlength⟩
  obtain ⟨n, rfl⟩ := Nat.exists_eq_add_of_le' hslot
  have hn : n < capacity - firstFileSlot := by
    rw [hlength] at hlt
    simp only [firstFileSlot]
    omega
  rw [create, List.getElem?_cons_succ, List.getElem?_cons_succ, List.getElem?_replicate, if_pos hn]

namespace ProcessTable

variable {powers : Power → Prop} {t t' : ProcessTable} {more : List Effect}

/-- A change gives out the next number, or none. -/
theorem Change.handedOut (h : Change powers t more t') :
    more.filterMap Effect.started? = List.replicate (more.countP Effect.isStart) ⟨t.next⟩ := by
  rw [List.eq_replicate_iff]
  refine ⟨length_filterMap_started? more, fun pid hm => ?_⟩
  obtain ⟨effect, he, hs⟩ := List.mem_filterMap.mp hm
  cases effect with
  | started other info =>
    cases hs
    exact (h.of_started he).1
  | _ => cases hs

/-- A loaded program is entered exactly if its parent runs, if it has one; the new process gets the next number. -/
theorem enrol_cases (t : ProcessTable) (parent : Option Pid) (program : String) (image : ProgramImage) (slots : Nat) :
    (∃ p, parent = some p ∧ t.isRunning p = false ∧ t.enrol parent program image slots = .error .noSuchProcess) ∨
      (∀ p, parent = some p → t.isRunning p = true) ∧ ∃ t', t.enrol parent program image slots = .ok (⟨t.next⟩, t') := by
  unfold enrol
  split
  · rename_i hp
    rw [Option.any_eq_true] at hp
    obtain ⟨p, hsome, hrun⟩ := hp
    exact .inl ⟨p, hsome, by simpa using hrun, rfl⟩
  · rename_i hp
    refine .inr ⟨?_, _, rfl⟩
    rintro p rfl
    simpa using hp

end ProcessTable

namespace Kernel

open ProcessTable

variable {μ κ : Type} {k k' : Kernel μ κ} {powers : Power → Prop}

/-- The numbers given out are those from one on, and the next one comes after them. -/
structure Numbered (k : Kernel μ κ) : Prop where
  /-- The numbers. -/
  handedOut : k.world.handedOut = (List.range k.world.starts).map Pid.nth
  /-- The next one. -/
  next : (⟨k.processes.next⟩ : Pid) = Pid.nth k.world.starts

/-- Every change gives the numbers out in order. -/
theorem Numbered.changed (hn : k.Numbered) (h : Changed powers k k') : k'.Numbered := by
  obtain ⟨more, he, hc⟩ := h
  have hstarts := starts_append he
  have hout : k'.world.handedOut = k.world.handedOut ++ List.replicate (more.countP Effect.isStart) ⟨k.processes.next⟩ := by
    rw [World.handedOut, he, List.filterMap_append, hc.handedOut, World.handedOut]
  rcases hc.starts with ⟨h0, hnext⟩ | ⟨h1, hnext, -⟩
  · rw [h0] at hout hstarts
    refine ⟨?_, ?_⟩
    · rw [hout, hstarts, hn.handedOut, List.replicate_zero, List.append_nil, Nat.add_zero]
    · rw [hnext, hstarts, hn.next, Nat.add_zero]
  · rw [h1] at hout hstarts
    refine ⟨?_, ?_⟩
    · rw [hout, hstarts, hn.handedOut, hn.next, List.range_succ, List.map_append]
      rfl
    · have hold : k.processes.next = UInt32.ofNat (k.world.starts + 1) := congrArg Pid.raw hn.next
      rw [hnext, hstarts, hold, Pid.nth, UInt32.ofNat_add (k.world.starts + 1) 1]
      rfl

/-- So does any number of changes. -/
theorem Numbered.changes (hn : k.Numbered) (h : Changes powers k k') : k'.Numbered := by
  induction h with
  | refl => exact hn
  | tail _ hc ih => exact ih.changed hc

/-- The next number is above all that were given out, as long as the numbers last. -/
theorem Numbered.lt_next (hn : k.Numbered) (hs : k.world.starts < UInt32.size - 1) {pid : Pid} (hm : pid ∈ k.world.handedOut) :
    pid.raw.toNat < k.processes.next.toNat := by
  rw [hn.handedOut, List.mem_map] at hm
  obtain ⟨n, hrange, rfl⟩ := hm
  have hlt : n < k.world.starts := List.mem_range.mp hrange
  have hnext : k.processes.next.toNat = k.world.starts + 1 := by
    rw [show k.processes.next = (Pid.nth k.world.starts).raw from congrArg Pid.raw hn.next, Pid.toNat_nth hs]
  rw [Pid.toNat_nth (by omega), hnext]
  omega

/-- Whoever is started is started once, as long as the numbers last. -/
theorem Numbered.count_eq_one (hn : k.Numbered) (hs : k.world.starts < UInt32.size) {pid : Pid} (hm : pid ∈ k.world.handedOut) :
    k.world.handedOut.count pid = 1 := by
  refine List.count_eq_one_of_mem ?_ hm
  rw [hn.handedOut]
  refine List.Nodup.map_on ?_ List.nodup_range
  intro n hr n' hr' he
  have hlt := List.mem_range.mp hr
  have hlt' := List.mem_range.mp hr'
  exact Pid.nth_inj (by omega) (by omega) he

end Kernel

namespace Machine

open ProcessTable

variable {μ κ : Type} [Medium μ] [Console κ] {allowed : Call → Prop} {settings : Settings} {m m' : Machine μ κ}

/-- The numbers are given out in order in every run. -/
theorem Reached.numbered (h : Reached allowed settings m) : m.kernel.Numbered := by
  obtain ⟨medium, console, hl⟩ := h
  have hstart : (Kernel.create settings medium console : Kernel μ κ).Numbered := ⟨rfl, rfl⟩
  exact hstart.changes (Kernel.changes_of_moves (moves_of_leads hl))

/-- The settings are those that the machine was made with. -/
theorem Reached.settings_eq (h : Reached allowed settings m) (hs : m.kernel.world.starts < UInt32.size - 1) :
    m.kernel.settings = settings :=
  h.keeps hs (fun _ _ => rfl) fun _ _ hm _ hk => (Kernel.settings_of_move hm).trans hk

/-- What was given out stays so. -/
theorem mem_handedOut_of_leads (h : Leads allowed m m') {pid : Pid} (hm : pid ∈ m.kernel.world.handedOut) :
    pid ∈ m'.kernel.world.handedOut := by
  obtain ⟨more, he, -⟩ := (Kernel.changes_of_moves (moves_of_leads h)).exists_append
  rw [World.handedOut, he, List.filterMap_append]
  exact List.mem_append_left _ hm

/-- A spawn fails: its answer leaves the process table as it stood, and nobody is started. -/
structure Fails (m : Machine μ κ) (waiting : List Suspended) (r : Machine μ κ × Option Outcome) : Prop where
  /-- The outcome is an error. -/
  outcome : ∃ e, r.2 = some (.created (.error e))
  /-- Nothing of the process table has changed. -/
  processes : r.1.kernel.processes = m.kernel.processes
  /-- Nobody was started. -/
  handedOut : r.1.kernel.world.handedOut = m.kernel.world.handedOut
  /-- What waited besides waits. -/
  waiting : r.1.waiting = waiting

/-- A spawn succeeds: its answer enters a new process. -/
structure Enters (settings : Settings) (parent : Option Pid) (program : String) (m : Machine μ κ) (waiting : List Suspended)
    (r : Machine μ κ × Option Outcome) (image : ProgramImage) (pid : Pid) : Prop where
  /-- The number is above all that were given out. -/
  fresh : ∀ earlier ∈ m.kernel.world.handedOut, earlier.raw.toNat < pid.raw.toNat
  /-- The process was not there before. -/
  absent : m.kernel.processes.record? pid = none
  /-- It is there now and runs, with a fresh table of descriptors and the memory that was loaded. -/
  record : r.1.kernel.processes.record? pid = some (newcomer parent program image settings.slots)
  /-- It owns the console in its first two slots, and nothing else is open. -/
  descriptors : ∃ process, r.1.kernel.processes.live pid = .ok process ∧ process.descriptors.Fresh settings.slots
  /-- The parent runs, and has the process as its child. -/
  listed : ∀ p, parent = some p → m.kernel.processes.isRunning p = true ∧ r.1.kernel.processes.isChild p pid = true
  /-- Every other process is as it was, but that the parent has one child more. -/
  others : ∀ other, other ≠ pid → r.1.kernel.processes.record? other =
    if parent = some other then
      (m.kernel.processes.record? other).map fun record => { record with children := record.children.insert pid }
    else m.kernel.processes.record? other
  /-- One process more is counted. -/
  counted : r.1.kernel.processes.running = m.kernel.processes.running + 1
  /-- The scheduler is told to start it, which is the last thing done. -/
  started : r.1.kernel.world.effects = m.kernel.world.effects ++ [.notice (.spawned pid program parent),
    .started pid ⟨program, image.entry, image.stack, image.argc, image.argv⟩]
  /-- The spawn waits for that. -/
  waits : r.2 = none ∧ r.1.waiting = .starting pid .outcome :: waiting
  /-- It is never told so again. -/
  once : ∀ m', Leads (fun _ => True) r.1 m' → m'.kernel.world.starts < UInt32.size → m'.kernel.world.handedOut.count pid = 1
  /-- When the scheduler has done it, the number is the outcome. -/
  outcome : ∀ (k : Kernel μ κ) (others : List Suspended),
    settle others (k.resume (.starting pid .outcome) ()) = (⟨k, others⟩, some (.created (.ok pid)))

variable {before after : List Suspended} {parent : Option Pid} {program : String} {args : List String}

omit [Medium μ] [Console κ] in
/-- The answer to a spawn whose program cannot be loaded, or whose parent does not run, is a failure. -/
theorem fails_of_answer (m : Machine μ κ) (waiting : List Suspended) {image : Except LoadError ProgramImage}
    (hbad : (∃ cause, image = .error cause) ∨ ∃ p, parent = some p ∧ m.kernel.processes.isRunning p = false) :
    Fails m waiting (settle waiting (m.kernel.resume (.loading parent program args .outcome) image)) := by
  cases image with
  | error cause =>
    exact ⟨⟨.load cause, rfl⟩, rfl, World.handedOut_note .., rfl⟩
  | ok loaded =>
    obtain ⟨p, hp, hrun⟩ : ∃ p, parent = some p ∧ m.kernel.processes.isRunning p = false := by
      rcases hbad with ⟨cause, he⟩ | hp
      · cases he
      · exact hp
    have he : m.kernel.processes.enrol parent program loaded m.kernel.settings.slots = .error .noSuchProcess := by
      rcases m.kernel.processes.enrol_cases parent program loaded m.kernel.settings.slots with ⟨-, -, -, he⟩ | ⟨hall, -⟩
      · exact he
      · exact absurd (hrun.symm.trans (hall p hp)) Bool.false_ne_true
    simp only [Kernel.resume, Kernel.enrol, he]
    exact ⟨⟨.noSuchProcess, rfl⟩, rfl, rfl, rfl⟩

/-- The answer to a spawn whose program was loaded, and whose parent runs, enters the process. -/
theorem enters_of_answer (h : Reached (fun _ => True) settings m) (hs : m.kernel.world.starts < UInt32.size - 1)
    (waiting : List Suspended) (loaded : ProgramImage) (hrun : ∀ p, parent = some p → m.kernel.processes.isRunning p = true) :
    Enters settings parent program m waiting
      (settle waiting (m.kernel.resume (.loading parent program args .outcome) (.ok loaded))) loaded ⟨m.kernel.processes.next⟩ := by
  have hf : m.kernel.processes.Forest := (h.orderly hs).1
  obtain ⟨t', he⟩ : ∃ t', m.kernel.processes.enrol parent program loaded m.kernel.settings.slots =
      .ok (⟨m.kernel.processes.next⟩, t') := by
    rcases m.kernel.processes.enrol_cases parent program loaded m.kernel.settings.slots with ⟨p, hp, hnot, -⟩ | ⟨-, he⟩
    · exact absurd (hnot.symm.trans (hrun p hp)) Bool.false_ne_true
    · exact he
  have hmoves : Kernel.Moves (fun _ => True) m.kernel
      (m.kernel.resume (.loading parent program args .outcome) (.ok loaded)).kernel :=
    Kernel.moves_resume m.kernel _ _ (fun _ => trivial) fun _ _ => ⟨trivial, trivial⟩
  have hnumbered : ∀ m', Leads (fun _ => True)
      (settle waiting (m.kernel.resume (.loading parent program args .outcome) (.ok loaded))).1 m' → m'.kernel.Numbered := by
    intro m' hl
    have hl' := moves_of_leads hl
    rw [kernel_settle] at hl'
    exact (h.numbered.changes (Kernel.changes_of_moves hmoves)).changes (Kernel.changes_of_moves hl')
  rw [h.settings_eq hs] at he
  simp only [Kernel.resume, Kernel.enrol, h.settings_eq hs, he] at hnumbered ⊢
  have hrecord : t'.record? ⟨m.kernel.processes.next⟩ = some (newcomer parent program loaded settings.slots) :=
    (record?_enrol he hf.free _).trans (if_pos rfl)
  refine ⟨fun earlier hm => h.numbered.lt_next hs hm, hf.free, hrecord, ?_, fun p hp => ⟨hrun p hp, ?_⟩, fun other hne => ?_,
    (enrol_ok he).2.2.1, by simp [settle], ⟨rfl, rfl⟩, ?_, fun _ _ => rfl⟩
  · exact ⟨_, live_eq_ok_iff.mpr ⟨_, hrecord, rfl⟩, Descriptors.fresh_create settings.slots⟩
  · obtain ⟨record, hr, -⟩ := isRunning_eq_true_iff.mp (hrun p hp)
    obtain ⟨record', hr', -, -, -, hlisted⟩ := hf.kept_enrol he hr
    exact isChild_eq_true_iff.mpr ⟨record', hr', hlisted hp⟩
  · exact (record?_enrol he hf.free other).trans (if_neg hne)
  · intro m' hl hs'
    refine (hnumbered m' hl).count_eq_one hs' (mem_handedOut_of_leads hl ?_)
    simp [settle]

/-- Whatever happens between the call of a spawn and the loader's answer: if the program cannot be loaded, or the parent does not run
any more, the spawn fails and leaves everything as it stands then; otherwise it enters the new process. -/
theorem spawn_all_or_nothing {m₀ : Machine μ κ} (h₀ : Reached (fun _ => True) settings m₀) (thread : ThreadId)
    (h : Leads (fun _ => True) (m₀.call thread (.spawn parent program args)).1 m)
    (hw : m.waiting = before ++ .loading parent program args .outcome :: after)
    (hs : m.kernel.world.starts < UInt32.size - 1) (image : Except LoadError ProgramImage) :
    let r := settle (before ++ after) (m.kernel.resume (.loading parent program args .outcome) image)
    Step (fun _ => True) m r ∧
    (((∃ cause, image = .error cause) ∨ ∃ p, parent = some p ∧ m.kernel.processes.isRunning p = false) →
      Fails m (before ++ after) r) ∧
    (∀ loaded, image = .ok loaded → (∀ p, parent = some p → m.kernel.processes.isRunning p = true) →
      ∃ pid, Enters settings parent program m (before ++ after) r loaded pid) := by
  intro r
  have hm : Reached (fun _ => True) settings m := by
    obtain ⟨medium, console, hl⟩ := h₀
    exact ⟨medium, console, (hl.step (.call m₀ thread _ trivial)).trans h⟩
  refine ⟨?_, fun hbad => fails_of_answer m (before ++ after) hbad, ?_⟩
  · have hstep : Step (fun _ => True) ⟨m.kernel, before ++ .loading parent program args .outcome :: after⟩ r :=
      .answer m.kernel before after (.loading parent program args .outcome) image
    rw [← hw] at hstep
    exact hstep
  · rintro loaded rfl hrun
    exact ⟨_, enters_of_answer hm hs (before ++ after) loaded hrun⟩

/-- The loader is asked for a child of the first program. -/
def expecting : Machine RamDisk Silent :=
  (((start {} (RamDisk.empty none) Silent.mk).play (started (.boot "first" []))).call ⟨0⟩ (.spawn (some ⟨1⟩) "second" [])).1

/-- While it loads the child, another program is booted; the child enters after that, with the number above. -/
theorem nested_spawn :
    let m := expecting.play (started (.boot "third" []))
    let loaded : ProgramImage := ⟨.blank 1, 0, .ofNat 0, 0, .ofNat 0⟩
    let r := settle [] (m.kernel.resume (.loading (some ⟨1⟩) "second" [] .outcome) (.ok loaded))
    (m.waiting = [.loading (some ⟨1⟩) "second" [] .outcome] ∧ m.kernel.world.handedOut = [⟨1⟩, ⟨2⟩] ∧
      r.1.kernel.world.handedOut = [⟨1⟩, ⟨2⟩, ⟨3⟩]) ∧
    ∃ pid, Enters {} (some ⟨1⟩) "second" m [] r loaded pid := by
  have hreached : Reached (fun _ => True) {} ((start {} (RamDisk.empty none) Silent.mk).play (started (.boot "first" []))) :=
    reached_play {} (RamDisk.empty none) Silent.mk (started (.boot "first" [])) (by decide)
  have hmeanwhile : Leads (fun _ => True) expecting (expecting.play (started (.boot "third" []))) :=
    leads_iff_exists_play.mpr ⟨started (.boot "third" []), by decide, rfl⟩
  have hwaits : (expecting.play (started (.boot "third" []))).waiting =
      [] ++ .loading (some ⟨1⟩) "second" [] .outcome :: [] := by decide
  have hrun : ∀ p, some (⟨1⟩ : Pid) = some p →
      (expecting.play (started (.boot "third" []))).kernel.processes.isRunning p = true := by
    rintro p ⟨⟩
    decide
  exact ⟨by decide, (spawn_all_or_nothing hreached ⟨0⟩ hmeanwhile hwaits (by decide) _).2.2 _ rfl hrun⟩

end Machine

end Nucleus
