import Nucleus.Proofs.Consistency
import Nucleus.Proofs.Slots

/-!
# References and descriptors in balance

The registry accounts for the files that the descriptors of all running processes refer to, whatever calls were made and whatever
operations wait. So no reference is lost and none is given back too early, and no handle that is given back is ever unknown. Only
dropping the processes without halting would upset it, which no call to the kernel does.
-/

namespace Nucleus

open Records World

namespace Kernel

/-- The registry accounts for the files of the running processes. -/
structure Balanced {μ κ : Type} (k : Kernel μ κ) : Prop where
  /-- New tables have no more slots than there are descriptor numbers. -/
  limited : k.settings.slots ≤ UInt32.size
  /-- Nor has any table of a running process. -/
  narrow : ∀ pid process, k.processes.live pid = .ok process → process.descriptors.slots.length ≤ UInt32.size
  /-- The files of all running processes are accounted for. -/
  accounts : k.registry.Accounts (files k.processes.records)
  /-- No handle that was given back was refused. -/
  honoured : ∀ effect ∈ k.world.effects, effect.isRefusedRelease = false

variable {μ κ : Type} {k k' : Kernel μ κ}

/-- An ordinary effect is no refusal. -/
theorem not_isRefusedRelease_of_isOrdinary (effect : Effect) (h : effect.isOrdinary = true) :
    effect.isRefusedRelease = false := by
  simp only [Effect.isOrdinary, Bool.and_eq_true, Bool.not_eq_true'] at h
  exact h.2

/-- After ordinary effects still no handle was refused. -/
theorem Balanced.honoured_of_adds (hb : k.Balanced) {w : World μ κ} (hw : k.world.Adds Effect.isOrdinary w) :
    ∀ effect ∈ w.effects, effect.isRefusedRelease = false :=
  hw.forall hb.honoured not_isRefusedRelease_of_isOrdinary

/-- Plain effects keep the balance. -/
theorem Balanced.world (hb : k.Balanced) {world : World μ κ} (hw : k.world.Adds Effect.isPlain world) :
    Balanced { k with world } :=
  ⟨hb.limited, hb.narrow, hb.accounts, hb.honoured_of_adds hw.ordinary⟩

/-- The files of a running process and those of all others are accounted for together. -/
theorem Balanced.accounts_live (hb : k.Balanced) {pid : Pid} {process : Process} (hl : k.processes.live pid = .ok process) :
    k.registry.Accounts (process.descriptors.files ++ files (k.processes.records.erase pid)) :=
  hb.accounts.perm (ProcessTable.files_of_live hl)

/-- A running process may get another table of as many slots, as long as its files are accounted for. -/
theorem Balanced.putLive (hb : k.Balanced) {pid : Pid} {process : Process} (hl : k.processes.live pid = .ok process)
    (process' : Process) (hlen : process'.descriptors.slots.length = process.descriptors.slots.length) {registry : Registry}
    {world : World μ κ}
    (ha : registry.Accounts (process'.descriptors.files ++ files (k.processes.records.erase pid)))
    (hw : k.world.Adds Effect.isPlain world) : ((k.withFiles registry world).putLive pid process').Balanced := by
  refine ⟨hb.limited, ?_, ha.perm (ProcessTable.files_putLive process' hl).symm, hb.honoured_of_adds hw.ordinary⟩
  intro other owned ho
  rcases ProcessTable.live_putLive hl ho with rfl | ho
  · rw [hlen]
    exact hb.narrow pid process hl
  · exact hb.narrow other owned ho

/-- A new table has no more slots than there are descriptor numbers. -/
theorem length_create_le {slots : Nat} (h : slots ≤ UInt32.size) : (Descriptors.create slots).slots.length ≤ UInt32.size := by
  have hs : UInt32.size = 4294967296 := rfl
  simp only [Descriptors.create, List.length_cons, List.length_replicate, firstFileSlot]
  omega

/-- An enrolment keeps the balance. -/
theorem Balanced.enrol (hb : k.Balanced) (ho : k.Orderly) {parent : Option Pid} {program : String} {image : ProgramImage}
    {pid : Pid} {processes : ProcessTable} (h : k.processes.enrol parent program image k.settings.slots = .ok (pid, processes))
    (info : StartInfo) :
    Balanced { k with processes, world := (k.world.note (.spawned pid program parent)).emit (.started pid info) } := by
  refine ⟨hb.limited, ?_, hb.accounts.perm (ProcessTable.files_enrol h ho.1.free).symm, ?_⟩
  · intro other owned hl
    rcases ProcessTable.live_enrol h hl with rfl | hl
    · exact length_create_le hb.limited
    · exact hb.narrow other owned hl
  · intro effect he
    rw [effects_emit, effects_note, List.mem_append, List.mem_append, List.mem_singleton, List.mem_singleton] at he
    rcases he with (he | rfl) | rfl
    · exact hb.honoured effect he
    · rfl
    · rfl

/-- Halting keeps the balance: neither a reference nor a process is left. -/
theorem Balanced.shutDown (hb : k.Balanced) : k.shutDown.Balanced := by
  have hw : k.world.Adds Effect.isOrdinary k.shutDown.world := adds_shutDown k
  have hh := hb.honoured_of_adds hw
  unfold Kernel.shutDown at hh ⊢
  split
  · exact hb
  · rename_i hn
    rw [if_neg hn] at hh
    exact ⟨hb.limited, fun _ _ hl => absurd hl (ProcessTable.not_live_of_no_records rfl), Registry.accounts_empty, hh⟩

variable [Medium μ] [Console κ] {powers : Power → Prop}

omit [Console κ] in
/-- The end of a process keeps the balance: the references that its descriptors held are given back, and none is refused. -/
theorem Balanced.afterEnd (hb : k.Balanced) {pid : Pid} {record : Record} {process : Process}
    (hr : k.processes.record? pid = some record) (hp : record.process? = some process) (status : ExitStatus) :
    (k.afterEnd pid record process status).Balanced := by
  have hl : k.processes.live pid = .ok process := ProcessTable.live_eq_ok_iff.mpr ⟨record, hr, hp⟩
  obtain ⟨ha, hw⟩ := (hb.accounts_live hl).releaseAll k.world
  refine ⟨hb.limited, ?_, ha.perm (ProcessTable.files_retire k.processes pid record status).symm, ?_⟩
  · exact fun other owned hl => hb.narrow other owned (ProcessTable.live_retire k.processes pid record status hl)
  · exact hb.honoured_of_adds (adds_afterEnd (fun _ h => h) k pid record process status hw.ordinary)

/-- Every move keeps the balance, as long as no call drops the processes. -/
theorem balanced_of_move (hd : ¬powers .drop) (h : Move powers k k') (ho : k.Orderly) (hb : k.Balanced) : k'.Balanced := by
  cases h with
  | note event he => exact hb.world ((Adds.refl k.world).note event he)
  | asleep thread hp => exact ⟨hb.limited, hb.narrow, hb.accounts, hb.honoured_of_adds (adds_emit _ (.blocked thread) rfl)⟩
  | awake thread hp => exact ⟨hb.limited, hb.narrow, hb.accounts, hb.honoured⟩
  | enrolled hp info he => exact hb.enrol ho he info
  | @reaped caller child status records hp hr =>
    have hw : k.world.Adds Effect.isOrdinary (k.world.note (.reaped caller child status)) := (Adds.refl _).note _ rfl
    refine ⟨hb.limited, ?_, hb.accounts.perm (ProcessTable.reap_counts hr).2.symm, hb.honoured_of_adds hw⟩
    exact fun other owned hl => hb.narrow other owned (ProcessTable.live_reap hr hl)
  | @memory pid process hl memory =>
    have ha := hb.accounts_live hl
    exact hb.putLive hl { process with memory } rfl ha (.refl k.world)
  | @opened pid process name mode fd descriptors registry world hp hl hopen =>
    have hw := process.descriptors.adds_openFile k.registry k.world name mode
    obtain ⟨ha, hlen⟩ := Descriptors.accounts_openFile (hb.accounts_live hl) hopen (hb.narrow pid process hl)
    exact hb.putLive hl _ hlen ha (hw.trd hopen)
  | @notOpened descriptors name mode e registry world hp hopen =>
    have hw := descriptors.adds_openFile k.registry k.world name mode
    rw [Descriptors.registry_of_openFile_error hopen]
    exact hb.world (hw.trd hopen)
  | @closed pid process fd descriptors registry world hp hl hc =>
    obtain ⟨ha, hlen, hw⟩ := Descriptors.accounts_close (hb.accounts_live hl) hc
    exact hb.putLive hl _ hlen ha hw
  | unlinked name hp =>
    have hw := Registry.adds_unlink k.registry k.world name
    exact ⟨hb.limited, hb.narrow, hb.accounts.unlink k.world name, hb.honoured_of_adds hw.ordinary⟩
  | @read pid process fd count deliver bytes memory descriptors world hpow hl hr =>
    have hw := process.descriptors.adds_readWith k.world fd count deliver
    obtain ⟨hp, hlen⟩ := Descriptors.files_readWith hr
    exact hb.putLive hl _ hlen ((hb.accounts_live hl).perm (hp.symm.append_right _)) (hw.snd hr)
  | @notRead descriptors fd count deliver e world hp hr =>
    have hw := descriptors.adds_readWith k.world fd count deliver
    exact hb.world (hw.snd hr)
  | @written pid process fd data count descriptors world hpow hl hwr =>
    have hw := process.descriptors.adds_write k.world fd data
    obtain ⟨hp, hlen⟩ := Descriptors.files_write hwr
    exact hb.putLive hl _ hlen ((hb.accounts_live hl).perm (hp.symm.append_right _)) (hw.snd hwr)
  | @notWritten descriptors fd data e world hp hwr =>
    have hw := descriptors.adds_write k.world fd data
    exact hb.world (hw.snd hwr)
  | ended pid status hpow =>
    rcases endProcess_cases k pid status with he | ⟨record, process, hr, hp, he⟩
    · rw [he]
      exact hb
    · rw [he]
      exact hb.afterEnd hr hp status
  | shutDown hp => exact hb.shutDown
  | dropped hp => exact absurd hp hd

end Kernel

namespace Machine

variable {μ κ : Type} [Medium μ] [Console κ] {allowed : Call → Prop} {settings : Settings} {m : Machine μ κ}

/-- Every kernel that a run reaches is in balance, as long as no call drops the processes and the numbers last. -/
theorem Reached.balanced (hd : ¬allowed .dropProcesses) (h : Reached allowed settings m) (hslots : settings.slots ≤ UInt32.size)
    (hs : m.kernel.world.starts < UInt32.size - 1) : m.kernel.Balanced := by
  have hkeep : m.kernel.Orderly ∧ m.kernel.Balanced := by
    refine h.keeps (P := fun k => k.Orderly ∧ k.Balanced) hs ?_ ?_
    · intro medium console
      refine ⟨⟨ProcessTable.forest_of_no_records rfl rfl, rfl⟩, hslots, ?_, Registry.accounts_empty, ?_⟩
      · exact fun _ _ hl => absurd hl (ProcessTable.not_live_of_no_records rfl)
      · exact fun _ he => absurd he List.not_mem_nil
    · intro k k' hm hs' hk
      exact ⟨Kernel.orderly_of_move hm hs' hk.1, Kernel.balanced_of_move hd hm hk.1 hk.2⟩
  exact hkeep.2

/-- In every state that a run of calls to the kernel reaches, the references that the registry counts for a name are the
descriptors of running processes that refer to a file of that name, and a name to which none refers is not registered. All these
descriptors refer to the file that is registered, and no handle that was ever given back was unknown or out of date. The tables
must not be larger than there are descriptor numbers, and the process numbers must last. -/
theorem reached_references (h : Reached (fun c => c.isKernelCall = true) settings m) (hslots : settings.slots ≤ UInt32.size)
    (hs : m.kernel.world.starts < UInt32.size - 1) :
    (∀ name count, m.kernel.registry.refCount? name = some count ↔
      1 ≤ count ∧ count = Registry.uses (files m.kernel.processes.records) name) ∧
    (∀ name, m.kernel.registry.refCount? name = none ↔ Registry.uses (files m.kernel.processes.records) name = 0) ∧
    (∀ pid process file, m.kernel.processes.live pid = .ok process → file ∈ process.descriptors.files →
      (m.kernel.registry.find? file.name).map Entry.file = some file) ∧
    ∀ name, Effect.notice (.releasedUnregistered name) ∉ m.kernel.world.effects ∧
      Effect.notice (.staleHandle name) ∉ m.kernel.world.effects := by
  have hb : m.kernel.Balanced := h.balanced Bool.false_ne_true hslots hs
  refine ⟨?_, ?_, ?_, ?_⟩
  · intro name count
    rw [hb.accounts.refCount?_eq]
    split
    · constructor
      · intro hnone
        cases hnone
      · rintro ⟨hpos, rfl⟩
        omega
    · rw [Option.some.injEq]
      omega
  · intro name
    rw [hb.accounts.refCount?_eq]
    split <;> simp [*]
  · intro pid process file hl hm
    obtain ⟨entry, hf, he⟩ := (hb.accounts_live hl).shared (List.mem_append_left _ hm)
    rw [hf, Option.map_some, he]
  · intro name
    constructor <;> intro hm <;> simpa [Effect.isRefusedRelease] using hb.honoured _ hm

/-- A program opens one name twice. -/
def twice : List Turn :=
  started (.boot "init" []) ++ [.call ⟨0⟩ (.systemCall ⟨1⟩ 4 ⟨1, 0, 0, 0⟩), .call ⟨0⟩ (.systemCall ⟨1⟩ 5 ⟨1, 0, 0, 0⟩)]

/-- Then two references to the name are counted, since two descriptors refer to it. -/
theorem twice_references :
    let k := ((start {} (RamDisk.empty none) Silent.mk).play twice).kernel
    k.registry.refCount? "" = some 2 ∧
      (k.registry.refCount? "" = some 2 ↔ 1 ≤ 2 ∧ 2 = Registry.uses (files k.processes.records) "") :=
  ⟨by decide, (reached_references (reached_play _ _ _ twice (by decide)) (by decide) (by decide)).1 "" 2⟩

end Machine

end Nucleus
