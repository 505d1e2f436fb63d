import Nucleus.Proofs.Halt
import Nucleus.Proofs.SharedFiles

/-!
# The open files of the processes

All processes of a kernel share one registry over a medium in memory, which nobody else uses. Whatever calls are made, of the kernel
or of the tables behind it, however many programs are started and however large the descriptor tables are, the file that a
descriptor refers to is the one that is registered under its name, and the name leads to its object (`Sound.names`). After the halt
no descriptor refers to a file (`Machine.closed_of_halted`).
-/

namespace Nucleus

open Records

namespace ProcessTable

variable {t t' : ProcessTable} {parent : Option Pid} {program : String} {image : ProgramImage} {slots : Nat} {pid : Pid}

/-- A process that is enrolled has no file open. If its number was not free, the files of the process that had it are open without
a descriptor that refers to them. -/
theorem exists_files_enrol (h : t.enrol parent program image slots = .ok (pid, t')) :
    ∃ lost, (files t.records).Perm (files t'.records ++ lost) := by
  obtain ⟨-, -, -, -, hr⟩ := enrol_ok h
  have hnew : (files (t.records.insert ⟨t.next⟩ (newcomer parent program image slots))).Perm
      (files (t.records.erase ⟨t.next⟩)) := by
    have hp := files_insert t.records ⟨t.next⟩ (newcomer parent program image slots)
    have hf : (newcomer parent program image slots).files = [] := files_create slots
    rwa [hf, List.nil_append] at hp
  have hafter : (files t'.records).Perm (files (t.records.erase ⟨t.next⟩)) := by
    rw [hr]
    cases parent with
    | none => exact hnew
    | some p => exact (adopt_counts _ p _).2.trans hnew
  cases hold : t.records[(⟨t.next⟩ : Pid)]? with
  | none =>
    rw [erase_of_getElem?_eq_none hold] at hafter
    refine ⟨[], ?_⟩
    rw [List.append_nil]
    exact hafter.symm
  | some record =>
    refine ⟨record.files, (files_of_getElem? hold).trans ?_⟩
    exact List.perm_append_comm.trans (hafter.symm.append_right record.files)

/-- Where there are no records there are no files. -/
theorem files_of_no_records (h : t.records = ∅) : files t.records = [] := by
  rw [h]
  rfl

end ProcessTable

namespace Kernel

variable {κ : Type} {k k' : Kernel RamDisk κ}

/-- The registry is in step with the medium and accounts for what the descriptors of the running processes refer to, besides handles
that got lost. -/
structure Sound (k : Kernel RamDisk κ) : Prop where
  /-- Registered names are on the medium, and lead to objects of their own. -/
  settled : k.registry.Settled k.world.medium
  /-- The files of all descriptors are accounted for, with others. -/
  accounts : ∃ lost, k.registry.Accounts (files k.processes.records ++ lost)

/-- Before the first call nothing is registered, and nobody refers to a file. -/
theorem sound_create {medium : RamDisk} (hw : medium.Whole) (hs : medium.Separate) (settings : Settings) (console : κ) :
    (create settings medium console).Sound :=
  ⟨⟨Registry.stored_empty hw, hs⟩, [], Registry.accounts_empty⟩

/-- The file of a descriptor is stored under its name. -/
theorem Sound.names (h : k.Sound) {pid : Pid} {process : Process} {fd : Fd} {d : Descriptor} {file : OpenFile}
    (hl : k.processes.live pid = .ok process) (hd : process.descriptors.get? fd = some d) (hf : d.file? = some file) :
    k.world.medium.names[file.name]? = some file.object := by
  obtain ⟨lost, hlost⟩ := h.accounts
  have hall : file ∈ files k.processes.records :=
    (ProcessTable.files_of_live hl).mem_iff.mpr (List.mem_append_left _ (Descriptors.mem_files hd hf))
  exact (h.settled.registered hlost (List.mem_append_left lost hall)).2

/-- They stay sound when neither registry nor medium changes and the descriptors refer to the same files, or to fewer. -/
theorem Sound.of_perm (h : k.Sound) (hr : k'.registry = k.registry) (hm : k'.world.medium = k.world.medium)
    (dropped : List OpenFile) (hp : (files k.processes.records).Perm (files k'.processes.records ++ dropped)) : k'.Sound := by
  obtain ⟨lost, hlost⟩ := h.accounts
  refine ⟨by rw [hr, hm]; exact h.settled, dropped ++ lost, ?_⟩
  rw [hr, ← List.append_assoc]
  exact hlost.perm (hp.append_right lost)

/-- They stay sound when the process table is as it was. -/
theorem Sound.of_processes (h : k.Sound) (hp : k'.processes = k.processes) (hr : k'.registry = k.registry)
    (hs : k.registry.Settled k'.world.medium) : k'.Sound := by
  obtain ⟨lost, hlost⟩ := h.accounts
  refine ⟨by rw [hr]; exact hs, lost, ?_⟩
  rw [hp, hr]
  exact hlost

/-- They stay sound when a running process works on its table in a way that serves the registry. -/
theorem Sound.served (h : k.Sound) {pid : Pid} {process : Process} (hl : k.processes.live pid = .ok process)
    {descriptors : Descriptors} {registry : Registry} {world : World RamDisk κ}
    (hs : process.descriptors.Serves k.registry (.ok descriptors, registry, world)) (memory : AddressSpace) :
    ((k.withFiles registry world).putLive pid { process with memory, descriptors }).Sound := by
  obtain ⟨lost, hlost⟩ := h.accounts
  have hbefore : k.registry.Accounts (process.descriptors.files ++ (files (k.processes.records.erase pid) ++ lost)) := by
    rw [← List.append_assoc]
    exact hlost.perm ((ProcessTable.files_of_live hl).append_right lost)
  obtain ⟨more, hafter⟩ := hs.accounts _ hbefore
  refine ⟨hs.settled, more ++ lost, hafter.perm ?_⟩
  have hput := (ProcessTable.files_putLive { process with memory, descriptors } hl).symm
  exact (perm_regroup descriptors.files more _ lost).trans (hput.append_right (more ++ lost))

/-- The end of a process gives its files back. -/
theorem Sound.afterEnd (h : k.Sound) {pid : Pid} {record : Record} {process : Process}
    (hr : k.processes.record? pid = some record) (hp : record.process? = some process) (status : ExitStatus) :
    (k.afterEnd pid record process status).Sound := by
  obtain ⟨lost, hlost⟩ := h.accounts
  have hl : k.processes.live pid = .ok process := ProcessTable.live_eq_ok_iff.mpr ⟨record, hr, hp⟩
  have hbefore : k.registry.Accounts (process.descriptors.files ++ (files (k.processes.records.erase pid) ++ lost)) := by
    rw [← List.append_assoc]
    exact hlost.perm ((ProcessTable.files_of_live hl).append_right lost)
  obtain ⟨hafter, -⟩ := hbefore.releaseAll k.world
  have hs : Registry.Settled (Descriptors.releaseAll k.registry k.world process.descriptors.files).1
      (Descriptors.releaseAll k.registry k.world process.descriptors.files).2.medium :=
    Descriptors.settled_releaseAll h.settled process.descriptors.files
  constructor
  · simp only [Kernel.afterEnd, World.medium_note, World.unblockAll_eq, World.noteAll_eq]
    exact hs
  · exact ⟨lost, hafter.perm ((ProcessTable.files_retire k.processes pid record status).symm.append_right lost)⟩

/-- A halt leaves neither references nor descriptors. -/
theorem Sound.shutDown (h : k.Sound) : k.shutDown.Sound := by
  cases hh : k.halted with
  | true =>
    rw [shutDown_eq hh]
    exact h
  | false =>
    have hm : k.shutDown.world.medium = k.world.medium := by
      simp only [Kernel.shutDown, hh, Bool.false_eq_true, if_false, dropProcesses, World.medium_emit, World.unblockAll_eq]
    have hstop := stopped_shutDown hh
    refine ⟨?_, [], ?_⟩
    · rw [hstop.unregistered, hm]
      exact ⟨Registry.stored_empty h.settled.whole, h.settled.separate⟩
    · rw [hstop.unregistered, ProcessTable.files_of_no_records hstop.recordless]
      exact Registry.accounts_empty

variable [Console κ] {powers : Power → Prop}

/-- They stay sound through every move. -/
theorem sound_of_move (h : Move powers k k') (hk : k.Sound) : k'.Sound := by
  cases h with
  | note event _ => exact hk.of_processes rfl rfl hk.settled
  | asleep thread _ => exact hk.of_perm rfl rfl [] (by rw [List.append_nil])
  | awake thread _ => exact hk.of_perm rfl rfl [] (by rw [List.append_nil])
  | enrolled _ info he =>
    obtain ⟨lost, hp⟩ := ProcessTable.exists_files_enrol he
    exact hk.of_perm rfl rfl lost hp
  | reaped _ hr =>
    refine hk.of_perm rfl rfl [] ?_
    rw [List.append_nil]
    exact (ProcessTable.reap_counts hr).2.symm
  | @memory pid process hl memory =>
    have hs : process.descriptors.Serves k.registry (.ok process.descriptors, k.registry, k.world) :=
      Descriptors.serves_of_perm hk.settled fun t' ht => by cases ht; exact .refl _
    exact hk.served hl hs memory
  | @opened pid process name mode fd descriptors registry world _ hl ho =>
    have hs := Descriptors.serves_openFile (t := process.descriptors) hk.settled name mode
    rw [ho] at hs
    exact hk.served hl hs process.memory
  | @notOpened descriptors name mode e registry world _ ho =>
    have hs := Descriptors.serves_openFile (t := descriptors) hk.settled name mode
    rw [ho, Descriptors.registry_of_openFile_error ho] at hs
    exact hk.of_processes rfl (Descriptors.registry_of_openFile_error ho) hs.settled
  | @closed pid process fd descriptors registry world _ hl hc =>
    have hs := Descriptors.serves_close (t := process.descriptors) hk.settled fd
    rw [hc] at hs
    exact hk.served hl hs process.memory
  | unlinked name _ =>
    obtain ⟨lost, hlost⟩ := hk.accounts
    have hu : Registry.Settled (k.registry.unlink k.world name).2.1 (k.registry.unlink k.world name).2.2.medium :=
      Registry.settled_of_use (.unlink k.registry k.world name) hk.settled
    exact ⟨hu, lost, hlost.unlink k.world name⟩
  | @read pid process fd count deliver bytes memory descriptors world _ hl hr =>
    have hs := Descriptors.serves_readWith (t := process.descriptors) hk.settled fd count deliver
    rw [hr] at hs
    exact hk.served hl hs memory
  | @notRead descriptors fd count deliver e world _ hr =>
    have hs := Descriptors.serves_readWith (t := descriptors) hk.settled fd count deliver
    rw [hr] at hs
    exact hk.of_processes rfl rfl hs.settled
  | @written pid process fd data count descriptors world _ hl hw =>
    have hs := Descriptors.serves_write (t := process.descriptors) hk.settled fd data
    rw [hw] at hs
    exact hk.served hl hs process.memory
  | @notWritten descriptors fd data e world _ hw =>
    have hs := Descriptors.serves_write (t := descriptors) hk.settled fd data
    rw [hw] at hs
    exact hk.of_processes rfl rfl hs.settled
  | ended pid status _ =>
    rcases endProcess_cases k pid status with he | ⟨record, process, hr, hp, he⟩
    · rw [he]
      exact hk
    · rw [he]
      exact hk.afterEnd hr hp status
  | shutDown _ => exact hk.shutDown
  | dropped _ =>
    have hm : k.dropProcesses.world.medium = k.world.medium := by
      simp only [dropProcesses, World.unblockAll_eq]
    refine hk.of_perm rfl hm (files k.processes.records) ?_
    rw [ProcessTable.files_of_no_records (t := k.dropProcesses.processes) rfl, List.nil_append]

/-- They stay sound through any number of moves. -/
theorem sound_of_moves (h : Moves powers k k') (hk : k.Sound) : k'.Sound := by
  induction h with
  | refl => exact hk
  | tail _ hm ih => exact sound_of_move hm ih

end Kernel

namespace Machine

/-- The open files are sound at every point of every run. -/
theorem sound_of_leads {κ : Type} [Console κ] {allowed : Call → Prop} {settings : Settings} {medium : RamDisk} {console : κ}
    {m : Machine RamDisk κ} (h : Leads allowed (start settings medium console) m) (hw : medium.Whole) (hs : medium.Separate) :
    m.kernel.Sound :=
  Kernel.sound_of_moves (moves_of_leads h) (Kernel.sound_create hw hs settings console)

variable {μ κ : Type} [Medium μ] [Console κ] {allowed : Call → Prop}

/-- A run that comes to a machine that has halted has no file open there. -/
theorem closed_of_halted {settings : Settings} {medium : μ} {console : κ} {m : Machine μ κ}
    (h : Leads allowed (start settings medium console) m) : m.kernel.halted = true → m.kernel.Closed := by
  induction h with
  | refl => exact nofun
  | @step m' r _ hs ih =>
    intro hh
    cases h0 : m'.kernel.halted with
    | true => exact closed_of_step hs (ih h0)
    | false => exact (stopped_of_step_of_halted hs h0 hh).closed

/-- As long as a descriptor refers to a file the machine runs. -/
theorem halted_eq_false_of_get? {settings : Settings} {medium : μ} {console : κ} {m : Machine μ κ}
    (h : Leads allowed (start settings medium console) m) {pid : Pid} {process : Process} {fd : Fd} {d : Descriptor}
    {file : OpenFile} (hl : m.kernel.processes.live pid = .ok process) (hd : process.descriptors.get? fd = some d)
    (hf : d.file? = some file) : m.kernel.halted = false := by
  refine Bool.eq_false_iff.mpr fun hh => ?_
  have hnone : process.descriptors.files = [] := (closed_of_halted h hh).fileless pid process hl
  have hin : file ∈ process.descriptors.files :=
    Descriptors.mem_files hd hf
  rw [hnone] at hin
  cases hin

end Machine

end Nucleus
