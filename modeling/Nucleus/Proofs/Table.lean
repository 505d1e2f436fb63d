import Nucleus.Proofs.Records

/-!
# What the steps of the process table do

For each step of the process table, the record that is found under each number afterwards, how many processes run, and which files
they refer to. The theory of the table rests on these equations and does not open the steps again.
-/

namespace Nucleus

namespace ProcessTable

open Records

variable {t t' : ProcessTable} {pid : Pid} {record : Record}

/-- A process that can be asked for what it owns has a record, and runs. -/
theorem live_eq_ok_iff {process : Process} :
    t.live pid = .ok process ↔ ∃ record, t.record? pid = some record ∧ record.process? = some process := by
  unfold live
  cases h : t.record? pid with
  | none => simp
  | some record =>
    cases hp : record.process? <;> simp [hp]

/-- Where there are no records no process runs. -/
theorem not_live_of_no_records {process : Process} (h : t.records = ∅) : t.live pid ≠ .ok process := by
  unfold live record?
  simp [h]

/-- A process can be asked for what it owns exactly when it runs. -/
theorem live_eq_ok_iff_owned {process : Process} : t.live pid = .ok process ↔ owned t.records pid = some process := by
  unfold live owned record?
  cases h : (t.records[pid]?).bind Record.process? <;> simp

theorem isRunning_eq_true_iff : t.isRunning pid = true ↔ ∃ record, t.record? pid = some record ∧ record.isRunning = true := by
  unfold isRunning
  cases h : t.record? pid <;> simp

theorem isRunning_eq_false_iff :
    t.isRunning pid = false ↔ ∀ record, t.record? pid = some record → record.isRunning = false := by
  unfold isRunning
  cases h : t.record? pid <;> simp

/-- Whoever runs can be asked for what it owns. -/
theorem isRunning_iff_exists_live : t.isRunning pid = true ↔ ∃ process, t.live pid = .ok process := by
  rw [isRunning_eq_true_iff]
  constructor
  · rintro ⟨record, hr, hi⟩
    obtain ⟨process, hp⟩ := Option.isSome_iff_exists.mp hi
    exact ⟨process, live_eq_ok_iff.mpr ⟨record, hr, hp⟩⟩
  · rintro ⟨process, hl⟩
    obtain ⟨record, hr, hp⟩ := live_eq_ok_iff.mp hl
    exact ⟨record, hr, Record.isRunning_of_process? hp⟩

theorem isChild_eq_true_iff {child : Pid} :
    t.isChild pid child = true ↔ ∃ record, t.record? pid = some record ∧ child ∈ record.children := by
  unfold isChild
  cases h : t.record? pid <;> simp

/-! ## Belongings -/

/-- Other belongings for a running process change its record and no other. -/
theorem records_putLive {process : Process} (process' : Process) (h : t.record? pid = some record)
    (hp : record.process? = some process) :
    (t.putLive pid process').records = t.records.insert pid { record with life := .running process' } ∧
      ({ record with life := .running process' } : Record).isRunning = record.isRunning := by
  constructor
  · unfold putLive
    rw [h]
  · rw [Record.isRunning, Record.isRunning, hp]
    rfl

/-- A running process that gets other belongings has them. -/
theorem live_putLive_self {process : Process} (h : t.live pid = .ok process) (process' : Process) :
    (t.putLive pid process').live pid = .ok process' := by
  obtain ⟨record, hr, -⟩ := live_eq_ok_iff.mp h
  refine live_eq_ok_iff.mpr ⟨{ record with life := .running process' }, ?_, rfl⟩
  rw [record?_putLive, if_pos rfl, hr, Option.map_some]

/-- Whoever runs runs on when some process gets other belongings. -/
theorem isRunning_putLive (h : t.isRunning pid = true) (owner : Pid) (process' : Process) :
    (t.putLive owner process').isRunning pid = true := by
  obtain ⟨record, hr, hi⟩ := isRunning_eq_true_iff.mp h
  rw [isRunning_eq_true_iff, record?_putLive]
  split
  · rename_i ho
    rw [ho, hr]
    exact ⟨_, rfl, rfl⟩
  · exact ⟨record, hr, hi⟩

/-- A running process that gets the belongings it has is as it was. -/
theorem putLive_self {process : Process} (h : t.live pid = .ok process) : t.putLive pid process = t := by
  obtain ⟨record, hr, hp⟩ := live_eq_ok_iff.mp h
  have hlife : ({ record with life := .running process } : Record) = record := by rw [← Record.life_of_process? hp]
  have hsame : t.records.insert pid record = t.records := by
    apply Std.ExtTreeMap.ext_getElem?
    intro other
    rw [getElem?_insert_pid]
    split
    · rename_i ho
      rw [← ho]
      exact hr.symm
    · rfl
  unfold putLive
  rw [hr]
  dsimp only
  rw [hlife, hsame]

/-- Other belongings for a running process leave as many running as before. -/
theorem runningCount_putLive {process process' : Process} (h : t.live pid = .ok process) :
    runningCount (t.putLive pid process').records = runningCount t.records := by
  obtain ⟨record, hr, hp⟩ := live_eq_ok_iff.mp h
  obtain ⟨he, hi⟩ := records_putLive process' hr hp
  rw [he]
  exact runningCount_insert_of_getElem? hr hi

/-- The files of a running process and those of all others are the files of all. -/
theorem files_of_live {process : Process} (h : t.live pid = .ok process) :
    (files t.records).Perm (process.descriptors.files ++ files (t.records.erase pid)) := by
  obtain ⟨record, hr, hp⟩ := live_eq_ok_iff.mp h
  have hf : record.files = process.descriptors.files := by rw [Record.files, hp]
  rw [← hf]
  exact files_of_getElem? hr

/-- When a running process gets other belongings, those of all others stay. -/
theorem files_putLive {process : Process} (process' : Process) (h : t.live pid = .ok process) :
    (files (t.putLive pid process').records).Perm (process'.descriptors.files ++ files (t.records.erase pid)) := by
  obtain ⟨record, hr, hp⟩ := live_eq_ok_iff.mp h
  obtain ⟨he, -⟩ := records_putLive process' hr hp
  rw [he]
  exact files_insert t.records pid _

/-- Whoever runs after a running process got other belongings is that process, with these, or ran before as it does now. -/
theorem live_putLive {process process' owner : Process} (h : t.live pid = .ok process) {other : Pid}
    (ho : (t.putLive pid process').live other = .ok owner) : owner = process' ∨ t.live other = .ok owner := by
  obtain ⟨record, hr, hp⟩ := live_eq_ok_iff.mp h
  rw [live_eq_ok_iff_owned, (records_putLive process' hr hp).1, owned_insert] at ho
  split at ho
  · exact .inl (Option.some.inj ho).symm
  · exact .inr (live_eq_ok_iff_owned.mpr ho)

/-! ## Enrolment -/

/-- The record of a process that has just been enrolled. -/
def newcomer (parent : Option Pid) (program : String) (image : ProgramImage) (slots : Nat) : Record :=
  { parent, children := ∅, orphaned := false, life := .running ⟨program, .create slots, image.space⟩ }

/-- Whoever takes a child in lists it, and every other record is as it was. -/
theorem getElem?_adopt (records : Records) (parent child other : Pid) :
    (adopt records parent child)[other]? =
      if parent = other then records[other]?.map fun record => { record with children := record.children.insert child }
      else records[other]? := by
  unfold adopt
  cases h : records[parent]? with
  | none =>
    by_cases ho : parent = other
    · simp [← ho, h]
    · simp [ho]
  | some record =>
    by_cases ho : parent = other
    · simp [← ho, h]
    · simp [ho, getElem?_insert_pid]

/-- No record is lost when a child is taken in, and none changes but by that child. -/
theorem kept_adopt {records : Records} {other : Pid} (parent child : Pid) (h : records[other]? = some record) :
    ∃ record', (adopt records parent child)[other]? = some record' ∧ record'.life = record.life ∧
      ∀ c ∈ record.children, c ∈ record'.children := by
  rw [getElem?_adopt, h]
  split
  · exact ⟨_, rfl, rfl, fun c hm => Std.ExtTreeSet.mem_insert.mpr (.inr hm)⟩
  · exact ⟨record, rfl, rfl, fun c hm => hm⟩

section Enrol

variable {parent : Option Pid} {program : String} {image : ProgramImage} {slots : Nat}

/-- An enrolment that succeeds gives the next number, counts one more running process, and its parent, if it has one, runs. -/
theorem enrol_ok (h : t.enrol parent program image slots = .ok (pid, t')) :
    pid = ⟨t.next⟩ ∧ t'.next = t.next + 1 ∧ t'.running = t.running + 1 ∧ (∀ p, parent = some p → t.isRunning p = true) ∧
      t'.records = parent.elim (t.records.insert ⟨t.next⟩ (newcomer parent program image slots))
        (adopt (t.records.insert ⟨t.next⟩ (newcomer parent program image slots)) · ⟨t.next⟩) := by
  unfold enrol at h
  split at h
  · cases h
  · rename_i hp
    cases h
    refine ⟨rfl, rfl, rfl, ?_, by cases parent <;> rfl⟩
    rintro p rfl
    simpa using hp

/-- After an enrolment the new process is found under its number, its parent has one child more, and every other process is as it
was. The number must have been free. -/
theorem record?_enrol (h : t.enrol parent program image slots = .ok (pid, t')) (hfree : t.record? ⟨t.next⟩ = none) (other : Pid) :
    t'.record? other =
      if other = pid then some (newcomer parent program image slots)
      else if parent = some other then
        (t.record? other).map fun record => { record with children := record.children.insert pid }
      else t.record? other := by
  obtain ⟨rfl, -, -, hp, hr⟩ := enrol_ok h
  unfold record? at hfree ⊢
  rw [hr]
  cases parent with
  | none =>
    rw [Option.elim_none, getElem?_insert_pid]
    by_cases ho : other = ⟨t.next⟩
    · simp [ho]
    · have ho' : ¬(⟨t.next⟩ : Pid) = other := fun e => ho e.symm
      simp [ho, ho']
  | some p =>
    obtain ⟨record, hpr, -⟩ := isRunning_eq_true_iff.mp (hp p rfl)
    unfold record? at hpr
    have hpn : ¬(⟨t.next⟩ : Pid) = p := by
      rintro rfl
      rw [hfree] at hpr
      cases hpr
    rw [Option.elim_some, adopt, getElem?_insert_pid, if_neg hpn, hpr]
    dsimp only
    rw [getElem?_insert_pid, getElem?_insert_pid]
    by_cases ho : other = ⟨t.next⟩
    · subst ho
      have hpn' : ¬p = ⟨t.next⟩ := fun e => hpn e.symm
      simp [hpn']
    · have ho' : ¬(⟨t.next⟩ : Pid) = other := fun e => ho e.symm
      by_cases hpo : p = other
      · subst hpo
        simp [ho, hpr]
      · simp [ho, ho', hpo]

/-- The records after an enrolment, found under any number: the new process is there, and no other is lost. -/
theorem kept_insert_enrol (h : t.enrol parent program image slots = .ok (pid, t')) {other : Pid}
    (ho : (t.records.insert pid (newcomer parent program image slots))[other]? = some record) :
    ∃ record', t'.record? other = some record' ∧ record'.life = record.life ∧ ∀ c ∈ record.children, c ∈ record'.children := by
  obtain ⟨rfl, -, -, -, hr⟩ := enrol_ok h
  unfold record?
  rw [hr]
  cases parent with
  | none => exact ⟨record, ho, rfl, fun c hm => hm⟩
  | some p => exact kept_adopt p _ ho

/-- Whoever was there before an enrolment is found after it as it was, with as many children or more. -/
theorem kept_enrol (h : t.enrol parent program image slots = .ok (pid, t')) {other : Pid} (hne : other ≠ pid)
    (ho : t.record? other = some record) :
    ∃ record', t'.record? other = some record' ∧ record'.life = record.life ∧ ∀ c ∈ record.children, c ∈ record'.children := by
  refine kept_insert_enrol h ?_
  rw [getElem?_insert_pid, if_neg fun e => hne e.symm]
  exact ho

/-- A new process runs. -/
theorem isRunning_enrol (h : t.enrol parent program image slots = .ok (pid, t')) : t'.isRunning pid = true := by
  have hi : (t.records.insert pid (newcomer parent program image slots))[pid]? = some (newcomer parent program image slots) := by
    rw [getElem?_insert_pid, if_pos rfl]
  obtain ⟨record', hr', hl, -⟩ := kept_insert_enrol h hi
  exact isRunning_eq_true_iff.mpr ⟨record', hr', Record.isRunning_of_life hl⟩

/-- Taking a child in changes neither the number of running processes nor the files. -/
theorem adopt_counts (records : Records) (parent child : Pid) :
    runningCount (adopt records parent child) = runningCount records ∧
      (files (adopt records parent child)).Perm (files records) := by
  unfold adopt
  split
  · rename_i record h
    exact ⟨runningCount_insert_of_getElem? h rfl, files_insert_of_getElem? h rfl⟩
  · exact ⟨rfl, .refl _⟩

/-- Nor does it change what anyone owns. -/
theorem owned_adopt (records : Records) (parent child other : Pid) :
    owned (adopt records parent child) other = owned records other := by
  unfold adopt
  split
  · rename_i record h
    refine owned_insert_of_getElem? h ?_ other
    rfl
  · rfl

/-- Whoever runs after an enrolment is the new process, or ran before as it does now. -/
theorem live_enrol (h : t.enrol parent program image slots = .ok (pid, t')) {other : Pid} {process : Process}
    (ho : t'.live other = .ok process) : process = ⟨program, .create slots, image.space⟩ ∨ t.live other = .ok process := by
  obtain ⟨-, -, -, -, hr⟩ := enrol_ok h
  have hi : owned (t.records.insert ⟨t.next⟩ (newcomer parent program image slots)) other = some process := by
    rw [live_eq_ok_iff_owned, hr] at ho
    cases parent with
    | none => exact ho
    | some p => exact (owned_adopt _ p _ other).symm.trans ho
  rw [owned_insert] at hi
  split at hi
  · exact .inl (Option.some.inj hi).symm
  · exact .inr (live_eq_ok_iff_owned.mpr hi)

/-- After an enrolment under a free number one process more runs. -/
theorem runningCount_enrol (h : t.enrol parent program image slots = .ok (pid, t')) (hfree : t.record? ⟨t.next⟩ = none) :
    runningCount t'.records = runningCount t.records + 1 := by
  obtain ⟨-, -, -, -, hr⟩ := enrol_ok h
  have hi : runningCount (t.records.insert ⟨t.next⟩ (newcomer parent program image slots)) = runningCount t.records + 1 := by
    rw [runningCount_insert, erase_of_getElem?_eq_none hfree]
    rfl
  rw [hr]
  cases parent with
  | none => exact hi
  | some p => exact (adopt_counts _ p _).1.trans hi

/-- A new table of descriptors refers to no file. -/
theorem files_create (slots : Nat) : (Descriptors.create slots).files = [] := by
  simp [Descriptors.create, Descriptors.files, Descriptor.file?]

/-- A process that is enrolled under a free number has no file open. -/
theorem files_enrol (h : t.enrol parent program image slots = .ok (pid, t')) (hfree : t.record? ⟨t.next⟩ = none) :
    (files t'.records).Perm (files t.records) := by
  obtain ⟨-, -, -, -, hr⟩ := enrol_ok h
  have hi : (files (t.records.insert ⟨t.next⟩ (newcomer parent program image slots))).Perm (files t.records) := by
    have hp := files_insert t.records ⟨t.next⟩ (newcomer parent program image slots)
    rw [erase_of_getElem?_eq_none hfree] at hp
    have hf : (newcomer parent program image slots).files = [] := files_create slots
    rwa [hf, List.nil_append] at hp
  rw [hr]
  cases parent with
  | none => exact hi
  | some p => exact (adopt_counts _ p _).2.trans hi

end Enrol

/-! ## Reaping -/

section Reap

variable {caller child : Pid} {status : ExitStatus} {records : Records}

/-- What can be taken depends on nothing but the records. -/
theorem reap_congr (h : t'.records = t.records) (caller child : Pid) : t'.reap caller child = t.reap caller child := by
  unfold reap isChild record?
  rw [h]

/-- Who takes a status takes that of a child of its own that has ended. -/
theorem reap_reaped (h : t.reap caller child = .reaped status records) :
    ∃ parent ended, t.record? caller = some parent ∧ child ∈ parent.children ∧ t.record? child = some ended ∧
      ended.life = .zombie status ∧
      records =
        match (t.records.erase child)[caller]? with
        | some record => (t.records.erase child).insert caller { record with children := record.children.erase child }
        | none => t.records.erase child := by
  unfold reap at h
  split at h
  · cases h
  · rename_i hc
    simp only [Bool.not_eq_true', Bool.not_eq_false] at hc
    obtain ⟨parent, hp, hm⟩ := isChild_eq_true_iff.mp hc
    split at h
    · cases h
    · cases h
    · rename_i status' hl
      obtain ⟨ended, he, hz⟩ := Option.map_eq_some_iff.mp hl
      cases h
      exact ⟨parent, ended, hp, hm, he, hz, rfl⟩

/-- The status of a child that has ended can be taken. -/
theorem exists_reaped {parent ended : Record} (hp : t.record? caller = some parent) (hm : child ∈ parent.children)
    (he : t.record? child = some ended) (hz : ended.life = .zombie status) :
    ∃ records, t.reap caller child = .reaped status records := by
  have hc : t.isChild caller child = true := isChild_eq_true_iff.mpr ⟨parent, hp, hm⟩
  unfold reap
  rw [hc, he, Option.map_some, hz]
  exact ⟨_, rfl⟩

/-- After a status was taken the child is gone, its parent has one child less, and every other process is as it was. -/
theorem record?_reap (h : t.reap caller child = .reaped status records) (hne : caller ≠ child) (other : Pid) :
    records[other]? =
      if other = child then none
      else if other = caller then
        (t.record? other).map fun record => { record with children := record.children.erase child }
      else t.record? other := by
  obtain ⟨parent, ended, hp, -, -, -, rfl⟩ := reap_reaped h
  have hce : ¬child = caller := fun e => hne e.symm
  have hf : (t.records.erase child)[caller]? = some parent := by
    rw [getElem?_erase_pid, if_neg hce]
    exact hp
  rw [hf]
  dsimp only
  rw [getElem?_insert_pid, getElem?_erase_pid]
  unfold record? at hp ⊢
  by_cases ho : other = child
  · subst ho
    simp [hne]
  · have ho' : ¬child = other := fun e => ho e.symm
    by_cases hc : other = caller
    · subst hc
      simp [ho, hp]
    · have hc' : ¬caller = other := fun e => hc e.symm
      simp [ho, ho', hc, hc']

/-- Whoever was there before is found after a status was taken of another, with the same parent and the same other children. -/
theorem kept_reap (h : t.reap caller child = .reaped status records) {other : Pid} (hne : other ≠ child)
    (ho : t.record? other = some record) :
    ∃ record', records[other]? = some record' ∧ record'.life = record.life ∧ record'.parent = record.parent ∧
      ∀ c ∈ record.children, c ≠ child → c ∈ record'.children := by
  obtain ⟨parent, ended, -, -, -, -, rfl⟩ := reap_reaped h
  have he : (t.records.erase child)[other]? = some record := by
    rw [getElem?_erase_pid, if_neg fun e => hne e.symm]
    exact ho
  split
  · rename_i r hc
    rw [getElem?_insert_pid]
    split
    · rename_i heq
      subst heq
      cases hc.symm.trans he
      refine ⟨_, rfl, rfl, rfl, fun c hm hcc => Std.ExtTreeSet.mem_erase.mpr ⟨?_, hm⟩⟩
      rw [Std.LawfulEqOrd.compare_eq_iff_eq.ne]
      exact fun e => hcc e.symm
    · exact ⟨record, he, rfl, rfl, fun c hm _ => hm⟩
  · exact ⟨record, he, rfl, rfl, fun c hm _ => hm⟩

/-- Whoever runs after a status was taken ran before as it does now. -/
theorem live_reap (h : t.reap caller child = .reaped status records) {other : Pid} {process : Process}
    (ho : ProcessTable.live { t with records } other = .ok process) : t.live other = .ok process := by
  obtain ⟨parent, ended, -, -, -, -, rfl⟩ := reap_reaped h
  rw [live_eq_ok_iff_owned] at ho ⊢
  refine owned_of_erase (?_ : owned (t.records.erase child) other = some process)
  dsimp only at ho
  split at ho
  · rename_i record hf
    rw [owned_insert_of_getElem? hf] at ho
    · exact ho
    · rfl
  · exact ho

/-- Whoever ran before a status was taken runs on as it did. -/
theorem live_reap_of_live (h : t.reap caller child = .reaped status records) {other : Pid} {process : Process}
    (ho : t.live other = .ok process) : ProcessTable.live { t with records } other = .ok process := by
  obtain ⟨record, hr, hp⟩ := live_eq_ok_iff.mp ho
  obtain ⟨-, ended, -, -, he, hz, -⟩ := reap_reaped h
  have hne : other ≠ child := by
    rintro rfl
    cases hr.symm.trans he
    rw [Record.process?, hz] at hp
    cases hp
  obtain ⟨record', hr', hl, -⟩ := kept_reap h hne hr
  exact live_eq_ok_iff.mpr ⟨record', hr', by rw [Record.process?, hl]; exact hp⟩

/-- The child whose status is taken did not run and had no file open: both counts stay. -/
theorem reap_counts (h : t.reap caller child = .reaped status records) :
    runningCount records = runningCount t.records ∧ (files records).Perm (files t.records) := by
  obtain ⟨parent, ended, -, -, he, hz, rfl⟩ := reap_reaped h
  have hr : ended.isRunning = false := by rw [Record.isRunning, Record.process?, hz]; rfl
  have hcount : runningCount (t.records.erase child) = runningCount t.records := by
    rw [runningCount_of_getElem? he, hr]
    rfl
  have hfiles : (files (t.records.erase child)).Perm (files t.records) := by
    have hp := files_of_getElem? he
    rw [Record.files_eq_nil hr, List.nil_append] at hp
    exact hp.symm
  split
  · rename_i record hf
    constructor
    · rw [← hcount]
      exact runningCount_insert_of_getElem? hf rfl
    · refine List.Perm.trans ?_ hfiles
      exact files_insert_of_getElem? hf rfl
  · exact ⟨hcount, hfiles⟩

end Reap

/-! ## The end of a process -/

/-- The record of a process that has ended with a status. -/
def atEnd (record : Record) (status : ExitStatus) : Record := { record with children := ∅, life := .zombie status }

/-- The records when a process has ended and its children have lost their parent. -/
def bereaved (t : ProcessTable) (pid : Pid) (record : Record) (status : ExitStatus) : Records :=
  record.children.toList.foldl disown (t.records.insert pid (atEnd record status))

/-- Whether a process that ends keeps its record, for its parent to come for the status. -/
def isAwaited (t : ProcessTable) (pid : Pid) (record : Record) (status : ExitStatus) : Bool :=
  !record.orphaned && record.parent.any fun parent => (t.bereaved pid record status).contains parent

section Retire

variable (t) (pid) (record) (status : ExitStatus)

theorem records_retire :
    (t.retire pid record status).records =
      if t.isAwaited pid record status then t.bereaved pid record status else (t.bereaved pid record status).erase pid := rfl

/-- Whoever runs after the end of a process ran before as it does now. -/
theorem live_retire {other : Pid} {process : Process} (ho : (t.retire pid record status).live other = .ok process) :
    t.live other = .ok process := by
  have hb : owned (t.bereaved pid record status) other = some process := by
    rw [live_eq_ok_iff_owned, records_retire] at ho
    split at ho
    · exact ho
    · exact owned_of_erase ho
  unfold bereaved at hb
  rw [owned_foldl_disown, owned_insert] at hb
  split at hb
  · cases hb
  · exact live_eq_ok_iff_owned.mpr hb

/-- A process that has ended owns nothing, whatever becomes of its record. -/
theorem owned_bereaved_self : owned (t.bereaved pid record status) pid = none := by
  unfold bereaved
  rw [owned_foldl_disown, owned_insert, if_pos rfl]
  rfl

/-- A process that has ended owns nothing. -/
theorem not_live_retire {process : Process} : (t.retire pid record status).live pid ≠ .ok process := by
  intro hl
  rw [live_eq_ok_iff_owned, records_retire] at hl
  have hb : owned (t.bereaved pid record status) pid = some process := by
    split at hl
    · exact hl
    · exact owned_of_erase hl
  rw [owned_bereaved_self] at hb
  cases hb

/-- When a process ends, its files are taken away, and all others stay. -/
theorem files_retire : (files (t.retire pid record status).records).Perm (files (t.records.erase pid)) := by
  have hb : (files (t.bereaved pid record status)).Perm (files (t.records.erase pid)) := by
    unfold bereaved
    exact (files_foldl_disown _ _).trans (files_insert t.records pid (atEnd record status))
  rw [records_retire]
  split
  · exact hb
  · refine List.Perm.trans ?_ hb
    cases hf : (t.bereaved pid record status)[pid]? with
    | none => rw [erase_of_getElem?_eq_none hf]
    | some ended =>
      have hp := owned_bereaved_self t pid record status
      rw [owned, hf, Option.bind_some] at hp
      have hnone : ended.files = [] := by rw [Record.files, hp]
      have hperm := files_of_getElem? hf
      rw [hnone, List.nil_append] at hperm
      exact hperm.symm

variable {record} (hself : pid ∉ record.children)

include hself

theorem getElem?_bereaved (other : Pid) :
    (t.bereaved pid record status)[other]? =
      if other = pid then some (atEnd record status)
      else if other ∈ record.children then (t.record? other).bind Forsaken else t.record? other := by
  unfold bereaved record?
  rw [getElem?_foldl_disown, getElem?_insert_pid]
  simp only [Std.ExtTreeSet.mem_toList]
  by_cases ho : other = pid
  · subst ho
    simp [hself]
  · have ho' : ¬pid = other := fun e => ho e.symm
    simp [ho, ho']

/-- The children of an ended process have lost their parent, and every other process is as it was. -/
theorem record?_retire_other {other : Pid} (hne : other ≠ pid) :
    (t.retire pid record status).record? other =
      if other ∈ record.children then (t.record? other).bind Forsaken else t.record? other := by
  have hb := getElem?_bereaved t pid status hself other
  rw [if_neg hne] at hb
  have hne' : ¬pid = other := fun e => hne e.symm
  unfold record?
  rw [records_retire]
  split
  · exact hb
  · rw [getElem?_erase_pid, if_neg hne']
    exact hb

/-- An ended process is found with its status as long as it is awaited. -/
theorem record?_retire_self :
    (t.retire pid record status).record? pid = if t.isAwaited pid record status then some (atEnd record status) else none := by
  have hb := getElem?_bereaved t pid status hself pid
  rw [if_pos rfl] at hb
  unfold record?
  rw [records_retire]
  split
  · exact hb
  · rw [getElem?_erase_pid, if_pos rfl]

/-- When a running process ends, one process less runs. -/
theorem runningCount_retire (h : t.record? pid = some record) (hr : record.isRunning = true) :
    runningCount (t.retire pid record status).records + 1 = runningCount t.records := by
  have hb : runningCount (t.bereaved pid record status) = runningCount (t.records.erase pid) := by
    unfold bereaved
    rw [runningCount_foldl_disown, runningCount_insert]
    rfl
  have he : runningCount ((t.bereaved pid record status).erase pid) = runningCount (t.bereaved pid record status) := by
    have hf := getElem?_bereaved t pid status hself pid
    rw [if_pos rfl] at hf
    rw [runningCount_of_getElem? hf]
    rfl
  rw [runningCount_of_getElem? h, if_pos hr, records_retire]
  split
  · rw [hb]
  · rw [he, hb]

end Retire

/-! ## Steps of a process that got other belongings before -/

section Exchanged

variable {process : Process} (process' : Process)

/-- A running process gets other belongings by a change of its record. -/
theorem putLive_of_live (h : t.live pid = .ok process) :
    ∃ record, t.record? pid = some record ∧ record.life = .running process ∧
      t.putLive pid process' = { t with records := t.records.insert pid { record with life := .running process' } } := by
  obtain ⟨record, hr, hp⟩ := live_eq_ok_iff.mp h
  exact ⟨record, hr, Record.life_of_process? hp, by rw [putLive, hr]⟩

/-- Nothing but the records changes. -/
theorem putLive_eq (t : ProcessTable) (pid : Pid) (process' : Process) :
    t.putLive pid process' = { t with records := (t.putLive pid process').records } := by
  unfold putLive
  cases t.record? pid <;> rfl

/-- What a process got last it has. -/
theorem putLive_putLive (h : t.live pid = .ok process) (process'' : Process) :
    (t.putLive pid process').putLive pid process'' = t.putLive pid process'' := by
  obtain ⟨record, hr, -, he⟩ := putLive_of_live process' h
  have hr' : (t.putLive pid process').record? pid = some { record with life := .running process' } := by
    rw [record?_putLive, if_pos rfl, hr, Option.map_some]
  rw [putLive, hr', he, putLive, hr]
  dsimp only
  rw [insert_insert_pid]

/-- Who waits has nothing to do with it. -/
theorem putLive_waiting (waiting : WaitQueue) :
    { t.putLive pid process' with waiting } = ProcessTable.putLive { t with waiting } pid process' := by
  unfold putLive
  rw [show record? { t with waiting } pid = t.record? pid from rfl]
  cases t.record? pid <;> rfl

/-- It is dropped with everything else. -/
theorem clear_putLive (t : ProcessTable) (pid : Pid) (process' : Process) : (t.putLive pid process').clear = t.clear := by
  unfold putLive
  cases t.record? pid <;> rfl

/-- It has the same children. -/
theorem isChild_putLive (h : t.live pid = .ok process) (child : Pid) :
    (t.putLive pid process').isChild pid child = t.isChild pid child := by
  obtain ⟨record, hr, -, -⟩ := putLive_of_live process' h
  unfold isChild
  rw [record?_putLive, if_pos rfl, hr]
  rfl

/-- The same of them have ended. -/
theorem forsaken_putLive (h : t.live pid = .ok process) (children : List Pid) :
    (t.putLive pid process').forsaken children = t.forsaken children := by
  obtain ⟨record, hr, hl, -⟩ := putLive_of_live process' h
  unfold forsaken
  congr 1
  funext child
  rw [record?_putLive]
  split
  · rename_i hc
    rw [← hc, hr, Option.map_some, Option.any_some, Option.any_some, Record.isZombie, Record.isZombie, Record.status?,
      Record.status?, hl]
  · rfl

/-- When the process ends its belongings go. -/
theorem retire_putLive (hr : t.record? pid = some record) (status : ExitStatus) :
    (t.putLive pid process').retire pid { record with life := .running process' } status = t.retire pid record status := by
  rw [putLive, hr]
  unfold retire
  dsimp only
  rw [insert_insert_pid]

/-- What is left of the records when the process has taken the status of a child. -/
theorem records_reap_putLive (hr : t.record? pid = some record) {child : Pid} (hne : child ≠ pid) :
    (match ((t.putLive pid process').records.erase child)[pid]? with
      | some record =>
        ((t.putLive pid process').records.erase child).insert pid { record with children := record.children.erase child }
      | none => (t.putLive pid process').records.erase child) =
    (ProcessTable.putLive
      { t with
        records := match (t.records.erase child)[pid]? with
          | some record => (t.records.erase child).insert pid { record with children := record.children.erase child }
          | none => t.records.erase child } pid process').records := by
  have hr' : t.records[pid]? = some record := hr
  have he : (t.putLive pid process').records = t.records.insert pid { record with life := .running process' } := by
    rw [putLive, hr]
  rw [he]
  simp only [getElem?_erase_pid, if_neg hne, getElem?_insert_pid, if_pos, hr']
  refine Std.ExtTreeMap.ext_getElem? fun other => ?_
  change _ = record? _ other
  rw [record?_putLive]
  simp only [record?, getElem?_insert_pid, getElem?_erase_pid]
  by_cases ho : pid = other
  · simp [ho]
  · simp [ho]

/-- Asking for a child comes to the same, and leaves the process what it owns. -/
theorem reap_putLive (h : t.live pid = .ok process) (child : Pid) :
    (t.putLive pid process').reap pid child =
      match t.reap pid child with
      | .refused => .refused
      | .running => .running
      | .reaped status records => .reaped status (ProcessTable.putLive { t with records } pid process').records := by
  obtain ⟨record, hr, hl, -⟩ := putLive_of_live process' h
  unfold reap
  rw [isChild_putLive process' h, record?_putLive]
  cases t.isChild pid child with
  | false => rfl
  | true =>
    simp only [Bool.not_true, Bool.false_eq_true, if_false]
    by_cases hc : pid = child
    · subst hc
      rw [if_pos rfl, hr]
      simp only [Option.map_some, hl]
    · rw [if_neg hc]
      cases t.record? child with
      | none => rfl
      | some found =>
        cases hf : found.life with
        | running owned => simp only [Option.map_some, hf]
        | zombie status =>
          simp only [Option.map_some, hf]
          exact congrArg _ (records_reap_putLive process' hr fun e => hc e.symm)

/-- A child of a running process is enrolled under the next number. -/
theorem enrol_of_isRunning (h : t.isRunning pid = true) (program : String) (image : ProgramImage) (slots : Nat) :
    t.enrol (some pid) program image slots = .ok (⟨t.next⟩,
      { t with
        records := adopt (t.records.insert ⟨t.next⟩ (newcomer (some pid) program image slots)) pid ⟨t.next⟩
        next := t.next + 1
        running := t.running + 1 }) := by
  rw [enrol, Option.any_some, h]
  rfl

/-- A child is enrolled beside what its parent owns, unless it gets the parent's own number. -/
theorem enrol_putLive (h : t.live pid = .ok process) (program : String) (image : ProgramImage) (slots : Nat) :
    ∃ t', t.enrol (some pid) program image slots = .ok (⟨t.next⟩, t') ∧
      (⟨t.next⟩ = pid ∧ (t.putLive pid process').enrol (some pid) program image slots = .ok (⟨t.next⟩, t') ∨
        t'.live pid = .ok process ∧
          (t.putLive pid process').enrol (some pid) program image slots = .ok (⟨t.next⟩, t'.putLive pid process')) := by
  obtain ⟨record, hr, hl, he⟩ := putLive_of_live process' h
  have hrun : t.isRunning pid = true := isRunning_iff_exists_live.mpr ⟨process, h⟩
  refine ⟨_, enrol_of_isRunning hrun program image slots, ?_⟩
  rw [enrol_of_isRunning (isRunning_putLive hrun pid process'), he]
  dsimp only
  by_cases hn : (⟨t.next⟩ : Pid) = pid
  · refine .inl ⟨hn, ?_⟩
    rw [hn, insert_insert_pid]
  · have hp : (adopt (t.records.insert ⟨t.next⟩ (newcomer (some pid) program image slots)) pid ⟨t.next⟩)[pid]? =
        some { record with children := record.children.insert ⟨t.next⟩ } := by
      have hr' : t.records[pid]? = some record := hr
      rw [getElem?_adopt, if_pos rfl, getElem?_insert_pid, if_neg hn, hr', Option.map_some]
    refine .inr ⟨live_eq_ok_iff.mpr ⟨_, hp, by rw [Record.process?, hl]⟩, ?_⟩
    rw [putLive, record?, hp]
    dsimp only
    refine congrArg (fun records => Except.ok (_, ProcessTable.mk records _ _ _ _)) (Std.ExtTreeMap.ext_getElem? fun other => ?_)
    simp only [getElem?_adopt, getElem?_insert_pid]
    by_cases ho : pid = other
    · subst ho
      simp [hn]
    · simp [ho]

end Exchanged

end ProcessTable

end Nucleus
