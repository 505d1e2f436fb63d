import Nucleus.Process.Table
import Mathlib.Data.List.Perm.Basic

/-!
# Records of processes, counted

How many of the records are of running processes, and which open files their descriptors refer to, counted over the whole table.
Both are read off the list of the records, and a change of one record is a change of one element of that list, up to the order
(`toList_insert_perm`, `toList_perm_of_getElem?`). So is what becomes of a process's children when it ends (`disown`).
-/

namespace Nucleus

/-- The files that the descriptors of a process refer to, if it runs. -/
def Record.files (r : Record) : List OpenFile :=
  match r.process? with
  | some process => process.descriptors.files
  | none => []

/-- A process runs or has ended, and not both. -/
theorem Record.isRunning_eq (r : Record) : r.isRunning = !r.isZombie := by
  cases r with
  | mk parent children orphaned life => cases life <;> rfl

/-- Whether a process runs depends on where it stands in its life. -/
theorem Record.isRunning_of_life {r r' : Record} (h : r'.life = r.life) : r'.isRunning = r.isRunning := by
  rw [Record.isRunning, Record.isRunning, Record.process?, Record.process?, h]

/-- A process that owns something runs. -/
theorem Record.life_of_process? {r : Record} {process : Process} (h : r.process? = some process) : r.life = .running process := by
  unfold Record.process? at h
  split at h
  · rename_i owned hl
    rw [hl, Option.some.inj h]
  · cases h

theorem Record.isRunning_of_process? {r : Record} {process : Process} (h : r.process? = some process) : r.isRunning = true := by
  rw [Record.isRunning, h, Option.isSome_some]

/-- A process that runs has no status yet. -/
theorem Record.status?_eq_none {r : Record} {process : Process} (h : r.process? = some process) : r.status? = none := by
  rw [Record.status?, Record.life_of_process? h]

/-- A process that has ended owns nothing. -/
theorem Record.process?_eq_none {r : Record} (h : r.isRunning = false) : r.process? = none := by
  simpa [Record.isRunning] using h

/-- A process that has ended has no files. -/
theorem Record.files_eq_nil {r : Record} (h : r.isRunning = false) : r.files = [] := by
  rw [Record.files, Record.process?_eq_none h]

namespace Records

/-- How many of the records are of running processes. -/
def runningCount (records : Records) : Nat := records.toList.countP fun entry => entry.2.isRunning

/-- The files that the descriptors of the running processes refer to, one for each descriptor. -/
def files (records : Records) : List OpenFile := records.toList.flatMap fun entry => entry.2.files

/-- What the process of a number owns, if it runs. -/
def owned (records : Records) (pid : Pid) : Option Process := records[pid]?.bind Record.process?

theorem getElem?_insert_pid (records : Records) (pid other : Pid) (record : Record) :
    (records.insert pid record)[other]? = if pid = other then some record else records[other]? := by
  simp [Std.ExtTreeMap.getElem?_insert]

/-- What is put in last counts. -/
theorem insert_insert_pid (records : Records) (pid : Pid) (record record' : Record) :
    (records.insert pid record).insert pid record' = records.insert pid record' := by
  apply Std.ExtTreeMap.ext_getElem?
  intro other
  simp only [getElem?_insert_pid]
  split <;> rfl

theorem getElem?_erase_pid (records : Records) (pid other : Pid) :
    (records.erase pid)[other]? = if pid = other then none else records[other]? := by
  simp [Std.ExtTreeMap.getElem?_erase]

/-- Records are known by what is found under each number. -/
theorem mem_toList (records : Records) (entry : Pid × Record) :
    entry ∈ records.toList ↔ records[entry.1]? = some entry.2 :=
  Std.ExtTreeMap.mem_toList_iff_getElem?_eq_some

/-- No record is listed twice. -/
theorem nodup_toList (records : Records) : records.toList.Nodup := by
  refine records.distinct_keys_toList.imp ?_
  rintro a b hab rfl
  exact hab Std.ReflOrd.compare_self

/-- Records with one more under a number are the one and those under other numbers. -/
theorem toList_insert_perm (records : Records) (pid : Pid) (record : Record) :
    (records.insert pid record).toList.Perm ((pid, record) :: (records.erase pid).toList) := by
  have hn : (pid, record) ∉ (records.erase pid).toList := by
    rw [mem_toList, getElem?_erase_pid, if_pos rfl]
    exact (Option.some_ne_none record).symm
  rw [List.perm_ext_iff_of_nodup (nodup_toList _) (List.nodup_cons.mpr ⟨hn, nodup_toList _⟩)]
  rintro ⟨other, r⟩
  rw [mem_toList, getElem?_insert_pid, List.mem_cons, mem_toList, getElem?_erase_pid]
  by_cases h : pid = other
  · subst h
    simp only [if_true, Option.some.injEq, Prod.mk.injEq, true_and, reduceCtorEq, or_false]
    exact eq_comm
  · have h' : other ≠ pid := fun e => h e.symm
    simp [h, h']

/-- The record found under a number, and those under other numbers, are all records. -/
theorem toList_perm_of_getElem? {records : Records} {pid : Pid} {record : Record} (h : records[pid]? = some record) :
    records.toList.Perm ((pid, record) :: (records.erase pid).toList) := by
  have he : records.insert pid record = records := by
    refine Std.ExtTreeMap.ext_getElem? fun other => ?_
    rw [getElem?_insert_pid]
    by_cases ho : pid = other
    · rw [if_pos ho, ← ho, h]
    · rw [if_neg ho]
  have hp := toList_insert_perm records pid record
  rwa [he] at hp

theorem owned_insert (records : Records) (pid other : Pid) (record : Record) :
    owned (records.insert pid record) other = if pid = other then record.process? else owned records other := by
  unfold owned
  rw [getElem?_insert_pid]
  split <;> rfl

/-- Whoever runs after a record was taken away ran before. -/
theorem owned_of_erase {records : Records} {pid other : Pid} {process : Process}
    (h : owned (records.erase pid) other = some process) : owned records other = some process := by
  unfold owned at h ⊢
  rw [getElem?_erase_pid] at h
  split at h
  · cases h
  · exact h

/-- A change of a record that keeps what its process owns keeps what all own. -/
theorem owned_insert_of_getElem? {records : Records} {pid : Pid} {record record' : Record} (h : records[pid]? = some record)
    (hp : record'.process? = record.process?) (other : Pid) : owned (records.insert pid record') other = owned records other := by
  rw [owned_insert]
  split
  · rename_i ho
    rw [hp, ← ho, owned, h, Option.bind_some]
  · rfl

theorem runningCount_insert (records : Records) (pid : Pid) (record : Record) :
    runningCount (records.insert pid record) = runningCount (records.erase pid) + if record.isRunning then 1 else 0 := by
  unfold runningCount
  rw [(toList_insert_perm records pid record).countP_eq, List.countP_cons]

theorem runningCount_of_getElem? {records : Records} {pid : Pid} {record : Record} (h : records[pid]? = some record) :
    runningCount records = runningCount (records.erase pid) + if record.isRunning then 1 else 0 := by
  unfold runningCount
  rw [(toList_perm_of_getElem? h).countP_eq, List.countP_cons]

theorem files_insert (records : Records) (pid : Pid) (record : Record) :
    (files (records.insert pid record)).Perm (record.files ++ files (records.erase pid)) :=
  (toList_insert_perm records pid record).flatMap_right _

theorem files_of_getElem? {records : Records} {pid : Pid} {record : Record} (h : records[pid]? = some record) :
    (files records).Perm (record.files ++ files (records.erase pid)) :=
  (toList_perm_of_getElem? h).flatMap_right _

theorem erase_of_getElem?_eq_none {records : Records} {pid : Pid} (h : records[pid]? = none) : records.erase pid = records := by
  refine Std.ExtTreeMap.ext_getElem? fun other => ?_
  rw [getElem?_erase_pid]
  by_cases ho : pid = other
  · rw [if_pos ho, ← ho, h]
  · rw [if_neg ho]

/-- A record counts the same after a change that keeps it running, or ended, as it was. -/
theorem runningCount_insert_of_getElem? {records : Records} {pid : Pid} {record record' : Record}
    (h : records[pid]? = some record) (hr : record'.isRunning = record.isRunning) :
    runningCount (records.insert pid record') = runningCount records := by
  rw [runningCount_insert, runningCount_of_getElem? h, hr]

/-- A change of a record that keeps its files keeps the files of all. -/
theorem files_insert_of_getElem? {records : Records} {pid : Pid} {record record' : Record}
    (h : records[pid]? = some record) (hf : record'.files = record.files) :
    (files (records.insert pid record')).Perm (files records) := by
  refine (files_insert records pid record').trans ?_
  rw [hf]
  exact (files_of_getElem? h).symm

/-- Some process runs exactly when the count is not zero. -/
theorem runningCount_pos_iff (records : Records) :
    0 < runningCount records ↔ ∃ (pid : Pid) (record : Record), records[pid]? = some record ∧ record.isRunning = true := by
  rw [runningCount, List.countP_pos_iff]
  constructor
  · rintro ⟨⟨pid, record⟩, hm, hr⟩
    exact ⟨pid, record, (mem_toList records _).mp hm, hr⟩
  · rintro ⟨pid, record, hm, hr⟩
    exact ⟨(pid, record), (mem_toList records _).mpr hm, hr⟩

end Records

/-! ## Children that lose their parent -/

namespace ProcessTable

open Records

/-- What becomes of a child's record when its parent ends: that of an ended child is dropped, a running one is orphaned. -/
def Forsaken (record : Record) : Option Record := if record.isZombie then none else some { record with orphaned := true }

/-- A record that lost its parent once loses nothing by losing it again. -/
theorem bind_forsaken (found : Option Record) : (found.bind Forsaken).bind Forsaken = found.bind Forsaken := by
  cases found with
  | none => rfl
  | some record =>
    by_cases h : record.isZombie = true
    · simp [Forsaken, h]
    · have h' : ({ record with orphaned := true } : Record).isZombie = record.isZombie := rfl
      simp [Forsaken, h, h']

theorem getElem?_disown (records : Records) (child other : Pid) :
    (disown records child)[other]? = if child = other then records[other]?.bind Forsaken else records[other]? := by
  unfold disown
  cases h : records[child]? with
  | none =>
    by_cases ho : child = other
    · subst ho
      simp [h]
    · simp [ho]
  | some record =>
    dsimp only
    by_cases hz : record.isZombie = true
    · rw [if_pos hz, getElem?_erase_pid]
      by_cases ho : child = other
      · subst ho
        simp [h, Forsaken, hz]
      · simp [ho]
    · rw [if_neg hz, getElem?_insert_pid]
      by_cases ho : child = other
      · subst ho
        simp [h, Forsaken, hz]
      · simp [ho]

/-- All the children of a list lose their parent, and nobody else does. -/
theorem getElem?_foldl_disown (children : List Pid) (records : Records) (other : Pid) :
    (children.foldl disown records)[other]? =
      if other ∈ children then records[other]?.bind Forsaken else records[other]? := by
  induction children generalizing records with
  | nil => simp
  | cons child rest ih =>
    rw [List.foldl_cons, ih, getElem?_disown]
    by_cases hc : child = other
    · subst hc
      by_cases hr : child ∈ rest
      · simp [hr, bind_forsaken]
      · simp [hr]
    · have hc' : other ≠ child := fun e => hc e.symm
      simp [hc, hc']

/-- A child that loses its parent owns what it owned. -/
theorem owned_foldl_disown (children : List Pid) (records : Records) (other : Pid) :
    owned (children.foldl disown records) other = owned records other := by
  unfold owned
  rw [getElem?_foldl_disown]
  split
  · cases h : records[other]? with
    | none => rfl
    | some record =>
      by_cases hz : record.isZombie = true
      · have hr : record.isRunning = false := by rw [Record.isRunning_eq, hz, Bool.not_true]
        simp [Forsaken, hz, Record.process?_eq_none hr]
      · simp only [Option.bind_some, Forsaken, if_neg hz]
        rfl
  · rfl

/-- A child that loses its parent runs on if it ran, so as many run as before. -/
theorem runningCount_foldl_disown (children : List Pid) (records : Records) :
    runningCount (children.foldl disown records) = runningCount records := by
  induction children generalizing records with
  | nil => rfl
  | cons child rest ih =>
    rw [List.foldl_cons, ih]
    unfold disown
    split
    · rfl
    · rename_i record h
      by_cases hz : record.isZombie = true
      · have hr : record.isRunning = false := by rw [Record.isRunning_eq, hz, Bool.not_true]
        rw [if_pos hz, runningCount_of_getElem? h, hr]
        rfl
      · rw [if_neg hz]
        exact runningCount_insert_of_getElem? h rfl

/-- A child that loses its parent keeps its files if it runs, and has none if it has ended. -/
theorem files_foldl_disown (children : List Pid) (records : Records) :
    (files (children.foldl disown records)).Perm (files records) := by
  induction children generalizing records with
  | nil => exact .refl _
  | cons child rest ih =>
    rw [List.foldl_cons]
    refine (ih _).trans ?_
    unfold disown
    split
    · exact .refl _
    · rename_i record h
      by_cases hz : record.isZombie = true
      · have hf : record.files = [] := Record.files_eq_nil (by rw [Record.isRunning_eq, hz, Bool.not_true])
        have hp := files_of_getElem? h
        rw [hf, List.nil_append] at hp
        rw [if_pos hz]
        exact hp.symm
      · rw [if_neg hz]
        exact files_insert_of_getElem? h rfl

end ProcessTable

end Nucleus
