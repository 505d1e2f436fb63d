import Nucleus.Proofs.SharedFiles
import Nucleus.Proofs.Allocation
import Nucleus.Proofs.Cells

/-!
# Work on different files is independent

Two descriptor tables over one registry work on files of different names. What a call about one name answers, what the slots of its
table lead to afterwards and what is kept of the name then depends on nothing but the table and what was kept of the name before
(`Descriptors.Local`), and the call leaves all else alone. So two such calls can be made in either order
(`SharedFiles.independent_calls_commute`). The numbers of open files and of objects do depend on the order, but nobody sees them.
-/

namespace Nucleus

/-! ## What can be seen of a table -/

/-- What a descriptor leads to, as it can be seen. -/
inductive ShownStream where
  | consoleIn
  | consoleOut
  | file (name : String)
  deriving DecidableEq, Repr

/-- What can be seen of an allocated slot. -/
structure ShownSlot where
  /-- What it leads to. -/
  stream : ShownStream
  /-- Where the next transfer begins. -/
  cursor : Nat
  deriving DecidableEq, Repr

/-- A file is seen by its name. -/
def Stream.shown : Stream → ShownStream
  | .consoleIn => .consoleIn
  | .consoleOut => .consoleOut
  | .file f => .file f.name

/-- What can be seen of what a slot holds. -/
def Descriptor.shown (d : Descriptor) : ShownSlot := ⟨d.stream.shown, d.cursor⟩

namespace Descriptors

/-- What can be seen of the slots. -/
def shown (t : Descriptors) : List (Option ShownSlot) := t.slots.map (Option.map Descriptor.shown)

theorem shown_put (t : Descriptors) (fd : Fd) (slot : Option Descriptor) :
    (t.put fd slot).shown = t.shown.set fd.slot (slot.map Descriptor.shown) := List.map_set

/-! ## Calls about one name -/

section Local

variable (κ : Type) [Console κ]

/-- A call is about one name alone: how a table answers it, what can be seen of the table then, and what is kept of the name depends
on nothing but what was kept of the name and the limit of the medium, and what is kept of other names stays. -/
def Local (t : Descriptors) (name : String) (call : TableCall) : Prop :=
  ∀ (limit : Nat) (c : Cell), ∃ answer slots c', ∀ (r : Registry) (w : World RamDisk κ) (others : List OpenFile),
    r.Settled w.medium → r.Accounts (t.files ++ others) → r.cell w.medium name = c → w.medium.limit = limit →
    (t.serve r w call).1 = answer ∧ (t.serve r w call).2.1.shown = slots ∧
      Registry.Confined name c' (r, w.medium) ((t.serve r w call).2.2.1, (t.serve r w call).2.2.2.medium)

variable {t : Descriptors} {fd : Fd} {file : OpenFile} {cursor : Nat}

omit [Console κ] in
/-- The file of a descriptor is registered and stored under its name. -/
theorem registered_of_get? (h : t.get? fd = some ⟨.file file, cursor⟩) {r : Registry} {w : World RamDisk κ} {others : List OpenFile}
    (hs : r.Settled w.medium) (ha : r.Accounts (t.files ++ others)) :
    (∃ entry, r.find? file.name = some entry ∧ entry.file = file) ∧ w.medium.names[file.name]? = some file.object :=
  hs.registered ha (List.mem_append_left others (mem_files h rfl))

/-- Opening a name is about this name. -/
theorem local_openFile (t : Descriptors) (name : String) (mode : OpenMode) : t.Local κ name (.openFile name mode) := by
  intro limit c
  cases hfree : t.findFree with
  | none =>
    refine ⟨.opened (.error .noFreeDescriptors), t.shown, c, fun r w others hs ha hc hl => ?_⟩
    rw [serve, openFile, hfree]
    exact ⟨rfl, rfl, hc ▸ Registry.confined_self r w.medium name⟩
  | some fd =>
    rcases hcell : c.acquire mode with ⟨e | ⟨⟩, c'⟩
    · refine ⟨.opened (.error e), t.shown, c', fun r w others hs ha hc hl => ?_⟩
      obtain ⟨hanswer, hconfined⟩ := Registry.confined_acquire hs name mode
      rw [hc, hcell] at hanswer hconfined
      rcases hacquire : r.acquire w name mode with ⟨e' | file, r', w'⟩
      · rw [hacquire] at hanswer hconfined
        cases hanswer
        rw [serve, openFile, hfree]
        simp only [hacquire]
        exact ⟨trivial, trivial, hconfined⟩
      · rw [hacquire] at hanswer
        cases hanswer
    · refine ⟨.opened (.ok fd), t.shown.set fd.slot (some ⟨.file name, 0⟩), c', fun r w others hs ha hc hl => ?_⟩
      obtain ⟨hanswer, hconfined⟩ := Registry.confined_acquire hs name mode
      rw [hc, hcell] at hanswer hconfined
      rcases hacquire : r.acquire w name mode with ⟨e' | file, r', w'⟩
      · rw [hacquire] at hanswer
        cases hanswer
      · rw [hacquire] at hconfined
        have hname : file.name = name := ha.name_of_acquire hacquire
        rw [serve, openFile, hfree]
        simp only [hacquire]
        refine ⟨trivial, ?_, hconfined⟩
        rw [shown_put, ← hname]
        rfl

/-- Reading through a descriptor of a file is about the name of the file. -/
theorem local_read (h : t.get? fd = some ⟨.file file, cursor⟩) (count : Nat)
    (deliver : List UInt8 → Except KernelError Unit) : t.Local κ file.name (.read fd count deliver) := by
  intro limit c
  have hread : ∀ (r : Registry) (w : World RamDisk κ) (others : List OpenFile), r.Settled w.medium →
      r.Accounts (t.files ++ others) → r.cell w.medium file.name = c →
      t.fetch w fd count = (.ok (⟨.file file, cursor⟩, c.readAt cursor count), w) := by
    intro r w others hs ha hc
    rw [fetch_file h, Registry.readAt_eq_cell r (registered_of_get? κ h hs ha).2, hc]
  cases hdeliver : deliver (c.readAt cursor count) with
  | error e =>
    refine ⟨.read (.error e), t.shown, c, fun r w others hs ha hc hl => ?_⟩
    simp only [serve, readWith, hread r w others hs ha hc, hdeliver]
    exact ⟨trivial, trivial, hc ▸ Registry.confined_self r w.medium file.name⟩
  | ok _ =>
    refine ⟨.read (.ok (c.readAt cursor count)), (t.advance fd ⟨.file file, cursor⟩ (c.readAt cursor count).length).shown, c,
      fun r w others hs ha hc hl => ?_⟩
    simp only [serve, readWith, hread r w others hs ha hc, hdeliver]
    exact ⟨trivial, trivial, hc ▸ Registry.confined_self r w.medium file.name⟩

/-- So is writing through it. -/
theorem local_write (h : t.get? fd = some ⟨.file file, cursor⟩) (data : List UInt8) : t.Local κ file.name (.write fd data) := by
  intro limit c
  have hlook : t.lookUp fd = .ok ⟨.file file, cursor⟩ := by rw [lookUp, h]
  rcases hcell : c.writeAt limit cursor data with ⟨e | count, c'⟩
  · refine ⟨.written (.error (.ofStorage e)), t.shown, c', fun r w others hs ha hc hl => ?_⟩
    obtain ⟨hanswer, hconfined⟩ := Registry.confined_writeAt hs (registered_of_get? κ h hs ha).2 cursor data
    rw [hc, hl, hcell] at hanswer hconfined
    rcases hw : w.writeAt file.object cursor data with ⟨result, w'⟩
    rw [hw] at hanswer hconfined
    obtain rfl : result = .error e := hanswer
    simp only [serve, write, hlook, hw]
    exact ⟨trivial, trivial, hconfined⟩
  · refine ⟨.written (.ok (min count data.length)), (t.advance fd ⟨.file file, cursor⟩ (min count data.length)).shown, c',
      fun r w others hs ha hc hl => ?_⟩
    obtain ⟨hanswer, hconfined⟩ := Registry.confined_writeAt hs (registered_of_get? κ h hs ha).2 cursor data
    rw [hc, hl, hcell] at hanswer hconfined
    rcases hw : w.writeAt file.object cursor data with ⟨result, w'⟩
    rw [hw] at hanswer hconfined
    obtain rfl : result = .ok count := hanswer
    simp only [serve, write, hlook, hw]
    exact ⟨trivial, trivial, hconfined⟩

/-- So is closing it. -/
theorem local_close (h : t.get? fd = some ⟨.file file, cursor⟩) : t.Local κ file.name (.close fd) := by
  intro limit c
  refine ⟨.closed (.ok ()), (t.put fd none).shown, c.release, fun r w others hs ha hc hl => ?_⟩
  obtain ⟨⟨entry, hf, he⟩, -⟩ := registered_of_get? κ h hs ha
  have hconfined := Registry.confined_release hf he w
  rw [hc] at hconfined
  simp only [serve, close, h, Descriptor.file?]
  exact ⟨trivial, trivial, hconfined⟩

end Local

end Descriptors

/-! ## Calls to several tables -/

/-- The call that is made of a table, with the place of the table, if it is one. -/
def FileCall.tableCall? : FileCall → Option (Nat × TableCall)
  | .openFile place name mode => some (place, .openFile name mode)
  | .close place fd => some (place, .close fd)
  | .closeAll place => some (place, .closeAll)
  | .read place fd count delivered =>
    some (place, .read fd count fun _ => if delivered then .ok () else .error KernelError.invalidAddress)
  | .write place fd data => some (place, .write fd data)
  | _ => none

/-- What is answered. -/
inductive FileAnswer where
  /-- Nobody answers. -/
  | nothing
  /-- A table answers. -/
  | table (answer : TableAnswer)
  /-- The registry answers. -/
  | registry (result : Except KernelError Unit)

/-- What can be seen of the files. -/
structure FileView where
  /-- The slots of all tables. -/
  tables : List (List (Option ShownSlot))
  /-- What is kept of every name. -/
  cells : String → Cell

namespace SharedFiles

variable {κ : Type}

/-- What is kept of a name. -/
def cell (s : SharedFiles κ) (name : String) : Cell := s.registry.cell s.world.medium name

/-- What can be seen of the files. -/
def view (s : SharedFiles κ) : FileView := ⟨s.tables.map Descriptors.shown, s.cell⟩

/-- A descriptor of a table leads to a file of a name. -/
def LeadsTo (s : SharedFiles κ) (place : Nat) (fd : Fd) (name : String) : Prop :=
  ∃ t file cursor, s.tables[place]? = some t ∧ t.get? fd = some ⟨.file file, cursor⟩ ∧ file.name = name

/-- A call is work of a table on a file of a name. -/
inductive WorksOn (s : SharedFiles κ) (place : Nat) (name : String) : FileCall → Prop where
  /-- The file is opened, in any mode. -/
  | openFile (mode : OpenMode) : WorksOn s place name (.openFile place name mode)
  /-- It is read through a descriptor. -/
  | read {fd : Fd} (h : s.LeadsTo place fd name) (count : Nat) (delivered : Bool) :
      WorksOn s place name (.read place fd count delivered)
  /-- It is written to through a descriptor. -/
  | write {fd : Fd} (h : s.LeadsTo place fd name) (data : List UInt8) : WorksOn s place name (.write place fd data)
  /-- A descriptor of it is closed. -/
  | close {fd : Fd} (h : s.LeadsTo place fd name) : WorksOn s place name (.close place fd)
  /-- It is deleted. -/
  | unlink : WorksOn s place name (.unlink name)

/-- All that work of a table on a file can see is the same. -/
structure SameAt (place : Nat) (name : String) (s s' : SharedFiles κ) : Prop where
  /-- The table. -/
  table : s'.tables[place]? = s.tables[place]?
  /-- What is kept of the name. -/
  cell : s'.cell name = s.cell name
  /-- The limit of the medium. -/
  limit : s'.world.medium.limit = s.world.medium.limit

/-- Nothing has changed but for one table and what is kept of one name. -/
structure Keeps (place : Nat) (name : String) (s s' : SharedFiles κ) : Prop where
  /-- All other tables are the same. -/
  tables : ∀ other, place ≠ other → s'.tables[other]? = s.tables[other]?
  /-- What is kept of all other names is the same. -/
  cells : ∀ other, name ≠ other → s'.cell other = s.cell other
  /-- The limit of the medium is the same. -/
  limit : s'.world.medium.limit = s.world.medium.limit

variable {s s' : SharedFiles κ} {place : Nat} {name : String} {call : FileCall} {c : TableCall} {t : Descriptors}

/-- What can be seen is known by what can be seen of each table and what is kept of each name. -/
theorem view_ext (ht : ∀ place : Nat, s.tables[place]?.map Descriptors.shown = s'.tables[place]?.map Descriptors.shown)
    (hc : ∀ name, s.cell name = s'.cell name) : s.view = s'.view := by
  have htables : s.tables.map Descriptors.shown = s'.tables.map Descriptors.shown := by
    refine List.ext_getElem? fun place => ?_
    rw [List.getElem?_map, List.getElem?_map, ht]
  rw [view, view, htables, funext hc]

/-- Work on one file leaves all that work on another can see. -/
theorem Keeps.sameAt (h : Keeps place name s s') {place' : Nat} {name' : String} (hp : place ≠ place') (hn : name ≠ name') :
    SameAt place' name' s s' :=
  ⟨h.tables place' hp, h.cells name' hn, h.limit⟩

/-- What work is on a file depends on the table alone. -/
theorem WorksOn.congr (h : s.WorksOn place name call) (ht : s'.tables[place]? = s.tables[place]?) : s'.WorksOn place name call := by
  have hleads : ∀ {fd : Fd}, s.LeadsTo place fd name → s'.LeadsTo place fd name := by
    rintro fd ⟨t, file, cursor, htable, hd, hname⟩
    exact ⟨t, file, cursor, ht.trans htable, hd, hname⟩
  cases h with
  | openFile mode => exact .openFile mode
  | read h count delivered => exact .read (hleads h) count delivered
  | write h data => exact .write (hleads h) data
  | close h => exact .close (hleads h)
  | unlink => exact .unlink

variable [Console κ]

/-- What a call is answered. -/
def answer (s : SharedFiles κ) (call : FileCall) : FileAnswer :=
  match call.tableCall? with
  | some (place, c) =>
    match s.tables[place]? with
    | some t => .table (t.serve s.registry s.world c).1
    | none => .nothing
  | none =>
    match call with
    | .mark name => .registry (s.registry.markForDeletion s.world name).1
    | .unlink name => .registry (s.registry.unlink s.world name).1
    | _ => .nothing

/-- A call that is made of a table that is there is served by it. -/
theorem step_of_tableCall? (hc : call.tableCall? = some (place, c)) (ht : s.tables[place]? = some t) :
    s.step call = ⟨s.tables.set place (t.serve s.registry s.world c).2.1, (t.serve s.registry s.world c).2.2.1,
      (t.serve s.registry s.world c).2.2.2⟩ := by
  cases call with
  | table capacity => cases hc
  | mark name => cases hc
  | unlink name => cases hc
  | openFile place name mode =>
    cases hc
    simp only [step, onTable, ht, Descriptors.serve]
    rcases t.openFile s.registry s.world name mode with ⟨e | ⟨fd, t'⟩, r', w'⟩ <;> rfl
  | close place fd =>
    cases hc
    simp only [step, onTable, ht, Descriptors.serve]
    rcases t.close s.registry s.world fd with ⟨e | t', r', w'⟩ <;> rfl
  | closeAll place =>
    cases hc
    simp only [step, onTable, ht, Descriptors.serve]
    rfl
  | read place fd count delivered =>
    cases hc
    simp only [step, onTable, ht, Descriptors.serve]
    generalize (t.readWith s.world fd count fun _ => if delivered then .ok () else .error KernelError.invalidAddress) = found
    rcases found with ⟨e | ⟨bytes, ⟨⟩, t'⟩, w'⟩ <;> rfl
  | write place fd data =>
    cases hc
    simp only [step, onTable, ht, Descriptors.serve]
    rcases t.write s.world fd data with ⟨e | ⟨count, t'⟩, w'⟩ <;> rfl

/-- One that is made of a table that is not there changes nothing. -/
theorem step_of_no_table (hc : call.tableCall? = some (place, c)) (ht : s.tables[place]? = none) : s.step call = s := by
  cases call with
  | table capacity => cases hc
  | mark name => cases hc
  | unlink name => cases hc
  | _ =>
    cases hc
    simp only [step, onTable, ht]

/-- Work on a file deletes the file, or is a call of the table that is about its name. -/
theorem WorksOn.cases (h : s.WorksOn place name call) :
    call = .unlink name ∨
      ∃ c, call.tableCall? = some (place, c) ∧ ∀ t, s.tables[place]? = some t → t.Local κ name c := by
  cases h with
  | openFile mode => exact .inr ⟨_, rfl, fun t _ => t.local_openFile κ name mode⟩
  | read h count delivered =>
    obtain ⟨t, file, cursor, ht, hd, rfl⟩ := h
    refine .inr ⟨_, rfl, fun t' ht' => ?_⟩
    cases ht.symm.trans ht'
    exact Descriptors.local_read κ hd count _
  | write h data =>
    obtain ⟨t, file, cursor, ht, hd, rfl⟩ := h
    refine .inr ⟨_, rfl, fun t' ht' => ?_⟩
    cases ht.symm.trans ht'
    exact Descriptors.local_write κ hd data
  | close h =>
    obtain ⟨t, file, cursor, ht, hd, rfl⟩ := h
    refine .inr ⟨_, rfl, fun t' ht' => ?_⟩
    cases ht.symm.trans ht'
    exact Descriptors.local_close κ hd
  | unlink => exact .inl rfl

/-- Work on a file changes nothing but its table and what is kept of its name. -/
theorem WorksOn.keeps (h : s.WorksOn place name call) (hs : s.Sound) : Keeps place name s (s.step call) := by
  rcases h.cases with rfl | ⟨c, hc, hlocal⟩
  · obtain ⟨-, hconfined⟩ := Registry.confined_unlink s.registry s.world name
    exact ⟨fun _ _ => rfl, hconfined.elsewhere, hconfined.limit⟩
  · cases ht : s.tables[place]? with
    | none =>
      rw [step_of_no_table hc ht]
      exact ⟨fun _ _ => rfl, fun _ _ => rfl, rfl⟩
    | some t =>
      obtain ⟨others, ha⟩ := hs.accounts_table ht
      obtain ⟨_, _, _, hserve⟩ := hlocal t ht s.world.medium.limit (s.cell name)
      obtain ⟨-, -, hconfined⟩ := hserve s.registry s.world others hs.settled ha rfl rfl
      rw [step_of_tableCall? hc ht]
      exact ⟨fun other hne => List.getElem?_set_ne hne, hconfined.elsewhere, hconfined.limit⟩

/-- Work on a file comes to the same wherever all that it can see is the same. -/
theorem WorksOn.agrees (h : s.WorksOn place name call) (hs : s.Sound) (hs' : s'.Sound) (hsame : SameAt place name s s') :
    s'.answer call = s.answer call ∧
      (s'.step call).tables[place]?.map Descriptors.shown = (s.step call).tables[place]?.map Descriptors.shown ∧
      (s'.step call).cell name = (s.step call).cell name := by
  rcases h.cases with rfl | ⟨c, hc, hlocal⟩
  · obtain ⟨hanswer, hconfined⟩ := Registry.confined_unlink s.registry s.world name
    obtain ⟨hanswer', hconfined'⟩ := Registry.confined_unlink s'.registry s'.world name
    have hcell : s'.registry.cell s'.world.medium name = s.registry.cell s.world.medium name := hsame.cell
    rw [hcell] at hanswer' hconfined'
    refine ⟨?_, congrArg (Option.map Descriptors.shown) hsame.table, hconfined'.here.trans hconfined.here.symm⟩
    simp only [answer, FileCall.tableCall?, hanswer, hanswer']
  · cases ht : s.tables[place]? with
    | none =>
      have ht' := hsame.table.trans ht
      rw [step_of_no_table hc ht, step_of_no_table hc ht', ht, ht']
      refine ⟨?_, rfl, hsame.cell⟩
      simp only [answer, hc, ht, ht']
    | some t =>
      have ht' := hsame.table.trans ht
      obtain ⟨others, ha⟩ := hs.accounts_table ht
      obtain ⟨others', ha'⟩ := hs'.accounts_table ht'
      obtain ⟨_, _, _, hserve⟩ := hlocal t ht s.world.medium.limit (s.cell name)
      obtain ⟨hanswer, hshown, hconfined⟩ := hserve s.registry s.world others hs.settled ha rfl rfl
      obtain ⟨hanswer', hshown', hconfined'⟩ := hserve s'.registry s'.world others' hs'.settled ha' hsame.cell hsame.limit
      have hplace : place < s.tables.length := (List.getElem?_eq_some_iff.mp ht).1
      have hplace' : place < s'.tables.length := (List.getElem?_eq_some_iff.mp ht').1
      rw [step_of_tableCall? hc ht, step_of_tableCall? hc ht']
      refine ⟨?_, ?_, hconfined'.here.trans hconfined.here.symm⟩
      · simp only [answer, hc, ht, ht', hanswer, hanswer']
      · simp only [List.getElem?_set_self hplace, List.getElem?_set_self hplace', Option.map_some, hshown, hshown']

/-- Work of different tables on files of different names is independent. At every point of every run of calls to descriptor tables
over one registry, over a medium in memory on which no two names lead to one object at first, work of one table on a file of one
name and work of another table on a file of another name are answered the same whichever is done first, and lead to the same slots
and cursors of all tables and to the same references, marks for deletion and bytes of all names. -/
theorem independent_calls_commute {world : World RamDisk κ} (hw : world.medium.Whole) (hs : world.medium.Separate)
    (calls : List FileCall) {place place' : Nat} {name name' : String} {first second : FileCall} (hp : place ≠ place')
    (hn : name ≠ name') :
    let s := (start world).run calls
    s.WorksOn place name first → s.WorksOn place' name' second →
      (s.step second).answer first = s.answer first ∧ (s.step first).answer second = s.answer second ∧
      ((s.step second).step first).view = ((s.step first).step second).view := by
  intro s hfirst hsecond
  have hsound : s.Sound := (sound_start hw hs).run calls
  have hkeeps : Keeps place name s (s.step first) := hfirst.keeps hsound
  have hkeeps' : Keeps place' name' s (s.step second) := hsecond.keeps hsound
  obtain ⟨hanswer, htable, hcell⟩ := hfirst.agrees hsound (hsound.step second) (hkeeps'.sameAt hp.symm hn.symm)
  obtain ⟨hanswer', htable', hcell'⟩ := hsecond.agrees hsound (hsound.step first) (hkeeps.sameAt hp hn)
  -- Done second, each still changes nothing but its own table and its own name.
  have hlater : Keeps place name (s.step second) ((s.step second).step first) :=
    (hfirst.congr (hkeeps'.tables place hp.symm)).keeps (hsound.step second)
  have hlater' : Keeps place' name' (s.step first) ((s.step first).step second) :=
    (hsecond.congr (hkeeps.tables place' hp)).keeps (hsound.step first)
  refine ⟨hanswer, hanswer', view_ext (fun other => ?_) fun other => ?_⟩
  · by_cases ho : place = other
    · rw [← ho, htable, hlater'.tables place hp.symm]
    · by_cases ho' : place' = other
      · rw [← ho', htable', hlater.tables place' hp]
      · rw [hlater.tables other ho, hkeeps'.tables other ho', hlater'.tables other ho', hkeeps.tables other ho]
  · by_cases ho : name = other
    · rw [← ho, hcell, hlater'.cells name hn.symm]
    · by_cases ho' : name' = other
      · rw [← ho', hcell', hlater.cells name' hn]
      · rw [hlater.cells other ho, hkeeps'.cells other ho', hlater'.cells other ho', hkeeps.cells other ho]

/-- Two tables have a file open each, and one of the files was deleted, but stays as long as it is open. -/
def deletedInUse : List FileCall :=
  [.table 4, .table 4, .openFile 0 "a" .fresh, .openFile 1 "b" .fresh, .write 0 ⟨2⟩ [97], .unlink "a"]

/-- One table closes the last descriptor of the deleted file, and the other table makes a new file: in either order the deleted file
goes and the new one comes. -/
theorem deletedInUse_commutes :
    let s := (start { medium := RamDisk.empty none, console := Silent.mk }).run deletedInUse
    let first := FileCall.close 0 ⟨2⟩
    let second := FileCall.openFile 1 "c" .create
    ((s.step first).step second).cell "a" = ⟨none, none⟩ ∧ ((s.step first).step second).cell "c" = ⟨some (1, false), some []⟩ ∧
      (s.step second).answer first = s.answer first ∧ (s.step first).answer second = s.answer second ∧
      ((s.step second).step first).view = ((s.step first).step second).view := by
  intro s first second
  have hfirst : s.WorksOn 0 "a" first := .close ⟨_, ⟨0, "a", ⟨0⟩⟩, 1, rfl, by decide, rfl⟩
  have hsecond : s.WorksOn 1 "c" second := .openFile _
  exact ⟨by decide, by decide,
    independent_calls_commute (RamDisk.whole_empty none) (RamDisk.separate_empty none) deletedInUse (by decide) (by decide) hfirst hsecond⟩

end SharedFiles

end Nucleus
