import Nucleus.Proofs.Closing

/-!
# Handles that are given back too often

Whoever holds a handle may give it back any number of times, also when its name has been opened anew since, and the medium may fail
at any request. A reference is taken off only when the handle is that of the file which is registered (`Registry.Registers`); any
other release comes to nothing. So a registry accounts for the handles that it gave out, less those that were given back in time
(`Lending.Sound`), however the others are used (`Lending.misuse_harmless`).
-/

namespace Nucleus

namespace Registry

/-- A file is the one that is registered under its name. -/
def Registers (r : Registry) (file : OpenFile) : Prop := (r.find? file.name).map Entry.file = some file

instance (r : Registry) (file : OpenFile) : Decidable (r.Registers file) := inferInstanceAs (Decidable (_ = _))

variable {r r' : Registry} {files : List OpenFile} {file : OpenFile} {name : String} {entry : Entry} {mode : OpenMode}

/-- Just the files that are accounted for are registered. -/
theorem Accounts.registers_iff (h : r.Accounts files) : r.Registers file ↔ file ∈ files := by
  constructor
  · intro hr
    obtain ⟨entry, hf, rfl⟩ := Option.map_eq_some_iff.mp hr
    have hm : entry.file ∈ named files entry.file.name := by
      rw [h.handles, hf]
      exact List.mem_replicate.mpr ⟨Nat.ne_of_gt (h.held _ entry hf), rfl⟩
    exact (List.mem_filter.mp hm).1
  · intro hm
    obtain ⟨entry, hf, he⟩ := h.shared hm
    rw [Registers, hf, Option.map_some, he]

/-- A registered file is accounted for as often as references to it are counted. -/
theorem Accounts.count_eq (h : r.Accounts files) (hf : r.find? name = some entry) : files.count entry.file = entry.refs := by
  have ht : entry.file.name = name := h.titled hf
  have hnamed : (named files name).count entry.file = files.count entry.file :=
    List.count_filter (decide_eq_true ht)
  rw [← hnamed, h.handles, hf, Option.map_some, Option.getD_some, Entry.handles, List.count_replicate_self]

variable {μ κ : Type} [Medium μ] {w w' : World μ κ}

/-- Looking a name up opens no file yet. -/
theorem opened_lookUp (w : World μ κ) (name : String) (mode : OpenMode) : (lookUp w name mode).2.opened = w.opened := by
  have hfind : (w.find name).2.opened = w.opened := rfl
  have hcreate : ∀ w : World μ κ, (w.create name).2.opened = w.opened := by
    intro w
    unfold World.create
    split <;> rfl
  unfold lookUp
  split
  · exact hfind
  · split
    · exact hcreate w
    · split
      · rename_i w' hmissing
        rw [hmissing] at hfind
        exact (hcreate w').trans hfind
      · exact hfind

/-- A name that is opened gives the file that is registered under it, or one with a number that no file had before. -/
theorem acquire_old_or_new (h : r.acquire w name mode = (.ok file, r', w')) :
    (r.find? name).map Entry.file = some file ∨ file.serial = w.opened ∧ w'.opened = w.opened + 1 := by
  unfold acquire at h
  split at h
  · have hopened := opened_lookUp w name mode
    unfold acquireNew at h
    split at h
    · cases h
    · rename_i w'' hl
      rw [hl] at hopened
      cases h
      exact .inr ⟨hopened, congrArg (· + 1) hopened⟩
  · rename_i entry hf
    unfold acquireShared at h
    rw [hf]
    split at h
    · cases h
    · split at h
      · split at h
        · cases h
        · cases h
          exact .inl rfl
      · cases h
        exact .inl rfl

/-- Numbers that were given out stay given out. -/
theorem opened_le_acquire (r : Registry) (w : World μ κ) (name : String) (mode : OpenMode) :
    w.opened ≤ (r.acquire w name mode).2.2.opened := by
  unfold acquire
  split
  · have hopened := opened_lookUp w name mode
    unfold acquireNew
    split <;> rename_i hl <;> rw [hl] at hopened
    · exact Nat.le_of_eq hopened.symm
    · exact Nat.le_succ_of_le (Nat.le_of_eq hopened.symm)
  · rename_i entry hf
    have htruncate : (w.truncate entry.file.object).2.opened = w.opened := rfl
    split
    · exact Nat.le_refl _
    · split
      · split <;> rename_i ht <;> rw [ht] at htruncate <;> exact Nat.le_of_eq htruncate.symm
      · exact Nat.le_refl _

/-- Giving files back and deleting them opens none. -/
theorem opened_remove (w : World μ κ) (name : String) : (w.remove name).2.opened = w.opened := by
  unfold World.remove
  split <;> rfl

theorem opened_release (r : Registry) (w : World μ κ) (file : OpenFile) : (r.release w file).2.opened = w.opened :=
  (alike_release r w file).opened

theorem opened_unlink (r : Registry) (w : World μ κ) (name : String) : (r.unlink w name).2.2.opened = w.opened := by
  have hremove := opened_remove w name
  unfold unlink
  split
  · split <;> rfl
  · split <;> rename_i h <;> rw [h] at hremove <;> exact hremove

/-- A release of a file that is not the registered one is reported, and that is all. -/
theorem release_of_not_registers (h : ¬r.Registers file) (w : World μ κ) :
    ∃ event, r.release w file = (r, w.note event) := by
  unfold release
  cases hf : r.find? file.name with
  | none => exact ⟨_, rfl⟩
  | some entry =>
    have hne : entry.file ≠ file := by
      intro he
      apply h
      rw [Registers, hf, Option.map_some, he]
    dsimp only
    rw [if_pos hne]
    exact ⟨_, rfl⟩

end Registry

/-! ## Handles that are lent -/

/-- What is asked of a registry. -/
inductive RegistryCall where
  /-- A name is opened. -/
  | acquire (name : String) (mode : OpenMode)
  /-- A handle is given back, which is told by its place among those that were ever given out. -/
  | release (handle : Nat)
  /-- An open file is marked for deletion. -/
  | mark (name : String)
  /-- A name is deleted. -/
  | unlink (name : String)

/-- A registry, what it works on, and all handles that it gave out. -/
structure Lending (μ κ : Type) where
  /-- The registry. -/
  registry : Registry
  /-- The medium and the console. -/
  world : World μ κ
  /-- The handles, one for every name that was opened, in this order. They stay when they are given back. -/
  handles : List OpenFile

namespace Lending

variable {μ κ : Type} [Medium μ]

omit [Medium μ] in
/-- Before the first call nothing is registered and no handle was given out. -/
def start (world : World μ κ) : Lending μ κ := ⟨.empty, world, []⟩

/-- What there is after a call. -/
def step (s : Lending μ κ) : RegistryCall → Lending μ κ
  | .acquire name mode =>
    let found := s.registry.acquire s.world name mode
    ⟨found.2.1, found.2.2, s.handles ++ found.1.toOption.toList⟩
  | .release handle =>
    match s.handles[handle]? with
    | none => s
    | some file => ⟨(s.registry.release s.world file).1, (s.registry.release s.world file).2, s.handles⟩
  | .mark name =>
    let done := s.registry.markForDeletion s.world name
    ⟨done.2.1, done.2.2, s.handles⟩
  | .unlink name =>
    let done := s.registry.unlink s.world name
    ⟨done.2.1, done.2.2, s.handles⟩

/-- What there is after several calls. -/
def run (s : Lending μ κ) (calls : List RegistryCall) : Lending μ κ := calls.foldl step s

/-- How often a call gives a file back while it is registered. -/
def returns (s : Lending μ κ) (file : OpenFile) : RegistryCall → Nat
  | .release handle => if s.handles[handle]? = some file ∧ s.registry.Registers file then 1 else 0
  | _ => 0

/-- How often several calls do. -/
def returned (s : Lending μ κ) (file : OpenFile) : List RegistryCall → Nat
  | [] => 0
  | c :: rest => s.returns file c + (s.step c).returned file rest

/-- Of each file as many references are held as handles were given out, less those that were given back in time. -/
structure Sound (s : Lending μ κ) (held : List OpenFile) (back : OpenFile → Nat) : Prop where
  /-- The registry accounts for the references that are held. -/
  accounts : s.registry.Accounts held
  /-- The handles of a file are those that are held and those that were given back. -/
  balance : ∀ file, held.count file + back file = s.handles.count file
  /-- The numbers that are given out next are those of no handle. -/
  fresh : ∀ file ∈ s.handles, file.serial < s.world.opened

variable {s : Lending μ κ} {held : List OpenFile} {back : OpenFile → Nat} {file : OpenFile}

omit [Medium μ] in
theorem sound_start (world : World μ κ) : (start world).Sound [] fun _ => 0 :=
  ⟨Registry.accounts_empty, fun _ => rfl, fun _ hm => absurd hm List.not_mem_nil⟩

omit [Medium μ] in
/-- A reference that is held was given out as a handle. -/
theorem Sound.mem_handles (h : s.Sound held back) (hm : file ∈ held) : file ∈ s.handles := by
  have hpos : 0 < held.count file := List.count_pos_iff.mpr hm
  have hbalance := h.balance file
  exact List.count_pos_iff.mp (by omega)

/-- What a call comes to: the balance stays, no handle is forgotten, and no reference is held anew to a file that was given out
before and is held no longer. -/
structure Goes (s : Lending μ κ) (held : List OpenFile) (back : OpenFile → Nat) (s' : Lending μ κ) (held' : List OpenFile)
    (back' : OpenFile → Nat) : Prop where
  /-- The balance stays. -/
  sound : s'.Sound held' fun file => back file + back' file
  /-- Handles stay. -/
  handles : ∀ file ∈ s.handles, file ∈ s'.handles
  /-- Of the files that were given out before, those are held that were. -/
  kept : ∀ file ∈ s.handles, file ∈ held' → file ∈ held

omit [Medium μ] in
/-- A call may do neither: no handle is given out and no reference is given back. -/
theorem Sound.goes_on (h : s.Sound held back) {r : Registry} {w : World μ κ} (hr : r.Accounts held)
    (hw : s.world.opened ≤ w.opened) : s.Goes held back ⟨r, w, s.handles⟩ held fun _ => 0 where
  sound := ⟨hr, h.balance, fun file hm => Nat.lt_of_lt_of_le (h.fresh file hm) hw⟩
  handles _ hm := hm
  kept _ _ hm := hm

/-- A name is opened. -/
theorem Sound.acquire (h : s.Sound held back) (name : String) (mode : OpenMode) :
    ∃ held', s.Goes held back (s.step (.acquire name mode)) held' fun _ => 0 := by
  have hle := Registry.opened_le_acquire s.registry s.world name mode
  rcases ha : s.registry.acquire s.world name mode with ⟨e | file, r, w⟩
  · have hstep : s.step (.acquire name mode) = ⟨r, w, s.handles⟩ := by simp [step, ha, Except.toOption]
    replace hle : s.world.opened ≤ w.opened := by rwa [ha] at hle
    rw [hstep]
    exact ⟨held, h.goes_on (Registry.acquire_error ha ▸ h.accounts) hle⟩
  · have hstep : s.step (.acquire name mode) = ⟨r, w, s.handles ++ [file]⟩ := by simp [step, ha, Except.toOption]
    replace hle : s.world.opened ≤ w.opened := by rwa [ha] at hle
    -- The file is held already, or its number was not given out before.
    have hnumber : file ∈ held ∨ file.serial = s.world.opened ∧ w.opened = s.world.opened + 1 := by
      rcases Registry.acquire_old_or_new ha with hold | hnew
      · rw [← h.accounts.name_of_acquire ha] at hold
        exact .inl (h.accounts.registers_iff.mp hold)
      · exact .inr hnew
    rw [hstep]
    refine ⟨file :: held, ⟨h.accounts.acquire ha, fun other => ?_, fun other hm => ?_⟩,
      fun other hm => List.mem_append_left _ hm, fun other hm hheld => ?_⟩
    · have hbalance := h.balance other
      rw [List.count_append, List.count_cons, List.count_singleton]
      omega
    · rcases List.mem_append.mp hm with hm | hm
      · exact Nat.lt_of_lt_of_le (h.fresh other hm) hle
      · obtain rfl : other = file := List.mem_singleton.mp hm
        rcases hnumber with hold | ⟨hserial, hopened⟩
        · exact Nat.lt_of_lt_of_le (h.fresh other (h.mem_handles hold)) hle
        · exact Nat.lt_of_le_of_lt (Nat.le_of_eq hserial) (Nat.lt_of_lt_of_eq (Nat.lt_succ_self _) hopened.symm)
    · rcases List.mem_cons.mp hheld with rfl | hheld
      · rcases hnumber with hold | ⟨hserial, -⟩
        · exact hold
        · exact absurd (h.fresh other hm) (by omega)
      · exact hheld

/-- A handle is given back. -/
theorem Sound.release (h : s.Sound held back) (handle : Nat) :
    ∃ held', s.Goes held back (s.step (.release handle)) held' fun file => s.returns file (.release handle) := by
  cases hh : s.handles[handle]? with
  | none =>
    have hstep : s.step (.release handle) = s := by simp only [step, hh]
    have hreturns : ∀ file, s.returns file (.release handle) = 0 := fun file => if_neg (by simp [hh])
    simp only [hstep, hreturns]
    exact ⟨held, h.goes_on h.accounts (Nat.le_refl _)⟩
  | some file =>
    have hstep : s.step (.release handle) =
        ⟨(s.registry.release s.world file).1, (s.registry.release s.world file).2, s.handles⟩ := by simp only [step, hh]
    have hreturns : ∀ other, s.returns other (.release handle) = if file = other ∧ s.registry.Registers other then 1 else 0 := by
      simp [returns, hh]
    have hopened : s.world.opened ≤ (s.registry.release s.world file).2.opened :=
      Nat.le_of_eq (Registry.opened_release s.registry s.world file).symm
    simp only [hstep, hreturns]
    by_cases hr : s.registry.Registers file
    · have hm : file ∈ held := h.accounts.registers_iff.mp hr
      have hperm : held.Perm (file :: held.erase file) := List.perm_cons_erase hm
      refine ⟨held.erase file, ⟨((h.accounts.perm hperm).release s.world).1, fun other => ?_, fun other ho => ?_⟩,
        fun _ ho => ho, fun _ _ ho => List.mem_of_mem_erase ho⟩
      · have hcount : held.count other = (held.erase file).count other + if file = other then 1 else 0 := by
          rw [hperm.count_eq, List.count_cons]
          simp
        have hbalance := h.balance other
        by_cases he : file = other
        · subst he
          simp only [true_and, if_pos hr]
          simp only [if_true] at hcount
          omega
        · simp only [he, false_and, if_false] at hcount ⊢
          omega
      · exact Nat.lt_of_lt_of_le (h.fresh other ho) hopened
    · have hnone : ∀ other, (if file = other ∧ s.registry.Registers other then 1 else 0) = 0 :=
        fun other => if_neg fun ⟨he, ho⟩ => hr (he ▸ ho)
      obtain ⟨event, he⟩ := Registry.release_of_not_registers hr s.world
      simp only [hnone]
      refine ⟨held, h.goes_on ?_ hopened⟩
      rw [he]
      exact h.accounts

/-- Every call keeps the balance. -/
theorem Sound.step (h : s.Sound held back) (c : RegistryCall) :
    ∃ held', s.Goes held back (s.step c) held' fun file => s.returns file c := by
  cases c with
  | acquire name mode => exact h.acquire name mode
  | release handle => exact h.release handle
  | mark name =>
    refine ⟨held, h.goes_on ?_ ?_⟩
    · unfold Registry.markForDeletion
      split
      · exact h.accounts
      · rename_i entry hf
        exact h.accounts.put_pending hf true
    · unfold Registry.markForDeletion
      split <;> exact Nat.le_refl _
  | unlink name =>
    exact ⟨held, h.goes_on (h.accounts.unlink s.world name) (Nat.le_of_eq (Registry.opened_unlink s.registry s.world name).symm)⟩

/-- So does every run. -/
theorem Sound.run (h : s.Sound held back) (calls : List RegistryCall) :
    ∃ held', s.Goes held back (s.run calls) held' fun file => s.returned file calls := by
  induction calls generalizing s held back with
  | nil => exact ⟨held, h.goes_on h.accounts (Nat.le_refl _)⟩
  | cons c rest ih =>
    obtain ⟨held', hfirst⟩ := h.step c
    obtain ⟨held'', hrest⟩ := ih hfirst.sound
    refine ⟨held'', ?_, fun file hm => hrest.handles file (hfirst.handles file hm), fun file hm hheld => ?_⟩
    · have hsound := hrest.sound
      simp only [Nat.add_assoc] at hsound
      exact hsound
    · exact hfirst.kept file hm (hrest.kept file (hfirst.handles file hm) hheld)

/-- However handles are given back, too often, too late, or after their name was opened anew, and wherever the medium fails: a
registered file has at least one reference and is registered under its own name, and its references are as many as the handles of
it that were given out, less those given back while it was registered. A file that was given out and is registered no longer never
is again. And a release of a file that is not registered leaves the registry and the medium as they are. -/
theorem misuse_harmless (world : World μ κ) (calls : List RegistryCall) :
    let s := (start world).run calls
    (∀ name entry, s.registry.find? name = some entry →
      0 < entry.refs ∧ entry.file.name = name ∧
        entry.refs + (start world).returned entry.file calls = s.handles.count entry.file) ∧
    (∀ file ∈ s.handles, ¬s.registry.Registers file → ∀ more, ¬(s.run more).registry.Registers file) ∧
    ∀ file, ¬s.registry.Registers file →
      (s.registry.release s.world file).1 = s.registry ∧ (s.registry.release s.world file).2.medium = s.world.medium := by
  intro s
  obtain ⟨held, hs⟩ := (sound_start world).run calls
  refine ⟨fun name entry hf => ?_, fun file hm hn more hr => ?_, fun file hn => ?_⟩
  · have hbalance := hs.sound.balance entry.file
    rw [hs.sound.accounts.count_eq hf, Nat.zero_add] at hbalance
    exact ⟨hs.sound.accounts.held name entry hf, hs.sound.accounts.titled hf, hbalance⟩
  · obtain ⟨held', hmore⟩ := hs.sound.run more
    have hheld : file ∈ held := hmore.kept file hm (hmore.sound.accounts.registers_iff.mp hr)
    exact hn (hs.sound.accounts.registers_iff.mpr hheld)
  · obtain ⟨event, he⟩ := Registry.release_of_not_registers hn s.world
    rw [he]
    exact ⟨rfl, rfl⟩

/-- A file is opened twice, while a third time fails, and its first handle is given back twice, so that it is registered no longer.
Its name is opened anew, and the old handles are given back once more. -/
def returnedTooOften : List RegistryCall :=
  [.acquire "a" .fresh, .acquire "a" .truncate, .acquire "a" .plain, .release 0, .release 0, .acquire "a" .plain, .release 1, .release 0]

/-- The new file keeps its one reference, and the old one stays gone. -/
theorem returnedTooOften_harmless :
    let world : World (Faulty RamDisk) Silent :=
      { medium := ⟨RamDisk.empty none, { truncate := [.fail .inputOutput] }⟩, console := Silent.mk }
    let s := (start world).run returnedTooOften
    let old : OpenFile := ⟨0, "a", ⟨0⟩⟩
    let entry : Entry := ⟨⟨1, "a", ⟨0⟩⟩, 1, false⟩
    s.handles = [old, old, entry.file] ∧ s.registry.find? "a" = some entry ∧
      0 < entry.refs ∧ entry.file.name = "a" ∧
      entry.refs + (start world).returned entry.file returnedTooOften = s.handles.count entry.file ∧
      (start world).returned old returnedTooOften = 2 ∧ ¬s.registry.Registers old ∧
      (∀ more, ¬(s.run more).registry.Registers old) ∧
      (s.registry.release s.world old).1 = s.registry ∧ (s.registry.release s.world old).2.medium = s.world.medium := by
  intro world s old entry
  have hhandles : s.handles = [old, old, entry.file] := by decide
  have hentry : s.registry.find? "a" = some entry := by decide
  have hgone : ¬s.registry.Registers old := by decide
  obtain ⟨hentries, hnever, hnothing⟩ := misuse_harmless world returnedTooOften
  obtain ⟨hpos, hname, hcount⟩ := hentries "a" entry hentry
  have hgiven : old ∈ s.handles := by
    rw [hhandles]
    exact List.mem_cons_self
  obtain ⟨hregistry, hmedium⟩ := hnothing old hgone
  exact ⟨hhandles, hentry, hpos, hname, hcount, by decide, hgone, hnever old hgiven hgone, hregistry, hmedium⟩

end Lending

end Nucleus
