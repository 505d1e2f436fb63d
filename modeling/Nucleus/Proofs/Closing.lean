import Nucleus.Proofs.Allocation
import Nucleus.Proofs.Stored
import Nucleus.Proofs.Transparency
import Nucleus.Device.Faulty
import Mathlib.Data.List.Nodup

/-!
# Closing all descriptors is closing each of them, in any order

What a release does to the entry of its name is seen in the entry alone (`Entry.less`, `Entry.ends`), and on a medium that takes names
off without fail two releases come to the same in either order (`Registry.release_comm`). So references can be given back in any
order, and a table whose descriptors are all closed at once leaves the registry and the medium as one whose descriptors are closed
one after another (`Descriptors.closeAll_as_each`).
-/

namespace Nucleus

/-! ## Taking names off -/

namespace RamDisk

/-- Taking a name off is forgetting where it leads. -/
theorem remove_eq_erase (d : RamDisk) (name : String) : (d.remove name).2 = { d with names := d.names.erase name } := by
  have hnames : (d.remove name).2.names = d.names.erase name := by
    refine Std.ExtTreeMap.ext_getElem? fun other => ?_
    rw [names_remove]
    simp [Std.ExtTreeMap.getElem?_erase]
  unfold remove at hnames ⊢
  split at hnames
  · rename_i hh
    rw [if_pos hh]
  · rename_i hh
    rw [if_neg hh, ← hnames]

/-- Names can be taken off in any order. -/
theorem remove_comm (d : RamDisk) (a b : String) : ((d.remove a).2.remove b).2 = ((d.remove b).2.remove a).2 := by
  simp only [remove_eq_erase]
  congr 1
  refine Std.ExtTreeMap.ext_getElem? fun other => ?_
  simp only [Std.ExtTreeMap.getElem?_erase]
  split <;> split <;> rfl

end RamDisk

namespace Faulty

variable {f : Faulty RamDisk}

/-- When no fault waits for it, a name is taken off what is underneath, and no fault is taken. -/
theorem remove_of_faultless (h : f.schedule.remove = []) (name : String) :
    (Medium.remove f name).2 = ⟨(f.device.remove name).2, f.schedule⟩ := by
  have htake : f.schedule.take .remove = (none, f.schedule) := by
    obtain ⟨device, schedule⟩ := f
    obtain ⟨create, find, remove, read, write, truncate⟩ := schedule
    cases h
    rfl
  change (f.ask .remove _).2 = _
  rw [ask, htake]
  rfl

/-- So names can be taken off in any order. -/
theorem remove_comm (h : f.schedule.remove = []) (a b : String) :
    (Medium.remove (Medium.remove f a).2 b).2 = (Medium.remove (Medium.remove f b).2 a).2 := by
  have hafter : ∀ name, (Medium.remove f name).2.schedule.remove = [] := fun name => by rw [remove_of_faultless h, h]
  rw [remove_of_faultless (hafter a), remove_of_faultless (hafter b), remove_of_faultless h, remove_of_faultless h,
    RamDisk.remove_comm]

end Faulty

/-! ## One reference less -/

namespace Entry

/-- What is left of an entry when a file is given back. -/
def less (e : Entry) (file : OpenFile) : Option Entry :=
  if e.file ≠ file then some e else if 0 < e.refs - 1 then some { e with refs := e.refs - 1 } else none

/-- Whether its name is taken off the medium then. -/
def ends (e : Entry) (file : OpenFile) : Bool := e.file = file ∧ e.refs - 1 = 0 ∧ e.pending

variable {a b : OpenFile}

/-- Files can be given back in any order. -/
theorem less_comm (e : Entry) (a b : OpenFile) : (e.less a).bind (·.less b) = (e.less b).bind (·.less a) := by
  by_cases hab : a = b
  · rw [hab]
  · by_cases ha : e.file = a
    · have hb : e.file ≠ b := fun he => hab (ha.symm.trans he)
      have hkeep : e.less b = some e := if_pos hb
      rw [hkeep, Option.bind_some]
      unfold less
      rw [if_neg (not_not_intro ha)]
      split
      · exact if_pos hb
      · rfl
    · have hkeep : e.less a = some e := if_pos ha
      rw [hkeep, Option.bind_some]
      cases hb : e.less b with
      | none => rfl
      | some e' =>
        have hfile : e'.file = e.file := by
          unfold less at hb
          split at hb
          · cases hb
            rfl
          · split at hb
            · cases hb
              rfl
            · cases hb
        exact (if_pos (by rwa [hfile])).symm

/-- Whether a name is taken off with one file does not depend on another one that was given back before. -/
theorem ends_less (hab : a ≠ b) (e : Entry) : (e.less a).any (·.ends b) = e.ends b := by
  by_cases ha : e.file = a
  · have hb : e.file ≠ b := fun he => hab (ha.symm.trans he)
    have hends : ∀ e' : Entry, e'.file = e.file → e'.ends b = false := fun e' he => by simp [ends, he, hb]
    rw [hends e rfl]
    unfold less
    rw [if_neg (not_not_intro ha)]
    split
    · exact hends _ rfl
    · rfl
  · have hkeep : e.less a = some e := if_pos ha
    rw [hkeep, Option.any_some]

end Entry

namespace Registry

variable {μ κ : Type} [Medium μ] {r : Registry} {a b file : OpenFile}

/-- Whether a release takes a name off the medium. -/
def ends (r : Registry) (file : OpenFile) : Bool := (r.find? file.name).any (·.ends file)

/-- A release takes a reference off the entry of the file's name, and leaves all others. -/
theorem find?_release (r : Registry) (w : World μ κ) (file : OpenFile) (name : String) :
    (r.release w file).1.find? name = if file.name = name then (r.find? name).bind (·.less file) else r.find? name := by
  have hhere : (if file.name = name then (r.find? name).bind (·.less file) else r.find? name) =
      if file.name = name then (r.find? file.name).bind (·.less file) else r.find? name := by
    split
    · rename_i hn
      rw [hn]
    · rfl
  rw [hhere]
  unfold release
  cases hf : r.find? file.name with
  | none =>
    by_cases hn : file.name = name
    · rw [if_pos hn, ← hn]
      exact hf
    · exact (if_neg hn).symm
  | some entry =>
    rw [Option.bind_some]
    by_cases he : entry.file = file
    · simp only [Entry.less, he, ne_eq, not_true_eq_false, if_false]
      by_cases hpos : 0 < entry.refs - 1
      · simp only [if_pos hpos]
        exact find?_put ..
      · simp only [if_neg hpos]
        exact find?_drop ..
    · simp only [Entry.less, he, ne_eq, not_false_eq_true, if_true]
      by_cases hn : file.name = name
      · rw [if_pos hn, ← hn]
        exact hf
      · exact (if_neg hn).symm

/-- Taking a closed file's name off does to the medium what the medium does, and no more. -/
theorem alike_deleteClosed (w : World μ κ) (name : String) :
    World.Alike { w with medium := (Medium.remove w.medium name).2 } (deleteClosed w name) := by
  unfold deleteClosed World.remove
  rcases Medium.remove w.medium name with ⟨e | ⟨⟩, medium⟩ <;> exact ⟨rfl, rfl, rfl⟩

/-- A release takes the name off the medium if it takes the last reference to a file that was marked, and does nothing else to the
world. -/
theorem alike_release (r : Registry) (w : World μ κ) (file : OpenFile) :
    World.Alike { w with medium := if r.ends file then (Medium.remove w.medium file.name).2 else w.medium } (r.release w file).2 := by
  unfold release ends
  cases r.find? file.name with
  | none => exact ⟨rfl, rfl, rfl⟩
  | some entry =>
    dsimp only
    rw [Option.any_some]
    by_cases he : entry.file = file
    · rw [if_neg (not_not_intro he)]
      by_cases hpos : 0 < entry.refs - 1
      · have hends : entry.ends file = false := by simp [Entry.ends, Nat.ne_of_gt hpos]
        rw [hends, if_pos hpos]
        exact ⟨rfl, rfl, rfl⟩
      · have hends : entry.ends file = entry.pending := by simp [Entry.ends, he, Nat.eq_zero_of_not_pos hpos]
        simp only [hends, if_neg hpos]
        cases entry.pending with
        | false => exact ⟨rfl, rfl, rfl⟩
        | true =>
          obtain ⟨hmedium, hconsole, hopened⟩ := alike_deleteClosed (w.note (.references file.name (entry.refs - 1))) file.name
          exact ⟨hmedium, hconsole, hopened⟩
    · have hends : entry.ends file = false := by simp [Entry.ends, he]
      rw [hends, if_pos he]
      exact ⟨rfl, rfl, rfl⟩

/-- Whether a name is taken off with one file does not depend on another one that was given back before. -/
theorem ends_release (hab : a ≠ b) (w : World μ κ) : (r.release w a).1.ends b = r.ends b := by
  rw [ends, find?_release]
  split
  · rw [Option.any_bind]
    exact congrArg (fun ends => (r.find? b.name).any ends) (funext fun e => Entry.ends_less hab e)
  · rfl

end Registry

namespace World.Alike

variable {μ κ : Type} {w w' w'' : World μ κ}

theorem trans (h : w.Alike w') (h' : w'.Alike w'') : w.Alike w'' :=
  ⟨h'.medium.trans h.medium, h'.console.trans h.console, h'.opened.trans h.opened⟩

end World.Alike

/-! ## References given back in any order -/

namespace Descriptors

variable {μ κ : Type} [Medium μ]

theorem releaseAll_cons (r : Registry) (w : World μ κ) (file : OpenFile) (rest : List OpenFile) :
    releaseAll r w (file :: rest) = releaseAll (r.release w file).1 (r.release w file).2 rest := rfl

theorem releaseAll_append (r : Registry) (w : World μ κ) (first rest : List OpenFile) :
    releaseAll r w (first ++ rest) = releaseAll (releaseAll r w first).1 (releaseAll r w first).2 rest := List.foldl_append

end Descriptors

section Faultless

variable {κ : Type} {r : Registry} {w : World (Faulty RamDisk) κ}

namespace Registry

/-- A release takes no fault when none waits for taking names off. -/
theorem schedule_release (h : w.medium.schedule.remove = []) (r : Registry) (file : OpenFile) :
    (r.release w file).2.medium.schedule = w.medium.schedule := by
  rw [(alike_release r w file).medium]
  split
  · rw [Faulty.remove_of_faultless h]
  · rfl

/-- Two references can be given back in either order. -/
theorem release_comm (h : w.medium.schedule.remove = []) (r : Registry) (a b : OpenFile) :
    ((r.release w a).1.release (r.release w a).2 b).1 = ((r.release w b).1.release (r.release w b).2 a).1 ∧
      ((r.release w a).1.release (r.release w a).2 b).2.Alike ((r.release w b).1.release (r.release w b).2 a).2 := by
  by_cases hab : a = b
  · rw [hab]
    exact ⟨rfl, rfl, rfl, rfl⟩
  -- At most one of two different files is registered under a name that they share, so neither release sees the other.
  · refine ⟨ext_find? fun name => ?_, ?_, ?_, ?_⟩
    · simp only [find?_release]
      split <;> split
      · rw [Option.bind_assoc, Option.bind_assoc]
        exact congrArg _ (funext fun e => e.less_comm a b)
      all_goals rfl
    · have hmedium : ∀ file other : OpenFile, file ≠ other → ((r.release w file).1.release (r.release w file).2 other).2.medium =
          if r.ends other then (Medium.remove (if r.ends file then (Medium.remove w.medium file.name).2 else w.medium) other.name).2
          else if r.ends file then (Medium.remove w.medium file.name).2 else w.medium := by
        intro file other hne
        rw [(alike_release _ _ other).medium, ends_release hne, (alike_release r w file).medium]
      rw [hmedium a b hab, hmedium b a (Ne.symm hab)]
      cases r.ends a <;> cases r.ends b <;> simp only [Bool.false_eq_true, if_true, if_false]
      exact Faulty.remove_comm h b.name a.name
    · rw [(alike_release _ _ a).console, (alike_release r w b).console, (alike_release _ _ b).console, (alike_release r w a).console]
    · rw [(alike_release _ _ a).opened, (alike_release r w b).opened, (alike_release _ _ b).opened, (alike_release r w a).opened]

end Registry

namespace Descriptors

/-- Giving references back takes no fault either. -/
theorem schedule_releaseAll (h : w.medium.schedule.remove = []) (r : Registry) (files : List OpenFile) :
    (releaseAll r w files).2.medium.schedule = w.medium.schedule := by
  induction files generalizing r w with
  | nil => rfl
  | cons file rest ih =>
    have hfirst := Registry.schedule_release h r file
    rw [releaseAll_cons, ih ((congrArg Schedule.remove hfirst).trans h), hfirst]

/-- Several references can be given back in any order. -/
theorem releaseAll_perm (h : w.medium.schedule.remove = []) (r : Registry) {files files' : List OpenFile} (hp : files.Perm files') :
    (releaseAll r w files).1 = (releaseAll r w files').1 ∧ (releaseAll r w files).2.Alike (releaseAll r w files').2 := by
  induction hp generalizing r w with
  | nil => exact ⟨rfl, rfl, rfl, rfl⟩
  | cons file _ ih =>
    rw [releaseAll_cons, releaseAll_cons]
    exact ih ((congrArg Schedule.remove (Registry.schedule_release h r file)).trans h) (r.release w file).1
  | swap a b rest =>
    obtain ⟨hr, hw⟩ := Registry.release_comm h r b a
    obtain ⟨hr', hw'⟩ := hw.releaseAll ((r.release w a).1.release (r.release w a).2 b).1 rest
    simp only [releaseAll_cons, hr]
    exact ⟨hr'.symm, hw'⟩
  | trans _ _ ih ih' =>
    obtain ⟨hr, hw⟩ := ih h r
    obtain ⟨hr', hw'⟩ := ih' h r
    exact ⟨hr.trans hr', hw.trans hw'⟩

end Descriptors

end Faultless

/-! ## One after another -/

namespace Descriptors

variable {t : Descriptors} {fd : Fd}

/-- Just the slots that are reported are allocated. -/
theorem mem_openSlots : fd.slot ∈ t.openSlots ↔ ∃ d, t.get? fd = some d := by
  rw [← mem_taken_iff_get?, taken, List.mem_toFinset]

/-- A slot that is freed is reported no longer, and all others are. -/
theorem openSlots_put_none {d : Descriptor} (h : t.get? fd = some d) :
    t.openSlots.Perm (fd.slot :: (t.put fd none).openSlots) := by
  have hnodup : ∀ t : Descriptors, t.openSlots.Nodup := fun t => (pairwise_openSlots t).imp Nat.ne_of_lt
  have hfreed : ∀ n, n ∈ (t.put fd none).openSlots ↔ n ≠ fd.slot ∧ n ∈ t.openSlots := by
    intro n
    rw [← List.mem_toFinset, ← taken, taken_put_none, Finset.mem_erase, taken, List.mem_toFinset]
  refine (List.perm_ext_iff_of_nodup (hnodup t) (List.nodup_cons.mpr ⟨fun hm => ?_, hnodup _⟩)).mpr fun n => ?_
  · exact ((hfreed _).mp hm).1 rfl
  · rw [List.mem_cons, hfreed]
    by_cases hn : n = fd.slot
    · exact iff_of_true (hn ▸ mem_openSlots.mpr ⟨d, h⟩) (.inl hn)
    · simp [hn]

/-- Where no slot is allocated all of them are empty. -/
theorem eq_none_of_openSlots (h : t.openSlots = []) {slot : Option Descriptor} (hm : slot ∈ t.slots) : slot = none := by
  cases slot with
  | none => rfl
  | some d =>
    obtain ⟨n, hn⟩ := List.getElem?_of_mem hm
    have htaken : n ∈ t.taken := mem_taken.mpr ⟨d, hn⟩
    rw [taken, h] at htaken
    cases htaken

/-- The files of a table are those that the allocated slots refer to. -/
theorem files_eq_allocated (t : Descriptors) : t.files = t.allocated.filterMap fun held => held.2.file? := by
  have hslots : t.files = (t.slots.zipIdx.map Prod.fst).filterMap fun slot => slot.bind Descriptor.file? := by
    rw [List.zipIdx_map_fst]
    rfl
  rw [hslots, List.filterMap_map, allocated, List.filterMap_filterMap]
  congr
  funext made
  obtain ⟨slot, n⟩ := made
  cases slot <;> rfl

variable {μ κ : Type} [Medium μ]

/-- Closes descriptors one after another, as long as they can be closed. -/
def closeEach (t : Descriptors) (r : Registry) (w : World μ κ) : List Fd → Except KernelError Descriptors × Registry × World μ κ
  | [] => (.ok t, r, w)
  | fd :: rest =>
    match t.close r w fd with
    | (.error e, r, w) => (.error e, r, w)
    | (.ok t, r, w) => t.closeEach r w rest

/-- Closing an allocated descriptor gives back the reference that it held, if it held one. -/
theorem close_of_get? {d : Descriptor} (h : t.get? fd = some d) (r : Registry) (w : World μ κ) :
    ∃ event, t.close r w fd =
      (.ok (t.put fd none), (releaseAll r w (slotFiles (some d))).1, (releaseAll r w (slotFiles (some d))).2.note event) := by
  unfold close slotFiles
  rw [h]
  cases hf : d.file? with
  | none => exact ⟨_, by simp only [Option.bind_some, hf]; rfl⟩
  | some file => exact ⟨_, by simp only [Option.bind_some, hf]; rfl⟩

section Faultless

variable {κ : Type}

/-- Closing each descriptor comes to closing all at once. -/
theorem closeEach_eq_closeAll {w : World (Faulty RamDisk) κ} (h : w.medium.schedule.remove = []) (t : Descriptors) (r : Registry)
    {fds : List Fd} (hp : (fds.map Fd.slot).Perm t.openSlots) :
    (t.closeEach r w fds).1 = .ok (t.closeAll r w).2.1 ∧ (t.closeEach r w fds).2.1 = (t.closeAll r w).2.2.1 ∧
      (t.closeAll r w).2.2.2.Alike (t.closeEach r w fds).2.2 := by
  induction fds generalizing t r w with
  | nil =>
    have hempty : ∀ slot ∈ t.slots, slot = none := fun slot hm => eq_none_of_openSlots hp.symm.eq_nil hm
    have hfiles : t.files = [] := List.filterMap_eq_nil_iff.mpr fun slot hm => by rw [hempty slot hm]; rfl
    have hslots : t.slots.map (fun _ => none) = t.slots := by
      conv_rhs => rw [← List.map_id t.slots]
      exact List.map_congr_left fun slot hm => (hempty slot hm).symm
    simp only [closeAll, hfiles, hslots]
    exact ⟨rfl, rfl, rfl, rfl, rfl⟩
  | cons fd rest ih =>
    obtain ⟨d, hd⟩ : ∃ d, t.get? fd = some d := mem_openSlots.mp (hp.subset List.mem_cons_self)
    have hrest : (rest.map Fd.slot).Perm (t.put fd none).openSlots := (hp.trans (openSlots_put_none hd)).cons_inv
    have hslots : (t.put fd none).slots.map (fun _ => (none : Option Descriptor)) = t.slots.map fun _ => none := by
      simp [put, List.map_const']
    have hfiles : t.files.Perm (slotFiles (some d) ++ (t.put fd none).files) := by
      obtain ⟨others, hold, hnew⟩ := files_put (slots_of_get? hd) none
      exact hold.trans (hnew.symm.append_left _)
    let given := releaseAll r w (slotFiles (some d))
    obtain ⟨event, hclose⟩ := close_of_get? hd r w
    have hgiven : given.2.medium.schedule.remove = [] := (congrArg Schedule.remove (schedule_releaseAll h r _)).trans h
    -- The references of the table are that of the first descriptor and those of the others.
    obtain ⟨hperm, hworld⟩ := releaseAll_perm h r hfiles
    rw [releaseAll_append] at hperm hworld
    have hnote : given.2.Alike (given.2.note event) := ⟨rfl, rfl, rfl⟩
    obtain ⟨hr, hw⟩ := hnote.releaseAll given.1 (t.put fd none).files
    obtain ⟨hsame, hregistry, halike⟩ := ih (w := given.2.note event) hgiven (t.put fd none) given.1 hrest
    simp only [closeAll, hslots] at hsame hregistry halike
    simp only [closeEach, hclose, closeAll]
    exact ⟨hsame, (hregistry.trans hr).trans hperm.symm, (hworld.trans hw).trans halike⟩

/-- Over a medium in memory that takes names off without fail, all descriptors of a table are closed at once just as if each was
closed, in any order, whatever files they share among them or with other tables and whichever of these are to be deleted. Every slot
is empty then, the files that were open are told by their number, and the registry and the medium are as they would be. A registry
that accounts for the files of the table, and others, accounts for the others. -/
theorem closeAll_as_each {w : World (Faulty RamDisk) κ} (h : w.medium.schedule.remove = []) (t : Descriptors) (r : Registry) :
    let all := t.closeAll r w
    all.2.1.slots = List.replicate t.slots.length none ∧
    all.1 = t.allocated.countP (fun held => held.2.file?.isSome) ∧
    (∀ fds : List Fd, (fds.map Fd.slot).Perm t.openSlots →
      let each := t.closeEach r w fds
      each.1 = .ok all.2.1 ∧ each.2.1 = all.2.2.1 ∧ all.2.2.2.Alike each.2.2) ∧
    ∀ others, r.Accounts (t.files ++ others) → all.2.2.1.Accounts others := by
  intro all
  refine ⟨List.map_const' .., ?_, fun fds hp => closeEach_eq_closeAll h t r hp, fun others ha => (ha.releaseAll w).1⟩
  rw [← List.length_filterMap_eq_countP, ← files_eq_allocated]
  rfl

/-- Two descriptors of a table and one of another table lead to one file, and another descriptor leads to a file of its own; both files
are to be deleted. The table is closed, and the descriptors are given in another order: the first file stays for the other table, the
second one is deleted. -/
theorem closeAll_as_each_shared :
    let a : OpenFile := ⟨0, "a", ⟨0⟩⟩
    let b : OpenFile := ⟨1, "b", ⟨1⟩⟩
    let w : World (Faulty RamDisk) Silent :=
      { medium := ⟨(((RamDisk.empty none).create "a").2.create "b").2, { read := [.fail .inputOutput] }⟩, console := Silent.mk }
    let r := (((Registry.empty.put "a" ⟨a, 1, true⟩).put "a" ⟨a, 2, true⟩).put "a" ⟨a, 3, true⟩).put "b" ⟨b, 1, true⟩
    let t : Descriptors := ⟨[some ⟨.consoleIn, 0⟩, none, some ⟨.file a, 3⟩, some ⟨.file b, 0⟩, some ⟨.file a, 0⟩]⟩
    let fds : List Fd := [⟨4⟩, ⟨0⟩, ⟨3⟩, ⟨2⟩]
    let all := t.closeAll r w
    let each := t.closeEach r w fds
    w.medium.schedule.remove = [] ∧ (fds.map Fd.slot).Perm t.openSlots ∧ r.Accounts (t.files ++ [a]) ∧
      all.1 = 3 ∧ all.2.1.slots = List.replicate 5 none ∧
      each.1 = .ok all.2.1 ∧ each.2.1 = all.2.2.1 ∧ all.2.2.2.Alike each.2.2 ∧ all.2.2.1.Accounts [a] ∧
      each.2.2.medium.device.holds "a" = true ∧ each.2.2.medium.device.holds "b" = false := by
  intro a b w r t fds all each
  have hfaults : w.medium.schedule.remove = [] := rfl
  have hperm : (fds.map Fd.slot).Perm t.openSlots := by decide
  have hcounted : r.Accounts (t.files ++ [a]) := by
    have hfirst : (Registry.empty.put "a" ⟨a, 1, true⟩).Accounts [a] := Registry.accounts_empty.put_cons rfl (by decide)
    have hsecond : ((Registry.empty.put "a" ⟨a, 1, true⟩).put "a" ⟨a, 2, true⟩).Accounts [a, a] := hfirst.put_cons rfl (by decide)
    have hthird : (((Registry.empty.put "a" ⟨a, 1, true⟩).put "a" ⟨a, 2, true⟩).put "a" ⟨a, 3, true⟩).Accounts [a, a, a] :=
      hsecond.put_cons rfl (by decide)
    have hall : r.Accounts [b, a, a, a] := hthird.put_cons rfl (by decide)
    exact hall.perm (by decide)
  obtain ⟨hslots, hcount, heach, haccounts⟩ := closeAll_as_each hfaults t r
  obtain ⟨hok, hregistry, hworld⟩ := heach fds hperm
  exact ⟨hfaults, hperm, hcounted, hcount, hslots, hok, hregistry, hworld, haccounts [a] hcounted, by decide, by decide⟩

end Faultless

end Descriptors

end Nucleus
