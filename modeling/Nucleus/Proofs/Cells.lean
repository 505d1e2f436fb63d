import Nucleus.Proofs.Deletion

/-!
# What is kept of one name

Of a name the registry keeps how many references there are and whether it is to be deleted, and the medium keeps its bytes. Each use
of the registry over a medium in memory reads and changes what is kept of one name (`Cell`), and what is kept of all others stays
(`Registry.Confined`). Numbers of open files and of objects are given out across names, and what they are is seen by nobody.
-/

namespace Nucleus

/-- What is kept of a name. -/
structure Cell where
  /-- The references, and whether the file is to be deleted with the last of them, if the name is registered. -/
  entry : Option (Nat × Bool)
  /-- The bytes, if the name is on the medium. -/
  bytes : Option (List UInt8)
  deriving DecidableEq, Repr

namespace Cell

/-- Opens the name. -/
def acquire (c : Cell) (mode : OpenMode) : Except KernelError Unit × Cell :=
  match c.entry, c.bytes with
  | some (_, true), _ => (.error (if mode.creates then .alreadyExists else .notFound), c)
  | some (refs, false), bytes => (.ok (), ⟨some (refs + 1, false), if mode.truncates then some [] else bytes⟩)
  | none, some bytes => (.ok (), ⟨some (1, false), some (if mode.creates && mode.truncates then [] else bytes)⟩)
  | none, none => if mode.creates then (.ok (), ⟨some (1, false), some []⟩) else (.error .notFound, c)

/-- Gives a reference back. -/
def release (c : Cell) : Cell :=
  match c.entry with
  | none => c
  | some (refs, pending) =>
    if 0 < refs - 1 then ⟨some (refs - 1, pending), c.bytes⟩ else ⟨none, if pending then none else c.bytes⟩

/-- Deletes the name. -/
def unlink (c : Cell) : Except KernelError Unit × Cell :=
  match c.entry, c.bytes with
  | some (_, true), _ => (.error .notFound, c)
  | some (refs, false), bytes => (.ok (), ⟨some (refs, true), bytes⟩)
  | none, some _ => (.ok (), ⟨none, none⟩)
  | none, none => (.error .notFound, c)

/-- The bytes from a position on, at most as many as asked. -/
def readAt (c : Cell) (position count : Nat) : List UInt8 := ((c.bytes.getD []).drop position).take count

/-- Writes as many bytes at a position as the limit allows. -/
def writeAt (c : Cell) (limit position : Nat) (data : List UInt8) : Except StorageError Nat × Cell :=
  if limit ≤ position then
    if data.isEmpty then (.ok 0, c) else (.error .noSpace, c)
  else
    let fitting := data.take (limit - position)
    (.ok fitting.length, { c with bytes := some (RamDisk.splice (c.bytes.getD []) position fitting) })

end Cell

namespace RamDisk

variable {d d' : RamDisk}

/-- No request changes the limit. -/
theorem Edit.limit_eq (h : d.Edit d') : d'.limit = d.limit := by
  cases h with
  | nothing => rfl
  | put id contents => rfl
  | create name =>
    unfold RamDisk.create
    split <;> rfl
  | remove name =>
    unfold RamDisk.remove
    split <;> rfl

/-- A name is on the medium just when something is stored under it. -/
theorem holds_iff_contents? {name : String} : d.holds name = true ↔ ∃ bytes, d.contents? name = some bytes := by
  rw [holds, contents?, Std.ExtTreeMap.contains_eq_isSome_getElem?, Option.isSome_iff_exists]
  simp

end RamDisk

namespace Registry

variable {κ : Type} {r r' : Registry} {d d' : RamDisk} {w : World RamDisk κ} {name : String} {entry : Entry} {file : OpenFile}

/-- What a registry and a medium keep of a name. -/
def cell (r : Registry) (d : RamDisk) (name : String) : Cell :=
  ⟨(r.find? name).map fun entry => (entry.refs, entry.pending), d.contents? name⟩

/-- A registry and a medium that keep this of a name, and of every other one what was kept before. -/
structure Confined (name : String) (c : Cell) (before after : Registry × RamDisk) : Prop where
  /-- What is kept of the name. -/
  here : after.1.cell after.2 name = c
  /-- What is kept of all others. -/
  elsewhere : ∀ other, name ≠ other → after.1.cell after.2 other = before.1.cell before.2 other
  /-- The limit of the medium. -/
  limit : after.2.limit = before.2.limit

theorem confined_self (r : Registry) (d : RamDisk) (name : String) : Confined name (r.cell d name) (r, d) (r, d) :=
  ⟨rfl, fun _ _ => rfl, rfl⟩

/-- Another entry of the name is confined to it. -/
theorem confined_put (r : Registry) (d : RamDisk) (name : String) (entry : Entry) :
    Confined name ⟨some (entry.refs, entry.pending), d.contents? name⟩ (r, d) (r.put name entry, d) where
  here := by
    rw [cell, find?_put, if_pos rfl]
    rfl
  elsewhere other hne := by
    rw [cell, cell, find?_put, if_neg hne]
  limit := rfl

/-- So are other contents of the object that the name leads to. -/
theorem Confined.putObject {c : Cell} {before : Registry × RamDisk} (h : Confined name c before (r, d)) (hw : d.Whole) (hs : d.Separate)
    {id : ObjectId} (hn : d.names[name]? = some id) (contents : List UInt8) :
    Confined name { c with bytes := some contents } before (r, d.putObject id contents) where
  here := by
    rw [cell, hs.contents?_putObject hw hn, if_pos rfl, ← h.here]
    rfl
  elsewhere other hne := by
    rw [← h.elsewhere other hne, cell, cell, hs.contents?_putObject hw hn, if_neg hne]
  limit := h.limit

/-- So is an object that is made for the name. -/
theorem Confined.create {c : Cell} {before : Registry × RamDisk} (h : Confined name c before (r, d)) (hw : d.Whole) (hs : d.Separate) :
    Confined name { c with bytes := some [] } before (r, (d.create name).2) where
  here := by
    rw [cell, RamDisk.contents?_create hw, ← h.here]
    rfl
  elsewhere other hne := by
    rw [← h.elsewhere other hne, cell, cell, RamDisk.contents?_create_of_ne hw hs hne]
  limit := (RamDisk.Edit.create name).limit_eq.trans h.limit

/-- So is the name that is taken off. -/
theorem Confined.remove {c : Cell} {before : Registry × RamDisk} (h : Confined name c before (r, d)) :
    Confined name { c with bytes := none } before (r, (d.remove name).2) where
  here := by
    rw [cell, RamDisk.contents?_remove, if_pos rfl, ← h.here]
    rfl
  elsewhere other hne := by
    rw [← h.elsewhere other hne, cell, cell, RamDisk.contents?_remove, if_neg hne]
  limit := (RamDisk.Edit.remove name).limit_eq.trans h.limit

/-- So is the entry that is taken away. -/
theorem confined_drop (r : Registry) (d : RamDisk) (name : String) :
    Confined name ⟨none, d.contents? name⟩ (r, d) (r.drop name, d) where
  here := by
    rw [cell, find?_drop, if_pos rfl]
    rfl
  elsewhere other hne := by
    rw [cell, cell, find?_drop, if_neg hne]
  limit := rfl

theorem cell_of_some (hf : r.find? name = some entry) (d : RamDisk) :
    r.cell d name = ⟨some (entry.refs, entry.pending), d.contents? name⟩ := by
  rw [cell, hf]
  rfl

theorem cell_of_none (hf : r.find? name = none) (d : RamDisk) : r.cell d name = ⟨none, d.contents? name⟩ := by
  rw [cell, hf]
  rfl

/-- Opening a name comes to what is kept of it, and is confined to it. -/
theorem confined_acquire (hs : r.Settled w.medium) (name : String) (mode : OpenMode) :
    (r.acquire w name mode).1.map (fun _ => ()) = ((r.cell w.medium name).acquire mode).1 ∧
      Confined name ((r.cell w.medium name).acquire mode).2 (r, w.medium)
        ((r.acquire w name mode).2.1, (r.acquire w name mode).2.2.medium) := by
  cases hf : r.find? name with
  | some entry =>
    have hn := hs.named name entry hf
    cases hp : entry.pending with
    | true =>
      have hself := confined_self r w.medium name
      rw [acquire_pending hf hp]
      rw [cell_of_some hf, hp] at hself ⊢
      exact ⟨rfl, hself⟩
    | false =>
      obtain ⟨w', he, hm⟩ := acquire_registered (w := w) hf hp mode
      have hput := confined_put r w.medium name { entry with refs := entry.refs + 1 }
      rw [he, hm, cell_of_some hf]
      simp only [Cell.acquire, hp] at hput ⊢
      refine ⟨rfl, ?_⟩
      cases mode.truncates with
      | false => exact hput
      | true => exact hput.putObject hs.whole hs.separate hn []
  | none =>
    rw [cell_of_none hf]
    cases hn : w.medium.names[name]? with
    | some id =>
      obtain ⟨w', he, hm⟩ := acquire_stored (w := w) hf hn mode
      have hput := confined_put r w.medium name ⟨⟨w.opened, name, id⟩, 1, false⟩
      rw [he, hm]
      rw [contents?_of_names hn] at hput ⊢
      simp only [Cell.acquire]
      refine ⟨rfl, ?_⟩
      cases mode.creates && mode.truncates with
      | false => exact hput
      | true => exact hput.putObject hs.whole hs.separate hn []
    | none =>
      rw [RamDisk.contents?_eq_none_iff.mpr hn]
      cases hc : mode.creates with
      | false =>
        have hself := confined_self r w.medium name
        rw [cell_of_none hf, RamDisk.contents?_eq_none_iff.mpr hn] at hself
        rw [acquire_missing_error hf hn hc]
        simp only [Cell.acquire, hc]
        exact ⟨rfl, hself⟩
      | true =>
        obtain ⟨file, w', he, -, hm⟩ := acquire_missing (w := w) hf hn hc
        rw [he, hm]
        simp only [Cell.acquire, hc]
        exact ⟨rfl, (confined_put r w.medium name ⟨file, 1, false⟩).create hs.whole hs.separate⟩

/-- Giving a reference back does too. -/
theorem confined_release (hf : r.find? file.name = some entry) (he : entry.file = file) (w : World RamDisk κ) :
    Confined file.name (r.cell w.medium file.name).release (r, w.medium)
      ((r.release w file).1, (r.release w file).2.medium) := by
  rw [cell_of_some hf]
  rcases release_cases hf he w with ⟨hpos, hr, hm⟩ | ⟨hlast, hr, hm⟩
  · rw [hr, hm]
    simp only [Cell.release, if_pos hpos]
    exact confined_put r w.medium file.name { entry with refs := entry.refs - 1 }
  · have hdrop := confined_drop r w.medium file.name
    rw [hr, hm]
    simp only [Cell.release, hlast]
    cases entry.pending with
    | false => exact hdrop
    | true => exact hdrop.remove

/-- So does deleting the name. -/
theorem confined_unlink (r : Registry) (w : World RamDisk κ) (name : String) :
    (r.unlink w name).1 = ((r.cell w.medium name).unlink).1 ∧
      Confined name ((r.cell w.medium name).unlink).2 (r, w.medium) ((r.unlink w name).2.1, (r.unlink w name).2.2.medium) := by
  have hself := confined_self r w.medium name
  cases hf : r.find? name with
  | some entry =>
    obtain ⟨hr, hm, ha⟩ := unlink_of_some hf w
    rw [hr, hm, ha]
    rw [cell_of_some hf] at hself ⊢
    cases hp : entry.pending with
    | true =>
      rw [hp] at hself
      exact ⟨rfl, hself⟩
    | false => exact ⟨rfl, confined_put r w.medium name { entry with pending := true }⟩
  | none =>
    obtain ⟨hr, hm, ha⟩ := unlink_of_none hf w
    rw [hr, hm, ha]
    rw [cell_of_none hf] at hself ⊢
    cases hc : w.medium.contents? name with
    | some bytes =>
      have hremove : (Medium.remove w.medium name).1 = .ok () :=
        congrArg Prod.fst (if_pos (RamDisk.holds_iff_contents?.mpr ⟨bytes, hc⟩))
      rw [hremove]
      exact ⟨rfl, hself.remove⟩
    | none =>
      have hremove : Medium.remove w.medium name = (.error .notFound, w.medium) :=
        if_neg fun hh => by
          obtain ⟨bytes, hb⟩ := RamDisk.holds_iff_contents?.mp hh
          cases hc.symm.trans hb
      rw [hremove]
      rw [hc] at hself
      exact ⟨rfl, hself⟩

/-- Bytes that are read from the object of a name are those of the name. -/
theorem readAt_eq_cell {id : ObjectId} (r : Registry) (hn : d.names[name]? = some id) (position count : Nat) :
    d.readAt id position count = (r.cell d name).readAt position count := by
  rw [RamDisk.readAt, Cell.readAt, cell, contents?_of_names hn, Option.getD_some]

/-- Bytes that are written to it are put there, and that is confined to the name. -/
theorem confined_writeAt (hs : r.Settled w.medium) {id : ObjectId} (hn : w.medium.names[name]? = some id) (position : Nat)
    (data : List UInt8) :
    (w.writeAt id position data).1 = ((r.cell w.medium name).writeAt w.medium.limit position data).1 ∧
      Confined name ((r.cell w.medium name).writeAt w.medium.limit position data).2 (r, w.medium)
        (r, (w.writeAt id position data).2.medium) := by
  have hself := confined_self r w.medium name
  have hbytes : (r.cell w.medium name).bytes = some (w.medium.object id) := contents?_of_names hn
  simp only [World.writeAt, Medium.writeAt, RamDisk.writeAt, Cell.writeAt, hbytes, Option.getD_some]
  by_cases hfull : w.medium.limit ≤ position
  · simp only [if_pos hfull]
    cases data.isEmpty <;> exact ⟨rfl, hself⟩
  · simp only [if_neg hfull]
    exact ⟨trivial, hself.putObject hs.whole hs.separate hn _⟩

end Registry

end Nucleus
