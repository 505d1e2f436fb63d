import Nucleus.Proofs.Stored
import Nucleus.Device.Console

/-!
# What opening a name does to its bytes

A mode that truncates is to leave an empty file and any other mode the bytes that were there, whoever else has the file open. That
is so for every mode but one: a mode that truncates and does not create empties a file that is open already, and leaves one that
is not as it is.
-/

namespace Nucleus

/-- A mode that drops the contents of what there is, and makes nothing. -/
def OpenMode.onlyTruncates (mode : OpenMode) : Bool := mode.truncates && !mode.creates

namespace Registry

variable {κ : Type} {r : Registry} {w : World RamDisk κ} {name : String} {mode : OpenMode} {entry : Entry} {id : ObjectId}

/-- Whether a name is opened. -/
def opens (r : Registry) (w : World RamDisk κ) (name : String) (mode : OpenMode) : Bool := (r.acquire w name mode).1.isOk

/-- What is stored under a name after it was opened, or could not be. -/
def contentsAfter? (r : Registry) (w : World RamDisk κ) (name : String) (mode : OpenMode) : Option (List UInt8) :=
  (r.acquire w name mode).2.2.medium.contents? name

/-- What a name leads to is stored under it. -/
theorem contents?_of_names {d : RamDisk} (hn : d.names[name]? = some id) : d.contents? name = some (d.object id) := by
  rw [RamDisk.contents?, hn]
  rfl

/-- Contents that are dropped or not. -/
theorem contents?_putObject_ite {d : RamDisk} (hw : d.Whole) (hn : d.names[name]? = some id) (dropped : Bool) :
    (if dropped then d.putObject id [] else d).contents? name = some (if dropped then [] else d.object id) := by
  cases dropped with
  | false => exact contents?_of_names hn
  | true => exact RamDisk.contents?_putObject hw hn []

/-- A registered name that does not wait for its deletion is opened, and emptied exactly if the mode truncates. -/
theorem opens_registered (h : Stored r w.medium) (hf : r.find? name = some entry) (hp : entry.pending = false) (mode : OpenMode) :
    r.opens w name mode = true ∧
      r.contentsAfter? w name mode = some (if mode.truncates then [] else w.medium.object entry.file.object) := by
  obtain ⟨w', he, hm⟩ := acquire_registered (w := w) hf hp mode
  unfold opens contentsAfter?
  rw [he, hm]
  exact ⟨rfl, contents?_putObject_ite h.whole (h.named name entry hf) mode.truncates⟩

/-- A name that is on the medium and not registered is opened, and emptied exactly if the mode creates and truncates. -/
theorem opens_stored (h : Stored r w.medium) (hf : r.find? name = none) (hn : w.medium.names[name]? = some id) (mode : OpenMode) :
    r.opens w name mode = true ∧
      r.contentsAfter? w name mode = some (if mode.creates && mode.truncates then [] else w.medium.object id) := by
  obtain ⟨w', he, hm⟩ := acquire_stored hf hn mode
  unfold opens contentsAfter?
  rw [he, hm]
  exact ⟨rfl, contents?_putObject_ite h.whole hn (mode.creates && mode.truncates)⟩

/-- A name that is neither registered nor on the medium is opened only if the mode creates, and is empty then. -/
theorem opens_missing (h : Stored r w.medium) (hf : r.find? name = none) (hn : w.medium.names[name]? = none)
    (ho : r.opens w name mode = true) : mode.creates = true ∧ r.contentsAfter? w name mode = some [] := by
  unfold opens at ho
  cases hc : mode.creates with
  | false =>
    rw [acquire_missing_error hf hn hc] at ho
    cases ho
  | true =>
    obtain ⟨file, w', he, -, hm⟩ := acquire_missing hf hn hc
    unfold contentsAfter?
    rw [he, hm]
    exact ⟨rfl, RamDisk.contents?_create h.whole name⟩

/-- A name that waits for its deletion is not opened. -/
theorem pending_of_opens (hf : r.find? name = some entry) (ho : r.opens w name mode = true) : entry.pending = false := by
  cases hp : entry.pending with
  | false => rfl
  | true =>
    unfold opens at ho
    rw [acquire_pending hf hp] at ho
    cases ho

/-- Contents dropped under one condition are as those dropped under another, when the conditions agree or there was nothing to
drop. -/
theorem dropped_eq_iff (a b : Bool) (bytes : List UInt8) :
    some (if a then [] else bytes) = some (if b then ([] : List UInt8) else bytes) ↔ a = b ∨ bytes = [] := by
  cases a <;> cases b <;> simp [eq_comm]

/-- Whether a mode that has to create in order to truncate truncates as it should. -/
theorem creates_and_truncates_eq_iff (mode : OpenMode) :
    (mode.creates && mode.truncates) = mode.truncates ↔ mode.onlyTruncates = false := by
  unfold OpenMode.onlyTruncates
  cases mode.creates <;> cases mode.truncates <;> decide

/-- When a name is opened, it holds nothing afterwards if the mode truncates, and what it held before, or nothing if it has just
been made, otherwise; and two states in one of which the name is registered and in the other only stored, with the same bytes,
both open it and leave the same bytes. Both laws hold of every mode, every history and all bytes but for one case, and fail in
that case: the mode truncates without creating, the name is not registered, and there are bytes to be dropped. -/
theorem truncation_iff (h : Reached (r, w)) (name : String) (mode : OpenMode) :
    (r.opens w name mode = true →
      (r.contentsAfter? w name mode = some (if mode.truncates then [] else (w.medium.contents? name).getD []) ↔
        ¬(mode.onlyTruncates = true ∧ r.find? name = none ∧ w.medium.contents? name ≠ some []))) ∧
    ∀ (entry : Entry) (r' : Registry) (w' : World RamDisk κ), r.find? name = some entry → entry.pending = false →
      Reached (r', w') → r'.find? name = none → w'.medium.contents? name = w.medium.contents? name →
      r.opens w name mode = true ∧ r'.opens w' name mode = true ∧
        (r'.contentsAfter? w' name mode = r.contentsAfter? w name mode ↔
          ¬(mode.onlyTruncates = true ∧ w.medium.contents? name ≠ some [])) := by
  have hs : Stored r w.medium := h.stored
  constructor
  · intro ho
    cases hf : r.find? name with
    | some entry =>
      have hc : w.medium.contents? name = some (w.medium.object entry.file.object) := contents?_of_names (hs.named name entry hf)
      rw [(opens_registered hs hf (pending_of_opens hf ho) mode).2, hc]
      simp
    | none =>
      cases hn : w.medium.names[name]? with
      | some id =>
        rw [(opens_stored hs hf hn mode).2, contents?_of_names hn, Option.getD_some, dropped_eq_iff, creates_and_truncates_eq_iff]
        simp only [true_and, ne_eq, Option.some.injEq]
        cases mode.onlyTruncates <;> simp
      | none =>
        obtain ⟨hc, ha⟩ := opens_missing hs hf hn ho
        have hcont : w.medium.contents? name = none := by rw [RamDisk.contents?, hn, Option.map_none]
        rw [ha, hcont, OpenMode.onlyTruncates, hc]
        simp
  · intro entry r' w' hf hp h' hf' hsame
    have hs' : Stored r' w'.medium := h'.stored
    have hc : w.medium.contents? name = some (w.medium.object entry.file.object) := contents?_of_names (hs.named name entry hf)
    cases hn : w'.medium.names[name]? with
    | none =>
      rw [RamDisk.contents?, hn, hc] at hsame
      cases hsame
    | some id =>
      have hobj : w'.medium.object id = w.medium.object entry.file.object := by
        rw [contents?_of_names hn, hc] at hsame
        exact Option.some.inj hsame
      obtain ⟨ho, ha⟩ := opens_registered hs hf hp mode
      obtain ⟨ho', ha'⟩ := opens_stored hs' hf' hn mode
      refine ⟨ho, ho', ?_⟩
      rw [ha, ha', hobj, dropped_eq_iff, creates_and_truncates_eq_iff, hc, ne_eq, Option.some.injEq]
      cases mode.onlyTruncates <;> simp

/-- A file is made, and three bytes are written to it. -/
def written : Registry × World RamDisk Silent :=
  let opened := (Registry.empty.acquire { medium := RamDisk.empty none, console := Silent.mk } "f" .fresh).2
  (opened.1, (opened.2.writeAt ⟨0⟩ 0 [97, 98, 99]).2)

/-- Then it is closed. -/
def closed : Registry × World RamDisk Silent := written.1.release written.2 ⟨0, "f", ⟨0⟩⟩

/-- These are states that uses lead to. -/
theorem reached_written : Reached written := by
  have h0 : Reached (Registry.empty, ({ medium := RamDisk.empty none, console := Silent.mk } : World RamDisk Silent)) :=
    .start _ (RamDisk.whole_empty none)
  exact (h0.use (.acquire _ _ "f" .fresh)).use (.write _ _ ⟨0, "f", ⟨0⟩⟩ 0 [97, 98, 99])

/-- A mode that truncates without creating leaves the closed file as it is, and empties it as long as it is open: the one case in
which both laws fail. -/
theorem closed_not_truncated :
    (closed.1.opens closed.2 "f" .truncate = true ∧
      closed.1.contentsAfter? closed.2 "f" .truncate ≠ some (if OpenMode.truncate.truncates then [] else [97, 98, 99])) ∧
    closed.1.contentsAfter? closed.2 "f" .truncate ≠ written.1.contentsAfter? written.2 "f" .truncate := by
  have hclosed : Reached closed := reached_written.use (.release _ _ ⟨0, "f", ⟨0⟩⟩)
  refine ⟨⟨by decide, fun hempty => ?_⟩, fun hsame => ?_⟩
  · have hbytes : (closed.2.medium.contents? "f").getD [] = [97, 98, 99] := by decide
    rw [← hbytes] at hempty
    exact ((truncation_iff hclosed "f" .truncate).1 (by decide)).mp hempty (by decide)
  · have hregistered : written.1.find? "f" = some ⟨⟨0, "f", ⟨0⟩⟩, 1, false⟩ := by decide
    have hlaw := (truncation_iff reached_written "f" .truncate).2 _ _ _ hregistered rfl hclosed (by decide) (by decide)
    exact hlaw.2.2.mp hsame (by decide)

end Registry

end Nucleus
