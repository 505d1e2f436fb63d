import Nucleus.Proofs.Allocation
import Nucleus.Proofs.Failures
import Nucleus.Proofs.FileBytes
import Mathlib.Data.List.DropRight

/-!
# Cursors are accounted for

A cursor stands where the answers to the reads and writes through its descriptor say, counted from the last time that its slot was
given to a file. Consoles and media may claim any count and fail at any time, and the receiver of what was read may refuse it: no more
is answered than was asked for, a failure moves no cursor, and no other cursor is ever moved. The receiver is called once at most, with
the bytes of the buffer that are answered, and before the cursor moves (`Descriptors.readInto`).
-/

namespace Nucleus

/-! ## Transfers -/

/-- The descriptor that a read or write goes through, and how many bytes it asks for. -/
def TableCall.transfer? : TableCall → Option (Fd × Nat)
  | .read fd count _ => some (fd, count)
  | .write fd data => some (fd, data.length)
  | _ => none

/-- How many bytes were read or written, if any could be. -/
def TableAnswer.count? : TableAnswer → Option Nat
  | .read (.ok bytes) => some bytes.length
  | .written (.ok count) => some count
  | _ => none

/-- Whether a slot was given to a file. -/
def TableAnswer.opens (answer : TableAnswer) (fd : Fd) : Bool :=
  match answer with
  | .opened (.ok taken) => taken = fd
  | _ => false

/-- How many bytes an answered call moved through a descriptor. -/
def moved (fd : Fd) (c : TableCall) (answer : TableAnswer) : Nat :=
  match c.transfer?, answer.count? with
  | some (through, _), some count => if through = fd then count else 0
  | _, _ => 0

/-- How many bytes answered calls moved through a descriptor. -/
def movedThrough (fd : Fd) : List (TableCall × TableAnswer) → Nat
  | [] => 0
  | made :: rest => moved fd made.1 made.2 + movedThrough fd rest

/-- The answered calls since a slot was last given to a file. -/
def sinceOpened (fd : Fd) (log : List (TableCall × TableAnswer)) : List (TableCall × TableAnswer) :=
  log.rtakeWhile fun made => !made.2.opens fd

theorem movedThrough_concat (fd : Fd) (log : List (TableCall × TableAnswer)) (made : TableCall × TableAnswer) :
    movedThrough fd (log ++ [made]) = movedThrough fd log + moved fd made.1 made.2 := by
  induction log with
  | nil => exact Nat.add_comm _ _
  | cons first rest ih => rw [List.cons_append, movedThrough, ih, movedThrough, Nat.add_assoc]

/-- Where slots are allocated like elements of a set, those of the console are given to no file. -/
theorem Allocates.opens_console {limit : Nat} {taken taken' : Finset Nat} {c : TableCall} {answer : TableAnswer} {fd : Fd}
    (h : Allocates limit taken c answer taken') (hfd : fd.slot < firstFileSlot) : answer.opens fd = false := by
  cases h with
  | opened hleast => exact decide_eq_false fun he => absurd hleast.1.1 (by rw [he]; omega)
  | _ => rfl

/-! ## Buffers -/

namespace Transfer

/-- A buffer after a transfer into it. It keeps its length, and behind the bytes what it held. -/
def into (transfer : Transfer) (buffer : List UInt8) : List UInt8 :=
  transfer.bytes.take buffer.length ++ buffer.drop transfer.bytes.length

/-- How many bytes of a buffer are answered: as many as are claimed, but no more than there are. -/
def count (transfer : Transfer) (buffer : List UInt8) : Nat := min transfer.claimed buffer.length

/-- The bytes of a buffer that are answered. -/
def answered (transfer : Transfer) (buffer : List UInt8) : List UInt8 := (transfer.into buffer).take (transfer.count buffer)

theorem length_into (transfer : Transfer) (buffer : List UInt8) : (transfer.into buffer).length = buffer.length := by
  simp only [into, List.length_append, List.length_take, List.length_drop]
  omega

/-- There are as many as are counted. -/
theorem length_answered (transfer : Transfer) (buffer : List UInt8) :
    (transfer.answered buffer).length = transfer.count buffer := by
  rw [answered, List.length_take, length_into]
  exact Nat.min_eq_left (Nat.min_le_right _ _)

/-- Of a buffer that is zero at first, too. -/
theorem take_fill (transfer : Transfer) (length : Nat) :
    (transfer.fill length).take transfer.claimed = transfer.answered (List.replicate length 0) := by
  have hinto : transfer.fill length = transfer.into (List.replicate length 0) := by
    rw [fill, into, List.length_replicate, List.drop_replicate]
  rw [answered, count, hinto, List.take_eq_take_min, length_into]

end Transfer

namespace Descriptors

variable {μ κ : Type} [Medium μ] [Console κ] {t t' : Descriptors} {w w' : World μ κ} {r : Registry} {fd : Fd} {c : TableCall}

/-- Calls and their answers, each with the registry and the world as they were then. -/
def log (t : Descriptors) : List (TableCall × Registry × World μ κ) → List (TableCall × TableAnswer)
  | [] => []
  | (c, r, w) :: rest => (c, (t.serve r w c).1) :: (t.serve r w c).2.1.log rest

theorem log_concat (t : Descriptors) (calls : List (TableCall × Registry × World μ κ)) (c : TableCall) (r : Registry) (w : World μ κ) :
    t.log (calls ++ [(c, r, w)]) = t.log calls ++ [(c, ((t.serveAll calls).serve r w c).1)] := by
  induction calls generalizing t with
  | nil => rfl
  | cons made rest ih =>
    obtain ⟨c', r', w'⟩ := made
    rw [List.cons_append, log, ih, log]
    rfl

theorem serveAll_concat (t : Descriptors) (calls : List (TableCall × Registry × World μ κ)) (c : TableCall) (r : Registry)
    (w : World μ κ) : t.serveAll (calls ++ [(c, r, w)]) = ((t.serveAll calls).serve r w c).2.1 := by
  rw [serveAll, List.foldl_append]
  rfl

/-- No more bytes are read than were asked for. -/
theorem length_le_of_readWith {α : Type} {count : Nat} {deliver : List UInt8 → Except KernelError α} {bytes : List UInt8} {a : α}
    (h : t.readWith w fd count deliver = (.ok (bytes, a, t'), w')) : bytes.length ≤ count := by
  unfold readWith at h
  split at h
  · cases h
  · rename_i hf
    split at h
    · cases h
    · cases h
      exact length_le_of_fetch hf

/-- No more bytes are written than were given. -/
theorem count_le_of_write {data : List UInt8} {count : Nat} (h : t.write w fd data = (.ok (count, t'), w')) : count ≤ data.length := by
  unfold write at h
  split at h
  · cases h
  · split at h
    · cases h
    · cases h
      exact Nat.min_le_right _ _
    · split at h
      · cases h
      · cases h
        exact Nat.min_le_right _ _

/-- A transfer fails and leaves the table as it is, or it answers a count that is no greater than the one asked for and moves the
cursor of its descriptor on by this count. -/
theorem serve_transfer {count : Nat} (hc : c.transfer? = some (fd, count)) (t : Descriptors) (r : Registry) (w : World μ κ) :
    ((t.serve r w c).1.count? = none ∧ (t.serve r w c).2.1 = t) ∨
      ∃ n ≤ count, (t.serve r w c).1.count? = some n ∧ t.Advanced fd n (t.serve r w c).2.1 := by
  cases c with
  | read through asked deliver =>
    cases hc
    rcases hr : t.readWith w fd count deliver with ⟨e | ⟨bytes, ⟨⟩, t'⟩, w'⟩
    · left
      simp only [serve, hr]
      exact ⟨rfl, trivial⟩
    · obtain ⟨d, hd, rfl⟩ := advance_of_readWith hr
      simp only [serve, hr]
      exact .inr ⟨bytes.length, length_le_of_readWith hr, rfl, advanced_advance hd _⟩
  | write through data =>
    cases hc
    rcases hw : t.write w fd data with ⟨e | ⟨n, t'⟩, w'⟩
    · left
      simp only [serve, hw]
      exact ⟨rfl, trivial⟩
    · obtain ⟨d, hd, rfl⟩ := advance_of_write hw
      simp only [serve, hw]
      exact .inr ⟨n, count_le_of_write hw, rfl, advanced_advance hd _⟩
  | openFile name mode => cases hc
  | close closed => cases hc
  | closeAll => cases hc

/-- What an allocated slot holds after a call: a file that was given to it just now, at whose beginning the cursor stands, or what it
held, with the cursor moved on by what the call moved through it. -/
inductive Holds (t : Descriptors) (fd : Fd) (c : TableCall) (answer : TableAnswer) (d : Descriptor) : Prop where
  /-- The slot was given to a file. -/
  | given (h : answer.opens fd = true) (hd : d.cursor = 0)
  /-- It was allocated before. -/
  | kept (h : answer.opens fd = false) (old : Descriptor) (ht : t.get? fd = some old) (hd : d.cursor = old.cursor + moved fd c answer)

omit [Medium μ] [Console κ] in
/-- A call that moves nothing and gives no slot to a file leaves what it held in every slot that is still allocated. -/
theorem holds_of_get? {answer : TableAnswer} {d : Descriptor} (ht : t.get? fd = some d) (hopens : answer.opens fd = false)
    (hmoved : moved fd c answer = 0) : t.Holds fd c answer d :=
  .kept hopens d ht (by rw [hmoved, Nat.add_zero])

theorem holds_transfer {through : Fd} {count : Nat} (hc : c.transfer? = some (through, count)) (r : Registry) (w : World μ κ)
    {d : Descriptor} (h : (t.serve r w c).2.1.get? fd = some d) : t.Holds fd c (t.serve r w c).1 d := by
  have hopens : (t.serve r w c).1.opens fd = false := by
    cases c with
    | read =>
      rw [serve]
      split <;> rfl
    | write =>
      rw [serve]
      split <;> rfl
    | openFile => cases hc
    | close => cases hc
    | closeAll => cases hc
  rcases serve_transfer hc t r w with ⟨hn, ht⟩ | ⟨n, -, hn, ht⟩
  · rw [ht] at h
    exact holds_of_get? h hopens (by rw [moved, hc, hn])
  · rw [ht.slots] at h
    split at h
    · rename_i hfd
      obtain ⟨old, hold, rfl⟩ := Option.map_eq_some_iff.mp h
      refine .kept hopens old (hfd ▸ hold) ?_
      rw [moved, hc, hn]
      exact congrArg (old.cursor + ·) (if_pos hfd).symm
    · rename_i hfd
      refine holds_of_get? h hopens ?_
      rw [moved, hc, hn]
      exact if_neg hfd

theorem holds_openFile {name : String} {mode : OpenMode} (r : Registry) (w : World μ κ) {d : Descriptor}
    (h : (t.serve r w (.openFile name mode)).2.1.get? fd = some d) :
    t.Holds fd (.openFile name mode) (t.serve r w (.openFile name mode)).1 d := by
  rw [serve, openFile] at h ⊢
  cases hfree : t.findFree with
  | none =>
    simp only [hfree] at h ⊢
    exact holds_of_get? h rfl rfl
  | some taken =>
    rcases ha : r.acquire w name mode with ⟨e | file, r', w'⟩
    · simp only [hfree, ha] at h ⊢
      exact holds_of_get? h rfl rfl
    · simp only [hfree, ha] at h ⊢
      obtain ⟨_, hslot⟩ := exists_slot_of_findFree hfree
      rw [get?_put _ _ _ _ (List.getElem?_eq_some_iff.mp hslot).1] at h
      split at h
      · rename_i hfd
        cases h
        exact .given (decide_eq_true (Fd.eq_of_slot hfd)) rfl
      · rename_i hfd
        exact holds_of_get? h (decide_eq_false fun he => hfd (congrArg Fd.slot he)) rfl

omit [Console κ] in
theorem put_of_close {r' : Registry} (h : t.close r w fd = (.ok t', r', w')) : ∃ d, t.get? fd = some d ∧ t' = t.put fd none := by
  unfold close at h
  split at h
  · cases h
  · rename_i d hd
    split at h <;> cases h <;> exact ⟨d, hd, rfl⟩

theorem holds_close {closed : Fd} (r : Registry) (w : World μ κ) {d : Descriptor}
    (h : (t.serve r w (.close closed)).2.1.get? fd = some d) : t.Holds fd (.close closed) (t.serve r w (.close closed)).1 d := by
  have hopens : (t.serve r w (.close closed)).1.opens fd = false := by
    rw [serve]
    split <;> rfl
  refine holds_of_get? ?_ hopens rfl
  rw [serve] at h
  rcases hclose : t.close r w closed with ⟨e | t', r', w'⟩
  · rw [hclose] at h
    exact h
  · rw [hclose] at h
    obtain ⟨held, hheld, rfl⟩ := put_of_close hclose
    rw [get?_put _ _ _ _ (slot_lt_of_get? hheld)] at h
    split at h
    · cases h
    · exact h

/-- Every call leaves in each slot what it should. -/
theorem holds_serve (t : Descriptors) (r : Registry) (w : World μ κ) (c : TableCall) {d : Descriptor}
    (h : (t.serve r w c).2.1.get? fd = some d) : t.Holds fd c (t.serve r w c).1 d := by
  cases c with
  | read => exact holds_transfer rfl r w h
  | write => exact holds_transfer rfl r w h
  | openFile => exact holds_openFile r w h
  | close => exact holds_close r w h
  | closeAll =>
    have hnone : (⟨t.slots.map fun _ => none⟩ : Descriptors).get? fd = none := by
      rw [get?, List.getElem?_map]
      cases t.slots[fd.slot]? <;> rfl
    cases hnone.symm.trans h

/-- In a new table every cursor stands at the beginning. -/
theorem cursor_create {capacity : Nat} {d : Descriptor} (h : (create capacity).get? fd = some d) : d.cursor = 0 := by
  have hm : some d ∈ (create capacity).slots := List.mem_of_getElem? (slots_of_get? h)
  rcases List.mem_cons.mp hm with hin | hm
  · cases hin
    rfl
  · rcases List.mem_cons.mp hm with hout | hm
    · cases hout
      rfl
    · cases List.eq_of_mem_replicate hm

/-- A cursor stands where the transfers through its descriptor moved it since its slot was last given to a file. -/
theorem cursor_eq_moved (capacity : Nat) (calls : List (TableCall × Registry × World μ κ)) {d : Descriptor}
    (h : ((create capacity).serveAll calls).get? fd = some d) :
    d.cursor = movedThrough fd (sinceOpened fd ((create capacity).log calls)) := by
  -- From the end: it is the last call that may have given the slot to a file, and then nothing before it counts.
  induction calls using List.reverseRecOn generalizing d with
  | nil => exact cursor_create h
  | append_singleton calls made ih =>
    obtain ⟨c, r, w⟩ := made
    rw [serveAll_concat] at h
    rw [log_concat, sinceOpened, List.rtakeWhile_concat]
    rcases holds_serve _ r w c h with ⟨hopens, hd⟩ | ⟨hopens, old, hold, hd⟩
    · rw [if_neg (by simp [hopens]), hd]
      rfl
    · rw [if_pos (by simp [hopens]), movedThrough_concat, hd, ih hold]
      rfl

/-- A table with no more slots than there are descriptor numbers never gives a slot of the console to a file. -/
theorem Shaped.opens_console {limit : Nat} (h : t.Shaped limit) (hlimit : limit ≤ UInt32.size) (hfd : fd.slot < firstFileSlot)
    (calls : List (TableCall × Registry × World μ κ)) : ∀ made ∈ t.log calls, made.2.opens fd = false := by
  induction calls generalizing t with
  | nil => exact fun made hm => absurd hm List.not_mem_nil
  | cons first rest ih =>
    obtain ⟨c, r, w⟩ := first
    have hserved := h.serve hlimit r w c
    intro made hm
    rcases List.mem_cons.mp hm with rfl | hm
    · exact Allocates.opens_console hserved.allocates hfd
    · exact ih hserved.shaped made hm

/-! ## What is delivered -/

/-- What a console or a medium does for a read through a descriptor. -/
def transferred (t : Descriptors) (w : World μ κ) (fd : Fd) (count : Nat) :
    Except KernelError (Descriptor × Transfer) × World μ κ :=
  match t.lookUp fd with
  | .error e => (.error e, w)
  | .ok d =>
    match d.stream with
    | .consoleOut => (.error .invalidDescriptor, w)
    | .consoleIn =>
      match w.takeTyped count with
      | (transfer, w) => (.ok (d, transfer), w)
    | .file file =>
      match w.readAt file.object d.cursor count with
      | (.error e, w) => (.error (.ofStorage e), w)
      | (.ok transfer, w) => (.ok (d, transfer), w)

/-- Reads through a descriptor into a buffer, and hands the bytes to a receiver, which has a state of its own and sees the table as it
is at that time. The cursor moves on when the receiver took them. -/
def readInto {σ : Type} (t : Descriptors) (w : World μ κ) (fd : Fd) (buffer : List UInt8)
    (receive : Descriptors → List UInt8 → σ → Except KernelError Unit × σ) (state : σ) :
    Except KernelError (Nat × Descriptors) × σ × World μ κ :=
  match t.transferred w fd buffer.length with
  | (.error e, w) => (.error e, state, w)
  | (.ok (d, transfer), w) =>
    match receive t (transfer.answered buffer) state with
    | (.error e, state) => (.error e, state, w)
    | (.ok (), state) =>
      let count := transfer.count buffer
      (.ok (count, t.advance fd d count), state, w.note (.descriptorRead fd.slot count))

/-- A read fetches the bytes of a buffer, zero at first, that are answered. -/
theorem fetch_eq_transferred (t : Descriptors) (w : World μ κ) (fd : Fd) (count : Nat) :
    t.fetch w fd count =
      ((t.transferred w fd count).1.map fun got => (got.1, got.2.answered (List.replicate count 0)), (t.transferred w fd count).2) := by
  unfold fetch transferred
  cases t.lookUp fd with
  | error e => rfl
  | ok d =>
    dsimp only
    cases d.stream with
    | consoleIn =>
      dsimp only
      rw [Transfer.take_fill]
      rfl
    | consoleOut => rfl
    | file file =>
      dsimp only
      rcases w.readAt file.object d.cursor count with ⟨e | transfer, w'⟩
      · rfl
      · dsimp only
        rw [Transfer.take_fill]
        rfl

/-- A read is one into a buffer that is zero at first, for a receiver whose verdict depends on the bytes alone. -/
theorem readWith_eq_readInto {σ : Type} {deliver : List UInt8 → Except KernelError Unit}
    {receive : Descriptors → List UInt8 → σ → Except KernelError Unit × σ} (hr : ∀ t bytes state, (receive t bytes state).1 = deliver bytes)
    (t : Descriptors) (w : World μ κ) (fd : Fd) (count : Nat) (state : σ) :
    let done := t.readInto w fd (List.replicate count 0) receive state
    (t.readWith w fd count deliver).1.map (fun read => (read.1.length, read.2.2)) = done.1 ∧
      (t.readWith w fd count deliver).2 = done.2.2 := by
  intro done
  simp only [done, readWith, readInto, fetch_eq_transferred, List.length_replicate]
  rcases t.transferred w fd count with ⟨e | ⟨d, transfer⟩, w'⟩
  · exact ⟨rfl, rfl⟩
  · have hverdict := hr t (transfer.answered (List.replicate count 0)) state
    rcases hreceive : receive t (transfer.answered (List.replicate count 0)) state with ⟨e | ⟨⟩, state'⟩
    · rw [hreceive] at hverdict
      simp only [Except.map, ← hverdict, hreceive, and_self]
    · rw [hreceive] at hverdict
      simp only [Except.map, ← hverdict, hreceive, Transfer.length_answered, and_self]

/-- A receiver that keeps a record of how it was called: of the table as it was then, and of the bytes. -/
def recording (verdict : List UInt8 → Except KernelError Unit) (t : Descriptors) (bytes : List UInt8)
    (calls : List (Descriptors × List UInt8)) : Except KernelError Unit × List (Descriptors × List UInt8) :=
  (verdict bytes, calls ++ [(t, bytes)])

/-- How a receiver is called in a read through a descriptor, and what comes of its verdict. -/
inductive Delivers (t : Descriptors) (fd : Fd) (buffer : List UInt8) (verdict : List UInt8 → Except KernelError Unit) :
    Except KernelError (Descriptor × Transfer) → Except KernelError (Nat × Descriptors) → List (Descriptors × List UInt8) → Prop where
  /-- Nothing could be read, and it is not called. -/
  | failed (e : KernelError) : Delivers t fd buffer verdict (.error e) (.error e) []
  /-- It is called once, with the table as it is and the bytes that would be answered, and refuses them. -/
  | refused {d : Descriptor} {transfer : Transfer} {e : KernelError} (h : verdict (transfer.answered buffer) = .error e) :
      Delivers t fd buffer verdict (.ok (d, transfer)) (.error e) [(t, transfer.answered buffer)]
  /-- It is called once, with the table as it is and the bytes that are answered, and the cursor moves then. -/
  | taken {d : Descriptor} {transfer : Transfer} (h : verdict (transfer.answered buffer) = .ok ()) :
      Delivers t fd buffer verdict (.ok (d, transfer)) (.ok (transfer.count buffer, t.advance fd d (transfer.count buffer)))
        [(t, transfer.answered buffer)]

/-- A receiver is called once at most, before the cursor moves, with just the bytes that are answered. -/
theorem delivers_readInto (t : Descriptors) (w : World μ κ) (fd : Fd) (buffer : List UInt8)
    (verdict : List UInt8 → Except KernelError Unit) :
    let done := t.readInto w fd buffer (recording verdict) []
    Delivers t fd buffer verdict (t.transferred w fd buffer.length).1 done.1 done.2.1 := by
  intro done
  simp only [done, readInto, recording, List.nil_append]
  rcases t.transferred w fd buffer.length with ⟨e | ⟨d, transfer⟩, w'⟩
  · exact .failed e
  · rcases hv : verdict (transfer.answered buffer) with e | ⟨⟩
    · simp only [hv]
      exact .refused hv
    · simp only [hv]
      exact .taken hv

/-- Cursors are accounted for, whatever was called, and however consoles, media and receivers behaved. The cursor of an allocated slot
stands where the counts answered to the reads and writes through it add up to since the slot was last given to a file; the slots of the
console never are, so that all calls count for them. A read or write answers no more than it was asked for, moves no other cursor, and
none at all when it fails. The receiver of a read is called once at most, with just the bytes of the buffer that are answered, and with
the table as it was before. -/
theorem cursors_accounted (capacity : Nat) (calls : List (TableCall × Registry × World μ κ)) :
    let t := (create capacity).serveAll calls
    let log := (create capacity).log calls
    (∀ fd d, t.get? fd = some d → d.cursor = movedThrough fd (sinceOpened fd log)) ∧
    (capacity ≤ UInt32.size → ∀ fd : Fd, fd.slot < firstFileSlot → sinceOpened fd log = log) ∧
    (∀ c fd count, c.transfer? = some (fd, count) → ∀ (r : Registry) (w : World μ κ),
      let served := t.serve r w c
      (∀ n, served.1.count? = some n → n ≤ count) ∧ (served.1.count? = none → served.2.1 = t) ∧
        ∀ other, other ≠ fd → served.2.1.get? other = t.get? other) ∧
    ∀ (w : World μ κ) (fd : Fd) (verdict : List UInt8 → Except KernelError Unit),
      (∀ buffer, let done := t.readInto w fd buffer (recording verdict) []
        Delivers t fd buffer verdict (t.transferred w fd buffer.length).1 done.1 done.2.1) ∧
      ∀ count, let done := t.readInto w fd (List.replicate count 0) (recording verdict) []
        (t.readWith w fd count verdict).1.map (fun read => (read.1.length, read.2.2)) = done.1 ∧
          (t.readWith w fd count verdict).2 = done.2.2 := by
  intro t log
  have hrecording : ∀ verdict t bytes calls, (recording verdict t bytes calls).1 = verdict bytes := fun _ _ _ _ => rfl
  refine ⟨fun fd d hd => cursor_eq_moved capacity calls hd, fun hcapacity fd hfd => ?_, fun c fd count hc r w => ?_,
    fun w fd verdict => ⟨fun buffer => delivers_readInto t w fd buffer verdict,
      fun count => readWith_eq_readInto (hrecording verdict) t w fd count []⟩⟩
  · have hlimit : max capacity firstFileSlot ≤ UInt32.size := Nat.max_le.mpr ⟨hcapacity, by decide⟩
    refine List.rtakeWhile_eq_self_iff.mpr fun made hm => ?_
    rw [(shaped_create capacity).opens_console hlimit hfd calls made hm]
    rfl
  · rcases serve_transfer hc t r w with ⟨hn, ht⟩ | ⟨n, hle, hn, ht⟩
    · refine ⟨fun n hs => ?_, fun _ => ht, fun other _ => by rw [ht]⟩
      cases hn.symm.trans hs
    · refine ⟨fun n' hs => ?_, fun hnone => ?_, fun other hne => ?_⟩
      · cases hn.symm.trans hs
        exact hle
      · cases hn.symm.trans hnone
      · rw [ht.slots, if_neg (Ne.symm hne)]

/-- A file of five bytes, two bytes that were typed, and devices that claim ten bytes too many for every read. -/
def boasting : World (Faulty RamDisk) (Faulty Terminal) :=
  { medium := ⟨⟨(∅ : Std.ExtTreeMap String ObjectId).insert "a" ⟨0⟩, [[1, 2, 3, 4, 5]], none⟩, { read := [.distort none 10] }⟩
    console := ⟨⟨[7, 7]⟩, { read := [.distort none 10] }⟩ }

/-- Typed bytes are read, and the file through two descriptors, of which one is closed and opened anew. Once the bytes are refused. -/
def reopened : List (TableCall × Registry × World (Faulty RamDisk) (Faulty Terminal)) :=
  [.read ⟨0⟩ 4 fun _ => .ok (), .openFile "a" .plain, .read ⟨2⟩ 3 fun _ => .ok (), .read ⟨2⟩ 4 fun _ => .error .invalidAddress,
    .openFile "a" .plain, .write ⟨3⟩ [9, 9], .close ⟨2⟩, .openFile "a" .plain, .read ⟨2⟩ 2 fun _ => .ok ()].map
    fun c => (c, .empty, boasting)

/-- Each descriptor stands where the transfers since it was opened left it. A receiver that refuses moves none, and it is handed as much
of its buffer as the medium claims, also what the buffer held before. -/
theorem cursors_accounted_reopened :
    let t := (create 4).serveAll reopened
    let log := (create 4).log reopened
    let file : OpenFile := ⟨0, "a", ⟨0⟩⟩
    let refusing : List UInt8 → Except KernelError Unit := fun _ => .error .invalidAddress
    let c : TableCall := .read ⟨2⟩ 2 refusing
    let served := t.serve .empty boasting c
    let done := t.readInto boasting ⟨2⟩ [8, 8, 8, 8, 8, 8] (recording refusing) []
    t.slots = [some ⟨.consoleIn, 4⟩, some ⟨.consoleOut, 0⟩, some ⟨.file file, 2⟩, some ⟨.file file, 2⟩] ∧
      movedThrough ⟨2⟩ log = 5 ∧ 2 = movedThrough ⟨2⟩ (sinceOpened ⟨2⟩ log) ∧
      4 ≤ UInt32.size ∧ Fd.slot ⟨0⟩ < firstFileSlot ∧ sinceOpened ⟨0⟩ log = log ∧
      c.transfer? = some (⟨2⟩, 2) ∧ served.1.count? = none ∧ served.2.1 = t ∧ (⟨3⟩ : Fd) ≠ ⟨2⟩ ∧ served.2.1.get? ⟨3⟩ = t.get? ⟨3⟩ ∧
      done.2.1 = [(t, [3, 4, 5, 8, 8, 8])] ∧
      Delivers t ⟨2⟩ [8, 8, 8, 8, 8, 8] refusing (t.transferred boasting ⟨2⟩ 6).1 done.1 done.2.1 := by
  intro t log file refusing c served done
  have hslots : t.slots = [some ⟨.consoleIn, 4⟩, some ⟨.consoleOut, 0⟩, some ⟨.file file, 2⟩, some ⟨.file file, 2⟩] := by decide
  have htransfer : c.transfer? = some (⟨2⟩, 2) := rfl
  have hfailed : served.1.count? = none := by decide
  obtain ⟨hcursors, hconsole, htransfers, hdelivers⟩ := cursors_accounted 4 reopened
  obtain ⟨-, hkept, hothers⟩ := htransfers c ⟨2⟩ 2 htransfer .empty boasting
  exact ⟨hslots, by decide, hcursors ⟨2⟩ ⟨.file file, 2⟩ (by decide), by decide, by decide, hconsole (by decide) ⟨0⟩ (by decide),
    htransfer, hfailed, hkept hfailed, by decide, hothers ⟨3⟩ (by decide), by decide,
    (hdelivers boasting ⟨2⟩ refusing).1 [8, 8, 8, 8, 8, 8]⟩

end Descriptors

end Nucleus
