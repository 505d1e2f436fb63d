import Nucleus.Kernel.SystemCalls

/-!
# What the check of a range is worth

The kernel checks a range once and then moves bytes into it. `check_eq_ok_iff` reads the check byte by byte: the range does not
start at the null address, and every byte of it lies in a page that exists and grants the rights. So what a check says depends on
nothing but the rights of the pages that the range meets, holds of every beginning of the range, and is all that a store needs. The
system call that asks for a child checks the place for the status before it waits, so it can store the status there afterwards.
-/

namespace Nucleus

/-- Storing bytes leaves every page its rights. -/
theorem map_rights_storePages (pages : List Page) (place : Nat) (data : List UInt8) :
    (storePages pages place data).map Page.rights = pages.map Page.rights := by
  induction pages generalizing place data with
  | nil => rfl
  | cons p rest ih =>
    unfold storePages
    split
    · rfl
    split
    · rw [List.map_cons, List.map_cons, ih]
    · rw [List.map_cons, List.map_cons, ih]
      rfl

/-- A run of pages has a page full of bytes for each of them. -/
theorem length_flatMap_bytes (pages : List Page) : (pages.flatMap Page.bytes).length = pages.length * pageSize := by
  induction pages with
  | nil => simp
  | cons p rest ih => rw [List.flatMap_cons, List.length_append, ih, p.length_bytes, List.length_cons, Nat.succ_mul, Nat.add_comm]

namespace AddressSpace

variable {s s' : AddressSpace} {a : Address} {count : Nat} {needed : Rights}

/-- A page that exists has rights. -/
theorem rights?_eq_some_iff {page : Nat} {rights : Rights} :
    s.rights? page = some rights ↔ ∃ p, s.pages[page]? = some p ∧ p.rights = rights := Option.map_eq_some_iff

/-- Whether all pages grant some rights that a range meets. -/
theorem grants_eq_true_iff :
    s.grants a count needed = true ↔
      ∀ page p, a.page ≤ page → page < (a.toNat + count - 1) / pageSize + 1 → s.pages[page]? = some p →
        p.rights.contains needed = true := by
  unfold grants
  rw [List.all_eq_true]
  constructor
  · intro h page p hlo hhi hp
    refine h p (List.mem_iff_getElem?.mpr ⟨page - a.page, ?_⟩)
    rw [List.getElem?_take, if_pos (by omega), List.getElem?_drop, Nat.add_sub_cancel' hlo, hp]
  · intro h p hm
    obtain ⟨j, hj⟩ := List.mem_iff_getElem?.mp hm
    rw [List.getElem?_take] at hj
    split at hj
    · rw [List.getElem?_drop] at hj
      exact h (a.page + j) p (by omega) (by omega) hj
    · cases hj

theorem holds_eq_true_iff : s.holds a count = true ↔ a.toNat + count ≤ s.pages.length * pageSize := decide_eq_true_iff

/-- What is checked of a range that is not empty. -/
theorem check_cases (hc : 0 < count) :
    s.check a count needed = .ok () ↔
      a.isNull = false ∧ a.toNat + count ≤ s.pages.length * pageSize ∧ s.grants a count needed = true := by
  unfold check
  rw [if_neg (by omega)]
  cases hn : a.isNull <;> cases hh : s.holds a count <;> cases hg : s.grants a count needed <;>
    simp [← holds_eq_true_iff, hh]

/-- A range that is not good is refused as a bad address. -/
theorem check_eq_error (h : s.check a count needed ≠ .ok ()) : s.check a count needed = .error .invalidAddress := by
  unfold check at h ⊢
  split
  · rename_i hc
    exact absurd (if_pos hc) h
  · rename_i hc
    rw [if_neg hc] at h
    exact if_neg fun hg => h (if_pos hg)

/-- A range is good exactly when it does not start at the null address and each of its bytes lies in a page that grants the rights.
-/
theorem check_eq_ok_iff (hc : 0 < count) :
    s.check a count needed = .ok () ↔
      a.isNull = false ∧ ∀ i < count, ∃ rights, s.rights? ((a.toNat + i) / pageSize) = some rights ∧
        rights.contains needed = true := by
  have hpage : a.page = a.toNat / 1024 := rfl
  have hsize : pageSize = 1024 := rfl
  rw [check_cases hc, grants_eq_true_iff, hsize]
  constructor
  · rintro ⟨hnull, hholds, hgrants⟩
    refine ⟨hnull, fun i hi => ?_⟩
    have hlt : (a.toNat + i) / 1024 < s.pages.length := by omega
    have hp := List.getElem?_eq_getElem hlt
    exact ⟨_, rights?_eq_some_iff.mpr ⟨_, hp, rfl⟩, hgrants _ _ (by omega) (by omega) hp⟩
  · rintro ⟨hnull, hbytes⟩
    refine ⟨hnull, ?_, fun page p hlo hhi hp => ?_⟩
    · -- The last byte lies in a page that exists.
      obtain ⟨_, hr, -⟩ := hbytes (count - 1) (by omega)
      obtain ⟨p, hp, -⟩ := rights?_eq_some_iff.mp hr
      have hlt := (List.getElem?_eq_some_iff.mp hp).1
      omega
    · -- The first byte of the range in a page that it meets tells the rights of that page.
      have hfirst : (a.toNat + (page * 1024 - a.toNat)) / 1024 = page := by omega
      obtain ⟨rights, hr, hgrant⟩ := hbytes (page * 1024 - a.toNat) (by omega)
      rw [hfirst] at hr
      obtain ⟨p', hp', rfl⟩ := rights?_eq_some_iff.mp hr
      cases hp.symm.trans hp'
      exact hgrant

/-- Every beginning of a good range is good. -/
theorem check_of_le {count' : Nat} (h : s.check a count needed = .ok ()) (hle : count' ≤ count) :
    s.check a count' needed = .ok () := by
  rcases Nat.eq_zero_or_pos count' with rfl | hpos
  · rfl
  · obtain ⟨hnull, hbytes⟩ := (check_eq_ok_iff (by omega)).mp h
    exact (check_eq_ok_iff hpos).mpr ⟨hnull, fun i hi => hbytes i (by omega)⟩

/-- No bytes are copied in from any address, also from one that is not good. -/
theorem copyIn_zero (s : AddressSpace) (a : Address) : s.copyIn a 0 = .ok [] := by
  have hslice : slicePages s.pages a.toNat 0 = [] := by rw [slicePages_eq, List.take_zero]
  rw [copyIn, check, if_pos rfl, hslice]

/-- Two spaces give the pages that a range meets the same rights. -/
def SameRights (s s' : AddressSpace) (a : Address) (count : Nat) : Prop :=
  ∀ i < count, s'.rights? ((a.toNat + i) / pageSize) = s.rights? ((a.toNat + i) / pageSize)

/-- The check sees nothing but the rights of the pages that the range meets. -/
theorem check_congr (h : s.check a count needed = .ok ()) (hr : s.SameRights s' a count) : s'.check a count needed = .ok () := by
  rcases Nat.eq_zero_or_pos count with rfl | hpos
  · rfl
  · obtain ⟨hnull, hbytes⟩ := (check_eq_ok_iff hpos).mp h
    exact (check_eq_ok_iff hpos).mpr ⟨hnull, fun i hi => hr i hi ▸ hbytes i hi⟩

/-- A memory has as many bytes as its size says. -/
theorem length_bytes (s : AddressSpace) : s.bytes.length = s.size := length_flatMap_bytes s.pages

/-- A good range lies in the space. -/
theorem le_length_of_check (h : s.check a count needed = .ok ()) (hc : 0 < count) : a.toNat + count ≤ s.bytes.length := by
  rw [length_bytes]
  exact ((check_cases hc).mp h).2.1

/-- A space with bytes stored in it from an address on, and nothing else changed. -/
structure Stores (s : AddressSpace) (a : Address) (data : List UInt8) (s' : AddressSpace) : Prop where
  /-- The bytes lie in the space. -/
  fits : a.toNat + data.length ≤ s.bytes.length
  /-- The memory is what it was, but for these bytes. -/
  bytes : s'.bytes = s.bytes.take a.toNat ++ data ++ s.bytes.drop (a.toNat + data.length)
  /-- The pages have the rights that they had. -/
  rights : ∀ page, s'.rights? page = s.rights? page

/-- What is stored page by page where all of it fits is stored there, and nothing else changes. -/
theorem stores_storePages {data : List UInt8} (h : a.toNat + data.length ≤ s.bytes.length) :
    s.Stores a data ⟨storePages s.pages a.toNat data⟩ := by
  refine ⟨h, bytes_storePages s.pages a.toNat data h, fun page => ?_⟩
  rw [rights?, rights?, ← List.getElem?_map, ← List.getElem?_map, map_rights_storePages]

/-- What a checked range is given is stored there. -/
theorem copyOut_of_check {data : List UInt8} (h : s.check a data.length .write = .ok ()) (hd : 0 < data.length) :
    ∃ s', s.copyOut a data = .ok s' ∧ s.Stores a data s' :=
  ⟨_, by rw [copyOut, h], stores_storePages (le_length_of_check h hd)⟩

/-- So is a word, the low byte first. -/
theorem writeWord_of_check (h : s.check a 4 .write = .ok ()) (w : UInt32) :
    ∃ s', s.writeWord a w = .ok s' ∧ s.Stores a (wordBytes w) s' :=
  copyOut_of_check h (Nat.zero_lt_succ 3)

/-! ## Bytes put at an address -/

variable {data : List UInt8}

/-- A memory with bytes put at an address: they stand there, every other byte is what it was, and so are the rights of the pages. -/
structure Puts (s : AddressSpace) (a : Address) (data : List UInt8) (s' : AddressSpace) : Prop where
  /-- The bytes, one by one. -/
  bytes : ∀ i : Nat, s'.bytes[i]? =
    if a.toNat ≤ i ∧ i < a.toNat + data.length then data[i - a.toNat]? else s.bytes[i]?
  /-- The pages have the rights that they had. -/
  rights : ∀ page, s'.rights? page = s.rights? page

/-- No bytes are put anywhere by doing nothing. -/
theorem puts_nil (s : AddressSpace) (a : Address) : s.Puts a [] s where
  bytes i := by
    rw [List.length_nil, if_neg (by omega)]
  rights _ := rfl

/-- What was stored in a range stands there. -/
theorem Stores.puts (h : s.Stores a data s') : s.Puts a data s' where
  bytes i := by
    have hfits := h.fits
    rw [h.bytes, List.append_assoc]
    simp only [List.getElem?_append, List.length_take, List.getElem?_take, List.getElem?_drop, Nat.min_eq_left (by omega :
      a.toNat ≤ s.bytes.length)]
    by_cases hlow : i < a.toNat
    · rw [if_pos hlow, if_pos hlow, if_neg (by omega)]
    · by_cases hin : i < a.toNat + data.length
      · rw [if_neg hlow, if_pos (by omega), if_pos (by omega)]
      · rw [if_neg hlow, if_neg (by omega), if_neg (by omega)]
        congr 1
        omega
  rights := h.rights

/-- Storing no bytes leaves the pages as they are. -/
theorem storePages_nil (pages : List Page) (place : Nat) : storePages pages place [] = pages := by
  cases pages <;> rfl

/-- Bytes can be put into a range that was found good for them. -/
theorem exists_copyOut (h : s.check a data.length .write = .ok ()) : ∃ s', s.copyOut a data = .ok s' ∧ s.Puts a data s' := by
  rcases Nat.eq_zero_or_pos data.length with hd | hd
  · obtain rfl : data = [] := List.eq_nil_of_length_eq_zero hd
    refine ⟨s, ?_, s.puts_nil a⟩
    rw [copyOut, h]
    dsimp only
    rw [storePages_nil]
  · obtain ⟨s', hs, hstores⟩ := copyOut_of_check h hd
    exact ⟨s', hs, hstores.puts⟩

/-- The bytes of a memory from an address on, at most as many as asked. -/
def bytesAt (s : AddressSpace) (a : Address) (count : Nat) : List UInt8 := (s.bytes.drop a.toNat).take count

/-- Where there are as many bytes as asked it is as long. -/
theorem length_bytesAt_of_le (h : a.toNat + count ≤ s.size) : (s.bytesAt a count).length = count := by
  rw [bytesAt, List.length_take, List.length_drop, length_bytes]
  omega

/-- A range that was found good is as long as asked. -/
theorem length_bytesAt (h : s.check a count needed = .ok ()) : (s.bytesAt a count).length = count := by
  rcases Nat.eq_zero_or_pos count with rfl | hc
  · rw [bytesAt, List.take_zero, List.length_nil]
  · have hle := le_length_of_check h hc
    rw [length_bytes] at hle
    exact length_bytesAt_of_le hle

/-- The bytes of two ranges of which the second begins where the first ends. -/
theorem bytesAt_add {b : Address} {more : Nat} (hb : b.toNat = a.toNat + count) :
    s.bytesAt a (count + more) = s.bytesAt a count ++ s.bytesAt b more := by
  rw [bytesAt, bytesAt, bytesAt, List.take_add, List.drop_drop, hb]

/-- What is copied in from a range are the bytes that stand there. -/
theorem copyIn_of_check (h : s.check a count .read = .ok ()) : s.copyIn a count = .ok (s.bytesAt a count) := by
  rw [copyIn, h, slicePages_eq]
  rfl

/-- What cannot be read is refused. -/
theorem copyIn_of_not_check (h : s.check a count .read ≠ .ok ()) : s.copyIn a count = .error .invalidAddress := by
  rw [copyIn, check_eq_error h]

end AddressSpace

/-! ## The place for a status -/

namespace Kernel

variable {μ κ : Type} {k : Kernel μ κ} {caller : Pid} {process : Process} {target : Address}

/-- Whoever asks for a child by system call runs, and the place for the status can be written. -/
theorem joinArguments_eq_ok {child : Pid} {args : Arguments} (h : k.joinArguments caller args = .ok child) :
    ∃ process, k.processes.live caller = .ok process ∧
      ((Address.mk args.a1).isNull = false → process.memory.check ⟨args.a1⟩ 4 .write = .ok ()) := by
  unfold joinArguments at h
  split at h
  · cases h
  · split at h
    · cases h
    · rename_i process hl
      refine ⟨process, hl, fun hn => ?_⟩
      rw [if_neg (by simp [hn])] at h
      split at h
      · cases h
      · rename_i hc
        exact hc

/-- A status that was taken is stored where the caller wants it; the result is its code. -/
def storeCode (k : Kernel μ κ) (caller : Pid) (target : Address) (status : ExitStatus) : Except KernelError Int64 × Kernel μ κ :=
  if target.isNull then (.ok status.code.toInt64, k)
  else
    match k.changeMemory caller (·.writeWord target status.code.toUInt32) with
    | (.error e, k) => (.error e, k)
    | (.ok (), k) => (.ok status.code.toInt64, k)

/-- The end of a join by system call stores the code and returns it. -/
theorem finishJoin_eq_answer (k : Kernel μ κ) (caller : Pid) (target : Address) (trap : Option TrapFrame) (status : ExitStatus) :
    k.finishJoin caller (.systemCall target trap) (.ok status) =
      (k.storeCode caller target status).2.answer trap (k.storeCode caller target status).1 := by
  unfold storeCode
  simp only [finishJoin]
  split
  · rfl
  · cases k.changeMemory caller (·.writeWord target status.code.toUInt32) with
    | mk result k₁ => cases result <;> rfl

/-- Where the caller wants no code stored none is. -/
theorem storeCode_of_isNull (hn : target.isNull = true) (status : ExitStatus) :
    k.storeCode caller target status = (.ok status.code.toInt64, k) := if_pos hn

/-- Where the caller's memory can be written the code is stored there. -/
theorem storeCode_of_check (hn : target.isNull = false) (hl : k.processes.live caller = .ok process)
    (hc : process.memory.check target 4 .write = .ok ()) (status : ExitStatus) :
    ∃ memory, process.memory.Stores target (wordBytes status.code.toUInt32) memory ∧
      k.storeCode caller target status = (.ok status.code.toInt64, k.putLive caller { process with memory }) := by
  obtain ⟨memory, hw, hs⟩ := AddressSpace.writeWord_of_check hc status.code.toUInt32
  have hm : k.changeMemory caller (·.writeWord target status.code.toUInt32) =
      (.ok (), k.putLive caller { process with memory }) := by
    simp only [changeMemory, hl, hw]
  refine ⟨memory, hs, ?_⟩
  simp only [storeCode, hn, hm, Bool.false_eq_true, if_false]

end Kernel

end Nucleus
