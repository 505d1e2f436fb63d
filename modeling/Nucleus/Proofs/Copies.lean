import Nucleus.Proofs.Memory

/-!
# Copies between the kernel and a memory

Pages and words behind them, a memory is one run of bytes, and a copy takes a part of it or puts one into it. `copies_are_flat` says
when a copy is made and what it does, without a word of pages but for their rights. The second half of it is about the way this is
done: a range is checked by the first and the last page that it meets, and walked over piece by piece, with numbers that have to
stay words and with indices that have to be in range (`walk`). Nothing ever leaves its bounds there, and the outcome is the same.
-/

namespace Nucleus

/-! ## Bytes and pages -/

/-- The byte at a place of a run of pages stands in the page that holds the place. -/
theorem getElem?_flatMap_bytes (pages : List Page) (place : Nat) :
    (pages.flatMap Page.bytes)[place]? = pages[place / pageSize]?.bind fun p => p.bytes[place % pageSize]? := by
  induction pages generalizing place with
  | nil => rfl
  | cons p rest ih =>
    have hp := p.length_bytes
    have hsize : 0 < pageSize := by decide
    rw [List.flatMap_cons, List.getElem?_append, hp]
    split
    · next hlt => rw [Nat.div_eq_of_lt hlt, Nat.mod_eq_of_lt hlt, List.getElem?_cons_zero, Option.bind_some]
    · next hge =>
      obtain ⟨rest', rfl⟩ := Nat.exists_eq_add_of_le (Nat.le_of_not_lt hge)
      rw [ih, Nat.add_sub_cancel_left, Nat.add_div_left _ hsize, Nat.add_mod_left, List.getElem?_cons_succ]

/-- Pages are known by their bytes and their rights. -/
theorem pages_ext {pages pages' : List Page} (hb : pages.flatMap Page.bytes = pages'.flatMap Page.bytes)
    (hr : pages.map Page.rights = pages'.map Page.rights) : pages = pages' := by
  induction pages generalizing pages' with
  | nil => exact (List.map_eq_nil_iff.mp hr.symm).symm
  | cons p rest ih =>
    cases pages' with
    | nil => cases hr
    | cons p' rest' =>
      rw [List.map_cons, List.map_cons, List.cons.injEq] at hr
      rw [List.flatMap_cons, List.flatMap_cons] at hb
      obtain ⟨hbytes, hrest⟩ := List.append_inj hb (p.length_bytes.trans p'.length_bytes.symm)
      obtain rfl : p = p' := by
        cases p
        cases p'
        cases hbytes
        cases hr.1
        rfl
      rw [ih hrest hr.2]

/-- The bytes of a page with some stored in it, where they fit. -/
theorem Page.getElem?_store {p : Page} {offset : Nat} {data : List UInt8} (h : offset + data.length ≤ pageSize) (i : Nat) :
    (p.store offset data).bytes[i]? =
      if offset ≤ i ∧ i < offset + data.length then data[i - offset]? else p.bytes[i]? := by
  have hp := p.length_bytes
  have hbytes : (p.store offset data).bytes = p.bytes.take offset ++ (data ++ p.bytes.drop (offset + data.length)) := by
    simp only [Page.store, List.take_of_length_le (by omega : data.length ≤ pageSize - offset), List.append_assoc]
  rw [hbytes]
  simp only [List.getElem?_append, List.length_take, List.getElem?_take, List.getElem?_drop,
    Nat.min_eq_left (by omega : offset ≤ p.bytes.length)]
  by_cases hlow : i < offset
  · rw [if_pos hlow, if_pos hlow, if_neg (by omega)]
  · by_cases hin : i < offset + data.length
    · rw [if_neg hlow, if_pos (by omega), if_pos (by omega)]
    · rw [if_neg hlow, if_neg (by omega), if_neg (by omega)]
      congr 1
      omega

namespace Address

/-- An address lies before the end of its page. -/
theorem offset_lt (a : Address) : a.offset < pageSize := Nat.mod_lt _ (by decide)

/-- A number that is a word is the number of its address. -/
theorem toNat_ofNat {n : Nat} (h : n < UInt64.size) : (ofNat n).toNat = n := UInt64.toNat_ofNat_of_lt h

/-- An address some bytes further on is as much greater. -/
theorem toNat_of_add? {a b : Address} {bytes : Nat} (h : a.add? bytes = some b) : b.toNat = a.toNat + bytes := by
  unfold add? at h
  split at h
  · next hlt =>
    cases h
    exact toNat_ofNat hlt
  · cases h

/-- The null address is the address of zero, and no other is. -/
theorem isNull_eq_false_iff {a : Address} : a.isNull = false ↔ a.toNat ≠ 0 := by
  rw [isNull, beq_eq_false_iff_ne, ne_eq, ← UInt64.toNat_inj]
  rfl

/-- No address behind one that is not null is null. -/
theorem isNull_of_le {a b : Address} (h : a.isNull = false) (hle : a.toNat ≤ b.toNat) : b.isNull = false := by
  rw [isNull_eq_false_iff] at h ⊢
  omega

end Address

namespace AddressSpace

variable {s s' : AddressSpace} {a : Address} {count : Nat} {data : List UInt8} {needed : Rights}

/-- A memory with bytes put somewhere has as many pages as before, with the same rights. -/
theorem Puts.map_rights (h : s.Puts a data s') : s'.pages.map Page.rights = s.pages.map Page.rights := by
  refine List.ext_getElem? fun page => ?_
  rw [List.getElem?_map, List.getElem?_map]
  exact h.rights page

theorem Puts.pageCount_eq (h : s.Puts a data s') : s'.pageCount = s.pageCount := by
  rw [pageCount, pageCount, ← List.length_map Page.rights, h.map_rights, List.length_map]

theorem Puts.size_eq (h : s.Puts a data s') : s'.size = s.size := congrArg (· * pageSize) h.pageCount_eq

/-- There is one memory with some bytes put at an address. -/
theorem Puts.unique {s₁ s₂ : AddressSpace} (h₁ : s.Puts a data s₁) (h₂ : s.Puts a data s₂) : s₁ = s₂ := by
  have hbytes : s₁.bytes = s₂.bytes := List.ext_getElem? fun i => (h₁.bytes i).trans (h₂.bytes i).symm
  exact congrArg AddressSpace.mk (pages_ext hbytes (h₁.map_rights.trans h₂.map_rights.symm))

/-- What is stored page by page is put there, where all of it fits; no bytes fit everywhere. -/
theorem puts_storePages (h : data = [] ∨ a.toNat + data.length ≤ s.size) :
    s.Puts a data ⟨storePages s.pages a.toNat data⟩ := by
  rcases h with rfl | h
  · rw [storePages_nil]
    exact s.puts_nil a
  · refine (stores_storePages ?_).puts
    rw [length_bytes]
    exact h

/-! ## What a copy does -/

/-- A range that may be copied: it is empty, or it does not start at the null address, ends in the memory, and every page that it
meets grants the rights. -/
def Copyable (s : AddressSpace) (a : Address) (count : Nat) (needed : Rights) : Prop :=
  count = 0 ∨
    a.toNat ≠ 0 ∧ a.toNat + count ≤ s.pageCount * pageSize ∧
      ∀ page rights, s.rights? page = some rights →
        page * pageSize < a.toNat + count → a.toNat < (page + 1) * pageSize → rights.contains needed = true

/-- The check lets pass just what may be copied. -/
theorem check_eq_ok_iff_copyable : s.check a count needed = .ok () ↔ s.Copyable a count needed := by
  rcases Nat.eq_zero_or_pos count with rfl | hc
  · exact iff_of_true rfl (.inl rfl)
  have hpage : a.page = a.toNat / 1024 := rfl
  have hsize : pageSize = 1024 := rfl
  rw [Copyable, check_cases hc, Address.isNull_eq_false_iff, grants_eq_true_iff, hsize]
  constructor
  · rintro ⟨hnull, hholds, hgrants⟩
    refine .inr ⟨hnull, hholds, fun page rights hr hlo hhi => ?_⟩
    obtain ⟨p, hp, rfl⟩ := rights?_eq_some_iff.mp hr
    exact hgrants page p (by omega) (by omega) hp
  · rintro (h0 | ⟨hnull, hholds, hgrants⟩)
    · omega
    · exact ⟨hnull, hholds, fun page p hlo hhi hp =>
        hgrants page p.rights (rights?_eq_some_iff.mpr ⟨p, hp, rfl⟩) (by omega) (by omega)⟩

/-- What is copied in are the bytes that stand there; what may not be copied is a bad address. -/
theorem copyIn_cases (s : AddressSpace) (a : Address) (count : Nat) :
    s.Copyable a count .read ∧ s.copyIn a count = .ok (s.bytesAt a count) ∨
      ¬s.Copyable a count .read ∧ s.copyIn a count = .error .invalidAddress := by
  by_cases h : s.check a count .read = .ok ()
  · exact .inl ⟨check_eq_ok_iff_copyable.mp h, copyIn_of_check h⟩
  · exact .inr ⟨fun hc => h (check_eq_ok_iff_copyable.mpr hc), copyIn_of_not_check h⟩

/-- What is copied out is put there, and nothing else changes; what may not be copied is a bad address. -/
theorem copyOut_cases (s : AddressSpace) (a : Address) (data : List UInt8) :
    s.Copyable a data.length .write ∧ (∃ s', s.copyOut a data = .ok s' ∧ s.Puts a data s') ∨
      ¬s.Copyable a data.length .write ∧ s.copyOut a data = .error .invalidAddress := by
  by_cases h : s.check a data.length .write = .ok ()
  · exact .inl ⟨check_eq_ok_iff_copyable.mp h, exists_copyOut h⟩
  · refine .inr ⟨fun hc => h (check_eq_ok_iff_copyable.mpr hc), ?_⟩
    rw [copyOut, check_eq_error h]

/-- What is loaded is put there where it fits, with no look at rights; else it is a bad address. -/
theorem load_cases (s : AddressSpace) (a : Address) (data : List UInt8) :
    (data = [] ∨ a.toNat + data.length ≤ s.pageCount * pageSize) ∧ (∃ s', s.load a data = .ok s' ∧ s.Puts a data s') ∨
      ¬(data = [] ∨ a.toNat + data.length ≤ s.pageCount * pageSize) ∧ s.load a data = .error .invalidAddress := by
  unfold load
  split
  · next hd =>
    obtain rfl : data = [] := List.isEmpty_iff.mp hd
    exact .inl ⟨.inl rfl, s, rfl, s.puts_nil a⟩
  · next hd =>
    split
    · next hh =>
      have hfits : a.toNat + data.length ≤ s.pageCount * pageSize := holds_eq_true_iff.mp hh
      exact .inl ⟨.inr hfits, _, rfl, puts_storePages (.inr hfits)⟩
    · next hh =>
      refine .inr ⟨?_, rfl⟩
      rintro (rfl | hfits)
      · exact hd rfl
      · exact hh (holds_eq_true_iff.mpr hfits)

end AddressSpace

/-! ## Piece by piece -/

namespace Bounded

variable {α : Type}

/-- The sum of two numbers, if it is a word. -/
def sum? (m n : Nat) : Option Nat := if m + n < UInt64.size then some (m + n) else none

/-- The product of two numbers, if it is a word. -/
def product? (m n : Nat) : Option Nat := if m * n < UInt64.size then some (m * n) else none

/-- The elements of a list from a place up to before another, if it has all of them. -/
def slice? (l : List α) (start stop : Nat) : Option (List α) :=
  if start ≤ stop ∧ stop ≤ l.length then some ((l.drop start).take (stop - start)) else none

/-- A list with others in place of its elements from a place on, if it has so many. -/
def overwrite? (l : List α) (start : Nat) (others : List α) : Option (List α) :=
  if start + others.length ≤ l.length then some (l.take start ++ others ++ l.drop (start + others.length)) else none

theorem slice?_add {l : List α} {start count : Nat} (h : start + count ≤ l.length) :
    slice? l start (start + count) = some ((l.drop start).take count) := by
  rw [slice?, if_pos ⟨Nat.le_add_right .., h⟩, Nat.add_sub_cancel_left]

end Bounded

/-- The part of a range that lies in one page. -/
structure Piece where
  /-- The page. -/
  page : Nat
  /-- Where in the page the part begins. -/
  offset : Nat
  /-- How many bytes of the range come before it. -/
  done : Nat
  /-- How many bytes it has. -/
  amount : Nat

/-- Walks over a range from piece to piece and does a step for each; there is no outcome if a sum is not a word, or if a step has
none. -/
def walk {σ : Type} (step : Piece → σ → Option σ) (a : Address) (count done : Nat) (state : σ) : Option σ :=
  if _ : done < count then
    match a.add? done with
    | none => none
    | some place =>
      let amount := min (pageSize - place.offset) (count - done)
      match step ⟨place.page, place.offset, done, amount⟩ state, Bounded.sum? done amount with
      | some state, some _ => walk step a count (done + amount) state
      | _, _ => none
  else some state
termination_by count - done
decreasing_by
  have := place.offset_lt
  omega

/-- No step is done for an empty range. -/
theorem walk_zero {σ : Type} (step : Piece → σ → Option σ) (a : Address) (state : σ) : walk step a 0 0 state = some state := by
  rw [walk, dif_neg (Nat.lt_irrefl 0)]

/-- A walk has an outcome if the range ends before the words do and every step has one. What holds at first and is kept by every step
holds at the end. -/
theorem exists_walk {σ : Type} {step : Piece → σ → Option σ} {a : Address} {count : Nat}
    (hend : a.toNat + count < UInt64.size) (P : Nat → σ → Prop)
    (hstep : ∀ (done amount : Nat) (place : Address) (state : σ), place.toNat = a.toNat + done →
      place.offset + amount ≤ pageSize → done + amount ≤ count → 0 < amount → P done state →
      ∃ state', step ⟨place.page, place.offset, done, amount⟩ state = some state' ∧ P (done + amount) state')
    (done : Nat) (state : σ) (hle : done ≤ count) (h : P done state) :
    ∃ state', walk step a count done state = some state' ∧ P count state' := by
  have hpiece : ∀ {done : Nat} {place : Address} {state : σ}, done < count → a.add? done = some place → P done state →
      let amount := min (pageSize - place.offset) (count - done)
      (∃ state', step ⟨place.page, place.offset, done, amount⟩ state = some state' ∧ P (done + amount) state') ∧
        Bounded.sum? done amount = some (done + amount) ∧ done + amount ≤ count := by
    intro done place state hlt hplace h amount
    have hoffset := place.offset_lt
    have hle : done + amount ≤ count := by omega
    exact ⟨hstep done amount place state (Address.toNat_of_add? hplace) (by omega) hle (by omega) h, if_pos (by omega), hle⟩
  fun_induction walk step a count done state with
  | case1 done state hlt hnone =>
    rw [Address.add?, if_pos (by omega)] at hnone
    cases hnone
  | case2 done state hlt place hplace amount state' _ _ hs ih =>
    obtain ⟨⟨_, hs', hnext⟩, -, hle'⟩ := hpiece hlt hplace h
    cases hs.symm.trans hs'
    exact ih hle' hnext
  | case3 done state hlt place hplace amount hnone =>
    obtain ⟨⟨state', hs, -⟩, hsum, -⟩ := hpiece hlt hplace h
    exact absurd hsum (hnone state' _ hs)
  | case4 done state hge =>
    obtain rfl : done = count := by omega
    exact ⟨state, rfl, h⟩

namespace AddressSpace

variable {s s' : AddressSpace} {a : Address} {count : Nat} {data : List UInt8} {needed : Rights}

/-- Copies a piece into its place in a buffer. -/
def fetchPiece (s : AddressSpace) (piece : Piece) (buffer : List UInt8) : Option (List UInt8) := do
  let page ← s.pages[piece.page]?
  let bytes ← Bounded.slice? page.bytes piece.offset (piece.offset + piece.amount)
  Bounded.overwrite? buffer piece.done bytes

/-- Stores a piece of some bytes in its page. -/
def storePiece (data : List UInt8) (piece : Piece) (s : AddressSpace) : Option AddressSpace := do
  let page ← s.pages[piece.page]?
  let bytes ← Bounded.slice? data piece.done (piece.done + piece.amount)
  if piece.offset + bytes.length ≤ pageSize then
    some ⟨s.pages.set piece.page (page.store piece.offset bytes)⟩
  else none

/-- Whether a range lies in the space, found on words. -/
def holdsStepwise (s : AddressSpace) (a : Address) (count : Nat) : Option Bool := do
  let size ← Bounded.product? s.pageCount pageSize
  some (match a.add? count with
    | some stop => stop.toNat ≤ size
    | none => false)

/-- The check, done on words and with the first and the last page that a range meets. -/
def checkStepwise (s : AddressSpace) (a : Address) (count : Nat) (needed : Rights) : Option (Except KernelError Unit) :=
  if count = 0 then some (.ok ())
  else if a.isNull then some (.error .invalidAddress)
  else do
    if ← s.holdsStepwise a count then
      let stop ← Bounded.sum? a.toNat count
      let pages ← Bounded.slice? s.pages a.page ((stop - 1) / pageSize + 1)
      some (if pages.all fun p => p.rights.contains needed then .ok () else .error .invalidAddress)
    else some (.error .invalidAddress)

/-- A copy into a buffer, piece by piece: what it comes to, and the buffer after it. -/
def copyInStepwise (s : AddressSpace) (a : Address) (buffer : List UInt8) :
    Option (Except KernelError Unit × List UInt8) := do
  match ← s.checkStepwise a buffer.length .read with
  | .error e => some (.error e, buffer)
  | .ok () =>
    let buffer ← walk s.fetchPiece a buffer.length 0 buffer
    some (.ok (), buffer)

/-- A copy out of a buffer, piece by piece: what it comes to, and the memory after it. -/
def copyOutStepwise (s : AddressSpace) (a : Address) (data : List UInt8) :
    Option (Except KernelError Unit × AddressSpace) := do
  match ← s.checkStepwise a data.length .write with
  | .error e => some (.error e, s)
  | .ok () =>
    let s ← walk (storePiece data) a data.length 0 s
    some (.ok (), s)

/-- A store of the loader, piece by piece: what it comes to, and the memory after it. -/
def loadStepwise (s : AddressSpace) (a : Address) (data : List UInt8) : Option (Except KernelError Unit × AddressSpace) :=
  if data.isEmpty then some (.ok (), s)
  else do
    if ← s.holdsStepwise a data.length then
      let s ← walk (storePiece data) a data.length 0 s
      some (.ok (), s)
    else some (.error .invalidAddress, s)

/-! ### The steps and the walks -/

/-- A piece of a page is a part of the memory. -/
theorem take_drop_bytes {place : Address} {p : Page} {amount : Nat} (hp : s.pages[place.page]? = some p)
    (h : place.offset + amount ≤ pageSize) : (p.bytes.drop place.offset).take amount = s.bytesAt place amount := by
  have hpage : place.page = place.toNat / 1024 := rfl
  have hoffset : place.offset = place.toNat % 1024 := rfl
  have hsize : pageSize = 1024 := rfl
  rw [hsize] at h
  refine List.ext_getElem? fun i => ?_
  rw [bytesAt, List.getElem?_take, List.getElem?_take, List.getElem?_drop, List.getElem?_drop]
  split
  · rw [bytes, getElem?_flatMap_bytes, hsize, show (place.toNat + i) / 1024 = place.page by omega, hp, Option.bind_some,
      show (place.toNat + i) % 1024 = place.offset + i by omega]
  · rfl

/-- Bytes stored in a page are put at their address. -/
theorem puts_store {place : Address} {p : Page} (hp : s.pages[place.page]? = some p)
    (h : place.offset + data.length ≤ pageSize) : s.Puts place data ⟨s.pages.set place.page (p.store place.offset data)⟩ where
  bytes i := by
    have hpage : place.page = place.toNat / 1024 := rfl
    have hoffset : place.offset = place.toNat % 1024 := rfl
    have hsize : pageSize = 1024 := rfl
    have hlt : place.page < s.pages.length := (List.getElem?_eq_some_iff.mp hp).1
    rw [bytes, bytes, getElem?_flatMap_bytes, getElem?_flatMap_bytes, List.getElem?_set]
    by_cases hi : place.page = i / pageSize
    · rw [if_pos hi, if_pos hlt, Option.bind_some, Page.getElem?_store h, ← hi, hp, Option.bind_some]
      rw [hsize] at h hi ⊢
      by_cases hin : place.toNat ≤ i ∧ i < place.toNat + data.length
      · rw [if_pos hin, if_pos (by omega), show i % 1024 - place.offset = i - place.toNat by omega]
      · rw [if_neg hin, if_neg (by omega)]
    · rw [hsize] at h hi ⊢
      rw [if_neg hi, if_neg (by omega)]
  rights page := by
    have hlt : place.page < s.pages.length := (List.getElem?_eq_some_iff.mp hp).1
    rw [rights?, rights?, List.getElem?_set]
    by_cases hi : place.page = page
    · rw [if_pos hi, if_pos hlt, ← hi, hp]
      rfl
    · rw [if_neg hi]

/-- Bytes put right behind others are put at the address of those with them. -/
theorem Puts.append {s₁ s₂ : AddressSpace} {b : Address} {more : List UInt8} (h₁ : s.Puts a data s₁) (h₂ : s₁.Puts b more s₂)
    (hb : b.toNat = a.toNat + data.length) : s.Puts a (data ++ more) s₂ where
  bytes i := by
    rw [h₂.bytes, h₁.bytes, hb, List.length_append, List.getElem?_append]
    by_cases hlow : i < a.toNat + data.length
    · rw [if_neg (by omega)]
      by_cases hin : a.toNat ≤ i
      · rw [if_pos ⟨hin, hlow⟩, if_pos (by omega), if_pos (by omega)]
      · rw [if_neg (by omega), if_neg (by omega)]
    · by_cases hin : i < a.toNat + data.length + more.length
      · rw [if_pos (by omega), if_pos (by omega), if_neg (by omega), Nat.sub_sub]
      · rw [if_neg (by omega), if_neg (by omega), if_neg (by omega)]
  rights page := (h₂.rights page).trans (h₁.rights page)

/-- A page holds every place before the end of the memory. -/
theorem exists_page {place : Address} (h : place.toNat < s.size) : ∃ p, s.pages[place.page]? = some p :=
  ⟨_, List.getElem?_eq_getElem (Nat.div_lt_of_lt_mul (Nat.mul_comm s.pageCount pageSize ▸ h))⟩

/-- A piece is copied behind those before it. -/
theorem fetchPiece_eq {place : Address} {buffer : List UInt8} {done amount : Nat} (h : a.toNat + buffer.length ≤ s.size)
    (hplace : place.toNat = a.toNat + done) (hpage : place.offset + amount ≤ pageSize) (hle : done + amount ≤ buffer.length)
    (hpos : 0 < amount) :
    s.fetchPiece ⟨place.page, place.offset, done, amount⟩ (s.bytesAt a done ++ buffer.drop done) =
      some (s.bytesAt a (done + amount) ++ buffer.drop (done + amount)) := by
  have hdone : (s.bytesAt a done).length = done := length_bytesAt_of_le (by omega)
  have hamount : (s.bytesAt place amount).length = amount := length_bytesAt_of_le (by omega)
  obtain ⟨p, hp⟩ : ∃ p, s.pages[place.page]? = some p := exists_page (by omega)
  have hslice : Bounded.slice? p.bytes place.offset (place.offset + amount) = some (s.bytesAt place amount) := by
    rw [Bounded.slice?_add (by rw [p.length_bytes]; exact hpage), take_drop_bytes hp hpage]
  simp only [fetchPiece, hp, hslice, Option.bind_eq_bind, Option.bind_some]
  rw [Bounded.overwrite?, if_pos (by rw [List.length_append, List.length_drop]; omega), hamount, bytesAt_add hplace,
    List.take_left' hdone, List.drop_append, hdone, List.drop_eq_nil_of_le (by omega), List.nil_append, List.drop_drop,
    Nat.add_sub_cancel_left]

/-- A walk with copies into a buffer fills it with the bytes of the range. -/
theorem walk_fetchPiece (hsize : s.size < UInt64.size) {buffer : List UInt8}
    (h : buffer = [] ∨ a.toNat + buffer.length ≤ s.size) :
    walk s.fetchPiece a buffer.length 0 buffer = some (s.bytesAt a buffer.length) := by
  rcases h with rfl | h
  · exact (walk_zero ..).trans (congrArg some List.take_zero.symm)
  obtain ⟨filled, hwalk, hfilled⟩ := exists_walk (by omega)
    (fun done filled => filled = s.bytesAt a done ++ buffer.drop done)
    (fun done amount place _ hplace hpage hle hpos hfilled => ⟨_, hfilled ▸ fetchPiece_eq h hplace hpage hle hpos, rfl⟩)
    0 buffer (Nat.zero_le _) rfl
  rw [hwalk, hfilled, List.drop_length, List.append_nil]

/-- A piece is stored behind those before it. -/
theorem exists_storePiece {place : Address} {done amount : Nat} (h : a.toNat + data.length ≤ s.size)
    (hplace : place.toNat = a.toNat + done) (hpage : place.offset + amount ≤ pageSize) (hle : done + amount ≤ data.length)
    (hpos : 0 < amount) (hs : s.Puts a (data.take done) s') :
    ∃ s'', storePiece data ⟨place.page, place.offset, done, amount⟩ s' = some s'' ∧ s.Puts a (data.take (done + amount)) s'' := by
  have hpages := hs.size_eq
  have hdone : (data.take done).length = done := by
    rw [List.length_take]
    omega
  have hamount : ((data.drop done).take amount).length = amount := by
    rw [List.length_take, List.length_drop]
    omega
  obtain ⟨p, hp⟩ : ∃ p, s'.pages[place.page]? = some p := exists_page (by omega)
  have hfits : place.offset + ((data.drop done).take amount).length ≤ pageSize := by omega
  refine ⟨_, ?_, List.take_add ▸ hs.append (puts_store hp hfits) (by rw [hplace, hdone])⟩
  simp only [storePiece, hp, Bounded.slice?_add hle, Option.bind_eq_bind, Option.bind_some, if_pos hfits]

/-- A walk with stores puts the bytes at their address. -/
theorem walk_storePiece (hsize : s.size < UInt64.size) (h : data = [] ∨ a.toNat + data.length ≤ s.size) :
    walk (storePiece data) a data.length 0 s = some ⟨storePages s.pages a.toNat data⟩ := by
  rcases h with rfl | h
  · exact (walk_zero ..).trans (congrArg some (congrArg AddressSpace.mk (storePages_nil ..).symm))
  obtain ⟨s', hwalk, hs⟩ := exists_walk (by omega) (fun done s' => s.Puts a (data.take done) s')
    (fun done amount place _ hplace hpage hle hpos hs => exists_storePiece h hplace hpage hle hpos hs)
    0 s (Nat.zero_le _) (List.take_zero ▸ s.puts_nil a)
  rw [List.take_length] at hs
  rw [hwalk, hs.unique (puts_storePages (.inr h))]

/-- Whether a range lies in the space is found without leaving the words, where the size of the space is one. -/
theorem holdsStepwise_eq (hsize : s.size < UInt64.size) (a : Address) (count : Nat) :
    s.holdsStepwise a count = some (s.holds a count) := by
  have hproduct : Bounded.product? s.pageCount pageSize = some s.size := if_pos hsize
  simp only [holdsStepwise, hproduct, Option.bind_eq_bind, Option.bind_some, Option.some.injEq]
  cases hadd : a.add? count with
  | none =>
    have hover : ¬a.toNat + count < UInt64.size := by
      intro hlt
      rw [Address.add?, if_pos hlt] at hadd
      cases hadd
    exact (decide_eq_false (by omega)).symm
  | some stop => rw [holds, ← Address.toNat_of_add? hadd]

/-- The check goes through, and says the same. -/
theorem checkStepwise_eq (hsize : s.size < UInt64.size) (a : Address) (count : Nat) (needed : Rights) :
    s.checkStepwise a count needed = some (s.check a count needed) := by
  unfold checkStepwise check
  split
  · rfl
  next hc =>
  cases hn : a.isNull with
  | true => rfl
  | false =>
    simp only [holdsStepwise_eq hsize, Option.bind_eq_bind, Option.bind_some]
    cases hh : s.holds a count with
    | false => rfl
    | true =>
      have hfits : a.toNat + count ≤ s.pages.length * pageSize := holds_eq_true_iff.mp hh
      have hlt : a.toNat + count < UInt64.size := Nat.lt_of_le_of_lt hfits hsize
      have hsum : Bounded.sum? a.toNat count = some (a.toNat + count) := if_pos hlt
      have hslice : Bounded.slice? s.pages a.page ((a.toNat + count - 1) / pageSize + 1) =
          some ((s.pages.drop a.page).take ((a.toNat + count - 1) / pageSize + 1 - a.page)) := by
        have hpage : a.page = a.toNat / 1024 := rfl
        have h1024 : pageSize = 1024 := rfl
        rw [h1024] at hfits ⊢
        exact if_pos (by omega)
      simp only [hsum, hslice, Option.bind_some, grants, Bool.not_false, Bool.true_and, Bool.false_eq_true, if_true, if_false]

/-! ### The copies -/

/-- A range that was found good is empty or lies in the space. -/
theorem fits_of_check (h : s.check a data.length needed = .ok ()) : data = [] ∨ a.toNat + data.length ≤ s.size := by
  rcases check_eq_ok_iff_copyable.mp h with hd | ⟨-, hfits, -⟩
  · exact .inl (List.eq_nil_of_length_eq_zero hd)
  · exact .inr hfits

/-- A copy into a buffer goes through and brings what a copy in brings; a refused one leaves the buffer as it was. -/
theorem copyInStepwise_eq (hsize : s.size < UInt64.size) (a : Address) (buffer : List UInt8) :
    s.copyInStepwise a buffer = some (match s.copyIn a buffer.length with
      | .ok bytes => (.ok (), bytes)
      | .error e => (.error e, buffer)) := by
  unfold copyInStepwise
  rw [checkStepwise_eq hsize]
  cases hc : s.check a buffer.length .read with
  | error e =>
    rw [copyIn, hc]
    rfl
  | ok =>
    simp only [walk_fetchPiece hsize (fits_of_check hc), copyIn_of_check hc, Option.bind_eq_bind, Option.bind_some]

/-- A copy out of a buffer goes through and does what a copy out does; a refused one leaves the memory as it was. -/
theorem copyOutStepwise_eq (hsize : s.size < UInt64.size) (a : Address) (data : List UInt8) :
    s.copyOutStepwise a data = some (match s.copyOut a data with
      | .ok s' => (.ok (), s')
      | .error e => (.error e, s)) := by
  unfold copyOutStepwise copyOut
  rw [checkStepwise_eq hsize]
  cases hc : s.check a data.length .write with
  | error e => rfl
  | ok => simp only [walk_storePiece hsize (fits_of_check hc), Option.bind_eq_bind, Option.bind_some]

/-- So does a store of the loader. -/
theorem loadStepwise_eq (hsize : s.size < UInt64.size) (a : Address) (data : List UInt8) :
    s.loadStepwise a data = some (match s.load a data with
      | .ok s' => (.ok (), s')
      | .error e => (.error e, s)) := by
  unfold loadStepwise load
  split
  · rfl
  · rw [holdsStepwise_eq hsize]
    cases hh : s.holds a data.length with
    | false => rfl
    | true =>
      have hfits : a.toNat + data.length ≤ s.size := holds_eq_true_iff.mp hh
      simp only [walk_storePiece hsize (.inr hfits), Option.bind_eq_bind, Option.bind_some, if_true]

/-- Copies see a memory of any number of pages as one run of bytes, at every address and for every length. Bytes are copied in just
when the range is empty or begins behind the null address, ends in the memory and meets pages only that can be read; they are the
bytes that stand there. Bytes are copied out under the same condition with pages that can be written, and loaded just when there are
none or they fit; then they stand there, every other byte is as before, and so are the rights of all pages. Whatever is refused is
a bad address. And where the size of the memory is a word, the check and the copies, done on words and piece by piece, never leave
the words nor a list, come to the same, and leave buffer and memory as they were where they fail. -/
theorem copies_are_flat (s : AddressSpace) (a : Address) :
    s.bytes.length = s.pageCount * pageSize ∧
    (∀ count,
      s.Copyable a count .read ∧ s.copyIn a count = .ok (s.bytesAt a count) ∨
      ¬s.Copyable a count .read ∧ s.copyIn a count = .error .invalidAddress) ∧
    (∀ data : List UInt8,
      s.Copyable a data.length .write ∧ (∃ s', s.copyOut a data = .ok s' ∧ s.Puts a data s') ∨
      ¬s.Copyable a data.length .write ∧ s.copyOut a data = .error .invalidAddress) ∧
    (∀ data : List UInt8,
      (data = [] ∨ a.toNat + data.length ≤ s.pageCount * pageSize) ∧ (∃ s', s.load a data = .ok s' ∧ s.Puts a data s') ∨
      ¬(data = [] ∨ a.toNat + data.length ≤ s.pageCount * pageSize) ∧ s.load a data = .error .invalidAddress) ∧
    (s.size < UInt64.size →
      (∀ count needed, s.checkStepwise a count needed = some (s.check a count needed)) ∧
      ∀ data : List UInt8,
        s.copyInStepwise a data = some (match s.copyIn a data.length with
          | .ok bytes => (.ok (), bytes)
          | .error e => (.error e, data)) ∧
        s.copyOutStepwise a data = some (match s.copyOut a data with
          | .ok s' => (.ok (), s')
          | .error e => (.error e, s)) ∧
        s.loadStepwise a data = some (match s.load a data with
          | .ok s' => (.ok (), s')
          | .error e => (.error e, s))) :=
  ⟨s.length_bytes, s.copyIn_cases a, s.copyOut_cases a, s.load_cases a, fun hsize =>
    ⟨checkStepwise_eq hsize a, fun data =>
      ⟨copyInStepwise_eq hsize a data, copyOutStepwise_eq hsize a data, loadStepwise_eq hsize a data⟩⟩⟩

/-- Two pages, of which the second can be read and not written. -/
def halfLocked : AddressSpace := ⟨[.blank, .withRights .blank .read]⟩

/-- Across their border bytes are copied in, and none out. -/
theorem halfLocked_crossed :
    halfLocked.size < UInt64.size ∧
      halfLocked.copyInStepwise ⟨1022⟩ [1, 2, 3, 4] = some (.ok (), [0, 0, 0, 0]) ∧
      halfLocked.copyOutStepwise ⟨1022⟩ [1, 2, 3, 4] = some (.error .invalidAddress, halfLocked) := by
  have hsize : halfLocked.size < UInt64.size := by decide
  obtain ⟨-, -, -, -, hwords⟩ := copies_are_flat halfLocked ⟨1022⟩
  obtain ⟨hin, hout, -⟩ := (hwords hsize).2 [1, 2, 3, 4]
  have hbytes : halfLocked.bytesAt ⟨1022⟩ 4 = [0, 0, 0, 0] := by decide +kernel
  have hread : halfLocked.copyIn ⟨1022⟩ 4 = .ok [0, 0, 0, 0] := (copyIn_of_check rfl).trans (congrArg Except.ok hbytes)
  refine ⟨hsize, ?_, hout.trans rfl⟩
  rw [hin, List.length_cons, List.length_cons, List.length_cons, List.length_singleton, hread]

end AddressSpace

end Nucleus
