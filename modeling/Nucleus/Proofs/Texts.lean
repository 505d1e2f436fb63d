import Nucleus.Proofs.Copies
import Mathlib.Data.Nat.Find

/-!
# Texts in user memory

A text ends at the first zero byte. Whether one is found at an address depends on what comes first there: a zero byte, a byte that
cannot be read, or the limit. `AddressSpace.Finds` tells the five outcomes by these, and `texts_end_at_zero` says that this is what
reading a text comes to, and also what reading it byte by byte does, which ends after as many bytes as there are at most.
-/

namespace Nucleus

/-! ## Texts and their bytes -/

theorem toList_loop (b : ByteArray) (i : Nat) (before : List UInt8) :
    ByteArray.toList.loop b i before = before.reverse ++ b.data.toList.drop i := by
  fun_induction ByteArray.toList.loop b i before with
  | case1 i before hlt ih =>
    have hi : i < b.data.toList.length := by simpa using hlt
    rw [ih, List.reverse_cons, List.append_assoc, List.drop_eq_getElem_cons hi]
    simp [ByteArray.get!, hlt]
  | case2 i before hge =>
    rw [List.drop_eq_nil_of_le (by simpa using hge), List.append_nil]

/-- The bytes of a text are those of its encoding. -/
theorem textBytes_eq (text : String) : textBytes text = text.toByteArray.data.toList := toList_loop _ 0 []

/-- A text has as many bytes as its encoding. -/
theorem length_textBytes (text : String) : (textBytes text).length = text.utf8ByteSize := by
  rw [textBytes_eq, Array.length_toList]
  rfl

/-- Bytes encode a text just when they are its bytes. -/
theorem textOfBytes?_eq_some_iff {bytes : List UInt8} {text : String} :
    textOfBytes? bytes = some text ↔ textBytes text = bytes := by
  rw [textBytes_eq, textOfBytes?, String.fromUTF8?]
  constructor
  · intro h
    split at h
    · cases h
      rfl
    · cases h
  · rintro rfl
    rw [dif_pos text.isValidUTF8]
    rfl

/-- Bytes that are not those of any text are not decoded. -/
theorem textOfBytes?_eq_none {bytes : List UInt8} (h : ∀ text, textBytes text ≠ bytes) : textOfBytes? bytes = none :=
  Option.eq_none_iff_forall_ne_some.mpr fun text he => h text (textOfBytes?_eq_some_iff.mp he)

/-! ## Bytes that can be read -/

/-- The byte at a place of a run of pages can be read: it is there, and its page grants it. -/
def CanRead (pages : List Page) (place : Nat) : Prop :=
  ∃ p, pages[place / pageSize]? = some p ∧ p.rights.contains .read = true

section Runs

variable {p : Page} {rest : List Page} {place : Nat}

theorem canRead_cons_of_lt (h : place < pageSize) : CanRead (p :: rest) place ↔ p.rights.contains .read = true := by
  rw [CanRead, Nat.div_eq_of_lt h, List.getElem?_cons_zero]
  exact ⟨fun ⟨_, hp, hr⟩ => Option.some.inj hp ▸ hr, fun hr => ⟨p, rfl, hr⟩⟩

theorem canRead_cons_add : CanRead (p :: rest) (place + pageSize) ↔ CanRead rest place := by
  rw [CanRead, Nat.add_div_right _ (by decide : 0 < pageSize), List.getElem?_cons_succ]
  rfl

/-- So many bytes from a place on can be read, up to as many as asked or to the first that cannot. -/
structure RunsTo (pages : List Page) (place count length : Nat) : Prop where
  /-- No more than asked. -/
  le : length ≤ count
  /-- Each of them. -/
  canRead : ∀ i < length, CanRead pages (place + i)
  /-- The next one, if it was asked for. -/
  stops : length < count → ¬CanRead pages (place + length)

/-- There are none if none are asked for or the first cannot be read. -/
theorem runsTo_zero {pages : List Page} {count : Nat} (h : count = 0 ∨ ¬CanRead pages place) : RunsTo pages place count 0 where
  le := Nat.zero_le _
  canRead i hi := absurd hi (Nat.not_lt_zero i)
  stops hlt := h.resolve_left (by omega)

/-- A run behind the first page is a run of the others. -/
theorem RunsTo.behind {count length : Nat} (h : RunsTo rest place count length) :
    RunsTo (p :: rest) (place + pageSize) count length where
  le := h.le
  canRead i hi := by
    rw [Nat.add_right_comm]
    exact canRead_cons_add.mpr (h.canRead i hi)
  stops hlt := by
    rw [Nat.add_right_comm, canRead_cons_add]
    exact h.stops hlt

/-- A run that begins in the first page goes on with a run of the others if that does not suffice. -/
theorem RunsTo.across {count length : Nat} (hplace : place < pageSize) (hr : p.rights.contains .read = true)
    (h : RunsTo rest 0 (count - (pageSize - place)) length) :
    RunsTo (p :: rest) place count (min count (pageSize - place) + length) where
  le := by
    have := h.le
    omega
  canRead i hi := by
    have hle := h.le
    by_cases hin : place + i < pageSize
    · exact (canRead_cons_of_lt hin).mpr hr
    · rw [show place + i = 0 + (i - (pageSize - place)) + pageSize by omega, canRead_cons_add]
      exact h.canRead _ (by omega)
  stops hlt := by
    rw [show place + (min count (pageSize - place) + length) = 0 + length + pageSize by omega, canRead_cons_add]
    exact h.stops (by omega)

/-- What is read up to the first page that cannot be read ends at the first byte that cannot, or when there is enough. -/
theorem runsTo_readableRun (pages : List Page) (place count : Nat) :
    RunsTo pages place count (readableRun pages place count).length := by
  induction pages generalizing place count with
  | nil => exact runsTo_zero (.inr fun ⟨_, hp, _⟩ => nomatch hp)
  | cons p rest ih =>
    unfold readableRun
    split
    · next hc => exact runsTo_zero (.inl hc)
    split
    · next hle =>
      obtain ⟨behind, rfl⟩ := Nat.exists_eq_add_of_le' hle
      rw [Nat.add_sub_cancel]
      exact (ih behind count).behind
    split
    · next hlt hr =>
      have hslice : (p.slice place count).length = min count (pageSize - place) := by
        rw [Page.slice, List.length_take, List.length_drop, p.length_bytes]
      rw [List.length_append, hslice]
      exact (ih 0 _).across (Nat.lt_of_not_le hlt) hr
    · next hlt hr => exact runsTo_zero (.inr fun hread => hr ((canRead_cons_of_lt (Nat.lt_of_not_le hlt)).mp hread))

end Runs

namespace AddressSpace

variable {s : AddressSpace} {a : Address} {limit length : Nat} {result : Except KernelError String}

/-- It is as long as the bytes can be read. -/
theorem runsTo_readableFrom (s : AddressSpace) (a : Address) (count : Nat) :
    RunsTo s.pages a.toNat count (s.readableFrom a count).length := runsTo_readableRun s.pages a.toNat count

/-- It is a part of the memory. -/
theorem readableFrom_eq (s : AddressSpace) (a : Address) (count : Nat) :
    s.readableFrom a count = s.bytesAt a (s.readableFrom a count).length := by
  have hprefix := readableRun_prefix s.pages a.toNat count
  rw [slicePages_eq] at hprefix
  have hle : (readableRun s.pages a.toNat count).length ≤ count := (s.runsTo_readableFrom a count).le
  have htake := List.prefix_iff_eq_take.mp hprefix
  rw [List.take_take, Nat.min_eq_left hle] at htake
  exact htake

/-! ## What is found at an address -/

/-- The byte at a place can be read and does not end a text. -/
def InText (s : AddressSpace) (place : Nat) : Prop := CanRead s.pages place ∧ s.bytes[place]? ≠ some 0

/-- The first zero byte from an address on comes after so many bytes, and all of them can be read. -/
structure EndsAfter (s : AddressSpace) (a : Address) (length : Nat) : Prop where
  /-- The bytes before it. -/
  inText : ∀ i < length, s.InText (a.toNat + i)
  /-- It can be read. -/
  canRead : CanRead s.pages (a.toNat + length)
  /-- It is zero. -/
  zero : s.bytes[a.toNat + length]? = some 0

/-- What is found when a text of at most `limit` bytes is looked for at an address. -/
inductive Finds (s : AddressSpace) (a : Address) (limit : Nat) : Except KernelError String → Prop where
  /-- The null address never leads anywhere. -/
  | null (hn : a.isNull = true) : Finds s a limit (.error .invalidAddress)
  /-- The bytes before the first zero are those of a text. -/
  | text {length : Nat} {text : String} (hn : a.isNull = false) (hl : length ≤ limit) (h : s.EndsAfter a length)
      (ht : textBytes text = s.bytesAt a length) : Finds s a limit (.ok text)
  /-- They are not those of any text. -/
  | malformed {length : Nat} (hn : a.isNull = false) (hl : length ≤ limit) (h : s.EndsAfter a length)
      (ht : ∀ text, textBytes text ≠ s.bytesAt a length) : Finds s a limit (.error .invalidArgument)
  /-- There are more bytes than the limit allows, and none of them is zero. -/
  | overlong (hn : a.isNull = false) (h : ∀ i ≤ limit, s.InText (a.toNat + i)) : Finds s a limit (.error .invalidArgument)
  /-- A byte that cannot be read comes before any zero. -/
  | cut {length : Nat} (hn : a.isNull = false) (hl : length ≤ limit) (h : ∀ i < length, s.InText (a.toNat + i))
      (hr : ¬CanRead s.pages (a.toNat + length)) : Finds s a limit (.error .invalidAddress)

/-- Something is found everywhere. -/
theorem exists_finds (s : AddressSpace) (a : Address) (limit : Nat) : ∃ result, s.Finds a limit result := by
  cases hn : a.isNull with
  | true => exact ⟨_, .null hn⟩
  | false =>
    by_cases h : ∀ i ≤ limit, s.InText (a.toNat + i)
    · exact ⟨_, .overlong hn h⟩
    · -- The first byte that is not in the text is zero, or cannot be read.
      obtain ⟨length, ⟨hl, hout⟩, hfirst⟩ : ∃ length, (length ≤ limit ∧ ¬s.InText (a.toNat + length)) ∧
          ∀ i < length, s.InText (a.toNat + i) := by
        classical
        have hex : ∃ i, i ≤ limit ∧ ¬s.InText (a.toNat + i) := by simpa using h
        refine ⟨Nat.find hex, Nat.find_spec hex, fun i hi => ?_⟩
        by_contra hni
        exact Nat.find_min hex hi ⟨by have := (Nat.find_spec hex).1; omega, hni⟩
      by_cases hr : CanRead s.pages (a.toNat + length)
      · have hzero : s.bytes[a.toNat + length]? = some 0 := by_contra fun hz => hout ⟨hr, hz⟩
        have hends : s.EndsAfter a length := ⟨hfirst, hr, hzero⟩
        by_cases ht : ∃ text, textBytes text = s.bytesAt a length
        · obtain ⟨text, ht⟩ := ht
          exact ⟨_, .text hn hl hends ht⟩
        · exact ⟨_, .malformed hn hl hends fun text he => ht ⟨text, he⟩⟩
      · exact ⟨_, .cut hn hl hfirst hr⟩

/-! ## Reading it -/

theorem getElem?_bytesAt {count i : Nat} (h : i < count) : (s.bytesAt a count)[i]? = s.bytes[a.toNat + i]? := by
  rw [bytesAt, List.getElem?_take, if_pos h, List.getElem?_drop]

/-- No byte of a text is zero. -/
theorem zero_notMem_bytesAt (h : ∀ i < length, s.InText (a.toNat + i)) : 0 ∉ s.bytesAt a length := by
  intro hm
  obtain ⟨i, hi⟩ := List.mem_iff_getElem?.mp hm
  have hlt : i < length := by
    have hle : (s.bytesAt a length).length ≤ length := List.length_take_le ..
    have := (List.getElem?_eq_some_iff.mp hi).1
    omega
  exact (h i hlt).2 (getElem?_bytesAt hlt ▸ hi)

/-- The bytes before the first zero are the text. -/
theorem takeWhile_bytesAt {count : Nat} (h : s.EndsAfter a length) (hlt : length < (s.bytesAt a count).length) :
    (s.bytesAt a count).takeWhile (· ≠ 0) = s.bytesAt a length := by
  have hcount : length < count := Nat.lt_of_lt_of_le hlt (List.length_take_le ..)
  have hzero : (s.bytesAt a count)[length] = 0 :=
    Option.some.inj ((List.getElem?_eq_getElem hlt).symm.trans ((getElem?_bytesAt hcount).trans h.zero))
  have hbefore : (s.bytesAt a count).take length = s.bytesAt a length := by
    rw [bytesAt, bytesAt, List.take_take, Nat.min_eq_left (Nat.le_of_lt hcount)]
  have hall : ∀ byte ∈ s.bytesAt a length, decide (byte ≠ 0) = true := by
    rintro byte hm
    refine decide_eq_true ?_
    rintro rfl
    exact zero_notMem_bytesAt h.inText hm
  rw [← List.take_append_drop length (s.bytesAt a count), hbefore, List.takeWhile_append_of_pos hall,
    List.drop_eq_getElem_cons hlt, hzero]
  simp

/-- A text and the zero byte behind it are among the bytes that can be read. -/
theorem EndsAfter.lt_length {count : Nat} (h : s.EndsAfter a length) (hl : length < count) :
    length < (s.readableFrom a count).length := by
  by_contra hge
  refine (s.runsTo_readableFrom a count).stops (by omega) ?_
  rcases Nat.lt_or_eq_of_le (Nat.le_of_not_lt hge) with hin | he
  · exact (h.inText _ hin).1
  · exact he ▸ h.canRead

theorem EndsAfter.contains_zero {count : Nat} (h : s.EndsAfter a length) (hl : length < count) :
    (s.readableFrom a count).contains 0 = true := by
  have hlt := h.lt_length hl
  rw [List.contains_iff_mem]
  refine List.mem_of_getElem? (?_ : (s.readableFrom a count)[length]? = some 0)
  rw [s.readableFrom_eq, getElem?_bytesAt hlt, h.zero]

theorem EndsAfter.takeWhile {count : Nat} (h : s.EndsAfter a length) (hl : length < count) :
    (s.readableFrom a count).takeWhile (· ≠ 0) = s.bytesAt a length := by
  have hlt := h.lt_length hl
  rw [s.readableFrom_eq a count] at hlt ⊢
  exact takeWhile_bytesAt h hlt

/-- Where all bytes that can be read are in the text none of them is zero. -/
theorem contains_zero_eq_false {count : Nat} (h : ∀ i < (s.readableFrom a count).length, s.InText (a.toNat + i)) :
    (s.readableFrom a count).contains 0 = false := by
  rw [← Bool.not_eq_true, List.contains_iff_mem, s.readableFrom_eq]
  exact zero_notMem_bytesAt h

/-- Reading a text comes to what is found. -/
theorem Finds.readText (h : s.Finds a limit result) : s.readText a limit = result := by
  have hrun := s.runsTo_readableFrom a (limit + 1)
  have hmax := hrun.le
  unfold AddressSpace.readText
  cases h with
  | null hn => rw [if_pos hn]
  | text hn hl h ht =>
    rw [if_neg (by simp [hn])]
    simp only [h.contains_zero (Nat.lt_succ_of_le hl), h.takeWhile (Nat.lt_succ_of_le hl), if_true,
      textOfBytes?_eq_some_iff.mpr ht]
  | malformed hn hl h ht =>
    rw [if_neg (by simp [hn])]
    simp only [h.contains_zero (Nat.lt_succ_of_le hl), h.takeWhile (Nat.lt_succ_of_le hl), if_true, textOfBytes?_eq_none ht]
  | overlong hn h =>
    have hlen : (s.readableFrom a (limit + 1)).length = limit + 1 := by
      by_contra hne
      exact hrun.stops (by omega) (h _ (by omega)).1
    have hzero : (s.readableFrom a (limit + 1)).contains 0 = false := contains_zero_eq_false fun i hi => h i (by omega)
    rw [if_neg (by simp [hn])]
    simp only [hzero, Bool.false_eq_true, if_false, hlen]
    rw [if_neg (by omega)]
  | @cut length hn hl h hr =>
    have hle : (s.readableFrom a (limit + 1)).length ≤ length := by
      by_contra hlt
      exact hr (hrun.canRead _ (by omega))
    have hzero : (s.readableFrom a (limit + 1)).contains 0 = false := contains_zero_eq_false fun i hi => h i (by omega)
    rw [if_neg (by simp [hn])]
    simp only [hzero, Bool.false_eq_true, if_false]
    rw [if_pos (by omega)]

/-- And it comes to nothing else. -/
theorem readText_eq_iff : s.readText a limit = result ↔ s.Finds a limit result := by
  constructor
  · rintro rfl
    obtain ⟨result, h⟩ := s.exists_finds a limit
    exact h.readText ▸ h
  · exact Finds.readText

/-! ## Byte by byte -/

/-- A byte can be read where its page has the right. -/
theorem canRead_iff {place : Nat} :
    CanRead s.pages place ↔ ∃ rights, s.rights? (place / pageSize) = some rights ∧ rights.contains .read = true := by
  constructor
  · rintro ⟨p, hp, hr⟩
    exact ⟨p.rights, rights?_eq_some_iff.mpr ⟨p, hp, rfl⟩, hr⟩
  · rintro ⟨rights, hrights, hr⟩
    obtain ⟨p, hp, rfl⟩ := rights?_eq_some_iff.mp hrights
    exact ⟨p, hp, hr⟩

/-- Bytes can be copied in just when each of them can be read, and not from the null address. -/
theorem check_read_iff {count : Nat} (hc : 0 < count) :
    s.check a count .read = .ok () ↔ a.isNull = false ∧ ∀ i < count, CanRead s.pages (a.toNat + i) := by
  simp only [check_eq_ok_iff hc, canRead_iff]

theorem check_one_iff : s.check a 1 .read = .ok () ↔ a.isNull = false ∧ CanRead s.pages a.toNat := by
  rw [check_read_iff Nat.one_pos]
  simp only [Nat.lt_one_iff, forall_eq, Nat.add_zero]

/-- A byte that was copied in lies in the memory. -/
theorem lt_size_of_copyIn {bytes : List UInt8} (h : s.copyIn a 1 = .ok bytes) : a.toNat < s.size := by
  rcases s.copyIn_cases a 1 with ⟨hc, -⟩ | ⟨-, he⟩
  · rcases hc with h0 | ⟨-, hle, -⟩
    · cases h0
    · exact hle
  · cases h.symm.trans he

/-- Reads a text byte by byte, `taken` being those before the address, and counts the bytes that it asks for. -/
def scanText (s : AddressSpace) (limit : Nat) (a : Address) (taken : List UInt8) : Except KernelError String × Nat :=
  if taken.length ≤ limit then
    match _h : s.copyIn a 1 with
    | .error e => (.error e, taken.length + 1)
    | .ok bytes =>
      if bytes = [0] then
        match textOfBytes? taken with
        | some text => (.ok text, taken.length + 1)
        | none => (.error .invalidArgument, taken.length + 1)
      else
        match _h' : a.add? 1 with
        | none => (.error .invalidAddress, taken.length + 1)
        | some next => s.scanText limit next (taken ++ bytes)
  else (.error .invalidArgument, taken.length)
termination_by s.size - a.toNat
decreasing_by
  have := lt_size_of_copyIn _h
  have := Address.toNat_of_add? _h'
  omega

theorem lt_size_of_canRead {place : Nat} (h : CanRead s.pages place) : place < s.size := by
  obtain ⟨p, hp, -⟩ := h
  exact (Nat.div_lt_iff_lt_mul (by decide)).mp (List.getElem?_eq_some_iff.mp hp).1

/-- The bytes of a text are there. -/
theorem length_bytesAt_of_inText (h : ∀ i < length, s.InText (a.toNat + i)) : (s.bytesAt a length).length = length := by
  rcases Nat.eq_zero_or_pos length with rfl | hpos
  · rw [bytesAt, List.take_zero, List.length_nil]
  · have hlt := lt_size_of_canRead (h (length - 1) (by omega)).1
    exact length_bytesAt_of_le (by omega)

theorem bytesAt_one_eq_iff {byte : UInt8} : s.bytesAt a 1 = [byte] ↔ s.bytes[a.toNat]? = some byte := by
  rw [bytesAt, List.take_one, List.head?_drop]
  cases s.bytes[a.toNat]? <;> simp

section Scan

variable {taken : List UInt8}

/-- The scan ends at a byte that cannot be read, ... -/
theorem scanText_of_error (ht : taken.length ≤ limit) {e : KernelError} (h : s.copyIn a 1 = .error e) :
    s.scanText limit a taken = (.error e, taken.length + 1) := by
  rw [scanText, if_pos ht]
  split
  · next he =>
    cases h.symm.trans he
    rfl
  · next hb => cases h.symm.trans hb

/-- ... at a zero byte, ... -/
theorem scanText_of_zero (ht : taken.length ≤ limit) (h : s.copyIn a 1 = .ok [0]) :
    s.scanText limit a taken =
      (match textOfBytes? taken with | some text => .ok text | none => .error .invalidArgument, taken.length + 1) := by
  rw [scanText, if_pos ht]
  split
  · next he => cases h.symm.trans he
  · next hb =>
    cases h.symm.trans hb
    rw [if_pos rfl]
    cases textOfBytes? taken <;> rfl

/-- ... and when it has taken more than the limit. -/
theorem scanText_of_limit (ht : limit < taken.length) : s.scanText limit a taken = (.error .invalidArgument, taken.length) := by
  rw [scanText, if_neg (by omega)]

/-- It takes every other byte and goes on behind it. -/
theorem exists_scanText_next (hsize : s.size < UInt64.size) (hn : a.isNull = false) (ht : taken.length ≤ limit)
    (h : s.InText a.toNat) :
    ∃ next, next.toNat = a.toNat + 1 ∧ s.scanText limit a taken = s.scanText limit next (taken ++ s.bytesAt a 1) := by
  have hlt := lt_size_of_canRead h.1
  have hcopy : s.copyIn a 1 = .ok (s.bytesAt a 1) := copyIn_of_check (check_one_iff.mpr ⟨hn, h.1⟩)
  have hadd : a.add? 1 = some (.ofNat (a.toNat + 1)) := if_pos (by omega)
  refine ⟨.ofNat (a.toNat + 1), Address.toNat_ofNat (by omega), ?_⟩
  rw [scanText, if_pos ht]
  split
  · next he => cases hcopy.symm.trans he
  · next hb =>
    cases hcopy.symm.trans hb
    rw [if_neg fun hz => h.2 (bytesAt_one_eq_iff.mp hz)]
    split
    · next hnone => cases hadd.symm.trans hnone
    · next hnext =>
      cases hadd.symm.trans hnext
      rfl

/-- So it comes to the end of the bytes in the text. -/
theorem exists_scanText (hsize : s.size < UInt64.size) (hn : a.isNull = false) (hl : length ≤ limit + 1)
    (h : ∀ i < length, s.InText (a.toNat + i)) :
    ∃ b, b.toNat = a.toNat + length ∧ s.scanText limit a [] = s.scanText limit b (s.bytesAt a length) := by
  induction length with
  | zero => exact ⟨a, rfl, rfl⟩
  | succ length ih =>
    have hbefore : ∀ i < length, s.InText (a.toNat + i) := fun i hi => h i (by omega)
    obtain ⟨b, hb, hscan⟩ := ih (by omega) hbefore
    have htaken : (s.bytesAt a length).length ≤ limit := by
      rw [length_bytesAt_of_inText hbefore]
      omega
    obtain ⟨next, hnext, hstep⟩ := exists_scanText_next hsize (Address.isNull_of_le hn (by omega)) htaken
      (hb ▸ h length (Nat.lt_succ_self length))
    refine ⟨next, by omega, ?_⟩
    rw [hscan, hstep, bytesAt_add hb]

/-- At the end of a text the scan decodes what it has taken. -/
theorem EndsAfter.scanText (hsize : s.size < UInt64.size) (hn : a.isNull = false) (hl : length ≤ limit) (h : s.EndsAfter a length) :
    s.scanText limit a [] =
      (match textOfBytes? (s.bytesAt a length) with | some text => .ok text | none => .error .invalidArgument, length + 1) := by
  obtain ⟨b, hb, hscan⟩ := exists_scanText hsize hn (Nat.le_succ_of_le hl) h.inText
  have hlength := length_bytesAt_of_inText h.inText
  have hcheck : s.check b 1 .read = .ok () := check_one_iff.mpr ⟨Address.isNull_of_le hn (by omega), hb ▸ h.canRead⟩
  have hcopy : s.copyIn b 1 = .ok [0] := by
    rw [copyIn_of_check hcheck, bytesAt_one_eq_iff.mpr (hb ▸ h.zero)]
  rw [hscan, scanText_of_zero (by omega) hcopy, hlength]

/-- The scan comes to what is found. It asks for one byte more than the limit at most, and for no byte behind the first that is not
in the memory. -/
theorem Finds.scanText (hsize : s.size < UInt64.size) (h : s.Finds a limit result) :
    (s.scanText limit a []).1 = result ∧ (s.scanText limit a []).2 ≤ min (limit + 1) (s.size - a.toNat + 1) := by
  cases h with
  | null hn =>
    have hcopy : s.copyIn a 1 = .error .invalidAddress :=
      copyIn_of_not_check fun hc => Bool.false_ne_true ((check_one_iff.mp hc).1.symm.trans hn)
    rw [scanText_of_error (Nat.zero_le _) hcopy]
    exact ⟨rfl, by simp⟩
  | text hn hl h ht =>
    have hlt := lt_size_of_canRead h.canRead
    rw [h.scanText hsize hn hl, textOfBytes?_eq_some_iff.mpr ht]
    exact ⟨rfl, by dsimp only; omega⟩
  | malformed hn hl h ht =>
    have hlt := lt_size_of_canRead h.canRead
    rw [h.scanText hsize hn hl, textOfBytes?_eq_none ht]
    exact ⟨rfl, by dsimp only; omega⟩
  | overlong hn h =>
    have hin : ∀ i < limit + 1, s.InText (a.toNat + i) := fun i hi => h i (Nat.lt_succ_iff.mp hi)
    have hlt := lt_size_of_canRead (h limit (Nat.le_refl _)).1
    have hlength := length_bytesAt_of_inText hin
    obtain ⟨b, hb, hscan⟩ := exists_scanText hsize hn (Nat.le_refl _) hin
    rw [hscan, scanText_of_limit (by omega), hlength]
    exact ⟨rfl, by dsimp only; omega⟩
  | @cut length hn hl h hr =>
    have hlength := length_bytesAt_of_inText h
    obtain ⟨b, hb, hscan⟩ := exists_scanText hsize hn (Nat.le_succ_of_le hl) h
    have hcopy : s.copyIn b 1 = .error .invalidAddress :=
      copyIn_of_not_check fun hc => hr (hb ▸ (check_one_iff.mp hc).2)
    rw [hscan, scanText_of_error (by omega) hcopy, hlength]
    refine ⟨rfl, ?_⟩
    rcases Nat.eq_zero_or_pos length with rfl | hpos
    · dsimp only
      omega
    · have hlt := lt_size_of_canRead (h (length - 1) (by omega)).1
      dsimp only
      omega

end Scan

/-- What reading a text comes to, at every address of every memory and for every limit. It is a text just when the address is not null
and the first zero byte comes after no more bytes than the limit, which can all be read and are those of the text; a bad argument just
when those bytes are those of no text, or when one byte more than the limit can be read and none of them is zero; a bad address
just when the address is null, or when a byte that cannot be read comes first. It is always one of these. And where the size of
the memory is a word, reading byte by byte comes to the same, and ends after as many bytes as there are, or one more than the
limit, at most. -/
theorem texts_end_at_zero (s : AddressSpace) (a : Address) (limit : Nat) :
    (∀ text, s.readText a limit = .ok text ↔
      a.isNull = false ∧ ∃ length ≤ limit, s.EndsAfter a length ∧ textBytes text = s.bytesAt a length) ∧
    (s.readText a limit = .error .invalidArgument ↔
      a.isNull = false ∧
        ((∃ length ≤ limit, s.EndsAfter a length ∧ ∀ text, textBytes text ≠ s.bytesAt a length) ∨
          ∀ i ≤ limit, s.InText (a.toNat + i))) ∧
    (s.readText a limit = .error .invalidAddress ↔
      a.isNull = true ∨
        ∃ length ≤ limit, (∀ i < length, s.InText (a.toNat + i)) ∧ ¬CanRead s.pages (a.toNat + length)) ∧
    (∀ e, s.readText a limit = .error e → e = .invalidArgument ∨ e = .invalidAddress) ∧
    (s.size < UInt64.size →
      (s.scanText limit a []).1 = s.readText a limit ∧
        (s.scanText limit a []).2 ≤ min (limit + 1) (s.size - a.toNat + 1)) := by
  refine ⟨fun text => ?_, ?_, ?_, fun e he => ?_, fun hsize => (readText_eq_iff.mp rfl).scanText hsize⟩
  · rw [readText_eq_iff]
    constructor
    · rintro (_ | ⟨hn, hl, h, ht⟩)
      exact ⟨hn, _, hl, h, ht⟩
    · rintro ⟨hn, length, hl, h, ht⟩
      exact .text hn hl h ht
  · rw [readText_eq_iff]
    constructor
    · rintro (_ | _ | ⟨hn, hl, h, ht⟩ | ⟨hn, h⟩)
      · exact ⟨hn, .inl ⟨_, hl, h, ht⟩⟩
      · exact ⟨hn, .inr h⟩
    · rintro ⟨hn, ⟨length, hl, h, ht⟩ | h⟩
      · exact .malformed hn hl h ht
      · exact .overlong hn h
  · rw [readText_eq_iff]
    constructor
    · rintro (hn | _ | _ | _ | ⟨hn, hl, h, hr⟩)
      · exact .inl hn
      · exact .inr ⟨_, hl, h, hr⟩
    · rintro (hn | ⟨length, hl, h, hr⟩)
      · exact .null hn
      · cases hn : a.isNull with
        | true => exact .null hn
        | false => exact .cut hn hl h hr
  · cases readText_eq_iff.mp he <;> simp

/-- Two pages, of which the second cannot be read. A text ends one byte before the border, and another begins there. -/
def brink : AddressSpace := ⟨[Page.blank.store 1020 [104, 105, 0, 33], .withRights .blank .none]⟩

/-- Byte by byte the first is read, and the second is cut by the border. -/
theorem brink_scanned :
    brink.size < UInt64.size ∧ (brink.scanText 256 ⟨1020⟩ []).1 = .ok "hi" ∧
      (brink.scanText 256 ⟨1023⟩ []).1 = .error .invalidAddress := by
  have hsize : brink.size < UInt64.size := by decide
  obtain ⟨htext, -, -, -, hfirst⟩ := texts_end_at_zero brink ⟨1020⟩ 256
  obtain ⟨-, -, hcut, -, hsecond⟩ := texts_end_at_zero brink ⟨1023⟩ 256
  have hread : ∀ place < pageSize, CanRead brink.pages place := fun place h => (canRead_cons_of_lt h).mpr rfl
  have hlocked : ¬CanRead brink.pages pageSize := by
    rw [show pageSize = 0 + pageSize from rfl, brink, canRead_cons_add, canRead_cons_of_lt (by decide)]
    decide
  have hbytes : brink.bytesAt ⟨1020⟩ 4 = [104, 105, 0, 33] := by decide +kernel
  have hbyte : ∀ i < 4, brink.bytes[1020 + i]? = [104, 105, 0, 33][i]? := fun i hi => by
    rw [← hbytes, getElem?_bytesAt hi]
    rfl
  have hin : ∀ i < 4, i ≠ 2 → brink.InText (1020 + i) := fun i hi hne => by
    refine ⟨hread _ (by change 1020 + i < 1024; omega), ?_⟩
    rw [hbyte i hi]
    revert i
    decide
  have hends : brink.EndsAfter ⟨1020⟩ 2 :=
    ⟨fun i hi => hin i (by omega) (by omega), hread _ (by decide), hbyte 2 (by decide)⟩
  refine ⟨hsize, ?_, ?_⟩
  · rw [(hfirst hsize).1, htext]
    refine ⟨rfl, 2, by decide, hends, ?_⟩
    rw [textBytes_eq]
    decide +kernel
  · rw [(hsecond hsize).1, hcut]
    refine .inr ⟨1, by decide, fun i hi => ?_, hlocked⟩
    obtain rfl : i = 0 := by omega
    exact hin 3 (by decide) (by decide)

end AddressSpace

end Nucleus
