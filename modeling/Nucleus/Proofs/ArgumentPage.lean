import Nucleus.Memory.Image
import Nucleus.Proofs.Texts

/-!
# The argument page

Arguments are laid out in the last page of an image, pointers first, texts behind, with one cursor for each. `Laid` says how they
stand there, and the two halves of this file meet at it. The first shows that laying them out puts one run of bytes at the start of
the page, with every address within 32 bits, and so brings them to stand there. The second reads them back: the kernel finds each
text through its pointer, where the page can be read and does not begin at the null address. It does in an image of a single page,
and there the pointers are out of reach (`usable_unless_single_page`).
-/

namespace Nucleus

/-! ## The layout -/

/-- Where the texts of arguments stand, the first at `place`. -/
def textPlaces (place : Nat) : List String → List Nat
  | [] => []
  | arg :: rest => place :: textPlaces (place + arg.utf8ByteSize + 1) rest

/-- The pointers to them, one after another. -/
def pointerBytes (place : Nat) (args : List String) : List UInt8 :=
  (textPlaces place args).flatMap fun place => wordBytes (UInt32.ofNat place)

/-- The texts, each with its zero byte. -/
def textsBytes (args : List String) : List UInt8 := args.flatMap fun arg => textBytes arg ++ [0]

section Layout

variable {place : Nat} {arg : String} {rest : List String}

theorem pointerBytes_cons :
    pointerBytes place (arg :: rest) =
      wordBytes (UInt32.ofNat place) ++ pointerBytes (place + arg.utf8ByteSize + 1) rest := rfl

theorem textsBytes_cons : textsBytes (arg :: rest) = textBytes arg ++ [0] ++ textsBytes rest := rfl

theorem length_textBytes_append (arg : String) : (textBytes arg ++ [0]).length = arg.utf8ByteSize + 1 := by
  rw [List.length_append, length_textBytes, List.length_singleton]

/-- The pointers take one width each. -/
theorem length_pointerBytes (place : Nat) (args : List String) : (pointerBytes place args).length = args.length * pointerSize := by
  induction args generalizing place with
  | nil => rw [List.length_nil, Nat.zero_mul]; rfl
  | cons arg rest ih =>
    rw [pointerBytes_cons, List.length_append, length_wordBytes, ih, List.length_cons, Nat.succ_mul, Nat.add_comm]
    rfl

/-- Pointers and texts take together what the arguments take. -/
theorem length_pointers_add_texts (args : List String) : args.length * pointerSize + (textsBytes args).length = argumentsSize args := by
  induction args with
  | nil => rfl
  | cons arg rest ih =>
    rw [textsBytes_cons, List.length_append, length_textBytes_append, List.length_cons, Nat.succ_mul, argumentsSize, argumentSize,
      ← ih]
    omega

end Layout

/-- What stands in a page that an address of 32 bits leads into has addresses. -/
theorem size_add_pageSize_lt : UInt32.size + pageSize < UInt64.size := by decide

namespace AddressSpace

variable {s s' : AddressSpace} {a : Address} {data : List UInt8} {slot place : Nat} {args : List String}

/-! ## Bytes that stand in a memory -/

/-- Bytes stand in a memory from a place on. -/
def Shows (s : AddressSpace) (place : Nat) (data : List UInt8) : Prop := data <+: s.bytes.drop place

theorem shows_append {more : List UInt8} :
    s.Shows place (data ++ more) ↔ s.Shows place data ∧ s.Shows (place + data.length) more := by
  unfold Shows
  constructor
  · rintro ⟨behind, h⟩
    rw [List.append_assoc] at h
    refine ⟨⟨more ++ behind, h⟩, behind, ?_⟩
    rw [← List.drop_drop, ← h, List.drop_left]
  · rintro ⟨⟨rest, h⟩, behind, h'⟩
    rw [← List.drop_drop, ← h, List.drop_left] at h'
    exact ⟨behind, by rw [List.append_assoc, h', h]⟩

/-- Bytes that were put at an address stand there. -/
theorem Puts.shows (h : s.Puts a data s') : s'.Shows a.toNat data := by
  rw [Shows, List.prefix_iff_getElem?]
  intro i hi
  rw [List.getElem?_drop, h.bytes, if_pos (by omega), Nat.add_sub_cancel_left, List.getElem?_eq_getElem hi]

theorem Shows.getElem? (h : s.Shows place data) {i : Nat} (hi : i < data.length) : s.bytes[place + i]? = data[i]? := by
  rw [← List.getElem?_drop, List.prefix_iff_getElem?.mp h i hi, List.getElem?_eq_getElem hi]

theorem Shows.bytesAt_eq (h : s.Shows a.toNat data) : s.bytesAt a data.length = data := (List.prefix_iff_eq_take.mp h).symm

/-- They lie in it. -/
theorem Shows.le_size (h : s.Shows place data) (hd : 0 < data.length) : place + data.length ≤ s.size := by
  have hle := h.length_le
  rw [List.length_drop, length_bytes] at hle
  omega

/-- Of bytes put at two places those that stand first can be put there first. -/
theorem Puts.comm {s₁ s₂ : AddressSpace} {b : Address} {more : List UInt8} (h₁ : s.Puts a data s₁) (h₂ : s₁.Puts b more s₂)
    (hfits : b.toNat + more.length ≤ s.size) (hle : b.toNat + more.length ≤ a.toNat) :
    ∃ t, s.Puts b more t ∧ t.Puts a data s₂ := by
  have ht := puts_storePages (.inr hfits)
  refine ⟨_, ht, fun i => ?_, fun page => ?_⟩
  · rw [h₂.bytes, h₁.bytes, ht.bytes]
    by_cases hin : b.toNat ≤ i ∧ i < b.toNat + more.length
    · rw [if_pos hin, if_neg (by omega), if_pos hin]
    · rw [if_neg hin, if_neg hin]
  · rw [h₂.rights, h₁.rights, ht.rights]

/-! ## Laying out -/

theorem exists_load (s : AddressSpace) (a : Address) (data : List UInt8) (h : a.toNat + data.length ≤ s.size) :
    ∃ s', s.load a data = .ok s' ∧ s.Puts a data s' := by
  rcases s.load_cases a data with ⟨-, hload⟩ | ⟨hnot, -⟩
  · exact hload
  · exact absurd (.inr h) hnot

/-- A text and its zero byte are loaded one after the other. -/
theorem exists_load_text (s : AddressSpace) {b : Address} {arg : String} (hb : b.toNat = a.toNat + arg.utf8ByteSize)
    (h : a.toNat + arg.utf8ByteSize + 1 ≤ s.size) :
    ∃ s₁ s₂, s.load a (textBytes arg) = .ok s₁ ∧ s₁.load b [0] = .ok s₂ ∧ s.Puts a (textBytes arg ++ [0]) s₂ := by
  have hlength := length_textBytes arg
  obtain ⟨s₁, hload₁, hputs₁⟩ := s.exists_load a (textBytes arg) (by omega)
  obtain ⟨s₂, hload₂, hputs₂⟩ := s₁.exists_load b [0]
    (by rw [hputs₁.size_eq, hb, List.length_singleton]; exact h)
  exact ⟨s₁, s₂, hload₁, hload₂, hputs₁.append hputs₂ (by rw [hb, hlength])⟩

/-- Arguments are laid out where there is room for them and every address is one of 32 bits: the pointers are put at `slot`, and the
texts at `place`. -/
theorem exists_placeArguments (s : AddressSpace) (slot place : Nat) (args : List String)
    (hslot : slot + args.length * pointerSize ≤ place)
    (hfits : place + (textsBytes args).length ≤ s.size) (hend : place + (textsBytes args).length < UInt64.size)
    (hsmall : ∀ p ∈ textPlaces place args, p < UInt32.size) :
    ∃ s₁ s', placeArguments s slot place args = .ok s' ∧ s.Puts (.ofNat slot) (pointerBytes place args) s₁ ∧
      s₁.Puts (.ofNat place) (textsBytes args) s' := by
  induction args generalizing s slot place with
  | nil => exact ⟨s, s, rfl, s.puts_nil _, s.puts_nil _⟩
  | cons arg rest ih =>
    rw [List.length_cons, Nat.succ_mul] at hslot
    rw [textsBytes_cons, List.length_append, length_textBytes_append] at hfits hend
    have hwidth : pointerSize = 4 := rfl
    have hword : (wordBytes (UInt32.ofNat place)).length = 4 := rfl
    have hslotNat : (Address.ofNat slot).toNat = slot := Address.toNat_ofNat (by omega)
    have hplaceNat : (Address.ofNat place).toNat = place := Address.toNat_ofNat (by omega)
    have hslotNat' : (Address.ofNat (slot + pointerSize)).toNat = slot + pointerSize := Address.toNat_ofNat (by omega)
    have hplaceNat' : (Address.ofNat (place + arg.utf8ByteSize + 1)).toNat = place + arg.utf8ByteSize + 1 :=
      Address.toNat_ofNat (by omega)
    obtain ⟨s₁, hload₁, hpointer⟩ := s.exists_load (.ofNat slot) (wordBytes (UInt32.ofNat place)) (by omega)
    have hsize₁ := hpointer.size_eq
    have hzeroNat : (Address.ofNat (place + arg.utf8ByteSize)).toNat = (Address.ofNat place).toNat + arg.utf8ByteSize := by
      rw [hplaceNat, Address.toNat_ofNat (by omega)]
    obtain ⟨s₂, s₃, hload₂, hload₃, htext⟩ := s₁.exists_load_text hzeroNat (by omega)
    have hsize₃ := htext.size_eq
    obtain ⟨s₄, s', hplaced, hpointers, htexts⟩ := ih s₃ (slot + pointerSize) (place + arg.utf8ByteSize + 1)
      (by omega) (by omega) (by omega) fun p hp => hsmall p (List.mem_cons_of_mem _ hp)
    -- The other pointers stand before the first text, so they might as well have been put before it.
    have hrest := length_pointerBytes (place + arg.utf8ByteSize + 1) rest
    obtain ⟨t, hpointers', htext'⟩ := htext.comm hpointers (by omega) (by omega)
    refine ⟨t, s', ?_, ?_, ?_⟩
    · rw [placeArguments, if_neg (by have := hsmall place List.mem_cons_self; omega), hload₁]
      simp only [hload₂, hload₃]
      exact hplaced
    · exact hpointer.append hpointers' (by omega)
    · exact htext'.append htexts (by rw [length_textBytes_append]; omega)

/-- Only where every address is one of 32 bits. -/
theorem lt_of_placeArguments (h : placeArguments s slot place args = .ok s') : ∀ p ∈ textPlaces place args, p < UInt32.size := by
  fun_induction placeArguments s slot place args with
  | case1 => exact fun p hp => nomatch hp
  | case2 => cases h
  | case3 => cases h
  | case4 => cases h
  | case5 => cases h
  | case6 s slot place arg rest hlt s₁ _ s₂ _ s₃ _ ih =>
    intro p hp
    rcases List.mem_cons.mp hp with rfl | hp
    · omega
    · exact ih h p hp

/-! ## Arguments that stand in a memory -/

/-- Arguments stand in a memory: the pointer to the first at `slot`, its text and a zero byte at `place`, the others behind. -/
inductive Laid (s : AddressSpace) : Nat → Nat → List String → Prop where
  | nil {slot place : Nat} : Laid s slot place []
  | cons {slot place : Nat} {arg : String} {rest : List String} (small : place < UInt32.size)
      (pointer : s.Shows slot (wordBytes (UInt32.ofNat place))) (text : s.Shows place (textBytes arg ++ [0]))
      (behind : Laid s (slot + pointerSize) (place + arg.utf8ByteSize + 1) rest) : Laid s slot place (arg :: rest)

theorem laid_of_shows (hpointers : s.Shows slot (pointerBytes place args)) (htexts : s.Shows place (textsBytes args))
    (hsmall : ∀ p ∈ textPlaces place args, p < UInt32.size) : s.Laid slot place args := by
  induction args generalizing slot place with
  | nil => exact .nil
  | cons arg rest ih =>
    rw [pointerBytes_cons, shows_append] at hpointers
    rw [textsBytes_cons, shows_append, length_textBytes_append] at htexts
    exact .cons (hsmall place List.mem_cons_self) hpointers.1 htexts.1
      (ih hpointers.2 htexts.2 fun p hp => hsmall p (List.mem_cons_of_mem _ hp))

/-- Each has its pointer, and the pointer leads to its text. -/
theorem Laid.exists_pointer (h : s.Laid slot place args) {i : Nat} {arg : String} (hi : args[i]? = some arg) :
    ∃ pointer : UInt32, place ≤ pointer.toNat ∧ s.Shows (slot + i * pointerSize) (wordBytes pointer) ∧
      s.Shows pointer.toNat (textBytes arg ++ [0]) := by
  induction h generalizing i with
  | nil => cases hi
  | @cons slot place _ _ small pointer text _ ih =>
    have hplace : (UInt32.ofNat place).toNat = place := UInt32.toNat_ofNat_of_lt' small
    cases i with
    | zero =>
      cases hi
      refine ⟨_, Nat.le_of_eq hplace.symm, ?_, hplace.symm ▸ text⟩
      rw [Nat.zero_mul]
      exact pointer
    | succ i =>
      obtain ⟨pointer', hle, hslot, htext⟩ := ih hi
      refine ⟨pointer', by omega, ?_, htext⟩
      rw [Nat.succ_mul, Nat.add_comm (i * pointerSize), ← Nat.add_assoc]
      exact hslot

/-! ## Reading back -/

/-- A word that stands where it can be read is read. -/
theorem readWord_of_shows {w : UInt32} (hn : a.isNull = false) (hread : ∀ i < 4, CanRead s.pages (a.toNat + i))
    (h : s.Shows a.toNat (wordBytes w)) : s.readWord a = .ok w := by
  have hbytes : s.bytesAt a 4 = wordBytes w := h.bytesAt_eq
  rw [readWord, copyIn_of_check ((check_read_iff (by decide)).mpr ⟨hn, hread⟩), hbytes]
  exact congrArg Except.ok (wordOfBytes_wordBytes w)

/-- So is a text without zero bytes that is not too long. -/
theorem readText_of_shows {text : String} {limit : Nat} (hn : a.isNull = false)
    (hread : ∀ i ≤ text.utf8ByteSize, CanRead s.pages (a.toNat + i)) (h : s.Shows a.toNat (textBytes text ++ [0]))
    (hzero : 0 ∉ textBytes text) (hl : text.utf8ByteSize ≤ limit) : s.readText a limit = .ok text := by
  have hlength := length_textBytes text
  obtain ⟨htext, hend⟩ := shows_append.mp h
  refine Finds.readText (.text hn hl ⟨fun i hi => ⟨hread i (Nat.le_of_lt hi), ?_⟩, hread _ (Nat.le_refl _), ?_⟩ ?_)
  · rw [htext.getElem? (by omega)]
    exact fun hz => hzero (List.mem_of_getElem? hz)
  · rw [← hlength]
    exact hend.getElem? Nat.one_pos
  · rw [← hlength, htext.bytesAt_eq]

/-- Arguments are read back where all that stands behind their pointers can be read. -/
theorem Laid.readArguments {argv : Address} {index : Nat} (h : s.Laid (argv.toNat + index * pointerSize) place args)
    (hn : argv.isNull = false) (hread : ∀ p, argv.toNat ≤ p → p < s.size → CanRead s.pages p)
    (hslot : argv.toNat + index * pointerSize + args.length * pointerSize ≤ place)
    (hargs : ∀ arg ∈ args, 0 ∉ textBytes arg ∧ arg.utf8ByteSize ≤ maxTextLength) :
    s.readArguments argv args.length index = .ok args := by
  induction args generalizing index place with
  | nil => rfl
  | cons arg rest ih =>
    obtain - | ⟨small, pointer, text, behind⟩ := h
    rw [List.length_cons, Nat.succ_mul] at hslot
    have hwords := size_add_pageSize_lt
    have hwidth : pointerSize = 4 := rfl
    have hword : (wordBytes (UInt32.ofNat place)).length = 4 := rfl
    have hslotNat : (Address.ofNat (argv.toNat + index * pointerSize)).toNat = argv.toNat + index * pointerSize :=
      Address.toNat_ofNat (by omega)
    have hplaceNat : (Address.ofNat (UInt32.ofNat place).toNat).toNat = place := by
      rw [UInt32.toNat_ofNat_of_lt' small, Address.toNat_ofNat (by omega)]
    have hslotEnd := pointer.le_size (by omega)
    have htextEnd := text.le_size (by rw [length_textBytes_append]; omega)
    rw [length_textBytes_append] at htextEnd
    have hadd : argv.add? (index * pointerSize) = some (.ofNat (argv.toNat + index * pointerSize)) := if_pos (by omega)
    have hpointer : s.readWord (.ofNat (argv.toNat + index * pointerSize)) = .ok (UInt32.ofNat place) :=
      readWord_of_shows (Address.isNull_of_le hn (by omega)) (fun i hi => hread _ (by omega) (by omega))
        (hslotNat.symm ▸ pointer)
    have htext : s.readText (.ofNat (UInt32.ofNat place).toNat) maxTextLength = .ok arg :=
      readText_of_shows (Address.isNull_of_le hn (by omega)) (fun i hi => hread _ (by omega) (by omega))
        (hplaceNat.symm ▸ text) (hargs arg List.mem_cons_self).1 (hargs arg List.mem_cons_self).2
    rw [Nat.add_assoc, ← Nat.succ_mul] at behind
    have hrest : s.readArguments argv rest.length (index + 1) = .ok rest :=
      ih behind (by rw [Nat.succ_mul]; omega) fun arg harg => hargs arg (List.mem_cons_of_mem _ harg)
    rw [List.length_cons, AddressSpace.readArguments, hadd]
    simp only [hpointer, htext, hrest]

/-! ## The last page -/

/-- Where the last page begins. -/
def lastPage (s : AddressSpace) : Nat := (s.pageCount - 1) * pageSize

/-- The last page ends the memory. -/
theorem size_eq_lastPage_add (h : s.pageCount ≠ 0) : s.size = s.lastPage + pageSize := by
  obtain ⟨n, hn⟩ := Nat.exists_eq_succ_of_ne_zero h
  rw [size, lastPage, hn, Nat.succ_sub_one, Nat.succ_mul]

/-- It holds every place behind its beginning. -/
theorem page_eq_of_lastPage_le (h : s.pageCount ≠ 0) {p : Nat} (hlo : s.lastPage ≤ p) (hhi : p < s.size) :
    p / pageSize = s.pageCount - 1 := by
  rw [size_eq_lastPage_add h] at hhi
  exact Nat.div_eq_of_lt_le hlo (by rw [Nat.succ_mul]; exact hhi)

/-- It begins at the null address if it is the only one. -/
theorem lastPage_ne_zero_iff (h : s.pageCount ≠ 0) : s.lastPage ≠ 0 ↔ s.pageCount ≠ 1 := by
  have hpage : 0 < pageSize := by decide
  rw [lastPage, Nat.mul_ne_zero_iff]
  omega

/-- If it can be read, so can what stands in it after something was put there. -/
theorem Puts.canRead_lastPage (h : s.Puts a data s') (hpages : s.pageCount ≠ 0)
    (hread : ∃ rights, s.rights? (s.pageCount - 1) = some rights ∧ rights.contains .read = true) {p : Nat}
    (hlo : s.lastPage ≤ p) (hhi : p < s'.size) : CanRead s'.pages p := by
  rw [h.size_eq] at hhi
  rw [canRead_iff, h.rights, page_eq_of_lastPage_le hpages hlo hhi]
  exact hread

/-- The bytes that arguments take in the last page. -/
def argumentBytes (s : AddressSpace) (args : List String) : List UInt8 :=
  pointerBytes (s.lastPage + args.length * pointerSize) args ++ textsBytes args

theorem length_argumentBytes (s : AddressSpace) (args : List String) : (s.argumentBytes args).length = argumentsSize args := by
  rw [argumentBytes, List.length_append, length_pointerBytes, length_pointers_add_texts]

/-- The last page has room for arguments: there is one, they are not too long for it, and every address is one of 32 bits. -/
structure HasRoom (s : AddressSpace) (args : List String) : Prop where
  /-- There are pages. -/
  pages : s.pageCount ≠ 0
  /-- Pointers and texts fit in one. -/
  room : argumentsSize args ≤ pageSize
  /-- Where the texts stand. -/
  small : ∀ p ∈ textPlaces (s.lastPage + args.length * pointerSize) args, p < UInt32.size

namespace HasRoom

/-- Where there are arguments, their page begins at an address of 32 bits. -/
theorem lastPage_lt (h : s.HasRoom args) (hargs : args ≠ []) : s.lastPage + args.length * pointerSize < UInt32.size := by
  obtain ⟨arg, rest, rfl⟩ := List.exists_cons_of_ne_nil hargs
  exact h.small _ List.mem_cons_self

theorem toNat_lastPage (h : s.HasRoom args) (hargs : args ≠ []) : (Address.ofNat s.lastPage).toNat = s.lastPage := by
  have hlt := h.lastPage_lt hargs
  have hwords := size_add_pageSize_lt
  exact Address.toNat_ofNat (by omega)

/-- The arguments are put at the beginning of the page. -/
theorem exists_placed (h : s.HasRoom args) :
    ∃ s', placeArguments s s.lastPage (s.lastPage + args.length * pointerSize) args = .ok s' ∧
      s.Puts (.ofNat s.lastPage) (s.argumentBytes args) s' := by
  by_cases hargs : args = []
  · subst hargs
    exact ⟨s, rfl, s.puts_nil _⟩
  · have hlt := h.lastPage_lt hargs
    have hbase := h.toNat_lastPage hargs
    have hsize := size_eq_lastPage_add h.pages
    have hlength := length_pointers_add_texts args
    have hroom := h.room
    have hwords := size_add_pageSize_lt
    obtain ⟨s₁, s', hplaced, hpointers, htexts⟩ := s.exists_placeArguments s.lastPage _ args
      (Nat.le_refl _) (by omega) (by omega) h.small
    refine ⟨s', hplaced, hpointers.append htexts ?_⟩
    rw [length_pointerBytes, hbase, Address.toNat_ofNat (by omega)]

variable (hputs : s.Puts (.ofNat s.lastPage) (s.argumentBytes args) s')

include hputs

/-- So they stand there, ... -/
theorem laid (h : s.HasRoom args) : s'.Laid s.lastPage (s.lastPage + args.length * pointerSize) args := by
  by_cases hargs : args = []
  · subst hargs
    exact .nil
  · have hshows := hputs.shows
    rw [h.toNat_lastPage hargs, argumentBytes, shows_append, length_pointerBytes] at hshows
    exact laid_of_shows hshows.1 hshows.2 h.small

/-- ... nothing changes in any other page, ... -/
theorem getElem?_bytes (h : s.HasRoom args) {i : Nat} (hi : i / pageSize ≠ s.pageCount - 1) : s'.bytes[i]? = s.bytes[i]? := by
  rw [hputs.bytes, if_neg]
  rintro ⟨hlo, hhi⟩
  by_cases hargs : args = []
  · subst hargs
    exact Nat.lt_irrefl _ (Nat.lt_of_le_of_lt hlo hhi)
  · have hsize := size_eq_lastPage_add h.pages
    have hroom := h.room
    rw [h.toNat_lastPage hargs] at hlo hhi
    rw [length_argumentBytes] at hhi
    exact hi (page_eq_of_lastPage_le h.pages hlo (by omega))

/-- ... and they are read back if the page can be read and is not the first. -/
theorem readArguments_eq (h : s.HasRoom args) (hpages : 2 ≤ s.pageCount)
    (hread : ∃ rights, s.rights? (s.pageCount - 1) = some rights ∧ rights.contains .read = true)
    (hargs : ∀ arg ∈ args, 0 ∉ textBytes arg ∧ arg.utf8ByteSize ≤ maxTextLength) :
    s'.readArguments (.ofNat s.lastPage) args.length 0 = .ok args := by
  by_cases hnil : args = []
  · subst hnil
    rfl
  · have hbase := h.toNat_lastPage hnil
    have hnull : (Address.ofNat s.lastPage).isNull = false := by
      rw [Address.isNull_eq_false_iff, hbase, lastPage_ne_zero_iff h.pages]
      omega
    have hslot : (Address.ofNat s.lastPage).toNat + 0 * pointerSize = s.lastPage := by
      rw [Nat.zero_mul, Nat.add_zero, hbase]
    have hlaid := h.laid hputs
    rw [← hslot] at hlaid
    refine hlaid.readArguments hnull ?_ (Nat.le_refl _) hargs
    rw [hbase]
    exact fun p hlo hhi => hputs.canRead_lastPage h.pages hread hlo hhi

end HasRoom

end AddressSpace

/-! ## Images -/

namespace ProgramImage

variable {s : AddressSpace} {entry : UInt64} {args : List String} {image : ProgramImage}

/-- An image is made only where there is room for its arguments. -/
theorem hasRoom_of_build (h : build s entry args = .ok image) : s.HasRoom args := by
  unfold build at h
  split at h
  · cases h
  next hpages =>
  split at h
  · cases h
  next hroom =>
  dsimp only at h
  split at h
  · cases h
  next hplaced => exact ⟨hpages, by omega, AddressSpace.lt_of_placeArguments hplaced⟩

/-- Where there is room it is made, with the arguments put at the beginning of the last page. -/
theorem exists_build (h : s.HasRoom args) (entry : UInt64) :
    ∃ space, build s entry args = .ok ⟨space, entry, .ofNat s.lastPage, args.length, .ofNat s.lastPage⟩ ∧
      s.Puts (.ofNat s.lastPage) (s.argumentBytes args) space := by
  obtain ⟨space, hplaced, hputs⟩ := h.exists_placed
  refine ⟨space, ?_, hputs⟩
  rw [build, if_neg h.pages, if_neg (by have := h.room; omega)]
  dsimp only
  rw [show (s.pageCount - 1) * pageSize = s.lastPage from rfl, hplaced]

/-- What a program is started with it reads back. Of a memory with two pages or more whose last page can be read, and for as many
arguments, free of zero bytes and no longer than a system call would take, an image is made just when the arguments with their
pointers and zero bytes fit in a page and every text stands at an address of 32 bits. Then the arguments of the image, taken by the
system call from where they stand, are those given, and nothing is changed outside the last page, nor are the rights of any page.
What does not fit in a page is too long. -/
theorem arguments_read_back (s : AddressSpace) (entry : UInt64) (args : List String) (hpages : 2 ≤ s.pageCount)
    (hread : ∃ rights, s.rights? (s.pageCount - 1) = some rights ∧ rights.contains .read = true)
    (hcount : args.length ≤ maxArguments) (hargs : ∀ arg ∈ args, 0 ∉ textBytes arg ∧ arg.utf8ByteSize ≤ maxTextLength) :
    ((∃ image, build s entry args = .ok image) ↔
      argumentsSize args ≤ pageSize ∧
        ∀ p ∈ textPlaces ((s.pageCount - 1) * pageSize + args.length * pointerSize) args, p < UInt32.size) ∧
    (∀ image, build s entry args = .ok image →
      image.space.programArguments (UInt64.ofNat image.argc) image.argv = .ok args ∧
        (∀ i, i / pageSize ≠ s.pageCount - 1 → image.space.bytes[i]? = s.bytes[i]?) ∧
        ∀ page, image.space.rights? page = s.rights? page) ∧
    (pageSize < argumentsSize args → build s entry args = .error .argumentsTooLong) := by
  have hne : s.pageCount ≠ 0 := by omega
  refine ⟨⟨?_, ?_⟩, ?_, ?_⟩
  · rintro ⟨image, h⟩
    exact ⟨(hasRoom_of_build h).room, (hasRoom_of_build h).small⟩
  · rintro ⟨hroom, hsmall⟩
    have hfits : s.HasRoom args := ⟨hne, hroom, hsmall⟩
    obtain ⟨space, h, -⟩ := exists_build hfits entry
    exact ⟨_, h⟩
  · intro image h
    have hroom := hasRoom_of_build h
    obtain ⟨space, hbuild, hputs⟩ := exists_build hroom entry
    cases h.symm.trans hbuild
    have hargc : (UInt64.ofNat args.length).toNat = args.length :=
      UInt64.toNat_ofNat_of_lt' (Nat.lt_of_le_of_lt hcount (by decide))
    refine ⟨?_, fun i hi => hroom.getElem?_bytes hputs hi, hputs.rights⟩
    rw [AddressSpace.programArguments, hargc, if_neg (by omega)]
    exact hroom.readArguments_eq hputs hpages hread hargs
  · intro hlong
    rw [build, if_neg hne, if_pos hlong]

/-- A program of four pages reads back its name and its option. -/
theorem option_read_back :
    ∃ image, build (.blank 4) 0x40 ["prog", "-v"] = .ok image ∧
      image.space.programArguments (UInt64.ofNat image.argc) image.argv = .ok ["prog", "-v"] := by
  have hargs : ∀ arg ∈ ["prog", "-v"], 0 ∉ textBytes arg ∧ arg.utf8ByteSize ≤ maxTextLength := by
    simp only [textBytes_eq]
    decide +kernel
  obtain ⟨hbuilt, hread, -⟩ := arguments_read_back (.blank 4) 0x40 ["prog", "-v"] (by decide) ⟨_, rfl, by decide⟩ (by decide) hargs
  obtain ⟨image, himage⟩ := hbuilt.mpr (by decide +kernel)
  exact ⟨image, himage, (hread image himage).1⟩

/-! ## The null address -/

theorem pageCount_blank (pages : Nat) : (AddressSpace.blank pages).pageCount = pages := List.length_replicate

/-- Of blank pages everything can be read, also after something was put there. -/
theorem canRead_of_puts_blank {pages p : Nat} {a : Address} {data : List UInt8} {space : AddressSpace}
    (hputs : (AddressSpace.blank pages).Puts a data space) (hp : p < space.size) : CanRead space.pages p := by
  have hlt : p / pageSize < pages := by
    rw [hputs.size_eq, AddressSpace.size, pageCount_blank] at hp
    exact Nat.div_lt_of_lt_mul (Nat.mul_comm pages pageSize ▸ hp)
  rw [AddressSpace.canRead_iff, hputs.rights]
  exact ⟨_, AddressSpace.rights?_eq_some_iff.mpr ⟨.blank, List.getElem?_replicate_of_lt hlt, rfl⟩, by decide⟩

/-- Pointers to arguments and the texts behind them are good for the program, and so is the place of the pointers unless the image
has a single page. Of blank pages, as many as there may be, and for any arguments that an image is made with, each pointer leads
behind the null address to a range that can be read, which holds the text and its zero byte. But the argument page of a single page
begins at the null address: there, and nowhere else, the address of the pointers is null and their range is refused. -/
theorem usable_unless_single_page (pages : Nat) (entry : UInt64) (args : List String) (image : ProgramImage) (hargs : args ≠ [])
    (h : build (.blank pages) entry args = .ok image) :
    image.argc = args.length ∧
    (∀ (i : Nat) (arg : String), args[i]? = some arg → ∃ pointer : UInt32,
      image.space.Shows (image.argv.toNat + i * pointerSize) (wordBytes pointer) ∧
        (Address.ofNat pointer.toNat).isNull = false ∧
        image.space.check (.ofNat pointer.toNat) (arg.utf8ByteSize + 1) .read = .ok () ∧
        image.space.Shows pointer.toNat (textBytes arg ++ [0])) ∧
    (image.argv.isNull = false ↔ pages ≠ 1) ∧
    (image.space.check image.argv (pointerSize * image.argc) .read = .ok () ↔ pages ≠ 1) := by
  have hroom := hasRoom_of_build h
  obtain ⟨space, hbuild, hputs⟩ := exists_build hroom entry
  cases h.symm.trans hbuild
  have hbase := hroom.toNat_lastPage hargs
  have hcount : 0 < args.length * pointerSize := Nat.mul_pos (List.length_pos_iff.mpr hargs) (by decide)
  have hnull : (Address.ofNat (AddressSpace.blank pages).lastPage).isNull = false ↔ pages ≠ 1 := by
    rw [Address.isNull_eq_false_iff, hbase, AddressSpace.lastPage_ne_zero_iff hroom.pages, pageCount_blank]
  dsimp only
  refine ⟨rfl, fun i arg hi => ?_, hnull, ?_⟩
  · obtain ⟨pointer, hle, hslot, htext⟩ := (hroom.laid hputs).exists_pointer hi
    have hlength := length_textBytes_append arg
    have hend := htext.le_size (by omega)
    have hpointer : (Address.ofNat pointer.toNat).toNat = pointer.toNat :=
      Address.toNat_ofNat (Nat.lt_trans pointer.toNat_lt (by decide))
    have hne : (Address.ofNat pointer.toNat).isNull = false := by
      rw [Address.isNull_eq_false_iff, hpointer]
      omega
    refine ⟨pointer, ?_, hne, ?_, htext⟩
    · rw [hbase]
      exact hslot
    · exact (AddressSpace.check_read_iff (Nat.succ_pos _)).mpr
        ⟨hne, fun i hi => canRead_of_puts_blank hputs (by omega)⟩
  · rw [Nat.mul_comm, AddressSpace.check_read_iff hcount, hnull]
    refine and_iff_left fun i hi => canRead_of_puts_blank hputs ?_
    have hsize := AddressSpace.size_eq_lastPage_add hroom.pages
    have hlength := length_pointers_add_texts args
    have hfits := hroom.room
    rw [hputs.size_eq, hbase]
    omega

/-- Of a single page an image is made, and of two, but only from the second can the program read its pointers. -/
theorem greeting_unusable :
    (∃ image, build (.blank 1) 0 ["hi"] = .ok image ∧ image.argv.isNull = true ∧
      image.space.check image.argv (pointerSize * image.argc) .read ≠ .ok ()) ∧
    ∃ image, build (.blank 2) 0 ["hi"] = .ok image ∧
      image.space.check image.argv (pointerSize * image.argc) .read = .ok () := by
  have hroom₁ : (AddressSpace.blank 1).HasRoom ["hi"] := ⟨by decide, by decide, by decide⟩
  have hroom₂ : (AddressSpace.blank 2).HasRoom ["hi"] := ⟨by decide, by decide, by decide⟩
  obtain ⟨single, hsingle, -⟩ := exists_build hroom₁ 0
  obtain ⟨double, hdouble, -⟩ := exists_build hroom₂ 0
  obtain ⟨-, -, hnull, hcheck⟩ := usable_unless_single_page 1 0 ["hi"] _ (by decide) hsingle
  obtain ⟨-, -, -, hcheck'⟩ := usable_unless_single_page 2 0 ["hi"] _ (by decide) hdouble
  refine ⟨⟨_, hsingle, ?_, fun hc => hcheck.mp hc rfl⟩, _, hdouble, hcheck'.mpr (by decide)⟩
  exact eq_true_of_ne_false fun hn => hnull.mp hn rfl

end ProgramImage

end Nucleus
