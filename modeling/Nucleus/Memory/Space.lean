import Nucleus.Error
import Nucleus.Memory.Address

/-!
# Address spaces

The memory of a process as the kernel sees it: a run of pages from address zero on, each with its own rights. The kernel moves
bytes in and out only after it has checked the whole range, so a refused copy moves nothing; the loader fills pages without
regard to rights. Reading and storing walk from page to page.
-/

namespace Nucleus

/-- What may be done with a page, one bit each; all eight bits are kept. -/
structure Rights where
  /-- The bits. -/
  bits : UInt8
  deriving DecidableEq, Repr

namespace Rights

/-- No right. -/
def none : Rights := ⟨0⟩

/-- The kernel may read the page for the program. -/
def read : Rights := ⟨1⟩

/-- The kernel may write the page for the program. -/
def write : Rights := ⟨2⟩

/-- The program may execute the page. -/
def execute : Rights := ⟨4⟩

/-- The rights of either. -/
def union (a b : Rights) : Rights := ⟨a.bits ||| b.bits⟩

/-- Whether every right of the second is among those of the first. -/
def contains (held needed : Rights) : Bool := held.bits &&& needed.bits == needed.bits

end Rights

/-- A page: its bytes and its rights. -/
structure Page where
  /-- The bytes, a page full of them. -/
  bytes : List UInt8
  /-- What may be done with them. -/
  rights : Rights
  /-- A page is always full. -/
  length_bytes : bytes.length = pageSize

namespace Page

/-- A page of zeros that may be read and written. -/
def blank : Page where
  bytes := List.replicate pageSize 0
  rights := .union .read .write
  length_bytes := List.length_replicate

/-- The bytes of a page from an offset on, at most as many as asked. -/
def slice (p : Page) (offset count : Nat) : List UInt8 :=
  (p.bytes.drop offset).take count

/-- The page with bytes stored from an offset on; what does not fit is dropped. -/
def store (p : Page) (offset : Nat) (data : List UInt8) : Page where
  bytes := p.bytes.take offset ++ data.take (pageSize - offset) ++ p.bytes.drop (offset + data.length)
  rights := p.rights
  length_bytes := by
    have := p.length_bytes
    simp only [List.length_append, List.length_take, List.length_drop]
    omega

/-- The page with other rights. -/
def withRights (p : Page) (rights : Rights) : Page := { p with rights }

end Page

/-- The bytes in a run of pages from a place on, at most as many as asked, page by page. -/
def slicePages : List Page → Nat → Nat → List UInt8
  | [], _, _ => []
  | p :: rest, place, count =>
    if count = 0 then []
    else if pageSize ≤ place then slicePages rest (place - pageSize) count
    else p.slice place count ++ slicePages rest 0 (count - (pageSize - place))

/-- A run of pages with bytes stored from a place on, page by page. -/
def storePages : List Page → Nat → List UInt8 → List Page
  | [], _, _ => []
  | p :: rest, place, data =>
    if data.isEmpty then p :: rest
    else if pageSize ≤ place then p :: storePages rest (place - pageSize) data
    else p.store place (data.take (pageSize - place)) :: storePages rest 0 (data.drop (pageSize - place))

/-- Reading page by page reads the bytes of the pages as one run. -/
theorem slicePages_eq (pages : List Page) (place count : Nat) :
    slicePages pages place count = ((pages.flatMap Page.bytes).drop place).take count := by
  induction pages generalizing place count with
  | nil => simp [slicePages]
  | cons p rest ih =>
    have hp := p.length_bytes
    unfold slicePages
    split
    · next h => rw [h, List.take_zero]
    split
    · next h =>
      rw [ih, List.flatMap_cons, List.drop_append, List.drop_eq_nil_of_le (hp ▸ h : p.bytes.length ≤ place), hp, List.nil_append]
    · next h =>
      rw [ih, List.flatMap_cons, List.drop_append, List.take_append, Page.slice, List.length_drop, hp,
        Nat.sub_eq_zero_of_le (Nat.le_of_not_le h)]

/-- Storing page by page stores into the bytes of the pages as into one run, where all of it fits. -/
theorem bytes_storePages (pages : List Page) (place : Nat) (data : List UInt8)
    (h : place + data.length ≤ (pages.flatMap Page.bytes).length) :
    (storePages pages place data).flatMap Page.bytes =
      (pages.flatMap Page.bytes).take place ++ data ++ (pages.flatMap Page.bytes).drop (place + data.length) := by
  induction pages generalizing place data with
  | nil =>
    obtain rfl : data = [] := List.eq_nil_of_length_eq_zero (Nat.eq_zero_of_add_eq_zero_left (Nat.le_zero.mp h))
    simp [storePages]
  | cons p rest ih =>
    have hp := p.length_bytes
    rw [List.flatMap_cons, List.length_append, hp] at h
    unfold storePages
    split
    · next hd =>
      obtain rfl : data = [] := List.isEmpty_iff.mp hd
      rw [List.append_nil, List.length_nil, Nat.add_zero, List.take_append_drop]
    split
    · next hle =>
      rw [List.flatMap_cons, ih (place - pageSize) data (by omega), List.flatMap_cons, List.take_append,
        List.take_of_length_le (hp ▸ hle : p.bytes.length ≤ place), List.drop_append,
        List.drop_eq_nil_of_le (by omega : p.bytes.length ≤ place + data.length), hp,
        List.nil_append, Nat.sub_add_comm hle, List.append_assoc, List.append_assoc, List.append_assoc]
    · next hlt =>
      rw [List.flatMap_cons, ih 0 _ (by rw [List.length_drop]; omega), List.flatMap_cons]
      simp only [Page.store, List.take_append, List.drop_append, hp, List.length_take, List.length_drop, List.take_take,
        Nat.min_self, List.take_zero, List.nil_append, Nat.zero_add,
        Nat.sub_eq_zero_of_le (Nat.le_of_not_le hlt), List.append_nil]
      rcases Nat.le_total data.length (pageSize - place) with hd | hd
      · rw [List.take_of_length_le hd, List.drop_eq_nil_of_le hd, Nat.min_eq_right hd,
          Nat.sub_eq_zero_of_le hd, Nat.sub_eq_zero_of_le (by omega : place + data.length ≤ pageSize)]
        simp
      · rw [Nat.min_eq_left hd, Nat.add_sub_cancel' (by omega), List.drop_eq_nil_of_le (Nat.le_of_eq hp),
          List.drop_eq_nil_of_le (by omega : p.bytes.length ≤ place + data.length),
          show place + data.length - pageSize = data.length - (pageSize - place) by omega]
        simp only [List.append_nil, List.nil_append, List.append_assoc]
        rw [← List.append_assoc (List.take _ data), List.take_append_drop]

/-- The memory of a process. -/
structure AddressSpace where
  /-- The pages, the first one at address zero. -/
  pages : List Page

namespace AddressSpace

/-- A space of so many pages of zeros. -/
def blank (pages : Nat) : AddressSpace := ⟨List.replicate pages Page.blank⟩

/-- How many pages there are. -/
def pageCount (s : AddressSpace) : Nat := s.pages.length

/-- How many bytes there are. -/
def size (s : AddressSpace) : Nat := s.pageCount * pageSize

/-- The whole memory as one run of bytes. -/
def bytes (s : AddressSpace) : List UInt8 := s.pages.flatMap Page.bytes

/-- The rights of a page, if it exists. -/
def rights? (s : AddressSpace) (page : Nat) : Option Rights := s.pages[page]?.map Page.rights

/-- Gives a page other rights. -/
def setRights (s : AddressSpace) (page : Nat) (rights : Rights) : Except KernelError AddressSpace :=
  match s.pages[page]? with
  | none => .error .invalidAddress
  | some p => .ok ⟨s.pages.set page (p.withRights rights)⟩

/-- Whether a range lies in the space. -/
def holds (s : AddressSpace) (a : Address) (count : Nat) : Bool := a.toNat + count ≤ s.size

/-- Whether every page that a range meets grants some rights; the range is not empty. -/
def grants (s : AddressSpace) (a : Address) (count : Nat) (needed : Rights) : Bool :=
  ((s.pages.drop a.page).take ((a.toNat + count - 1) / pageSize + 1 - a.page)).all fun p => p.rights.contains needed

/-- Checks that a range lies in the space and that its pages grant some rights. An empty range is always good, and any other
that starts at the null address never is. -/
def check (s : AddressSpace) (a : Address) (count : Nat) (needed : Rights) : Except KernelError Unit :=
  if count = 0 then .ok ()
  else if !a.isNull && s.holds a count && s.grants a count needed then .ok ()
  else .error .invalidAddress

/-- The bytes of a range, which has to be readable. -/
def copyIn (s : AddressSpace) (a : Address) (count : Nat) : Except KernelError (List UInt8) :=
  match s.check a count .read with
  | .ok () => .ok (slicePages s.pages a.toNat count)
  | .error e => .error e

/-- The space with bytes stored in a range, which has to be writable. -/
def copyOut (s : AddressSpace) (a : Address) (data : List UInt8) : Except KernelError AddressSpace :=
  match s.check a data.length .write with
  | .ok () => .ok ⟨storePages s.pages a.toNat data⟩
  | .error e => .error e

/-- The space with bytes stored by the loader, which needs no rights and may start at the null address. -/
def load (s : AddressSpace) (a : Address) (data : List UInt8) : Except KernelError AddressSpace :=
  if data.isEmpty then .ok s
  else if s.holds a data.length then .ok ⟨storePages s.pages a.toNat data⟩
  else .error .invalidAddress

/-- How a space is named in a text. -/
def text (s : AddressSpace) : String := "AddressSpace(" ++ Nat.repr s.pageCount ++ " pages)"

end AddressSpace

end Nucleus
