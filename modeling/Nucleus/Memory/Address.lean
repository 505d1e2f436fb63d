import Nucleus.Text.Numeral

/-!
# User addresses

A user address is a word of 64 bits. It is split into a page and an offset in that page, and turned into a natural number before
any range is measured, so that no sum of an address and a length can wrap.
-/

namespace Nucleus

/-- The bytes of a page. -/
def pageSize : Nat := 1024

/-- The bits of an address that number the byte within its page. -/
def pageShift : Nat := 10

/-- An address in the memory of a process. -/
structure Address where
  /-- The address as a word. -/
  word : UInt64
  deriving DecidableEq, Repr

/-- Addresses are in the order of their words. -/
instance : Ord Address where
  compare a b := compare a.word b.word

namespace Address

/-- The address as a number. -/
def toNat (a : Address) : Nat := a.word.toNat

/-- The address of a number, which drops what exceeds 64 bits. -/
def ofNat (n : Nat) : Address := ⟨UInt64.ofNat n⟩

/-- Whether this is the null address. -/
def isNull (a : Address) : Bool := a.word == 0

/-- The page that holds the address. -/
def page (a : Address) : Nat := a.toNat / pageSize

/-- The place of the address within its page. -/
def offset (a : Address) : Nat := a.toNat % pageSize

/-- Whether the address is the first of its page. -/
def isAligned (a : Address) : Bool := a.offset == 0

/-- The first address of a page; page numbers beyond the last one lose their high bits. -/
def ofPage (page : UInt64) : Address := ofNat (page.toNat * pageSize)

/-- The address some bytes further on, if there is one. -/
def add? (a : Address) (bytes : Nat) : Option Address :=
  if a.toNat + bytes < UInt64.size then some (ofNat (a.toNat + bytes)) else none

/-- The text of an address: at least eight digits in base sixteen. -/
def text (a : Address) : String := hexPadded 8 a.toNat

end Address

/-- A page has as many bytes as its bits of an address can number. -/
theorem pageSize_eq : pageSize = 1 <<< pageShift := rfl

/-- An address is its page's start plus its offset. -/
theorem Address.page_offset (a : Address) : a.page * pageSize + a.offset = a.toNat :=
  Nat.div_add_mod' a.toNat pageSize

end Nucleus
