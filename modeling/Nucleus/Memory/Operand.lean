import Nucleus.Memory.Space

/-!
# Words and texts in user memory

What a program hands over by address: words of 32 bits with the low byte first, and texts that end at a zero byte. A text is looked
for in the bytes that can be read from its address on, so that it may end right before a page that cannot.
-/

namespace Nucleus

/-- The bytes of a word, the low byte first. -/
def wordBytes (w : UInt32) : List UInt8 :=
  [UInt8.ofNat w.toNat, UInt8.ofNat (w.toNat / 0x100), UInt8.ofNat (w.toNat / 0x10000), UInt8.ofNat (w.toNat / 0x1000000)]

/-- The word whose bytes these are, the low byte first. -/
def wordOfBytes (bytes : List UInt8) : UInt32 :=
  UInt32.ofNat (bytes.foldr (fun byte high => byte.toNat + UInt8.size * high) 0)

/-- A word is its bytes. -/
theorem wordOfBytes_wordBytes (w : UInt32) : wordOfBytes (wordBytes w) = w := by
  have := w.toNat_lt
  rw [← UInt32.toNat_inj]
  simp only [wordOfBytes, wordBytes, List.foldr_cons, List.foldr_nil, UInt32.toNat_ofNat', UInt8.toNat_ofNat',
    UInt8.size]
  omega

/-- A word has four bytes. -/
theorem length_wordBytes (w : UInt32) : (wordBytes w).length = 4 := rfl

/-- The text that bytes encode in UTF-8, if they do. -/
def textOfBytes? (bytes : List UInt8) : Option String :=
  String.fromUTF8? ⟨bytes.toArray⟩

/-- The bytes of a text in UTF-8. -/
def textBytes (text : String) : List UInt8 := text.toUTF8.toList

/-- The bytes in a run of pages from a place on, at most as many as asked, up to the first page that is not readable. -/
def readableRun : List Page → Nat → Nat → List UInt8
  | [], _, _ => []
  | p :: rest, place, count =>
    if count = 0 then []
    else if pageSize ≤ place then readableRun rest (place - pageSize) count
    else if p.rights.contains .read then p.slice place count ++ readableRun rest 0 (count - (pageSize - place))
    else []

/-- What is readable is the beginning of what is there. -/
theorem readableRun_prefix (pages : List Page) (place count : Nat) :
    readableRun pages place count <+: slicePages pages place count := by
  induction pages generalizing place count with
  | nil => exact List.prefix_refl []
  | cons p rest ih =>
    unfold readableRun slicePages
    split
    · exact List.nil_prefix
    split
    · exact ih (place - pageSize) count
    split
    · exact (List.prefix_append_right_inj _).mpr (ih 0 (count - (pageSize - place)))
    · exact List.nil_prefix

namespace AddressSpace

/-- The bytes from an address on, at most as many as asked, up to the first page that is not readable. -/
def readableFrom (s : AddressSpace) (a : Address) (count : Nat) : List UInt8 := readableRun s.pages a.toNat count

/-- The text at an address: at most `limit` bytes of UTF-8 and a zero byte. Without a zero byte among the next bytes the address is
bad if memory ends too soon, and the text too long otherwise. -/
def readText (s : AddressSpace) (a : Address) (limit : Nat) : Except KernelError String :=
  if a.isNull then .error .invalidAddress
  else
    let run := s.readableFrom a (limit + 1)
    if run.contains 0 then
      match textOfBytes? (run.takeWhile (· ≠ 0)) with
      | some text => .ok text
      | none => .error .invalidArgument
    else if run.length ≤ limit then .error .invalidAddress
    else .error .invalidArgument

/-- The word at an address. -/
def readWord (s : AddressSpace) (a : Address) : Except KernelError UInt32 :=
  match s.copyIn a 4 with
  | .ok bytes => .ok (wordOfBytes bytes)
  | .error e => .error e

/-- The space with a word stored at an address. -/
def writeWord (s : AddressSpace) (a : Address) (w : UInt32) : Except KernelError AddressSpace :=
  s.copyOut a (wordBytes w)

end AddressSpace

end Nucleus
