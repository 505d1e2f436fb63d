import Nucleus.Device.Medium
import Nucleus.Text.Quoted

/-!
# Open files

How a name is opened, and what comes of it: one value that every descriptor of the name shares.
-/

namespace Nucleus

/-- How a name is opened, one bit each; all eight bits are kept. -/
structure OpenMode where
  /-- The bits. -/
  bits : UInt8
  deriving DecidableEq, Repr

namespace OpenMode

/-- Open what there is, as it is. -/
def plain : OpenMode := ⟨0⟩

/-- Make the file if there is none. -/
def create : OpenMode := ⟨1⟩

/-- Drop what the file holds. -/
def truncate : OpenMode := ⟨2⟩

/-- Make the file or drop what it holds. -/
def fresh : OpenMode := ⟨create.bits ||| truncate.bits⟩

/-- Whether every bit of the second is among those of the first. -/
def contains (mode part : OpenMode) : Bool := mode.bits &&& part.bits == part.bits

/-- Whether a missing file is to be made. -/
def creates (mode : OpenMode) : Bool := mode.contains create

/-- Whether the contents are to be dropped. -/
def truncates (mode : OpenMode) : Bool := mode.contains truncate

end OpenMode

/-- An open file. Its number tells it from every other one, also from a later one of the same name. -/
structure OpenFile where
  /-- The number that no other open file has. -/
  serial : Nat
  /-- The name it was opened by. -/
  name : String
  /-- The stored object. -/
  object : ObjectId
  deriving DecidableEq, Repr

/-- How an open file is named in a text. -/
def OpenFile.text (f : OpenFile) : String := "OpenFile(" ++ quoted f.name ++ ")"

end Nucleus
