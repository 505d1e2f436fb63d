import Nucleus.Memory.Operand
import Nucleus.Settings

/-!
# Program images

A loaded program, ready to run: its memory, where to enter it, and its arguments. The last page holds the arguments: first one
pointer for each, then their texts one after another, each with its zero byte. The stack starts just below that page.
-/

namespace Nucleus

/-- A loaded program. -/
structure ProgramImage where
  /-- The memory with code and arguments in place. -/
  space : AddressSpace
  /-- Where execution begins. -/
  entry : UInt64
  /-- Where the stack begins, growing down. -/
  stack : Address
  /-- How many arguments there are. -/
  argc : Nat
  /-- Where the pointers to the arguments stand. -/
  argv : Address

/-- The bytes of the argument page that an argument takes: its pointer, its text and the zero byte. -/
def argumentSize (arg : String) : Nat := pointerSize + arg.utf8ByteSize + 1

/-- The bytes of the argument page that all the arguments take together. -/
def argumentsSize : List String → Nat
  | [] => 0
  | arg :: rest => argumentSize arg + argumentsSize rest

/-- Lays out arguments with the pointer to the first at `slot` and its text at `place`, the others behind. -/
def placeArguments (s : AddressSpace) (slot place : Nat) : List String → Except LoadError AddressSpace
  | [] => .ok s
  | arg :: rest =>
    if UInt32.size ≤ place then .error .outOfMemory
    else
      match s.load (.ofNat slot) (wordBytes (UInt32.ofNat place)) with
      | .error _ => .error .outOfMemory
      | .ok s =>
        match s.load (.ofNat place) (textBytes arg) with
        | .error _ => .error .outOfMemory
        | .ok s =>
          match s.load (.ofNat (place + arg.utf8ByteSize)) [0] with
          | .error _ => .error .outOfMemory
          | .ok s => placeArguments s (slot + pointerSize) (place + arg.utf8ByteSize + 1) rest

/-- The image of a program whose code is in its memory already, with its arguments laid out in the last page. -/
def ProgramImage.build (s : AddressSpace) (entry : UInt64) (args : List String) : Except LoadError ProgramImage :=
  if s.pageCount = 0 then .error .outOfMemory
  else if pageSize < argumentsSize args then .error .argumentsTooLong
  else
    let base := (s.pageCount - 1) * pageSize
    match placeArguments s base (base + args.length * pointerSize) args with
    | .error e => .error e
    | .ok space => .ok { space, entry, stack := .ofNat base, argc := args.length, argv := .ofNat base }

end Nucleus
