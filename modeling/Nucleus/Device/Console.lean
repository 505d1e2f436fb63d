import Nucleus.Device.Medium

/-!
# Consoles

What the kernel asks of a console: bytes that were typed, and bytes to be shown. A console may claim any count.
-/

namespace Nucleus

/-- What a console did with bytes handed to it: what it showed, if it shows anything at all, and the count it claims. -/
structure Display where
  /-- The bytes that were shown. -/
  shown : Option (List UInt8)
  /-- How many bytes the writer is told. -/
  claimed : Nat
  deriving DecidableEq, Repr

/-- A console. -/
class Console (κ : Type) where
  /-- Takes typed bytes, at most as many as asked; none when nothing waits. -/
  read : κ → (count : Nat) → Transfer × κ
  /-- Shows bytes. -/
  write : κ → List UInt8 → Display × κ

/-- A console with typed bytes that wait, which shows all it is given. -/
structure Terminal where
  /-- The bytes typed and not yet taken. -/
  waiting : List UInt8
  deriving DecidableEq, Repr

/-- More bytes are typed. -/
def Terminal.type (t : Terminal) (bytes : List UInt8) : Terminal := ⟨t.waiting ++ bytes⟩

instance : Console Terminal where
  read t count :=
    let bytes := t.waiting.take count
    (⟨bytes, bytes.length⟩, ⟨t.waiting.drop count⟩)
  write t data := (⟨some data, data.length⟩, t)

/-- A console on which nothing is typed and nothing is shown, and that accepts all it is given. -/
structure Silent where
  deriving DecidableEq, Repr

instance : Console Silent where
  read s _ := (⟨[], 0⟩, s)
  write s data := (⟨none, data.length⟩, s)

instance {κ κ' : Type} [Console κ] [Console κ'] : Console (κ ⊕ κ') where
  read
    | .inl c, count => ((Console.read c count).1, .inl (Console.read c count).2)
    | .inr c, count => ((Console.read c count).1, .inr (Console.read c count).2)
  write
    | .inl c, data => ((Console.write c data).1, .inl (Console.write c data).2)
    | .inr c, data => ((Console.write c data).1, .inr (Console.write c data).2)

end Nucleus
