import Std.Data.ExtTreeMap

/-!
# Process numbers and threads

A process is known by a number, handed out in increasing order and not used again; a thread, which is what waits and is woken, by
a number of its own.
-/

namespace Nucleus

/-- The number of a process. -/
structure Pid where
  /-- The number as a word of 32 bits. -/
  raw : UInt32
  deriving DecidableEq, Repr

instance : Ord Pid where
  compare a b := compare a.raw b.raw

instance : Std.TransOrd Pid where
  eq_swap {a b} := Std.OrientedOrd.eq_swap (a := a.raw) (b := b.raw)
  isLE_trans {a b c} := Std.TransOrd.isLE_trans (a := a.raw) (b := b.raw) (c := c.raw)

instance : Std.LawfulEqOrd Pid where
  compare_self {a} := Std.ReflOrd.compare_self (a := a.raw)
  eq_of_compare {a b} h := by
    cases a
    cases b
    exact congrArg Pid.mk (Std.LawfulEqOrd.eq_of_compare h)

/-- How a process is named in a text. -/
def Pid.text (pid : Pid) : String :=
  "pid " ++ Nat.repr pid.raw.toNat

/-- A process number as a parent's is reported: there may be none. -/
def Pid.optionText : Option Pid → String
  | none => "None"
  | some pid => "Some(" ++ Nat.repr pid.raw.toNat ++ ")"

/-- The number of a thread. -/
structure ThreadId where
  /-- The number as a word of 64 bits. -/
  raw : UInt64
  deriving DecidableEq, Repr

end Nucleus
