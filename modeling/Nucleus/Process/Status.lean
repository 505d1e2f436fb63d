import Nucleus.Settings
import Nucleus.Trap.Cause

/-!
# Exit statuses

How a process ended: by its own wish with a code, or by an exception.
-/

namespace Nucleus

/-- How a process ended. -/
inductive ExitStatus where
  /-- It asked to end, with this code. -/
  | normal (code : Int32)
  /-- An exception ended it. -/
  | abnormal (cause : Cause)
  deriving DecidableEq, Repr

/-- The code that a parent sees. All exceptions share one. -/
def ExitStatus.code : ExitStatus → Int32
  | .normal code => code
  | .abnormal _ => abnormalCode

/-- Whether the process asked to end. -/
def ExitStatus.isNormal : ExitStatus → Bool
  | .normal _ => true
  | .abnormal _ => false

/-- The text of a status. -/
def ExitStatus.text : ExitStatus → String
  | .normal code => "Normal(" ++ Int.repr code.toInt ++ ")"
  | .abnormal cause => "Abnormal(" ++ cause.label ++ ")"

end Nucleus
