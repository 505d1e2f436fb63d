/-!
# Levels of the log

How grave a line of the log is, and the threshold that decides which lines are written.
-/

namespace Nucleus

/-- The levels, the gravest first. -/
inductive Level where
  | error | warn | info | debug | trace
  deriving DecidableEq, Repr

/-- The place of a level, counted from the gravest. -/
def Level.rank : Level → Nat
  | .error => 1
  | .warn => 2
  | .info => 3
  | .debug => 4
  | .trace => 5

/-- The word for a level. -/
def Level.label : Level → String
  | .error => "ERROR"
  | .warn => "WARN"
  | .info => "INFO"
  | .debug => "DEBUG"
  | .trace => "TRACE"

/-- The number of the colour that a terminal shows a level in. -/
def Level.colour : Level → Nat
  | .error => 31
  | .warn => 93
  | .info => 34
  | .debug => 32
  | .trace => 36

/-- The level that a word names, written exactly as its label. -/
def Level.ofLabel? (word : String) : Option Level :=
  [Level.error, .warn, .info, .debug, .trace].find? fun level => level.label == word

/-- How much is written: the lines of a level and of all graver ones, or nothing. -/
inductive Threshold where
  | off
  | upTo (level : Level)
  deriving DecidableEq, Repr

/-- Whether a line of this level is written. -/
def Threshold.admits (threshold : Threshold) (level : Level) : Bool :=
  match threshold with
  | .off => false
  | .upTo least => level.rank ≤ least.rank

/-- The threshold that a word selects: that of the level it names, and nothing for any other word. -/
def Threshold.ofWord (word : String) : Threshold :=
  match Level.ofLabel? word with
  | some level => .upTo level
  | none => .off

/-- The word for a threshold. -/
def Threshold.label : Threshold → String
  | .off => "OFF"
  | .upTo level => level.label

/-- The word of a threshold selects it. -/
theorem Threshold.ofWord_label (threshold : Threshold) : ofWord threshold.label = threshold := by
  cases threshold with
  | off => decide
  | upTo level => cases level <;> decide

end Nucleus
