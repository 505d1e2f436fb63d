import Nucleus.Log.Level
import Nucleus.Text.Newline

/-!
# Lines of the log

A line names its level, in the level's colour, the module it comes from and what happened. The logger writes the lines that its
threshold admits to a console, with the console's line ends.
-/

namespace Nucleus

/-- A level's label, filled up with blanks in front to the width of the longest. -/
def Level.column (level : Level) : String :=
  String.ofList (List.replicate (5 - level.label.length) ' ') ++ level.label

/-- The text of a line: the colour, the level in brackets, where it comes from, what it says, and the colour taken back. -/
def logLine (level : Level) (origin message : String) : String :=
  "\x1b[" ++ Nat.repr level.colour ++ "m[" ++ level.column ++ "] " ++ origin ++ ": " ++ message ++ "\x1b[0m\n"

/-- The logger: whether it has been installed, and how much it writes. -/
structure Logger where
  /-- Whether the logger has been installed already. -/
  installed : Bool
  /-- Which lines are written. -/
  threshold : Threshold

/-- Installs the logger with a threshold. It is installed once; a later attempt is refused, and its threshold holds all the
same. -/
def Logger.install (logger : Logger) (threshold : Threshold) : Bool × Logger :=
  (!logger.installed, { installed := true, threshold })

/-- The bytes that a line brings to the console: none when the threshold does not admit its level. -/
def Logger.write (logger : Logger) (level : Level) (origin message : String) : List UInt8 :=
  if logger.threshold.admits level then (writePieces [logLine level origin message]).flatten else []

end Nucleus
