/-!
# Line ends on the console

A console wants a carriage return in front of every line feed. Text is handed to it in pieces, cut at the line feeds; the stream
of bytes that arrives does not depend on where the text was cut.
-/

namespace Nucleus

/-- The line feed. -/
def lineFeed : UInt8 := 10

/-- What stands for a line feed on the console: a carriage return and a line feed. -/
def consoleLineEnd : List UInt8 := [13, 10]

/-- The pieces of a text, with one more byte in front. A line feed ends a line that is empty so far; any other byte becomes the
first one of the line that the pieces begin with, or is a line by itself when nothing follows it. -/
def prependByte (byte : UInt8) (pieces : List (List UInt8)) : List (List UInt8) :=
  if byte = lineFeed then [] :: consoleLineEnd :: pieces
  else
    match pieces with
    | [] => [[byte]]
    | line :: rest => (byte :: line) :: rest

/-- The pieces that one text is handed over in: the bytes of each line as one piece, empty lines included, the line end as a piece
of its own, and what follows the last line feed if there is any. -/
def consolePieces (bytes : List UInt8) : List (List UInt8) :=
  bytes.foldr prependByte []

/-- The pieces in which texts written one after another reach the console. -/
def writePieces (texts : List String) : List (List UInt8) :=
  texts.flatMap fun text => consolePieces text.toUTF8.toList

/-- Every line feed replaced by the console's line end, every other byte kept. -/
def consoleBytes (bytes : List UInt8) : List UInt8 :=
  bytes.flatMap fun byte => if byte = lineFeed then consoleLineEnd else [byte]

/-- One more byte in front of the pieces is one more byte, or one more line end, in front of the stream. -/
theorem flatten_prependByte (byte : UInt8) (pieces : List (List UInt8)) :
    (prependByte byte pieces).flatten = (if byte = lineFeed then consoleLineEnd else [byte]) ++ pieces.flatten := by
  unfold prependByte
  split
  · rw [List.flatten_cons, List.flatten_cons, List.nil_append]
  · cases pieces <;> rfl

/-- The pieces of a text, put together, are its bytes with the console's line ends. -/
theorem flatten_consolePieces (bytes : List UInt8) : (consolePieces bytes).flatten = consoleBytes bytes := by
  induction bytes with
  | nil => rfl
  | cons byte rest ih => rw [consolePieces, List.foldr_cons, flatten_prependByte, ← consolePieces, ih, consoleBytes, consoleBytes,
      List.flatMap_cons]

end Nucleus
