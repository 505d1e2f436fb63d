import Nucleus.World

/-!
# A loader over a list of programs

A loader that knows its programs by a list: how much memory each gets and where it is entered, or why it cannot be loaded.
-/

namespace Nucleus

/-- What a loader knows of a program. -/
inductive Executable where
  /-- It is loaded into so many blank pages and entered at an address. -/
  | loads (pages : Nat) (entry : UInt64)
  /-- It cannot be loaded. -/
  | fails (cause : LoadError)
  deriving DecidableEq, Repr

/-- The programs by name. -/
structure Catalogue where
  /-- The programs; of two with one name the first counts. -/
  programs : List (String × Executable)

/-- The image of a program with its arguments laid out, which is reported. -/
def Catalogue.load {μ κ : Type} (c : Catalogue) (w : World μ κ) (program : String) (args : List String) :
    Except LoadError ProgramImage × World μ κ :=
  match c.programs.lookup program with
  | none => (.error .notFound, w)
  | some (.fails cause) => (.error cause, w)
  | some (.loads pages entry) =>
    match ProgramImage.build (.blank pages) entry args with
    | .error cause => (.error cause, w)
    | .ok image => (.ok image, w.note (.argumentsPlaced image.argc (pages - 1)))

end Nucleus
