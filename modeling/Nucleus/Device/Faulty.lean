import Nucleus.Device.Console

/-!
# Faults on schedule

A medium or a console with a schedule of faults, to see how the kernel bears them. Each kind of request has a queue; a request
takes the first fault of its queue, if there is one. A fault makes the request fail, with nothing done; or it cuts the transfer
short and has a wrong count claimed for it.
-/

namespace Nucleus

/-- A fault that waits for a request. -/
inductive Fault where
  /-- The request fails. -/
  | fail (cause : StorageError)
  /-- A transfer moves at most `limit` bytes, and its count is told too high by `surplus`. -/
  | distort (limit : Option Nat) (surplus : Nat)
  deriving DecidableEq, Repr

/-- The kinds of requests that faults can be scheduled for: those to a medium, of which a console knows reading and writing. -/
inductive Request where
  | create | find | remove | read | write | truncate
  deriving DecidableEq, Repr

/-- The faults that wait, for each kind of request. -/
structure Schedule where
  /-- The faults for making objects. -/
  create : List Fault := []
  /-- The faults for finding objects. -/
  find : List Fault := []
  /-- The faults for taking names off. -/
  remove : List Fault := []
  /-- The faults for reading. -/
  read : List Fault := []
  /-- The faults for writing. -/
  write : List Fault := []
  /-- The faults for dropping contents. -/
  truncate : List Fault := []
  deriving DecidableEq, Repr

namespace Schedule

/-- The faults that wait for a kind of request. -/
def queue (s : Schedule) : Request → List Fault
  | .create => s.create
  | .find => s.find
  | .remove => s.remove
  | .read => s.read
  | .write => s.write
  | .truncate => s.truncate

/-- The schedule with another queue for a kind of request. -/
def withQueue (s : Schedule) (request : Request) (queue : List Fault) : Schedule :=
  match request with
  | .create => { s with create := queue }
  | .find => { s with find := queue }
  | .remove => { s with remove := queue }
  | .read => { s with read := queue }
  | .write => { s with write := queue }
  | .truncate => { s with truncate := queue }

/-- A fault is put behind those that wait already. -/
def add (s : Schedule) (request : Request) (fault : Fault) : Schedule :=
  s.withQueue request (s.queue request ++ [fault])

/-- The first fault for a kind of request, and the schedule without it. -/
def take (s : Schedule) (request : Request) : Option Fault × Schedule :=
  ((s.queue request).head?, s.withQueue request (s.queue request).tail)

end Schedule

/-- How many bytes of a transfer a fault lets pass. -/
def Fault.cut (fault : Option Fault) (count : Nat) : Nat :=
  match fault with
  | some (.distort (some limit) _) => min count limit
  | _ => count

/-- The count that is claimed under a fault for so many bytes. -/
def Fault.claim (fault : Option Fault) (count : Nat) : Nat :=
  match fault with
  | some (.distort _ surplus) => count + surplus
  | _ => count

/-- Something with a schedule of faults. -/
structure Faulty (δ : Type) where
  /-- What is there underneath. -/
  device : δ
  /-- The faults that wait. -/
  schedule : Schedule := {}

namespace Faulty

variable {δ α : Type}

/-- Puts a request to what is underneath, unless the next fault for it is a failure. -/
def ask (f : Faulty δ) (request : Request) (act : Option Fault → δ → Except StorageError α × δ) :
    Except StorageError α × Faulty δ :=
  match f.schedule.take request with
  | (some (.fail cause), schedule) => (.error cause, { f with schedule })
  | (fault, schedule) => ((act fault f.device).1, ⟨(act fault f.device).2, schedule⟩)

end Faulty

/-- A read cut short and told wrongly. -/
def Transfer.distort (fault : Option Fault) (t : Transfer) : Transfer := { t with claimed := Fault.claim fault t.claimed }

instance {μ : Type} [Medium μ] : Medium (Faulty μ) where
  create f name := f.ask .create fun _ d => Medium.create d name
  find f name := f.ask .find fun _ d => Medium.find d name
  remove f name := f.ask .remove fun _ d => Medium.remove d name
  readAt f id position count := f.ask .read fun fault d =>
    ((Medium.readAt d id position (Fault.cut fault count)).1.map (Transfer.distort fault),
      (Medium.readAt d id position (Fault.cut fault count)).2)
  writeAt f id position data := f.ask .write fun fault d =>
    ((Medium.writeAt d id position (data.take (Fault.cut fault data.length))).1.map (Fault.claim fault),
      (Medium.writeAt d id position (data.take (Fault.cut fault data.length))).2)
  truncate f id := f.ask .truncate fun _ d => Medium.truncate d id
  length f id := Medium.length f.device id

/-- A console has no way to fail: where a failure is scheduled, it moves nothing and claims nothing. -/
instance {κ : Type} [Console κ] : Console (Faulty κ) where
  read f count :=
    match f.schedule.take .read with
    | (some (.fail _), schedule) => (⟨[], 0⟩, { f with schedule })
    | (fault, schedule) =>
      (Transfer.distort fault (Console.read f.device (Fault.cut fault count)).1,
        ⟨(Console.read f.device (Fault.cut fault count)).2, schedule⟩)
  write f data :=
    match f.schedule.take .write with
    | (some (.fail _), schedule) => (⟨none, 0⟩, { f with schedule })
    | (fault, schedule) =>
      let shown := Console.write f.device (data.take (Fault.cut fault data.length))
      ({ shown.1 with claimed := Fault.claim fault shown.1.claimed }, ⟨shown.2, schedule⟩)

end Nucleus
