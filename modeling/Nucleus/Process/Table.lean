import Nucleus.Process.Record
import Nucleus.Process.WaitQueue

/-!
# The process table

All processes that run or whose status has not been taken, and the threads that wait for one to end. The operations here are the
steps between which other operations may run: a program is admitted once it has been loaded, a child's status is asked for and
perhaps taken, a process ends.
-/

namespace Nucleus

/-- The records by process number. -/
abbrev Records : Type := Std.ExtTreeMap Pid Record

/-- The process table. -/
structure ProcessTable where
  /-- The records. -/
  records : Records
  /-- The number of the next process. -/
  next : UInt32
  /-- How many processes run. -/
  running : Nat
  /-- The first top-level process there was. -/
  root : Option Pid
  /-- The threads that wait for a process to end. -/
  waiting : WaitQueue

/-- What comes of asking for a child's status. -/
inductive Reaping where
  /-- The process asked for is no child whose status could be taken. -/
  | refused
  /-- The child runs. -/
  | running
  /-- The child has ended; its status is taken, and its record is gone. -/
  | reaped (status : ExitStatus) (records : Records)

/-- What is told of a process that ended. -/
structure ExitReport where
  /-- The process. -/
  pid : Pid
  /-- How it ended. -/
  status : ExitStatus
  /-- How many files its descriptors referred to. -/
  released : Nat
  /-- How many processes run now. -/
  running : Nat
  deriving DecidableEq, Repr

namespace ProcessTable

/-- The table before the first process. -/
def empty : ProcessTable := ⟨∅, 1, 0, none, .empty⟩

/-- The record of a process. -/
def record? (t : ProcessTable) (pid : Pid) : Option Record := t.records[pid]?

/-- What a running process owns. -/
def live (t : ProcessTable) (pid : Pid) : Except KernelError Process :=
  match (t.record? pid).bind Record.process? with
  | some process => .ok process
  | none => .error .noSuchProcess

/-- Whether a process runs. -/
def isRunning (t : ProcessTable) (pid : Pid) : Bool := (t.record? pid).any Record.isRunning

/-- The unreaped children of a process, in increasing order. -/
def childrenOf (t : ProcessTable) (pid : Pid) : List Pid :=
  match t.record? pid with
  | some record => record.children.toList
  | none => []

/-- Whether a process is an unreaped child of another. -/
def isChild (t : ProcessTable) (parent child : Pid) : Bool :=
  match t.record? parent with
  | some record => record.children.contains child
  | none => false

/-- The table with other belongings for a running process. -/
def putLive (t : ProcessTable) (pid : Pid) (process : Process) : ProcessTable :=
  match t.record? pid with
  | some record => { t with records := t.records.insert pid { record with life := .running process } }
  | none => t

/-- Only the one process has other belongings. -/
theorem record?_putLive (t : ProcessTable) (pid other : Pid) (process : Process) :
    (t.putLive pid process).record? other =
      if pid = other then (t.record? pid).map fun record => { record with life := .running process } else t.record? other := by
  unfold putLive
  cases h : t.record? pid with
  | none =>
    by_cases hp : pid = other
    · simp [← hp, h]
    · simp [hp]
  | some record => simp [record?, Std.ExtTreeMap.getElem?_insert]

/-- How many records there are. -/
def size (t : ProcessTable) : Nat := t.records.size

/-- The records with a child put into its parent's set. -/
def adopt (records : Records) (parent child : Pid) : Records :=
  match records[parent]? with
  | some record => records.insert parent { record with children := record.children.insert child }
  | none => records

/-- Admits a loaded program as a new process: the next number, a fresh descriptor table, the image's memory. A parent has to run,
and gets the process as its child; the first process without a parent becomes the root. -/
def enrol (t : ProcessTable) (parent : Option Pid) (program : String) (image : ProgramImage) (slots : Nat) :
    Except KernelError (Pid × ProcessTable) :=
  if parent.any fun p => !t.isRunning p then .error .noSuchProcess
  else
    let pid : Pid := ⟨t.next⟩
    let record : Record :=
      { parent, children := ∅, orphaned := false, life := .running ⟨program, .create slots, image.space⟩ }
    let records := t.records.insert pid record
    .ok (pid,
      { t with
        records := match parent with
          | some p => adopt records p pid
          | none => records
        next := t.next + 1
        running := t.running + 1
        root := if parent.isNone then t.root.or (some pid) else t.root })

/-- Asks for the status of a child, and takes it if the child has ended. -/
def reap (t : ProcessTable) (caller child : Pid) : Reaping :=
  if !t.isChild caller child then .refused
  else
    match (t.record? child).map Record.life with
    | none => .refused
    | some (.running _) => .running
    | some (.zombie status) =>
      let records := t.records.erase child
      .reaped status <|
        match records[caller]? with
        | some record => records.insert caller { record with children := record.children.erase child }
        | none => records

/-- The records after a parent has ended, as far as one child is concerned: an ended child is dropped, a running one orphaned. -/
def disown (records : Records) (child : Pid) : Records :=
  match records[child]? with
  | none => records
  | some record =>
    if record.isZombie then records.erase child else records.insert child { record with orphaned := true }

/-- The children of an ending process that have ended before it, in increasing order. -/
def forsaken (t : ProcessTable) (children : List Pid) : List Pid :=
  children.filter fun child => (t.record? child).any Record.isZombie

/-- Ends a running process whose record is given. It keeps its record, with its status, only if its parent may still come for
it; its children lose their parent. Nobody waits any more: all waiting threads are woken, to look again. -/
def retire (t : ProcessTable) (pid : Pid) (record : Record) (status : ExitStatus) : ProcessTable :=
  let ended : Record := { record with children := ∅, life := .zombie status }
  let records := record.children.toList.foldl disown (t.records.insert pid ended)
  let awaited := !record.orphaned && record.parent.any fun parent => records.contains parent
  { t with
    records := if awaited then records else records.erase pid
    running := t.running - 1
    waiting := t.waiting.wakeAll.2 }

variable {μ κ : Type} [Medium μ]

/-- Ends a running process: its descriptors are closed, its record is settled, and who waits is woken. -/
def exit (t : ProcessTable) (r : Registry) (w : World μ κ) (pid : Pid) (status : ExitStatus) :
    Except KernelError ExitReport × ProcessTable × Registry × World μ κ :=
  match t.record? pid with
  | none => (.error .noSuchProcess, t, r, w)
  | some record =>
    match record.process? with
    | none => (.error .noSuchProcess, t, r, w)
    | some process =>
      match process.descriptors.closeAll r w with
      | (released, _, r, w) =>
        let after := t.retire pid record status
        let w := w.noteAll ((t.forsaken record.children.toList).map (Notice.discarded · pid))
        let w := (w.unblockAll t.waiting.wakeAll.1).note (.exited pid status after.running)
        (.ok ⟨pid, status, released, after.running⟩, after, r, w)

/-- Drops every record and wakes all who wait. -/
def clear (t : ProcessTable) : ProcessTable := { t with records := ∅, running := 0, waiting := t.waiting.wakeAll.2 }

end ProcessTable

end Nucleus
