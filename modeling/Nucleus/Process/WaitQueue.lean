import Nucleus.Process.Pid

/-!
# Waiting threads

A thread that waits for a change puts itself into a queue and is suspended; who makes a change takes threads out of the queue and
lets them run on. A thread that runs on without having been taken out takes itself out.
-/

namespace Nucleus

/-- The threads that wait, the longest waiting first. -/
structure WaitQueue where
  /-- The threads. -/
  threads : List ThreadId
  deriving DecidableEq, Repr

namespace WaitQueue

/-- A queue in which no thread waits. -/
def empty : WaitQueue := ⟨[]⟩

/-- A thread begins to wait. -/
def enter (q : WaitQueue) (thread : ThreadId) : WaitQueue := ⟨q.threads ++ [thread]⟩

/-- A thread runs on, woken or not, and is out of the queue. -/
def leave (q : WaitQueue) (thread : ThreadId) : WaitQueue := ⟨q.threads.filter (· ≠ thread)⟩

/-- Takes out the longest waiting thread, which is to be woken; there may be none. -/
def wakeOne (q : WaitQueue) : Option ThreadId × WaitQueue := (q.threads.head?, ⟨q.threads.tail⟩)

/-- Takes out all threads, which are to be woken in this order. -/
def wakeAll (q : WaitQueue) : List ThreadId × WaitQueue := (q.threads, empty)

/-- How many threads wait. -/
def count (q : WaitQueue) : Nat := q.threads.length

/-- A thread that has left is not in the queue. -/
theorem not_mem_leave (q : WaitQueue) (thread : ThreadId) : thread ∉ (q.leave thread).threads := by
  simp [leave]

/-- A thread that begins to wait and runs on leaves behind those who waited before, if it was not among them. -/
theorem leave_enter (q : WaitQueue) (thread : ThreadId) (h : thread ∉ q.threads) : (q.enter thread).leave thread = q := by
  cases q with
  | mk threads =>
    have : threads.filter (· ≠ thread) = threads := by
      rw [List.filter_eq_self]
      intro other hm
      exact decide_eq_true fun he => h (he ▸ hm)
    simp only [enter, leave, List.filter_append, this]
    simp

end WaitQueue

end Nucleus
