import PacketDma.ChannelMask
import PacketDma.Time

/-!
# The work queue

Interrupt handlers post work for channels, and workers take all of it at once. The queue is open
while the engine runs. It counts the workers inside, so that the engine can wait for them before
it goes down, and it wakes the task that waits for work.
-/

namespace PacketDma

/-- Kinds of work that are posted together. -/
structure Work where
  /-- Take back finished transfers. -/
  reclaim : Bool
  /-- Post receive buffers. -/
  refill : Bool
  /-- Recover from faults. -/
  recover : Bool
  deriving DecidableEq, Inhabited

namespace Work

/-- The work after a completion interrupt. -/
def completion : Work := ⟨true, true, false⟩

/-- Posting receive buffers only. -/
def refillOnly : Work := ⟨false, true, false⟩

/-- Recovering from faults only. -/
def recoverOnly : Work := ⟨false, false, true⟩

end Work

/-- The channels that wait for each kind of work. -/
structure PendingWork where
  /-- Channels with finished transfers to take back. -/
  reclaim : ChannelMask
  /-- Channels that need receive buffers. -/
  refill : ChannelMask
  /-- Channels with faults to recover from. -/
  recover : ChannelMask
  deriving DecidableEq, Inhabited

namespace PendingWork

/-- No work. -/
def none : PendingWork := ⟨∅, ∅, ∅⟩

/-- Whether there is no work. -/
def isEmpty (p : PendingWork) : Bool :=
  p.reclaim.isEmpty && p.refill.isEmpty && p.recover.isEmpty

/-- Adds work for a channel. -/
def add (p : PendingWork) (channel : Nat) (work : Work) : PendingWork where
  reclaim := if work.reclaim then p.reclaim.insert channel else p.reclaim
  refill := if work.refill then p.refill.insert channel else p.refill
  recover := if work.recover then p.recover.insert channel else p.recover

end PendingWork

/-- Room for one waiting task. -/
structure WakerSlot where
  /-- The task that waits, if one does. -/
  task : Option Nat
  deriving DecidableEq, Inhabited

namespace WakerSlot

/-- Nobody waits. -/
def empty : WakerSlot := ⟨none⟩

/-- Lets a task wait, in place of the one that waited before. A task that waits already stays as it
is. -/
def register (s : WakerSlot) (task : Nat) : WakerSlot :=
  if s.task = some task then s else ⟨some task⟩

@[simp]
theorem task_register (s : WakerSlot) (task : Nat) : (s.register task).task = some task := by
  rw [register]
  split <;> trivial

/-- Wakes the task that waits. It then waits no more. -/
def wake (s : WakerSlot) : Option Nat × WakerSlot := (s.task, empty)

/-- Whether a task waits. -/
def isRegistered (s : WakerSlot) : Bool := s.task.isSome

end WakerSlot

/-- Work waiting for workers, and workers at work. -/
structure WorkQueue where
  /-- The work that waits. -/
  pending : PendingWork
  /-- Whether work is accepted and workers may enter. -/
  isOpen : Bool
  /-- How many workers are inside. -/
  active : Nat
  /-- The task that waits for work. -/
  waker : WakerSlot
  deriving DecidableEq, Inhabited

namespace WorkQueue

/-- A closed queue without work. -/
def new : WorkQueue := ⟨.none, false, 0, .empty⟩

/-- Lets work and workers in. -/
def openUp (q : WorkQueue) : WorkQueue := { q with isOpen := true }

/-- Keeps work and workers out and drops the work that waits. The task that waits for work is
woken. -/
def close (q : WorkQueue) : Option Nat × WorkQueue :=
  let (woken, waker) := q.waker.wake
  (woken, { q with isOpen := false, pending := .none, waker := waker })

/-- Adds work for a channel if the queue is open. The task that waits for work is woken. -/
def post (q : WorkQueue) (channel : Nat) (work : Work) : Option Nat × WorkQueue :=
  if q.isOpen then
    let (woken, waker) := q.waker.wake
    (woken, { q with pending := q.pending.add channel work, waker := waker })
  else (none, q)

/-- Whether any work waits. -/
def hasPending (q : WorkQueue) : Bool := !q.pending.isEmpty

/-- A worker enters if the queue is open. -/
def enter (q : WorkQueue) : Bool × WorkQueue :=
  if q.isOpen then (true, { q with active := q.active + 1 }) else (false, q)

/-- A worker inside takes all the work that waits. -/
def take (q : WorkQueue) : PendingWork × WorkQueue := (q.pending, { q with pending := .none })

/-- A worker leaves. -/
def leave (q : WorkQueue) : WorkQueue := { q with active := q.active - 1 }

/-- Whether a task that looks for work need not wait: there is work, or there will be none. A task
that has to wait is registered for waking, and then looks once more, for what came in between. -/
def poll (q : WorkQueue) (task : Nat) : Bool × WorkQueue :=
  if q.hasPending || !q.isOpen then (true, q)
  else
    let q := { q with waker := q.waker.register task }
    if q.hasPending || !q.isOpen then (true, q) else (false, q)

/-- When nothing comes in between, the second look finds what the first one did. -/
theorem poll_eq (q : WorkQueue) (task : Nat) :
    q.poll task =
      if q.hasPending || !q.isOpen then (true, q)
      else (false, { q with waker := q.waker.register task }) := by
  rw [poll]
  split
  · rfl
  · next first => exact if_neg first

/-- Waits for all workers to leave, but not longer than `timeout` microseconds. No worker leaves
during the wait: with workers inside it ends at the deadline, or never if the clock stands
still. -/
def waitIdle? (q : WorkQueue) (timeout : Nat) (clock : Clock) : Option (Bool × Clock) :=
  let (deadline, clock) := Deadline.after clock timeout
  if q.active = 0 then some (true, clock)
  else (deadline.wait? clock).map fun clock => (false, clock)

/-- Whether waiting for the workers is sure to end: none is inside, or the clock moves by itself. -/
def canQuiesce (q : WorkQueue) (clock : Clock) : Bool := q.active == 0 || clock.tick != 0

end WorkQueue

end PacketDma
