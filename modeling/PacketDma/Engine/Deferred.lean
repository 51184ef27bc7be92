import PacketDma.Engine.Recovery
import PacketDma.Engine.Transfer

/-!
# Deferred work

A worker takes all the work that waits. It hands finished transfers to the owner's sink, asks the
sink for receive buffers, and recovers channels. The device does not wait for it: between two looks
at a ring it may write to descriptors.
-/

namespace PacketDma

/-- The owner's side of deferred work. A sink has a state that its answers may depend on. -/
structure Sink (σ β : Type) where
  /-- Takes a finished transfer of a channel. -/
  complete : σ → Nat → Direction → Completion β → σ
  /-- Offers a receive buffer of some length for a channel, or none. -/
  rxBuffer : σ → Nat → Option (β × Nat) × σ
  /-- Takes back a receive buffer that could not be posted. -/
  giveBack : σ → Nat → β → σ

/-- The sink that offers no receive buffers. -/
def Sink.bare {σ β : Type} (complete : σ → Nat → Direction → Completion β → σ) : Sink σ β :=
  ⟨complete, fun s _ => (none, s), fun s _ _ => s⟩

/-- What a worker did. -/
structure ServiceReport where
  /-- Transfers handed to the sink. -/
  reclaimed : Nat
  /-- Receive buffers posted. -/
  refilled : Nat
  /-- What came of recovery. -/
  tally : RecoveryTally
  deriving DecidableEq, Inhabited

/-- No work was done. -/
def ServiceReport.none : ServiceReport := ⟨0, 0, .none⟩

/-- What the device writes to the descriptors of a channel before a look at one of its rings: by
channel, by direction, and by how many buffers are in flight there. -/
abbrev Noise := Nat → Direction → Nat → Direction → Nat → Descriptor → Descriptor

/-- The device writes nothing. -/
def Noise.none : Noise := fun _ _ _ _ _ d => d

namespace Engine

variable {σ β : Type}

/-- Finished transfers handed over, those among them that failed, and what became of the rest. Both
are counted in words, which start again at zero. -/
structure Drained (σ β : Type) where
  /-- Transfers handed to the sink. -/
  total : UInt32
  /-- Those that failed. -/
  failed : UInt32
  /-- The sink. -/
  sink : σ
  /-- The channel. -/
  channel : Channel β
  /-- The machine. -/
  machine : Machine β

/-- Hands the finished transfers of a direction to the sink, oldest first, while the device goes on
writing to descriptors. Each leaves fewer buffers in flight, so there is a last one. -/
def drainRing (noise : Noise) (sink : Sink σ β) (id : Nat) (direction : Direction)
    (d : Drained σ β) : Drained σ β :=
  match _h : (d.channel.overwrite (noise id direction (d.channel.inFlight direction))).reclaim
      direction d.machine with
  | (none, c, m) => { d with channel := c, machine := m }
  | (some t, c, m) =>
    drainRing noise sink id direction
      { total := d.total + 1
        failed := d.failed + (if t.isError then 1 else 0)
        sink := sink.complete d.sink id direction t
        channel := c
        machine := m }
termination_by (d.channel.ring direction).slots.length
decreasing_by
  have := Channel.length_slots_reclaim _h
  rwa [Channel.ring_overwrite, Ring.slots_overwrite] at this

/-- Hands the finished transfers of a channel to the sink, transmit before receive. -/
def drainRings (noise : Noise) (sink : Sink σ β) (id : Nat) (d : Drained σ β) : Drained σ β :=
  Direction.all.foldl (fun d direction => drainRing noise sink id direction d) d

/-- Counts the transfers that were handed over together, if there were any. -/
def countDrained (e : Engine β) (total failed : UInt32) : Engine β :=
  e.count fun s =>
    if 0 < total then
      { s with
        completed := Counter.add s.completed total.toNat
        completionErrors := Counter.add s.completionErrors failed.toNat }
    else s

/-- Hands the finished transfers of a channel to the sink. -/
def drainChannel (noise : Noise) (sink : Sink σ β) (id : Nat) (s : σ) (e : Engine β) :
    Nat × σ × Engine β :=
  match e.channels[id]? with
  | none => (0, s, e)
  | some c =>
    let d := drainRings noise sink id ⟨0, 0, s, c, e.machine⟩
    (d.total.toNat, d.sink, (e.put id d.channel d.machine).countDrained d.total d.failed)

/-- Receive buffers posted, and what became of the rest. -/
structure Refilled (σ β : Type) where
  /-- Buffers posted. -/
  posted : Nat
  /-- The sink. -/
  sink : σ
  /-- The channel. -/
  channel : Channel β
  /-- The machine. -/
  machine : Machine β

/-- Asks the sink for receive buffers and posts them while the ring has room, in at most `rounds`
rounds. It stops when the sink has none, or when one cannot be posted: that one goes back to the
sink. -/
def refillRing (sink : Sink σ β) (id : Nat) : Nat → Refilled σ β → Refilled σ β
  | 0, d => d
  | rounds + 1, d =>
    if d.channel.rx.freeSlots = 0 then d
    else
      match sink.rxBuffer d.sink id with
      | (none, s) => { d with sink := s }
      | (some (buffer, length), s) =>
        match d.channel.enqueue .fromDevice buffer length d.machine with
        | (.error r, c, m) =>
          { d with sink := sink.giveBack s id r.buffer, channel := c, machine := m }
        | (.ok (), c, m) =>
          refillRing sink id rounds
            { posted := d.posted + 1, sink := s, channel := c, machine := m }

/-- Counts the buffers that were posted together, if there were any. As many are added as a word
shows. -/
def countPosted (e : Engine β) (posted : Nat) : Engine β :=
  e.count fun s =>
    if 0 < posted then
      { s with enqueued := Counter.add s.enqueued (UInt32.ofNat posted).toNat }
    else s

/-- Fills the receive ring of a running channel with buffers from the sink. The ring is full after
fewer rounds than it has places. -/
def refillChannel (sink : Sink σ β) (id : Nat) (s : σ) (e : Engine β) : Nat × σ × Engine β :=
  match e.channels[id]? with
  | none => (0, s, e)
  | some c =>
    if e.monitor.state? id = some .running then
      let d := refillRing sink id c.rx.capacity ⟨0, s, c, e.machine⟩
      (d.posted, d.sink,
        (e.put id d.channel d.machine).countPosted d.posted)
    else (0, s, e)

/-- Does a kind of work for channels in turn and adds up the answers. -/
def sumOver (work : Nat → σ → Engine β → Nat × σ × Engine β) :
    List Nat → σ → Engine β → Nat × σ × Engine β
  | [], s, e => (0, s, e)
  | id :: rest, s, e =>
    let (n, s, e) := work id s e
    let (k, s, e) := sumOver work rest s e
    (n + k, s, e)

/-- Recovers channels in turn, where their policies do not wait for the owner to ask. -/
def autoRecoverAll : List Nat → RecoveryTally → Engine β → RecoveryTally × Engine β
  | [], t, e => (t, e)
  | id :: rest, t, e =>
    let (t, e) := autoRecover id t e
    autoRecoverAll rest t e

/-- Does work that a worker has taken: transfers are taken back first, then receive buffers are
posted, then channels are recovered. -/
def serve (noise : Noise) (sink : Sink σ β) (work : PendingWork) (s : σ) (e : Engine β) :
    ServiceReport × σ × Engine β :=
  let (reclaimed, s, e) := sumOver (drainChannel noise sink) work.reclaim.toList s e
  let (refilled, s, e) := sumOver (refillChannel sink) work.refill.toList s e
  let (tally, e) := autoRecoverAll work.recover.toList .none e
  (⟨reclaimed, refilled, tally⟩, s, e)

/-- A worker enters, takes all the work that waits, does it and leaves. Nothing is done if the
engine lets no worker in. -/
def runDeferred (noise : Noise) (sink : Sink σ β) (s : σ) (e : Engine β) :
    ServiceReport × σ × Engine β :=
  match e.work.enter with
  | (false, _) => (.none, s, e)
  | (true, queue) =>
    let (work, queue) := queue.take
    let (report, s, e) := serve noise sink work s { e with work := queue }
    (report, s, { e with work := e.work.leave })

end Engine

end PacketDma
