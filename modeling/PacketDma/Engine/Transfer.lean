import PacketDma.Engine

/-!
# Posting and taking back buffers

The owner posts buffers on a channel and takes back finished transfers one at a time. Here are
also the questions that the owner may ask about a channel, and the settings that it may change.
-/

namespace PacketDma.Engine

variable {β : Type}

/-- Posts a buffer on a channel. A buffer that is refused comes back with the reason. -/
def enqueue (e : Engine β) (id : Nat) (direction : Direction) (buffer : β) (length : Nat) :
    Except (Rejection β) Unit × Engine β :=
  match e.usable? id with
  | .error x => (.error ⟨x, buffer⟩, e)
  | .ok c =>
    match c.enqueue direction buffer length e.machine with
    | (.ok (), c, m) =>
      (.ok (), (e.put id c m).count fun s => { s with enqueued := Counter.add s.enqueued 1 })
    | (.error r, c, m) =>
      let e := e.put id c m
      if r.isFull then
        (.error r,
          { e with monitor := e.monitor.onRingFull id }.count fun s =>
            { s with ringFull := Counter.add s.ringFull 1 })
      else (.error r, e)

/-- Counts transfers taken back, and those among them that failed. -/
def countCompleted (e : Engine β) (total failed : Nat) : Engine β :=
  e.count fun s =>
    { s with
      completed := Counter.add s.completed total
      completionErrors := Counter.add s.completionErrors failed }

/-- Takes back the oldest transfer of a channel, if the device is done with it. -/
def pollReclaim (e : Engine β) (id : Nat) (direction : Direction) :
    Except Error (Option (Completion β)) × Engine β :=
  match e.usable? id with
  | .error x => (.error x, e)
  | .ok c =>
    match c.reclaim direction e.machine with
    | (none, c, m) => (.ok none, e.put id c m)
    | (some t, c, m) =>
      (.ok (some t), (e.put id c m).countCompleted 1 (if t.isError then 1 else 0))

/-- Clears the statistics of the engine. -/
def clearStats (e : Engine β) : Engine β := { e with stats := .zero }

/-- Asks something of a channel of an engine that is up. -/
def ask {α : Type} (e : Engine β) (id : Nat) (answer : Option α) : Except Error α :=
  match e.channel? id with
  | .error x => .error x
  | .ok _ =>
    match answer with
    | some a => .ok a
    | none => .error (.config .invalidChannel)

/-- The policy of a channel. -/
def recoveryPolicy (e : Engine β) (id : Nat) : Except Error RecoveryPolicy :=
  e.ask id (e.policies.get? id)

/-- The state of a channel. -/
def channelState (e : Engine β) (id : Nat) : Except Error ChannelState :=
  e.ask id (e.monitor.state? id)

/-- The statistics of a channel. -/
def channelStats (e : Engine β) (id : Nat) : Except Error ChannelStats :=
  e.ask id (e.monitor.stats? id)

/-- The channels that are down. -/
def downChannels (e : Engine β) : ChannelMask :=
  (e.ids.filter e.monitor.isDown).foldl .insert ∅

/-- Replaces the policy of a channel. -/
def setRecoveryPolicy (e : Engine β) (id : Nat) (policy : RecoveryPolicy) :
    Except Error Unit × Engine β :=
  match e.channel? id with
  | .error x => (.error x, e)
  | .ok _ => (.ok (), { e with policies := (e.policies.set id policy).2 })

/-- Clears the statistics of a channel. -/
def resetChannelStats (e : Engine β) (id : Nat) : Except Error Unit × Engine β :=
  match e.channel? id with
  | .error x => (.error x, e)
  | .ok _ => (.ok (), { e with monitor := e.monitor.resetStats id })

end PacketDma.Engine
