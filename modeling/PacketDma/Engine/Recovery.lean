import PacketDma.Channel.Recovery
import PacketDma.Engine

/-!
# Recovery attempts

An attempt is claimed from the monitor, made on the channel, and closed with its outcome. A
channel that went down is halted.
-/

namespace PacketDma

/-- What came of the wish to recover a channel. -/
inductive RecoveryOutcome where
  /-- The channel runs again. -/
  | recovered
  /-- The attempt failed and another one may follow. -/
  | failed
  /-- The channel is down. -/
  | down
  /-- It is too soon for an attempt. -/
  | deferred
  /-- There is nothing to recover from. -/
  | notNeeded
  /-- The policy asks for no attempt. -/
  | skipped
  deriving DecidableEq, Inhabited

/-- The name of an outcome. -/
def RecoveryOutcome.name : RecoveryOutcome → String
  | recovered => "recovered"
  | failed => "failed"
  | down => "down"
  | deferred => "deferred"
  | notNeeded => "not_needed"
  | skipped => "skipped"

/-- The channels for which recovery had an outcome worth telling. -/
structure RecoveryTally where
  /-- Channels that run again. -/
  recovered : ChannelMask
  /-- Channels whose attempt failed. -/
  failed : ChannelMask
  /-- Channels that are down. -/
  down : ChannelMask
  deriving DecidableEq, Inhabited

namespace RecoveryTally

/-- No outcome yet. -/
def none : RecoveryTally := ⟨∅, ∅, ∅⟩

/-- Adds the outcome of a channel. -/
def record (t : RecoveryTally) (id : Nat) : RecoveryOutcome → RecoveryTally
  | .recovered => { t with recovered := t.recovered.insert id }
  | .failed => { t with failed := t.failed.insert id }
  | .down => { t with down := t.down.insert id }
  | .deferred | .notNeeded | .skipped => t

end RecoveryTally

namespace Engine

variable {β : Type}

/-- Makes an attempt on a channel. The answer tells whether it succeeded and which faults it left
behind: those reported at its end, or those it was made for if none is reported. -/
def runRecovery (e : Engine β) (id : Nat) (c : Channel β) (policy : RecoveryPolicy)
    (faults : FaultSet) : (Bool × FaultSet) × Engine β :=
  match c.recover policy.action faults e.config e.machine with
  | (.ok true, c, m) => ((true, ∅), e.put id c m)
  | (.ok false, c, m) =>
    let (status, m) := c.errorStatus m
    ((false, if status.isEmpty then faults else status), e.put id c m)
  | (.error _, c, m) => ((false, faults), e.put id c m)

/-- Makes the attempt that was claimed for a channel, and closes it. -/
def recoverClaimed (e : Engine β) (id : Nat) (c : Channel β) (policy : RecoveryPolicy)
    (faults : FaultSet) : RecoveryOutcome × Engine β :=
  let e := e.count fun s =>
    { s with recoveriesAttempted := Counter.add s.recoveriesAttempted 1 }
  let ((success, residual), e) := e.runRecovery id c policy faults
  let (now, e) := e.now
  let (down, monitor) := e.monitor.finishRecovery id success residual policy.maxRetries now
  let e := { e with monitor := monitor }
  if success then
    let e := e.count fun s =>
      { s with recoveriesSucceeded := Counter.add s.recoveriesSucceeded 1 }
    (.recovered,
      (e.post id .refillOnly).log .info s!"ch{id}: recovered ({policy.action.name})")
  else if down then
    let retries := e.monitor.retries id
    (.down,
      (e.haltChannel id).2.log .error
        s!"ch{id}: down after {retries} attempts, faults {hex residual.bits.toNat}")
  else
    (.failed, e.log .warn s!"ch{id}: recovery failed, faults {hex residual.bits.toNat}")

/-- Recovers a channel if it needs to be, if its policy allows it, and if it is time. A channel that
is found down is halted. -/
def attemptRecovery (e : Engine β) (id : Nat) : RecoveryOutcome × Engine β :=
  match e.channels[id]?, e.policies.get? id with
  | some c, some policy =>
    if policy.action = .none ∧ e.monitor.isDown id = false then (.skipped, e)
    else
      let (now, e) := e.now
      let (claim, monitor) := e.monitor.beginRecovery id policy now
      let e := { e with monitor := monitor }
      match claim with
      | .claimed faults => e.recoverClaimed id c policy faults
      | .notNeeded => (.notNeeded, e)
      | .tooSoon => (.deferred, e)
      | .notCovered faults =>
        (.skipped, e.log .debug s!"ch{id}: {hex faults.bits.toNat} not covered by policy")
      | .down =>
        match e.haltChannel id with
        | (true, e) => (.down, e.log .error s!"ch{id}: down, reinit required")
        | (false, e) => (.down, e)
  | _, _ => (.notNeeded, e)

/-- Recovers a channel because the owner asks for it. -/
def recoverChannel (e : Engine β) (id : Nat) : Except Error RecoveryOutcome × Engine β :=
  match e.channel? id with
  | .error x => (.error x, e)
  | .ok _ =>
    let (outcome, e) := e.attemptRecovery id
    (.ok outcome, e)

/-- Recovers a channel whose policy does not wait for the owner to ask. -/
def autoRecover (id : Nat) (t : RecoveryTally) (e : Engine β) : RecoveryTally × Engine β :=
  if (e.policies.get? id).any (·.autoRecover) then
    let (outcome, e) := e.attemptRecovery id
    (t.record id outcome, e)
  else (t, e)

end Engine

end PacketDma
