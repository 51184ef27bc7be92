import PacketDma.Counter
import PacketDma.Error
import PacketDma.Fault
import PacketDma.Policy
import PacketDma.Time

/-!
# Channel records

A record keeps the state of one channel, the faults that wait for recovery, and how many attempts
were spent on them. Its statistics are kept for the reader: of these, only the time of the last
interrupt has a part in a decision, that of the watchdog.
-/

namespace PacketDma

/-- The states of a channel. -/
inductive ChannelState where
  /-- The rings are halted. -/
  | stopped
  /-- The rings run. -/
  | running
  /-- A fault waits for recovery. -/
  | error
  /-- A recovery attempt is under way. -/
  | recovering
  /-- The rings are halted and will run on. -/
  | suspended
  deriving DecidableEq, Inhabited

/-- The name of a state. -/
def ChannelState.name : ChannelState → String
  | stopped => "stopped"
  | running => "running"
  | error => "error"
  | recovering => "recovering"
  | suspended => "suspended"

/-- What happened on a channel. -/
structure ChannelStats where
  /-- Interrupts of either source. -/
  totalInterrupts : Nat
  /-- Error interrupts. -/
  errorInterrupts : Nat
  /-- When the last interrupt came. -/
  lastInterrupt : Option Nat
  /-- When the last fault was noticed. -/
  lastError : Option Nat
  /-- Recent error interrupts. -/
  errorWindow : Nat
  /-- Recent refusals of buffers by a full ring. -/
  ringFullWindow : Nat
  /-- Refusals of buffers by a full ring. -/
  ringFullEvents : Nat
  /-- Stalls. -/
  timeouts : Nat
  /-- Recovery attempts. -/
  recoveryAttempts : Nat
  /-- Successful recovery attempts. -/
  recoverySuccesses : Nat
  deriving DecidableEq, Inhabited

/-- Nothing happened yet. -/
def ChannelStats.zero : ChannelStats := ⟨0, 0, none, none, 0, 0, 0, 0, 0, 0⟩

/-- The outcome of asking for a recovery attempt. -/
inductive RecoveryClaim where
  /-- The attempt may be made, for these faults. -/
  | claimed (faults : FaultSet)
  /-- There is nothing to recover from. -/
  | notNeeded
  /-- The last attempt was too short a time ago. -/
  | tooSoon
  /-- The policy does not cover these faults. -/
  | notCovered (faults : FaultSet)
  /-- The channel is down. -/
  | down
  deriving DecidableEq

/-- What is known of one channel. -/
structure ChannelRecord where
  /-- The state. -/
  state : ChannelState
  /-- What happened. -/
  stats : ChannelStats
  /-- The faults that wait for recovery. -/
  pending : FaultSet
  /-- Attempts since the last success. -/
  retries : Nat
  /-- When the last attempt began. -/
  lastAttempt : Option Nat
  /-- Whether the channel is out of use until it is set up again. -/
  down : Bool
  /-- Whether a fatal fault put it out of use. -/
  fatal : Bool
  /-- When the channel last began to run. -/
  baseline : Nat
  deriving DecidableEq, Inhabited

namespace ChannelRecord

/-- A stopped channel without a history. -/
def new : ChannelRecord := ⟨.stopped, .zero, ∅, 0, none, false, false, 0⟩

/-- The last sign of life: the last interrupt, or the beginning of the run if that came later. -/
def lastActivity (r : ChannelRecord) : Nat :=
  match r.stats.lastInterrupt with
  | some t => max t r.baseline
  | none => r.baseline

/-- Why nothing can be done with a channel, if it is down. -/
def downError? (r : ChannelRecord) : Option IoError :=
  if r.down then some (if r.fatal then .fatal else .channelDown) else none

/-- Clears the statistics. -/
def resetStats (r : ChannelRecord) : ChannelRecord := { r with stats := .zero }

/-- A stopped channel runs from now on. A running one goes on. -/
def start (r : ChannelRecord) (now : Nat) : Except IoError Unit × ChannelRecord :=
  match r.state with
  | .running => (.ok (), r)
  | .stopped => (.ok (), { r with state := .running, baseline := now })
  | _ => (.error .invalidState, r)

/-- The channel stops, unless an attempt is under way. -/
def stop (r : ChannelRecord) : Except IoError Unit × ChannelRecord :=
  match r.state with
  | .recovering => (.error .invalidState, r)
  | _ => (.ok (), { r with state := .stopped })

/-- A running channel is suspended. -/
def suspend (r : ChannelRecord) : Except IoError Unit × ChannelRecord :=
  match r.state with
  | .running => (.ok (), { r with state := .suspended })
  | _ => (.error .invalidState, r)

/-- A suspended channel runs again, or waits for recovery if faults are pending. -/
def resume (r : ChannelRecord) (now : Nat) : Except IoError ChannelState × ChannelRecord :=
  match r.state with
  | .suspended =>
    let state := if r.pending.isEmpty then .running else .error
    (.ok state, { r with state := state, baseline := now })
  | _ => (.error .invalidState, r)

/-- The channel begins anew, unless an attempt is under way. -/
def reset (r : ChannelRecord) : Except IoError Unit × ChannelRecord :=
  match r.state with
  | .recovering => (.error .invalidState, r)
  | _ =>
    (.ok (),
      { r with
        state := .stopped
        pending := ∅
        retries := 0
        lastAttempt := none
        down := false
        fatal := false })

/-- An interrupt came in. -/
def onInterrupt (r : ChannelRecord) (isError : Bool) (now : Nat) : ChannelRecord :=
  let s := r.stats
  let s :=
    { s with
      totalInterrupts := Counter.add s.totalInterrupts 1
      lastInterrupt := some now }
  let s :=
    if isError then
      { s with
        errorInterrupts := Counter.add s.errorInterrupts 1
        errorWindow := Counter.add s.errorWindow 1
        lastError := some now }
    else s
  { r with stats := s }

/-- A full ring refused a buffer. -/
def onRingFull (r : ChannelRecord) : ChannelRecord :=
  { r with
    stats :=
      { r.stats with
        ringFullWindow := Counter.add r.stats.ringFullWindow 1
        ringFullEvents := Counter.add r.stats.ringFullEvents 1 } }

/-- Faults were noticed. A running channel goes to error, and a fatal fault puts any channel that
is not stopped out of use. -/
def recordFault (r : ChannelRecord) (faults : FaultSet) (now : Nat) : Bool × ChannelRecord :=
  if faults.isEmpty then (false, r)
  else
    let kills := faults.isFatal && r.state != .stopped
    (r.state == .running,
      { r with
        pending := r.pending ∪ faults
        stats := { r.stats with lastError := some now }
        down := r.down || kills
        fatal := r.fatal || kills
        state := if r.state = .running then .error else r.state })

/-- The channel is put out of use. -/
def markDown (r : ChannelRecord) : ChannelRecord :=
  { r with
    down := true
    state := if r.state = .recovering then .error else r.state }

/-- The windows of recent events are halved some times. -/
def decay (r : ChannelRecord) (times : Nat) : ChannelRecord :=
  { r with
    stats :=
      { r.stats with
        errorWindow := Counter.halve r.stats.errorWindow times
        ringFullWindow := Counter.halve r.stats.ringFullWindow times } }

/-- Whether the channel runs without having shown a sign of life for the threshold. -/
def hasStalled (r : ChannelRecord) (thresholdUs now : Nat) : Bool :=
  r.state == .running && thresholdUs ≤ Instant.since now r.lastActivity

/-- A running channel was found stalled. -/
def onStall (r : ChannelRecord) (now : Nat) : ChannelRecord :=
  { r with
    state := .error
    pending := r.pending ∪ .single .stalled
    stats :=
      { r.stats with
        timeouts := Counter.add r.stats.timeouts 1
        lastError := some now } }

/-- Whether the last attempt was too short a time ago for another one. -/
def isTooSoon (r : ChannelRecord) (policy : RecoveryPolicy) (now : Nat) : Bool :=
  match r.lastAttempt with
  | some last => Instant.since now last < policy.retryIntervalMs * 1000
  | none => false

/-- Asks for a recovery attempt. A channel in error whose faults are fatal, or whose attempts are
spent, goes down here. -/
def beginRecovery (r : ChannelRecord) (policy : RecoveryPolicy) (now : Nat) :
    RecoveryClaim × ChannelRecord :=
  if r.down then (.down, r)
  else if r.state ≠ .error then (.notNeeded, r)
  else if r.pending.isFatal || policy.maxRetries.toNat ≤ r.retries then
    (.down, { r with down := true, fatal := r.fatal || r.pending.isFatal })
  else if !r.pending.isEmpty && !policy.categories.meets r.pending then
    (.notCovered r.pending, r)
  else if r.isTooSoon policy now then (.tooSoon, r)
  else
    (.claimed r.pending,
      { r with
        state := .recovering
        retries := r.retries + 1
        lastAttempt := some now
        pending := ∅
        stats := { r.stats with recoveryAttempts := Counter.add r.stats.recoveryAttempts 1 } })

/-- An attempt succeeded. -/
def onRecovered (r : ChannelRecord) (now : Nat) : ChannelRecord :=
  { r with
    state := .running
    retries := 0
    pending := ∅
    baseline := now
    stats := { r.stats with recoverySuccesses := Counter.add r.stats.recoverySuccesses 1 } }

/-- An attempt failed and left faults behind. The channel goes down with its last attempt, or after
a fatal fault. -/
def onRecoveryFailed (r : ChannelRecord) (residual : FaultSet) (maxRetries : UInt8) :
    ChannelRecord :=
  let spent := maxRetries.toNat ≤ r.retries || residual.isFatal
  { r with
    state := .error
    pending := r.pending ∪ residual
    down := r.down || spent
    fatal := r.fatal || residual.isFatal }

/-- Closes an attempt and tells whether the channel is down. -/
def finishRecovery (r : ChannelRecord) (success : Bool) (residual : FaultSet)
    (maxRetries : UInt8) (now : Nat) : Bool × ChannelRecord :=
  let r := if success then r.onRecovered now else r.onRecoveryFailed residual maxRetries
  (r.down, r)

end ChannelRecord

end PacketDma
