import PacketDma.ChannelMask
import PacketDma.Config
import PacketDma.Monitor.Record
import PacketDma.Storage

/-!
# The monitor

The monitor keeps one record for each channel. It finds channels that have stalled, and it
halves the windows of recent events at a steady pace, however often it is asked to look.
-/

namespace PacketDma

/-- The records of all channels. -/
structure Monitor where
  /-- One record for each channel. -/
  records : List ChannelRecord
  /-- Microseconds without a sign of life after which a running channel has stalled. -/
  stallThresholdUs : Nat
  /-- Microseconds after which the windows are halved, zero for never. -/
  windowDecayUs : Nat
  /-- Up to when the windows have been halved. -/
  lastDecay : Nat
  deriving DecidableEq, Inhabited

namespace Monitor

/-- The monitor of no channels. -/
def empty : Monitor := ⟨[], 0, 0, 0⟩

/-- The bytes that one record takes. -/
def recordBytes : Nat := 128

/-- A monitor of `count` stopped channels. It fails if there is no room for so many. -/
def create? (count : Nat) (config : Config) (now : Nat) : Except DmaError Monitor :=
  if Storage.holds count recordBytes then
    .ok ⟨List.replicate count .new, config.stallThresholdMs * 1000,
      config.windowDecayMs * 1000, now⟩
  else .error .allocationFailed

/-- The number of channels. -/
def size (m : Monitor) : Nat := m.records.length

/-- The record of a channel, if there is such a channel. -/
def record? (m : Monitor) (channel : Nat) : Option ChannelRecord := m.records[channel]?

/-- The state of a channel. -/
def state? (m : Monitor) (channel : Nat) : Option ChannelState :=
  (m.record? channel).map (·.state)

/-- The statistics of a channel. -/
def stats? (m : Monitor) (channel : Nat) : Option ChannelStats :=
  (m.record? channel).map (·.stats)

/-- Whether a channel is down. -/
def isDown (m : Monitor) (channel : Nat) : Bool := (m.record? channel).any (·.down)

/-- Why nothing can be done with a channel, if it is down. -/
def downError? (m : Monitor) (channel : Nat) : Option IoError :=
  (m.record? channel).bind (·.downError?)

/-- The faults of a channel that wait for recovery. -/
def pending (m : Monitor) (channel : Nat) : FaultSet :=
  ((m.record? channel).map (·.pending)).getD ∅

/-- The attempts spent on a channel since the last success. -/
def retries (m : Monitor) (channel : Nat) : Nat :=
  ((m.record? channel).map (·.retries)).getD 0

/-- Changes the record of a channel. Without such a channel the answer is `absent`. -/
def act {α : Type} (m : Monitor) (channel : Nat) (absent : α)
    (f : ChannelRecord → α × ChannelRecord) : α × Monitor :=
  match m.record? channel with
  | none => (absent, m)
  | some r =>
    let (answer, r) := f r
    (answer, { m with records := m.records.set channel r })

/-- Changes the record of a channel, if there is such a channel. -/
def update (m : Monitor) (channel : Nat) (f : ChannelRecord → ChannelRecord) : Monitor :=
  { m with records := m.records.modify channel f }

/-- Clears the statistics of a channel. -/
def resetStats (m : Monitor) (channel : Nat) : Monitor := m.update channel (·.resetStats)

/-- A channel starts. -/
def start (m : Monitor) (channel now : Nat) : Except IoError Unit × Monitor :=
  m.act channel (.error .invalidState) (·.start now)

/-- A channel stops. -/
def stop (m : Monitor) (channel : Nat) : Except IoError Unit × Monitor :=
  m.act channel (.error .invalidState) (·.stop)

/-- A channel is suspended. -/
def suspend (m : Monitor) (channel : Nat) : Except IoError Unit × Monitor :=
  m.act channel (.error .invalidState) (·.suspend)

/-- A channel is resumed. The answer is the state it goes to. -/
def resume (m : Monitor) (channel now : Nat) : Except IoError ChannelState × Monitor :=
  m.act channel (.error .invalidState) (·.resume now)

/-- A channel begins anew. -/
def reset (m : Monitor) (channel : Nat) : Except IoError Unit × Monitor :=
  m.act channel (.error .invalidState) (·.reset)

/-- An interrupt of a channel came in. -/
def onInterrupt (m : Monitor) (channel : Nat) (isError : Bool) (now : Nat) : Monitor :=
  m.update channel (·.onInterrupt isError now)

/-- A full ring of a channel refused a buffer. -/
def onRingFull (m : Monitor) (channel : Nat) : Monitor := m.update channel (·.onRingFull)

/-- Faults of a channel were noticed. The answer tells whether they took it out of running. -/
def recordFault (m : Monitor) (channel : Nat) (faults : FaultSet) (now : Nat) : Bool × Monitor :=
  m.act channel false (·.recordFault faults now)

/-- A channel is put out of use. -/
def markDown (m : Monitor) (channel : Nat) : Monitor := m.update channel (·.markDown)

/-- Whole decay intervals from the last halving to `now`. -/
def decayPeriods (m : Monitor) (now : Nat) : Nat :=
  if m.windowDecayUs = 0 then 0 else Instant.since now m.lastDecay / m.windowDecayUs

/-- Finds the channels that have stalled at `now`. -/
def stalled (m : Monitor) (now : Nat) : List Nat :=
  (List.range m.size).filter fun c =>
    (m.record? c).any (·.hasStalled m.stallThresholdUs now)

/-- A turn of the watchdog: windows are halved once for each decay interval that has gone by, and
the channels that have stalled go to error. -/
def watchdogTick (m : Monitor) (now : Nat) : ChannelMask × Monitor :=
  let periods := m.decayPeriods now
  let look (r : ChannelRecord) : ChannelRecord :=
    let r := r.decay periods
    if r.hasStalled m.stallThresholdUs now then r.onStall now else r
  ((m.stalled now).foldl .insert ∅,
    { m with
      records := m.records.map look
      lastDecay := Instant.plus m.lastDecay (periods * m.windowDecayUs) })

/-- Asks for a recovery attempt of a channel. -/
def beginRecovery (m : Monitor) (channel : Nat) (policy : RecoveryPolicy) (now : Nat) :
    RecoveryClaim × Monitor :=
  m.act channel .notNeeded (·.beginRecovery policy now)

/-- Closes the attempt of a channel. The answer tells whether it is down. -/
def finishRecovery (m : Monitor) (channel : Nat) (success : Bool) (residual : FaultSet)
    (maxRetries : UInt8) (now : Nat) : Bool × Monitor :=
  m.act channel false (·.finishRecovery success residual maxRetries now)

end Monitor

end PacketDma
