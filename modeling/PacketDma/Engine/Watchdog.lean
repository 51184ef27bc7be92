import PacketDma.Engine.Deferred

/-!
# The watchdog

At each turn the watchdog finds the channels that have stalled, asks running channels for faults
that raised no interrupt, halts those that are down, and recovers those in error.
-/

namespace PacketDma

/-- What a turn of the watchdog found and did. -/
structure WatchdogReport where
  /-- Channels that have stalled. -/
  stalled : ChannelMask
  /-- Channels that reported faults. -/
  faulted : ChannelMask
  /-- What came of recovery. -/
  tally : RecoveryTally
  deriving DecidableEq, Inhabited

/-- Nothing was looked at. -/
def WatchdogReport.none : WatchdogReport := ⟨∅, ∅, .none⟩

namespace Engine

variable {β : Type}

/-- Asks a channel for faults, unless it is down. -/
def probeFaults (id now : Nat) (c : Channel β) (report : WatchdogReport) (e : Engine β) :
    WatchdogReport × Engine β :=
  if e.monitor.isDown id then (report, e)
  else
    let (faults, m) := c.errorStatus e.machine
    let e := { e with machine := m }
    if faults.isEmpty then (report, e)
    else
      ({ report with faulted := report.faulted.insert id },
        { e with monitor := (e.monitor.recordFault id faults now).2 })

/-- Looks at a channel whose rings run. -/
def inspectChannel (now : Nat) (acc : WatchdogReport × Engine β) (id : Nat) :
    WatchdogReport × Engine β :=
  let (report, e) := acc
  match e.channels[id]? with
  | none => (report, e)
  | some c =>
    if !c.running then (report, e)
    else
      let (report, e) := e.probeFaults id now c report
      if e.monitor.isDown id then
        let e := (e.haltChannel id).2
        ({ report with tally := report.tally.record id .down },
          e.log .error s!"ch{id}: down, rings stopped")
      else (report, e)

/-- Recovers a channel that is in error. -/
def recoverInError (acc : WatchdogReport × Engine β) (id : Nat) : WatchdogReport × Engine β :=
  let (report, e) := acc
  if e.monitor.state? id = some .error then
    let (tally, e) := autoRecover id report.tally e
    ({ report with tally := tally }, e)
  else (report, e)

/-- Finds the channels that have stalled. -/
def findStalled (e : Engine β) (now : Nat) : ChannelMask × Engine β :=
  let (stalled, monitor) := e.monitor.watchdogTick now
  let e := { e with monitor := monitor }.count fun s =>
    { s with watchdogTimeouts := Counter.add s.watchdogTimeouts stalled.count }
  (stalled,
    stalled.toList.foldl
      (fun e id => e.log .warn s!"ch{id}: no progress for {e.config.stallThresholdMs} ms") e)

/-- A turn of the watchdog. Nothing is done if the engine lets no worker in. -/
def watchdogTick (e : Engine β) : WatchdogReport × Engine β :=
  match e.work.enter with
  | (false, _) => (.none, e)
  | (true, queue) =>
    let (now, e) := { e with work := queue }.now
    let (stalled, e) := e.findStalled now
    let acc := e.ids.foldl (inspectChannel now) ({ WatchdogReport.none with stalled := stalled }, e)
    let (report, e) := acc.2.ids.foldl recoverInError acc
    (report, { e with work := e.work.leave })

end Engine

end PacketDma
