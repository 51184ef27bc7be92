import PacketDma.Engine
import PacketDma.Interrupt

/-!
# Interrupt handling

The handler acknowledges what it read, notes what it learned of each channel, and leaves the rest
of the work to the workers. A fatal fault halts the channel at once.
-/

namespace PacketDma.Engine

variable {β : Type}

/-- Notes the faults of a channel that raised an error interrupt. -/
def handleError (e : Engine β) (id now : Nat) : Engine β :=
  match e.channels[id]? with
  | none => e
  | some c =>
    let (faults, m) := c.errorStatus e.machine
    let e := { e with machine := m, monitor := (e.monitor.recordFault id faults now).2 }
    let e := if e.monitor.isDown id then (e.haltChannel id).2 else e
    (e.post id .recoverOnly).log .trace s!"ch{id}: error irq {hex faults.bits.toNat}"

/-- Handles the interrupts of one channel. -/
def handleChannel (status : InterruptStatus) (now : Nat) (e : Engine β) (id : Nat) : Engine β :=
  let isError := status.error.contains id
  let e := { e with monitor := e.monitor.onInterrupt id isError now }
  let e := if status.complete.contains id then e.post id .completion else e
  if isError then e.handleError id now else e

/-- Handles the interrupts that the device has raised. The answer tells which channels raised
them. -/
def onInterrupt (e : Engine β) : InterruptStatus × Engine β :=
  if !e.initialized then (.none, e)
  else
    let (raw, m) := e.device.read .intStatus e.machine
    if raw = 0 then (.none, { e with machine := m })
    else
      let e := { e with machine := e.device.ackInterrupts raw m }
      let status := (InterruptStatus.ofWord raw).limit e.channels.length
      let (now, e) := e.now
      let e := e.count fun s =>
        { s with
          interrupts := Counter.add s.interrupts 1
          completionEvents := Counter.add s.completionEvents status.complete.count
          errorEvents := Counter.add s.errorEvents status.error.count }
      (status, status.channels.toList.foldl (handleChannel status now) e)

end PacketDma.Engine
