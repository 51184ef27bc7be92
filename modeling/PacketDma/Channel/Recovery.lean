import PacketDma.Channel

/-!
# Recovery of a channel

A recovery attempt stops the channel, does what the policy's action asks for, and starts it
again. It has succeeded if the device then reports no fault.
-/

namespace PacketDma.Channel

variable {β : Type}

/-- What an action does to the rings of a stopped channel. Afterwards the device knows the rings as
they are. -/
def renewRings (c : Channel β) (action : RecoveryAction) (faults : FaultSet) (config : Config)
    (m : Machine β) : Except Error Unit × Channel β × Machine β :=
  match action with
  | .reload =>
    match c.reloadRings config m with
    | (.error e, c, m) => (.error e, c, m)
    | (.ok _, c, m) => (.ok (), c, c.program m)
  | .reinit =>
    let (_, c, m) := c.resetRings m
    (.ok (), c, c.program m)
  | .reset =>
    if faults.meets .ringCorrupting then
      let (_, c, m) := c.resetRings m
      (.ok (), c, c.program m)
    else (.ok (), c, c.program m)
  | .restart | .none => (.ok (), c, m)

/-- The channel and the machine when a recovery attempt comes to the rings: they are halted, the
channel was held in its local reset if the action asks for that, and its faults were cleared. -/
def readied (c : Channel β) (action : RecoveryAction) (faults : FaultSet) (config : Config)
    (m : Machine β) : Channel β × Machine β :=
  let m := m.log .debug s!"ch{c.id}: recovery {action.name} for {hex faults.bits.toNat}"
  let (_, c, m) := c.stop m
  let m := if action.resetsChannel then c.pulseReset config.channelResetUs m else m
  (c, c.clearErrors .all m)

/-- Makes a recovery attempt. The answer tells whether no fault is reported afterwards. -/
def recover (c : Channel β) (action : RecoveryAction) (faults : FaultSet) (config : Config)
    (m : Machine β) : Except Error Bool × Channel β × Machine β :=
  if action = .none then (.ok false, c, m)
  else
    let (c, m) := c.readied action faults config m
    match c.renewRings action faults config m with
    | (.error e, c, m) => (.error e, c, m)
    | (.ok (), c, m) =>
      match c.start m with
      | (.error e, c, m) => (.error e, c, m)
      | (.ok (), c, m) =>
        let (status, m) := c.errorStatus m
        (.ok status.isEmpty, c, m)

end PacketDma.Channel
