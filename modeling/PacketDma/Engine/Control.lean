import PacketDma.Engine

/-!
# Starting and stopping channels

The owner of the engine starts, stops, suspends and resumes channels, and sets them up anew.
-/

namespace PacketDma.Engine

variable {β : Type}

/-- Starts a stopped channel. A running channel goes on. -/
def startChannel (e : Engine β) (id : Nat) : Except Error Unit × Engine β :=
  match e.usable? id with
  | .error x => (.error x, e)
  | .ok c =>
    match e.monitor.state? id with
    | some .running => (.ok (), e)
    | some .stopped =>
      match c.start e.machine with
      | (.error x, c, m) => (.error x, e.put id c m)
      | (.ok (), c, m) =>
        let (now, e) := (e.put id c m).now
        match e.monitor.start id now with
        | (.error x, monitor) => (.error (.io x), { e with monitor := monitor })
        | (.ok (), monitor) =>
          (.ok (), { e with monitor := monitor }.log .debug s!"ch{id}: running")
    | _ => (.error (.io .invalidState), e)

/-- Stops a channel. -/
def stopChannel (e : Engine β) (id : Nat) : Except Error Unit × Engine β :=
  match e.channel? id with
  | .error x => (.error x, e)
  | .ok _ =>
    match e.monitor.stop id with
    | (.error x, monitor) => (.error (.io x), { e with monitor := monitor })
    | (.ok (), monitor) => (.ok (), ({ e with monitor := monitor }.haltChannel id).2)

/-- Acts on channels in turn, until one action fails. -/
def eachChannel (act : Engine β → Nat → Except Error Unit × Engine β) :
    List Nat → Engine β → Except Error Unit × Engine β
  | [], e => (.ok (), e)
  | id :: rest, e =>
    match act e id with
    | (.error x, e) => (.error x, e)
    | (.ok (), e) => eachChannel act rest e

/-- Starts all channels. -/
def start (e : Engine β) : Except Error Unit × Engine β :=
  if !e.initialized then (.error (.config .notInitialized), e)
  else eachChannel startChannel e.ids e

/-- Stops all channels. -/
def stop (e : Engine β) : Except Error Unit × Engine β :=
  if !e.initialized then (.error (.config .notInitialized), e)
  else eachChannel stopChannel e.ids e

/-- Suspends a running channel. Its transfers stay in flight. -/
def suspendChannel (e : Engine β) (id : Nat) : Except Error Unit × Engine β :=
  match e.channel? id with
  | .error x => (.error x, e)
  | .ok _ =>
    match e.monitor.suspend id with
    | (.error x, monitor) => (.error (.io x), { e with monitor := monitor })
    | (.ok (), monitor) => (.ok (), ({ e with monitor := monitor }.haltChannel id).2)

/-- Resumes a suspended channel. If faults came in meanwhile it waits for recovery instead. -/
def resumeChannel (e : Engine β) (id : Nat) : Except Error Unit × Engine β :=
  match e.usable? id with
  | .error x => (.error x, e)
  | .ok c =>
    let (now, e) := e.now
    match e.monitor.resume id now with
    | (.error x, monitor) => (.error (.io x), { e with monitor := monitor })
    | (.ok .running, monitor) =>
      let (result, c, m) := c.start e.machine
      (result, { e with monitor := monitor }.put id c m)
    | (.ok _, monitor) =>
      (.ok (),
        ({ e with monitor := monitor }.post id .recoverOnly).log .debug
          s!"ch{id}: resumed with faults pending")

/-- Sets a channel up anew: its faults are forgotten, its transfers discarded. A channel that was
not stopped runs afterwards. -/
def reinitChannel (e : Engine β) (id : Nat) : Except Error Unit × Engine β :=
  match e.channel? id with
  | .error x => (.error x, e)
  | .ok c =>
    let wasStopped := e.monitor.state? id == some .stopped
    match e.monitor.reset id with
    | (.error x, monitor) => (.error (.io x), { e with monitor := monitor })
    | (.ok (), monitor) =>
      let (_, c, m) := c.stop e.machine
      let m := c.clearErrors .all (c.pulseReset e.config.channelResetUs m)
      let (discarded, c, m) := c.resetRings m
      let m := c.program m
      let e :=
        ({ e with monitor := monitor }.put id c m).log .info
          s!"ch{id}: reinitialized, {discarded} buffers discarded"
      if wasStopped then (.ok (), e) else e.startChannel id

end PacketDma.Engine
