import PacketDma.Engine
import PacketDma.Machine.Reset

/-!
# Bringing the engine up and down

The engine comes up on a device that has been reset, with new rings for every channel, and
leaves nothing behind if that fails. It goes down with every transfer discarded and the device
silent.
-/

namespace PacketDma.Engine

variable {β : Type}

/-- Microseconds for which going down waits for workers to leave. -/
def workerDrainTimeoutUs : Nat := 10000

/-- The waits of a device reset, as configured. -/
def resetTiming (config : Config) : ResetTiming :=
  ⟨config.resetSettleUs, config.readyTimeoutUs, config.pollIntervalUs⟩

/-- Gives up the rings of channels, in their order. The answer is the number of discarded
transfers. -/
def deinitChannels : List (Channel β) → Machine β → Nat × Machine β
  | [], m => (0, m)
  | c :: rest, m =>
    let (n, _, m) := c.deinit m
    let (k, m) := deinitChannels rest m
    (n + k, m)

/-- Makes the channels of some numbers, after those already made. If one cannot be made, those
already made are given up. -/
def buildChannels (config : Config) (base : Nat) (made : List (Channel β)) :
    List Nat → Machine β → Except Error (List (Channel β)) × Machine β
  | [], m => (.ok made, m)
  | id :: rest, m =>
    match Channel.build id (base + config.capabilities.registers.channelOffset id) config m with
    | (.error x, m) =>
      (.error x, (deinitChannels made (m.log .warn s!"ch{id}: ring allocation failed")).2)
    | (.ok c, m) => buildChannels config base (made ++ [c]) rest m

/-- Sets up a device that has just been reset, with all interrupts silenced. -/
def configureDevice (config : Config) (device : DeviceRegisters) (m : Machine β) : Machine β :=
  let features := config.capabilities.features
  let m := device.maskAllInterrupts m
  let m := device.write .dmaConfig (features.dmaConfig config.burstLength) m
  let m := device.enableDma m
  if features.contains .perfCounters then
    device.write .perfControl (PerfControl.clear ||| PerfControl.enable) m
  else m

/-- Tells the device about all rings and lets the interrupts of their channels through. -/
def openDevice (device : DeviceRegisters) (channels : List (Channel β)) (count : Nat)
    (m : Machine β) : Machine β :=
  let m := channels.foldl (fun m c => c.program m) m
  device.unmaskInterrupts (InterruptBits.ofChannels count)
    (device.ackInterrupts InterruptBits.all m)

/-- Makes a row of `count` channels. It fails if there is no storage for the row itself. -/
def buildRow (config : Config) (base count : Nat) (m : Machine β) :
    Except Error (List (Channel β)) × Machine β :=
  match m.reserve (.ok ()) with
  | (.error x, m) => (.error x, m)
  | (.ok (), m) => buildChannels config base [] (List.range count) m

/-- Makes the channels on a device that has come up, and puts everything in place. -/
def bringUp (e : Engine β) (base count : Nat) (monitor : Monitor) (policies : PolicyTable)
    (m : Machine β) : Except Error Unit × Engine β :=
  let device : DeviceRegisters := ⟨e.config.capabilities.registers, base⟩
  match buildRow e.config base count (configureDevice e.config device m) with
  | (.error x, m) => (.error x, { e with machine := device.disableDma m })
  | (.ok channels, m) =>
    let m := openDevice device channels count m
    (.ok (),
      { e with
        base := base
        enabled := true
        channels := channels
        monitor := monitor
        policies := policies
        work := e.work.openUp
        initialized := true
        machine :=
          m.log .info
            s!"engine up: {count} channels, tx={e.config.txRingSize} rx={e.config.rxRingSize}" })

/-- Resets the device and brings the engine up on it. -/
def resetAndBringUp (e : Engine β) (base count : Nat) : Except Error Unit × Engine β :=
  let device : DeviceRegisters := ⟨e.config.capabilities.registers, base⟩
  match device.resetDevice (resetTiming e.config) e.machine with
  | (.error x, m) =>
    (.error x,
      { e with
        machine := m.log .error s!"device not ready within {e.config.readyTimeoutUs} us" })
  | (.ok (), m) =>
    let (now, m) := m.now
    match m.reserve ((Monitor.create? count e.config now).mapError .dma) with
    | (.error x, m) => (.error x, { e with machine := m })
    | (.ok monitor, m) =>
      match m.reserve ((PolicyTable.replicate? count e.config.defaultPolicy).mapError .dma) with
      | (.error x, m) => (.error x, { e with machine := m })
      | (.ok policies, m) => e.bringUp base count monitor policies m

/-- Brings the engine up with `count` channels on the device at `base`. -/
def init (e : Engine β) (base count : Nat) : Except Error Unit × Engine β :=
  if e.initialized then (.error (.config .alreadyInitialized), e)
  else
    match e.config.validate with
    | .error x => (.error (.config x), e)
    | .ok () =>
      match e.config.validateChannelCount count with
      | .error x => (.error (.config x), e)
      | .ok () => e.resetAndBringUp base count

/-- Halts channels, in their order. -/
def haltChannels : List (Channel β) → Machine β → List (Channel β) × Machine β
  | [], m => ([], m)
  | c :: rest, m =>
    let (_, c, m) := c.stop m
    let (rest, m) := haltChannels rest m
    (c :: rest, m)

/-- Silences the device. -/
def quietDevice (device : DeviceRegisters) (m : Machine β) : Machine β :=
  device.ackInterrupts InterruptBits.all (device.maskAllInterrupts (device.disableDma m))

/-- Takes the engine down. There is no answer if it would wait forever for workers that never
leave. -/
def deinit? (e : Engine β) : Option (Engine β) :=
  if !e.initialized then some e
  else
    let (channels, m) := haltChannels e.channels e.machine
    let (woken, work) := e.work.close
    let m := m.wake woken
    match work.waitIdle? workerDrainTimeoutUs m.clock with
    | none => none
    | some (idle, clock) =>
      let m := { m with clock := clock }
      let m :=
        if idle then m
        else m.log .warn s!"{work.active} workers still active at teardown"
      let m := quietDevice e.device m
      let (discarded, m) := deinitChannels channels m
      some
        { e with
          enabled := false
          channels := []
          monitor := .empty
          policies := .empty
          work := work
          initialized := false
          machine := m.log .info s!"engine down, {discarded} buffers discarded" }

/-- Whether going down is sure to end. -/
def canQuiesce (e : Engine β) : Bool := e.work.canQuiesce e.machine.clock

end PacketDma.Engine
