import PacketDma.Channel
import PacketDma.Monitor
import PacketDma.Policy
import PacketDma.WorkQueue

/-!
# The engine

An engine drives all channels of a device. It keeps the channels, what is known of each, their
policies, and the work that waits for a worker. This module holds its state and how a channel of
it is reached.
-/

namespace PacketDma

/-- What happened on all channels together. -/
structure EngineStats where
  /-- Interrupts handled. -/
  interrupts : Nat
  /-- Completion sources seen. -/
  completionEvents : Nat
  /-- Error sources seen. -/
  errorEvents : Nat
  /-- Buffers posted. -/
  enqueued : Nat
  /-- Transfers taken back. -/
  completed : Nat
  /-- Transfers taken back with an error. -/
  completionErrors : Nat
  /-- Buffers refused by a full ring. -/
  ringFull : Nat
  /-- Recovery attempts. -/
  recoveriesAttempted : Nat
  /-- Successful recovery attempts. -/
  recoveriesSucceeded : Nat
  /-- Stalls found by the watchdog. -/
  watchdogTimeouts : Nat
  deriving DecidableEq, Inhabited

/-- Nothing happened yet. -/
def EngineStats.zero : EngineStats := ⟨0, 0, 0, 0, 0, 0, 0, 0, 0, 0⟩

/-- An engine and the machine it acts on. -/
structure Engine (β : Type) where
  /-- How the device is driven. -/
  config : Config
  /-- The register base of the last start. -/
  base : Nat
  /-- Whether the device is enabled. -/
  enabled : Bool
  /-- What happened. -/
  stats : EngineStats
  /-- The channels, by number. -/
  channels : List (Channel β)
  /-- What is known of the channels. -/
  monitor : Monitor
  /-- The policies of the channels. -/
  policies : PolicyTable
  /-- Work that waits for a worker. -/
  work : WorkQueue
  /-- Whether the engine is up. -/
  initialized : Bool
  /-- The machine. -/
  machine : Machine β

namespace Engine

variable {β : Type}

/-- An engine that is not up. -/
def new (config : Config) (machine : Machine β) : Engine β where
  config := config
  base := 0
  enabled := false
  stats := .zero
  channels := []
  monitor := .empty
  policies := .empty
  work := .new
  initialized := false
  machine := machine

/-- The device registers, at the base of the last start. -/
def device (e : Engine β) : DeviceRegisters := ⟨e.config.capabilities.registers, e.base⟩

/-- The numbers of the channels. -/
def ids (e : Engine β) : List Nat := List.range e.channels.length

/-- A channel of an engine that is up. -/
def channel? (e : Engine β) (id : Nat) : Except Error (Channel β) :=
  if !e.initialized then .error (.config .notInitialized)
  else
    match e.channels[id]? with
    | some c => .ok c
    | none => .error (.config .invalidChannel)

/-- A channel of an engine that is up, unless the channel is down. -/
def usable? (e : Engine β) (id : Nat) : Except Error (Channel β) :=
  match e.channel? id with
  | .error x => .error x
  | .ok c =>
    match e.monitor.downError? id with
    | some x => .error (.io x)
    | none => .ok c

/-- Puts a channel and the machine back after the channel acted on the machine. -/
def put (e : Engine β) (id : Nat) (c : Channel β) (m : Machine β) : Engine β :=
  { e with channels := e.channels.set id c, machine := m }

/-- Logs a message. -/
def log (e : Engine β) (level : LogLevel) (text : String) : Engine β :=
  { e with machine := e.machine.log level text }

/-- Reads the clock. -/
def now (e : Engine β) : Nat × Engine β :=
  let (t, m) := e.machine.now
  (t, { e with machine := m })

/-- Posts work for a channel. -/
def post (e : Engine β) (id : Nat) (work : Work) : Engine β :=
  let (woken, queue) := e.work.post id work
  { e with work := queue, machine := e.machine.wake woken }

/-- Changes the statistics. -/
def count (e : Engine β) (f : EngineStats → EngineStats) : Engine β :=
  { e with stats := f e.stats }

/-- Halts a channel. The answer tells whether it ran. -/
def haltChannel (e : Engine β) (id : Nat) : Bool × Engine β :=
  match e.channels[id]? with
  | none => (false, e)
  | some c =>
    let (ran, c, m) := c.stop e.machine
    (ran, e.put id c m)

end Engine

end PacketDma
