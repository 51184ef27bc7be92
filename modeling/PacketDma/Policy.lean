import PacketDma.Error
import PacketDma.Fault
import PacketDma.Storage

/-!
# Recovery policies

A policy says which faults of a channel may be recovered from, how, how often and how soon
after each other. Each channel has a policy of its own.
-/

namespace PacketDma

/-- What a recovery attempt does to a channel. -/
inductive RecoveryAction where
  /-- Nothing: the fault is only recorded. -/
  | none
  /-- Resets the channel. Transfers survive unless the fault may have damaged the rings. -/
  | reset
  /-- Resets the channel and empties its rings. -/
  | reinit
  /-- Stops and starts the channel. -/
  | restart
  /-- Resets the channel and gives it new rings. -/
  | reload
  deriving DecidableEq, Inhabited

namespace RecoveryAction

/-- The name of an action in messages. -/
def name : RecoveryAction → String
  | none => "none"
  | reset => "reset"
  | reinit => "reinitialize"
  | restart => "restart"
  | reload => "reload"

/-- Every action. -/
def all : List RecoveryAction := [none, reset, reinit, restart, reload]

/-- Whether an action holds the channel in its local reset. -/
def resetsChannel : RecoveryAction → Bool
  | reset | reinit | reload => true
  | none | restart => false

end RecoveryAction

/-- How the faults of a channel are recovered from. -/
structure RecoveryPolicy where
  /-- The faults that may be recovered from. -/
  categories : FaultSet
  /-- What an attempt does. -/
  action : RecoveryAction
  /-- How many attempts may fail before the channel is down. -/
  maxRetries : UInt8
  /-- Milliseconds between two attempts. -/
  retryIntervalMs : Nat
  /-- Whether faults lead to attempts without being asked for. -/
  autoRecover : Bool
  deriving DecidableEq, Inhabited

namespace RecoveryPolicy

/-- The default number of attempts. -/
def defaultMaxRetries : UInt8 := 3

/-- The default milliseconds between two attempts. -/
def defaultRetryIntervalMs : Nat := 100

/-- The default policy: a reset after any fault that leaves room for recovery. -/
def standard : RecoveryPolicy where
  categories := .recoverable
  action := .reset
  maxRetries := defaultMaxRetries
  retryIntervalMs := defaultRetryIntervalMs
  autoRecover := true

end RecoveryPolicy

/-- The policies of all channels, by channel number. -/
structure PolicyTable where
  /-- One policy for each channel. -/
  policies : List RecoveryPolicy
  deriving DecidableEq, Inhabited

namespace PolicyTable

/-- The table of no channels. -/
def empty : PolicyTable := ⟨[]⟩

/-- The bytes that one policy takes. -/
def entryBytes : Nat := 16

/-- A table of `count` copies of a policy. It fails if there is no room for so many. -/
def replicate? (count : Nat) (policy : RecoveryPolicy) : Except DmaError PolicyTable :=
  if Storage.holds count entryBytes then .ok ⟨List.replicate count policy⟩
  else .error .allocationFailed

/-- The policy of a channel, if there is such a channel. -/
def get? (t : PolicyTable) (channel : Nat) : Option RecoveryPolicy := t.policies[channel]?

/-- Replaces the policy of a channel, if there is such a channel. -/
def set (t : PolicyTable) (channel : Nat) (policy : RecoveryPolicy) : Bool × PolicyTable :=
  (decide (channel < t.policies.length), ⟨t.policies.set channel policy⟩)

end PolicyTable

end PacketDma
