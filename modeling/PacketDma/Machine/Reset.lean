import PacketDma.Error
import PacketDma.Machine.Views

/-!
# Waiting for the device

A wait looks at a condition again and again, with a pause between two looks, until it holds or
the time for it is over. The time is checked after the look, so that a condition which comes
true during the last pause is still seen. Bringing up the device is such a wait.
-/

namespace PacketDma

/-- Looks until `check` holds or the deadline has passed. Between two looks it pauses for
`interval` microseconds, at least one, so that time moves and the wait ends. -/
def pollUntil {σ : Type} (check : σ → Bool × σ) (pause : Nat → σ → σ) (interval : Nat)
    (deadline : Deadline) (clock : Clock) (s : σ) : Bool × Clock × σ :=
  match check s with
  | (true, s) => (true, clock, s)
  | (false, s) =>
    if deadline.expires ≤ clock.now then (false, clock.read.2, s)
    else
      pollUntil check pause interval deadline (clock.read.2.advance (max interval 1))
        (pause (max interval 1) s)
termination_by deadline.expires - clock.now
decreasing_by
  have := deadline.expires_le_last
  simp only [Clock.read, Clock.advance, Instant.plus]
  omega

/-- Looks until `check` holds, but gives up after `timeout` microseconds. -/
def pollFor {σ : Type} (check : σ → Bool × σ) (pause : Nat → σ → σ) (timeout interval : Nat)
    (clock : Clock) (s : σ) : Except Error Unit × Clock × σ :=
  let start := Deadline.after clock timeout
  let ended := pollUntil check pause interval start.1 start.2 s
  (if ended.1 then .ok () else .error (.io .hardwareTimeout), ended.2)

/-- The waits of a device reset. -/
structure ResetTiming where
  /-- Microseconds for which the device is held in reset. -/
  settleUs : Nat
  /-- Microseconds in which it has to come up. -/
  readyTimeoutUs : Nat
  /-- Microseconds between two looks at it. -/
  pollIntervalUs : Nat
  deriving DecidableEq, Inhabited

namespace DeviceRegisters

variable {β : Type}

/-- Waits until the device reports that it is ready. -/
def awaitReady (d : DeviceRegisters) (timeout interval : Nat) (m : Machine β) :
    Except Error Unit × Machine β :=
  let (deadline, clock) := Deadline.after m.clock timeout
  match pollUntil d.isReady (fun us m => m.emit (.delay us)) interval deadline clock m with
  | (true, clock, m) => (.ok (), { m with clock := clock })
  | (false, clock, m) => (.error (.io .hardwareTimeout), { m with clock := clock })

/-- Resets the device and waits until it has come up. -/
def resetDevice (d : DeviceRegisters) (timing : ResetTiming) (m : Machine β) :
    Except Error Unit × Machine β :=
  d.awaitReady timing.readyTimeoutUs timing.pollIntervalUs
    (d.releaseReset ((d.assertReset m).delay timing.settleUs))

end DeviceRegisters

end PacketDma
