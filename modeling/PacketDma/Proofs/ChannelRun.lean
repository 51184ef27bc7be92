import PacketDma.Channel.Recovery
import PacketDma.Proofs.Quiet

/-!
# Runs of a channel

Everything the engine does to a channel is a run of a few kinds of steps. Each step tells which
buffers it accepted, delivered or discarded, and rings are emptied or replaced only while the
channel does not run.

## Implementation notes

The device may write to descriptors between any two steps. What is proved of one step holds of
every operation, since each operation is shown once to be a run.
-/

namespace PacketDma

/-- Whether a recovery attempt for some faults empties or replaces the rings. -/
def RecoveryAction.renewsRings (action : RecoveryAction) (faults : FaultSet) : Bool :=
  match action with
  | .reload | .reinit => true
  | .reset => faults.meets .ringCorrupting
  | .restart | .none => false

/-- Why the transfers of a channel are discarded. -/
inductive Discard where
  /-- The owner sets the channel up anew. -/
  | reinit
  /-- A recovery attempt empties or replaces the rings. -/
  | recovery (action : RecoveryAction) (faults : FaultSet)
  /-- The engine goes down. -/
  | teardown
  deriving DecidableEq

/-- What becomes of the buffers of a channel. -/
inductive Passage (β : Type) where
  /-- A buffer was posted on the ring of a direction. -/
  | accepted (direction : Direction) (buffer : β)
  /-- A buffer was taken back from the ring of a direction. -/
  | delivered (direction : Direction) (buffer : β)
  /-- The buffers in flight on both rings were discarded. -/
  | discarded (cause : Discard)
  deriving DecidableEq

namespace Channel

variable {β : Type} {config : Config} {c c' c'' : Channel β} {m m' m'' : Machine β}

/-- One step of a channel and its machine, and the passages of buffers in it. -/
inductive Step (config : Config) :
    Channel β → Machine β → List (Passage β) → Channel β → Machine β → Prop where
  | quiet {c : Channel β} {m m' : Machine β} (h : m.Quiet c.registers.Plain m') :
      Step config c m [] c m'
  | start {c : Channel β} {m : Machine β} (hrings : c.initialized = true)
      (hrun : c.running = false) :
      Step config c m [] (c.setRunning true) (c.registers.enableRings m)
  | stop {c : Channel β} {m : Machine β} (hrun : c.running = true) :
      Step config c m [] (c.setRunning false) (c.registers.disableRings m)
  | pulse {c : Channel β} {m : Machine β} (us : Nat) : Step config c m [] c (c.pulseReset us m)
  | post {c : Channel β} {m m' : Machine β} {direction : Direction} {buffer : β} {length : Nat}
      {addr : BusAddress} (hroom : (c.ring direction).refusal? length = none)
      (hmap : m.mapBuffer c.id direction (c.ring direction).head buffer length =
        (some addr, m')) :
      Step config c m [.accepted direction buffer]
        (c.setRing direction ((c.ring direction).post buffer addr length)) m'
  | take {c : Channel β} {m : Machine β} {direction : Direction} {t : Reclaimed β} {r : Ring β}
      (h : (c.ring direction).reclaim = (some t, r)) :
      Step config c m [.delivered direction t.completion.buffer] (c.setRing direction r)
        (m.unmapBuffer c.id direction t.slot.addr t.slot.length (.returned t.index t.control))
  | look {c : Channel β} {m : Machine β} {direction : Direction} {r : Ring β}
      (h : (c.ring direction).reclaim = (none, r)) :
      Step config c m [] (c.setRing direction r) m
  | overwrite {c : Channel β} {m : Machine β} (f : Direction → Nat → Descriptor → Descriptor) :
      Step config c m [] (c.overwrite f) m
  | reset {c : Channel β} {m : Machine β} (cause : Discard) (hrun : c.running = false) :
      Step config c m [.discarded cause] (c.resetRings m).2.1 (c.resetRings m).2.2
  | reload {c c' : Channel β} {m m' : Machine β} {n : Nat} (cause : Discard)
      (hrun : c.running = false) (h : c.reloadRings config m = (.ok n, c', m')) :
      Step config c m [.discarded cause] c' m'

/-- Some steps of a channel in a row, and the passages of buffers in them. -/
inductive Run (config : Config) (c : Channel β) (m : Machine β) :
    List (Passage β) → Channel β → Machine β → Prop where
  | refl : Run config c m [] c m
  | step {log now : List (Passage β)} {c' c'' : Channel β} {m' m'' : Machine β}
      (h : Run config c m log c' m') (hs : Step config c' m' now c'' m'') :
      Run config c m (log ++ now) c'' m''

/-! ### What no step changes -/

theorem registers_setRing (c : Channel β) (d : Direction) (r : Ring β) :
    (c.setRing d r).registers = c.registers := by
  cases d <;> rfl

theorem ring_setRing_ne (c : Channel β) {d d' : Direction} (h : d' ≠ d) (r : Ring β) :
    (c.setRing d r).ring d' = c.ring d' := by
  cases d <;> cases d' <;> first | rfl | exact absurd rfl h

theorem ring_setRunning (c : Channel β) (running : Bool) (d : Direction) :
    (c.setRunning running).ring d = (c.ring d).setEnabled running := by
  cases d <;> rfl

/-- A channel with new rings: they were made first, and the old ones given up after that. -/
theorem of_reloadRings_ok {k : Nat} (h : c.reloadRings config m = (.ok k, c', m')) :
    ∃ tx rx n, buildRings c.id config m = (.ok (tx, rx), n) ∧
      c' = { c with tx := tx.setEnabled c.tx.enabled, rx := rx.setEnabled c.rx.enabled } ∧
      m' = (releaseRing c.id .fromDevice c.rx (releaseRing c.id .toDevice c.tx n).2.2).2.2 := by
  unfold reloadRings at h
  split at h
  · simp at h
  next tx rx n hb =>
    have hparts := Prod.mk.inj (Prod.mk.inj h).2
    exact ⟨tx, rx, n, hb, hparts.1.symm, hparts.2.symm⟩

/-- Two channels with the same number, registers and features, of which both have rings or
neither. -/
structure SamePlace (c c' : Channel β) : Prop where
  id_eq : c'.id = c.id
  registers_eq : c'.registers = c.registers
  features_eq : c'.features = c.features
  initialized_eq : c'.initialized = c.initialized

namespace SamePlace

theorem refl (c : Channel β) : SamePlace c c := ⟨rfl, rfl, rfl, rfl⟩

theorem trans (h : SamePlace c c') (h' : SamePlace c' c'') : SamePlace c c'' :=
  ⟨h'.id_eq.trans h.id_eq, h'.registers_eq.trans h.registers_eq,
    h'.features_eq.trans h.features_eq, h'.initialized_eq.trans h.initialized_eq⟩

theorem setRing (c : Channel β) (d : Direction) (r : Ring β) : SamePlace c (c.setRing d r) := by
  cases d <;> exact ⟨rfl, rfl, rfl, rfl⟩

end SamePlace

theorem Step.samePlace {now : List (Passage β)} (h : Step config c m now c' m') :
    SamePlace c c' := by
  cases h with
  | quiet h => exact .refl c
  | start => exact ⟨rfl, rfl, rfl, rfl⟩
  | stop => exact ⟨rfl, rfl, rfl, rfl⟩
  | pulse => exact .refl c
  | post => exact .setRing c _ _
  | take => exact .setRing c _ _
  | look => exact .setRing c _ _
  | overwrite => exact ⟨rfl, rfl, rfl, rfl⟩
  | reset => exact ⟨rfl, rfl, rfl, rfl⟩
  | reload _ _ h =>
    obtain ⟨tx, rx, n, _, rfl, _⟩ := of_reloadRings_ok h
    exact ⟨rfl, rfl, rfl, rfl⟩

/-! ### Composition -/

namespace Run

variable {now now' : List (Passage β)}

theorem samePlace (h : Run config c m now c' m') : SamePlace c c' := by
  induction h with
  | refl => exact .refl c
  | step _ hs ih => exact ih.trans hs.samePlace

theorem single (h : Step config c m now c' m') : Run config c m now c' m' := Run.refl.step h

theorem trans (h : Run config c m now c' m') (h' : Run config c' m' now' c'' m'') :
    Run config c m (now ++ now') c'' m'' := by
  induction h' with
  | refl => simpa only [List.append_nil] using h
  | step _ hs ih => simpa only [List.append_assoc] using ih.step hs

/-- A step without passages leaves the log as it is. -/
theorem andThen (h : Run config c m now c' m') (hs : Step config c' m' [] c'' m'') :
    Run config c m now c'' m'' := by
  simpa only [List.append_nil] using h.step hs

theorem quiet (h : Run config c m now c' m') (hq : m'.Quiet c'.registers.Plain m'') :
    Run config c m now c' m'' := h.andThen (.quiet hq)

theorem log (h : Run config c m now c' m') (level : LogLevel) (text : String) :
    Run config c m now c' (m'.log level text) := h.quiet ((Machine.Quiet.refl m').log level text)

end Run

/-! ### Operations -/

theorem run_program (config : Config) (c : Channel β) (m : Machine β) :
    Run config c m [] c (c.program m) :=
  Run.refl.quiet (quiet_program (.refl m))

theorem run_errorStatus (config : Config) (c : Channel β) (m : Machine β) :
    Run config c m [] c (c.errorStatus m).2 := Run.refl.quiet (quiet_errorStatus (.refl m))

theorem run_clearErrors (config : Config) (c : Channel β) (faults : FaultSet)
    (m : Machine β) : Run config c m [] c (c.clearErrors faults m) :=
  Run.refl.quiet (quiet_clearErrors (.refl m) faults)

theorem run_start (config : Config) (c : Channel β) (m : Machine β) :
    Run config c m [] (c.start m).2.1 (c.start m).2.2 := by
  unfold start
  split
  · exact .refl
  next hrings =>
    split
    · exact .refl
    next hrun =>
      have hrings : c.initialized = true := by simpa using hrings
      have hrun : c.running = false := by simpa using hrun
      exact (Run.refl.andThen (.start hrings hrun)).log _ _

theorem run_stop (config : Config) (c : Channel β) (m : Machine β) :
    Run config c m [] (c.stop m).2.1 (c.stop m).2.2 := by
  unfold stop
  split
  next hrun => exact (Run.refl.andThen (.stop hrun)).log _ _
  next => exact .refl

theorem running_stop (c : Channel β) (m : Machine β) : (c.stop m).2.1.running = false := by
  unfold stop
  split
  next => rfl
  next hrun => simpa using hrun

theorem start_eq_ok (hrings : c.initialized = true) (m : Machine β) : (c.start m).1 = .ok () := by
  unfold start
  rw [if_neg (by simp [hrings])]
  split <;> rfl

theorem running_start (hrings : c.initialized = true) (m : Machine β) :
    (c.start m).2.1.running = true := by
  unfold start
  rw [if_neg (by simp [hrings])]
  split
  next hrun => exact hrun
  next => rfl

theorem of_enqueue_ok {direction : Direction} {buffer : β} {length : Nat}
    (h : c.enqueue direction buffer length m = (.ok (), c', m')) :
    ∃ addr n, (c.ring direction).refusal? length = none ∧
      m.mapBuffer c.id direction (c.ring direction).head buffer length = (some addr, n) ∧
      c' = c.setRing direction ((c.ring direction).post buffer addr length) ∧
      m' = c.registers.ringDoorbell direction
        ((c.ring direction).next (c.ring direction).head) n := by
  unfold enqueue at h
  split at h
  · simp at h
  dsimp only at h
  split at h
  · simp at h
  next hroom =>
    split at h
    · simp at h
    next addr n hmap =>
      obtain ⟨-, h⟩ := Prod.mk.inj h
      obtain ⟨rfl, rfl⟩ := Prod.mk.inj h
      exact ⟨addr, n, hroom, hmap, rfl, rfl⟩

/-- A posted buffer is accepted, and the doorbell rings after it. -/
theorem run_enqueue_ok {direction : Direction} {buffer : β} {length : Nat}
    (h : c.enqueue direction buffer length m = (.ok (), c', m')) :
    Run config c m [.accepted direction buffer] c' m' := by
  obtain ⟨addr, n, hroom, hmap, rfl, rfl⟩ := of_enqueue_ok h
  have hbell := quiet_ringDoorbell (c := c.setRing direction
    ((c.ring direction).post buffer addr length)) (.refl n) direction
    ((c.ring direction).post buffer addr length).head
  rw [registers_setRing] at hbell
  exact (Run.single (.post hroom hmap)).quiet (by rw [registers_setRing]; exact hbell)

/-- A refused buffer is not accepted. -/
theorem run_enqueue_error {direction : Direction} {buffer : β} {length : Nat} {r : Rejection β}
    (h : c.enqueue direction buffer length m = (.error r, c', m')) :
    Run config c m [] c' m' ∧ c' = c ∧ r.buffer = buffer := by
  unfold enqueue at h
  split at h
  · obtain ⟨hr, h⟩ := Prod.mk.inj h
    obtain ⟨rfl, rfl⟩ := Prod.mk.inj h
    obtain rfl := Except.error.inj hr
    exact ⟨.refl, rfl, rfl⟩
  dsimp only at h
  split at h
  · obtain ⟨hr, h⟩ := Prod.mk.inj h
    obtain ⟨rfl, rfl⟩ := Prod.mk.inj h
    obtain rfl := Except.error.inj hr
    exact ⟨.refl, rfl, rfl⟩
  · split at h
    next hmap =>
      obtain ⟨hr, h⟩ := Prod.mk.inj h
      obtain ⟨rfl, rfl⟩ := Prod.mk.inj h
      obtain rfl := Except.error.inj hr
      exact ⟨Run.refl.quiet ((Machine.Quiet.refl m).mapBuffer_none hmap), rfl, rfl⟩
    next => simp at h

theorem run_reclaim_some {direction : Direction} {t : Completion β}
    (h : c.reclaim direction m = (some t, c', m')) :
    Run config c m [.delivered direction t.buffer] c' m' := by
  unfold reclaim at h
  split at h
  · simp at h
  next u r hr =>
    obtain ⟨ht, h⟩ := Prod.mk.inj h
    obtain ⟨rfl, rfl⟩ := Prod.mk.inj h
    obtain rfl := Option.some.inj ht
    exact .single (.take hr)

theorem run_reclaim_none {direction : Direction}
    (h : c.reclaim direction m = (none, c', m')) : Run config c m [] c' m' := by
  unfold reclaim at h
  split at h
  next r hr =>
    obtain ⟨-, h⟩ := Prod.mk.inj h
    obtain ⟨rfl, rfl⟩ := Prod.mk.inj h
    exact .single (.look hr)
  next => simp at h

/-- What a renewal of the rings with some result discards: everything in flight, if the action is
one that renews them for the faults, and nothing if new rings could not be made. -/
def renewalDiscards (action : RecoveryAction) (faults : FaultSet) (result : Except Error Unit) :
    List Discard :=
  match result with
  | .ok () => if action.renewsRings faults then [.recovery action faults] else []
  | .error _ => []

/-- Renewing the rings of a halted channel discards transfers, if it does, and leaves the channel
halted. -/
theorem run_renewRings {result : Except Error Unit} (action : RecoveryAction)
    (faults : FaultSet) (hrun : c.running = false)
    (h : c.renewRings action faults config m = (result, c', m')) :
    Run config c m ((renewalDiscards action faults result).map .discarded) c' m' ∧
      c'.running = false := by
  have hreset : Run config c m [.discarded (.recovery action faults)] (c.resetRings m).2.1
      ((c.resetRings m).2.1.program (c.resetRings m).2.2) :=
    (Run.single (.reset _ hrun)).trans (run_program config _ _)
  cases action with
  | none =>
    obtain ⟨hresult, h⟩ := Prod.mk.inj h
    obtain ⟨rfl, rfl⟩ := Prod.mk.inj h
    rw [← hresult]
    exact ⟨.refl, hrun⟩
  | restart =>
    obtain ⟨hresult, h⟩ := Prod.mk.inj h
    obtain ⟨rfl, rfl⟩ := Prod.mk.inj h
    rw [← hresult]
    exact ⟨.refl, hrun⟩
  | reinit =>
    obtain ⟨hresult, h⟩ := Prod.mk.inj h
    obtain ⟨rfl, rfl⟩ := Prod.mk.inj h
    rw [← hresult]
    exact ⟨hreset, hrun⟩
  | reset =>
    simp only [renewRings] at h
    split at h
    next hmeets =>
      obtain ⟨hresult, h⟩ := Prod.mk.inj h
      obtain ⟨rfl, rfl⟩ := Prod.mk.inj h
      rw [← hresult, renewalDiscards, RecoveryAction.renewsRings, if_pos hmeets]
      exact ⟨hreset, hrun⟩
    next hkeeps =>
      obtain ⟨hresult, h⟩ := Prod.mk.inj h
      obtain ⟨rfl, rfl⟩ := Prod.mk.inj h
      rw [← hresult, renewalDiscards, RecoveryAction.renewsRings, if_neg hkeeps]
      exact ⟨run_program config _ _, hrun⟩
  | reload =>
    simp only [renewRings] at h
    split at h
    next e d n hd =>
      obtain ⟨hresult, h⟩ := Prod.mk.inj h
      obtain ⟨rfl, rfl⟩ := Prod.mk.inj h
      rw [← hresult]
      have hq : m.Quiet c.registers.Plain (buildRings c.id config m).2 :=
        quiet_buildRings config (.refl m) c.id
      unfold reloadRings at hd
      split at hd
      next hb =>
        obtain ⟨-, hd⟩ := Prod.mk.inj hd
        obtain ⟨rfl, rfl⟩ := Prod.mk.inj hd
        rw [hb] at hq
        exact ⟨Run.refl.quiet hq, hrun⟩
      next => simp at hd
    next k d n hd =>
      obtain ⟨hresult, h⟩ := Prod.mk.inj h
      obtain ⟨rfl, rfl⟩ := Prod.mk.inj h
      rw [← hresult]
      have hreload := Run.single (.reload (.recovery .reload faults) hrun hd)
      refine ⟨hreload.trans (run_program config _ _), ?_⟩
      obtain ⟨tx, rx, _, _, rfl, _⟩ := of_reloadRings_ok hd
      exact hrun

/-- A recovery attempt comes to the rings of a halted channel. -/
theorem run_readied (c : Channel β) (action : RecoveryAction) (faults : FaultSet)
    (config : Config) (m : Machine β) :
    Run config c m [] (c.readied action faults config m).1 (c.readied action faults config m).2 ∧
      (c.readied action faults config m).1.running = false := by
  unfold readied
  generalize hlog : m.log .debug _ = m₀
  have h₀ : Run config c m [] c m₀ := by
    rw [← hlog]
    exact Run.refl.log _ _
  have h₁ : Run config c m [] (c.stop m₀).2.1 (c.stop m₀).2.2 := h₀.trans (run_stop config c m₀)
  refine ⟨?_, running_stop c m₀⟩
  dsimp only
  split
  · exact (h₁.andThen (.pulse _)).trans (run_clearErrors config _ .all _)
  · exact h₁.trans (run_clearErrors config _ .all _)

/-- What a recovery attempt discards. -/
def recoveryDiscards (c : Channel β) (action : RecoveryAction) (faults : FaultSet)
    (config : Config) (m : Machine β) : List Discard :=
  let (c, m) := c.readied action faults config m
  renewalDiscards action faults (c.renewRings action faults config m).1

/-- Whatever comes of a recovery attempt, it discards what the renewal of its rings does. -/
theorem run_recover {result : Except Error Bool} {action : RecoveryAction} {faults : FaultSet}
    (h : c.recover action faults config m = (result, c', m')) :
    Run config c m ((c.recoveryDiscards action faults config m).map .discarded) c' m' := by
  unfold recover at h
  split at h
  next hnone =>
    obtain ⟨-, h⟩ := Prod.mk.inj h
    obtain ⟨rfl, rfl⟩ := Prod.mk.inj h
    rw [hnone]
    exact .refl
  dsimp only at h
  obtain ⟨hready, hhalted⟩ := c.run_readied action faults config m
  unfold recoveryDiscards
  dsimp only
  generalize c.readied action faults config m = readied at *
  obtain ⟨c₁, m₁⟩ := readied
  dsimp only at *
  split at h
  next hrenew =>
    obtain ⟨-, h⟩ := Prod.mk.inj h
    obtain ⟨rfl, rfl⟩ := Prod.mk.inj h
    rw [hrenew]
    exact hready.trans (run_renewRings action faults hhalted hrenew).1
  next c₂ m₂ hrenew =>
    rw [hrenew]
    have hrun := (hready.trans (run_renewRings action faults hhalted hrenew).1).trans
      (run_start config c₂ m₂)
    rw [List.nil_append, List.append_nil] at hrun
    split at h
    next hstart =>
      obtain ⟨-, h⟩ := Prod.mk.inj h
      obtain ⟨rfl, rfl⟩ := Prod.mk.inj h
      rwa [hstart] at hrun
    next hstart =>
      obtain ⟨-, h⟩ := Prod.mk.inj h
      obtain ⟨rfl, rfl⟩ := Prod.mk.inj h
      rw [hstart] at hrun
      have hlook := hrun.trans (run_errorStatus config _ _)
      rwa [List.append_nil] at hlook

end Channel

end PacketDma
