import PacketDma.Proofs.Flow
import PacketDma.Proofs.History

/-!
# The shape of rings

A ring has a layout and a number of places. Both are configured, and whatever happens to a ring,
to the buffers on it or to its descriptors leaves them as they are. New rings that take the place of
old ones are made in the same shape.
-/

namespace PacketDma

variable {σ β : Type}

/-- The configured number of places of the ring of a direction. -/
def Config.ringSize (config : Config) : Direction → Nat
  | .toDevice => config.txRingSize
  | .fromDevice => config.rxRingSize

namespace Ring

/-- A ring of a direction is laid out and sized as configured. -/
structure Shaped (config : Config) (direction : Direction) (r : Ring β) : Prop where
  layout_eq : r.layout = config.capabilities.layout
  capacity_eq : r.capacity = config.ringSize direction

theorem capacity_rewind (r : Ring β) : r.rewind.capacity = r.capacity := Array.size_replicate

end Ring

namespace Channel

variable {config : Config} {c c' : Channel β} {m m' : Machine β}

/-- Both rings of a channel are laid out and sized as configured. -/
def Shaped (config : Config) (c : Channel β) : Prop := ∀ d, (c.ring d).Shaped config d

theorem shaped_of_buildRing {direction : Direction} {r : Ring β}
    (h : (buildRing config (config.ringSize direction) m).1 = .ok r) :
    r.Shaped config direction := by
  refine ⟨(isNewRing_of_buildRing h).layout_eq, ?_⟩
  unfold buildRing at h
  dsimp only at h
  split at h
  · simp at h
  next new n hnew =>
    obtain ⟨rfl, _⟩ := Ring.eq_of_create?_ok (Machine.eq_of_reserve_ok hnew).1
    split at h
    · simp at h
    · obtain rfl := Except.ok.inj h
      exact Array.size_replicate

theorem shaped_of_buildRings {channel : Nat} {tx rx : Ring β}
    (h : (buildRings channel config m).1 = .ok (tx, rx)) :
    tx.Shaped config .toDevice ∧ rx.Shaped config .fromDevice := by
  unfold buildRings at h
  split at h
  · simp at h
  next htx =>
    split at h
    · simp at h
    next hrx =>
      obtain ⟨rfl, rfl⟩ := Prod.mk.inj (Except.ok.inj h)
      constructor
      · exact shaped_of_buildRing (congrArg (·.1) htx)
      · exact shaped_of_buildRing (congrArg (·.1) hrx)

theorem shaped_of_build {id window : Nat} (h : build id window config m = (.ok c, m')) :
    c.Shaped config := by
  unfold build at h
  split at h
  · simp at h
  next tx rx _ hrings =>
    obtain ⟨htx, hrx⟩ := shaped_of_buildRings (by rw [hrings])
    obtain rfl := Except.ok.inj (Prod.mk.inj h).1
    intro d
    cases d with
    | toDevice => exact htx
    | fromDevice => exact hrx

theorem Shaped.setRing (h : c.Shaped config) {d : Direction} {r : Ring β}
    (hlayout : r.layout = (c.ring d).layout) (hcapacity : r.capacity = (c.ring d).capacity) :
    (c.setRing d r).Shaped config := by
  intro d'
  by_cases hd : d' = d
  · rw [hd, ring_setRing]
    exact ⟨hlayout.trans (h d).layout_eq, hcapacity.trans (h d).capacity_eq⟩
  · rw [ring_setRing_ne c hd]
    exact h d'

/-- No step of a channel changes the shape of its rings. -/
theorem Step.shaped {now : List (Passage β)} (hs : Step config c m now c' m')
    (h : c.Shaped config) : c'.Shaped config := by
  cases hs with
  | quiet | pulse => exact h
  | start | stop =>
    intro d
    rw [ring_setRunning]
    exact ⟨(h d).layout_eq, (h d).capacity_eq⟩
  | post => exact h.setRing rfl (Ring.capacity_setCell _ _ _)
  | @take _ d _ _ hr | @look _ d _ hr =>
    have hlayout := (c.ring d).layout_reclaim
    have hcapacity := (c.ring d).capacity_reclaim
    rw [hr] at hlayout hcapacity
    exact h.setRing hlayout hcapacity
  | overwrite f =>
    intro d
    rw [ring_overwrite]
    exact ⟨(h d).layout_eq, ((c.ring d).capacity_overwrite (f d)).trans (h d).capacity_eq⟩
  | reset =>
    intro d
    cases d with
    | toDevice =>
      exact ⟨(h .toDevice).layout_eq, c.tx.capacity_rewind.trans (h .toDevice).capacity_eq⟩
    | fromDevice =>
      exact ⟨(h .fromDevice).layout_eq, c.rx.capacity_rewind.trans (h .fromDevice).capacity_eq⟩
  | reload _ _ hreload =>
    obtain ⟨tx, rx, _, hb, rfl, _⟩ := of_reloadRings_ok hreload
    obtain ⟨htx, hrx⟩ := shaped_of_buildRings (by rw [hb])
    intro d
    cases d with
    | toDevice => exact ⟨htx.layout_eq, htx.capacity_eq⟩
    | fromDevice => exact ⟨hrx.layout_eq, hrx.capacity_eq⟩

end Channel

namespace Plant

variable {config : Config} {uses : Nat → Prop} {p p' : Plant β} {story : Story β}

/-- Channels that carry their queues have rings laid out and sized as configured. -/
structure Shaped (config : Config) (p : Plant β) : Prop where
  sound : p.Sound
  rings : ∀ c ∈ p.channels, c.Shaped config

theorem Step.shaped (hs : Step config uses p story p') (h : p.Shaped config) :
    p'.Shaped config := by
  refine ⟨hs.sound h.sound, ?_⟩
  cases hs with
  | @channel _ c c' _ _ hc hstep =>
    intro d hd
    rcases List.mem_or_eq_of_mem_set hd with hd | rfl
    · exact h.rings d hd
    · exact hstep.shaped (h.rings c (List.mem_of_getElem? hc))
  | quiet => exact h.rings
  | build _ _ hbuild =>
    intro d hd
    rcases List.mem_append.mp hd with hd | hd
    · exact h.rings d hd
    · obtain rfl := List.mem_singleton.mp hd
      exact Channel.shaped_of_build hbuild
  | release =>
    intro d hd
    cases hd

theorem Run.shaped (hr : Run config uses p story p') (h : p.Shaped config) :
    p'.Shaped config :=
  hr.keeps (fun _ _ _ hs h => hs.shaped h) h

end Plant

namespace Engine

variable {e e' : Engine β} {moments : List (Moment σ β)} {seen : Story β}

/-- Whatever happens, rings carry their queues in the configured shape. -/
theorem shaped_of_moments (hidle : e.IdleEmpty) (h : live moments e = some (seen, e'))
    (he : e.plant.Shaped e.config) : e'.config = e.config ∧ e'.plant.Shaped e.config := by
  have hrun (uses : Nat → Prop) (p : Plant β) (story : Story β) (p' : Plant β)
      (hrun : Plant.Run e.config uses p story p') : p.Shaped e.config → p'.Shaped e.config :=
    hrun.shaped
  exact (live_keeps_configured hrun (fun _ _ _ h => ⟨h.sound.machine _, h.rings⟩) hidle rfl h he).2

/-- In every history of a new engine, rings carry their queues in the configured shape. -/
theorem shaped_of_live {config : Config} {m : Machine β}
    (h : live moments (new config m) = some (seen, e)) : e.plant.Shaped config :=
  (shaped_of_moments (idleEmpty_new config m) h ⟨.empty m, by simp [plant, new]⟩).2

end Engine

end PacketDma
