import PacketDma.Proofs.RingShape

/-!
# What channels are made of

A ring takes a piece of storage and a descriptor array, and a row of channels takes two rings for
each channel and a piece of storage for itself. Whether it can be made depends on nothing but the
sizes of its rings and on what the world grants. What is made is the same each time, but for where
the device finds it.

## Implementation notes

`Provided` says of a result that it is one, and that the world grants some more afterwards. With the
rest in the statement, one such equivalence for each step composes with the next one.
-/

namespace PacketDma

variable {α β : Type}

namespace FaultPlan

/-- The next `n` calls succeed. -/
def Spares (p : FaultPlan) (n : Nat) : Prop := ∀ k < n, p.fails (p.call + k) = false

instance (p : FaultPlan) (n : Nat) : Decidable (p.Spares n) :=
  inferInstanceAs (Decidable (∀ k < n, p.fails (p.call + k) = false))

theorem spares_succ {p : FaultPlan} {n : Nat} :
    p.Spares (n + 1) ↔ p.failsNow = false ∧ p.step.Spares n := by
  constructor
  · intro h
    refine ⟨h 0 (by omega), fun k hk => ?_⟩
    rw [step, Nat.add_assoc, Nat.add_comm 1 k]
    exact h (k + 1) (by omega)
  · rintro ⟨hnow, hlater⟩ k hk
    cases k with
    | zero => exact hnow
    | succ k =>
      have hnext := hlater k (by omega)
      rwa [step, Nat.add_assoc, Nat.add_comm 1 k] at hnext

end FaultPlan

/-- The world grants the next pieces of storage and maps the next descriptor arrays. -/
structure Mapper.Serves (m : Mapper β) (pieces arrays : Nat) : Prop where
  storage : m.storagePlan.Spares pieces
  mappings : m.arrayPlan.Spares arrays

/-- Something was made, and the world grants more. -/
structure Provided (result : Except Error α × Machine β) (pieces arrays : Nat) : Prop where
  made : ∃ a, result.1 = .ok a
  serves : result.2.mapper.Serves pieces arrays

theorem not_provided_error {x : Error} {m : Machine β} {pieces arrays : Nat} :
    ¬ Provided ((.error x, m) : Except Error α × Machine β) pieces arrays := by
  rintro ⟨⟨a, ha⟩, -⟩
  cases ha

theorem provided_ok {a : α} {m : Machine β} {pieces arrays : Nat} :
    Provided ((.ok a, m) : Except Error α × Machine β) pieces arrays ↔
      m.mapper.Serves pieces arrays :=
  ⟨fun h => h.serves, fun h => ⟨⟨a, rfl⟩, h⟩⟩

variable {pieces arrays : Nat}

/-- What can be made at all takes one piece of storage. -/
theorem provided_reserve {made : Except Error α} {m : Machine β} :
    Provided (m.reserve made) pieces arrays ↔
      (∃ a, made = .ok a) ∧ m.mapper.Serves (pieces + 1) arrays := by
  cases made with
  | error x => simp [Machine.reserve, not_provided_error]
  | ok a =>
    cases hnow : m.mapper.storagePlan.failsNow with
    | true =>
      simp only [Machine.reserve, Mapper.reserve, hnow, Bool.not_true, Bool.false_eq_true, if_false,
        not_provided_error, false_iff, not_and]
      intro _ hserves
      cases hnow.symm.trans (FaultPlan.spares_succ.mp hserves.storage).1
    | false =>
      simp only [Machine.reserve, Mapper.reserve, hnow, Bool.not_false, if_true, provided_ok]
      constructor
      · exact fun h => ⟨⟨a, rfl⟩, FaultPlan.spares_succ.mpr ⟨hnow, h.storage⟩, h.mappings⟩
      · exact fun h => ⟨(FaultPlan.spares_succ.mp h.2.storage).2, h.2.mappings⟩

/-- What is made from something that was made takes what both take. -/
theorem provided_bind {γ : Type} {x : Except Error α × Machine β}
    {y : Except Error γ × Machine β} {needs : Prop} {later more : Nat}
    (herror : ∀ e m, x = (.error e, m) → ∃ n, y = (.error e, n))
    (hok : ∀ a m, x = (.ok a, m) →
      (Provided y pieces arrays ↔ needs ∧ m.mapper.Serves later more)) :
    Provided y pieces arrays ↔ needs ∧ Provided x later more := by
  obtain ⟨e | a, m⟩ := x
  · obtain ⟨n, rfl⟩ := herror e m rfl
    exact iff_of_false not_provided_error fun h => not_provided_error h.2
  · rw [hok a m rfl, provided_ok]

/-- What is made with nothing else takes no more than that. -/
theorem provided_map {γ : Type} {x : Except Error α × Machine β}
    {y : Except Error γ × Machine β} {later more : Nat}
    (herror : ∀ e m, x = (.error e, m) → ∃ n, y = (.error e, n))
    (hok : ∀ a m, x = (.ok a, m) → (Provided y pieces arrays ↔ m.mapper.Serves later more)) :
    Provided y pieces arrays ↔ Provided x later more := by
  rw [← true_and (Provided x later more)]
  refine provided_bind herror fun a m h => ?_
  rw [true_and]
  exact hok a m h

/-! ### Rings -/

/-- Rings of a size can be made if there is storage for them. -/
structure Config.Fits (config : Config) (size : Nat) : Prop where
  valid : config.ringSizeValid size = true
  holds : Storage.holds size Descriptor.bytes = true

theorem Ring.create?_ok_iff {config : Config} {size : Nat} :
    (∃ r : Ring β,
        create? config.capabilities.layout size config.capabilities.maxRingSize = .ok r) ↔
      config.Fits size := by
  unfold create?
  constructor
  · rintro ⟨r, hr⟩
    split at hr
    · cases hr
    next hsize =>
      split at hr
      next hholds =>
        refine ⟨?_, hholds⟩
        simp only [Config.ringSizeValid, Bool.and_eq_true, decide_eq_true_eq]
        omega
      · cases hr
  · rintro ⟨hsize, hholds⟩
    simp only [Config.ringSizeValid, Bool.and_eq_true, decide_eq_true_eq] at hsize
    rw [if_neg (by omega), if_pos hholds]
    exact ⟨_, rfl⟩

namespace Channel

variable {config : Config} {m m' : Machine β}

theorem provided_buildRing {size : Nat} :
    Provided (buildRing config size m) pieces arrays ↔
      config.Fits size ∧ m.mapper.Serves (pieces + 1) (arrays + 1) := by
  rw [← Ring.create?_ok_iff (β := β), ← provided_reserve]
  refine provided_map ?_ ?_
  · intro e n he
    exact ⟨n, by simp only [buildRing, he]⟩
  · intro r n he
    simp only [buildRing, he]
    cases hnow : n.mapper.arrayPlan.failsNow with
    | true =>
      simp only [Machine.mapArray, Mapper.mapArray, hnow, if_true, not_provided_error, false_iff]
      intro hserves
      cases hnow.symm.trans (FaultPlan.spares_succ.mp hserves.mappings).1
    | false =>
      simp only [Machine.mapArray, Mapper.mapArray, hnow, Bool.false_eq_true, if_false,
        provided_ok]
      constructor
      · exact fun h => ⟨h.storage, FaultPlan.spares_succ.mpr ⟨hnow, h.mappings⟩⟩
      · exact fun h => ⟨h.storage, (FaultPlan.spares_succ.mp h.mappings).2⟩

end Channel

/-- Both rings of a channel can be made if there is storage for them. -/
def Config.RingsFit (config : Config) : Prop := ∀ d, config.Fits (config.ringSize d)

theorem Config.ringsFit_iff {config : Config} :
    config.RingsFit ↔ config.Fits config.txRingSize ∧ config.Fits config.rxRingSize := by
  constructor
  · exact fun h => ⟨h .toDevice, h .fromDevice⟩
  · rintro ⟨htx, hrx⟩ d
    cases d with
    | toDevice => exact htx
    | fromDevice => exact hrx

namespace Channel

variable {config : Config} {m m' : Machine β}

theorem provided_buildRings (id : Nat) :
    Provided (buildRings id config m) pieces arrays ↔
      config.RingsFit ∧ m.mapper.Serves (pieces + 2) (arrays + 2) := by
  have hrings : Provided (buildRings id config m) pieces arrays ↔
      config.Fits config.rxRingSize ∧
        Provided (buildRing config config.txRingSize m) (pieces + 1) (arrays + 1) := by
    refine provided_bind ?_ ?_
    · intro e n he
      exact ⟨n, by simp only [buildRings, he]⟩
    · intro tx n he
      rw [← provided_buildRing]
      refine provided_map ?_ ?_
      · intro e n' he'
        exact ⟨(releaseRing id .toDevice tx n').2.2, by simp only [buildRings, he, he']⟩
      · intro rx n' he'
        simp only [buildRings, he, he', provided_ok]
  rw [hrings, provided_buildRing, config.ringsFit_iff, ← and_assoc,
    and_comm (a := config.Fits config.rxRingSize)]

theorem provided_build {id window : Nat} :
    Provided (build id window config m) pieces arrays ↔
      config.RingsFit ∧ m.mapper.Serves (pieces + 2) (arrays + 2) := by
  rw [← provided_buildRings id]
  refine provided_map ?_ ?_
  · intro e n he
    exact ⟨n, by simp only [build, he]⟩
  · rintro ⟨tx, rx⟩ n he
    simp only [build, he, provided_ok]
    rfl

end Channel

/-! ### Rows of channels -/

namespace Engine

variable {config : Config} {base : Nat} {m m' : Machine β}

/-- Each channel takes the storage and the mappings of two rings. -/
theorem provided_buildChannels {made : List (Channel β)} {ids : List Nat} :
    Provided (buildChannels config base made ids m) pieces arrays ↔
      (ids ≠ [] → config.RingsFit) ∧
        m.mapper.Serves (pieces + 2 * ids.length) (arrays + 2 * ids.length) := by
  induction ids generalizing made m with
  | nil => simp [buildChannels, provided_ok]
  | cons id rest ih =>
    have hrest : Provided (buildChannels config base made (id :: rest) m) pieces arrays ↔
        (rest ≠ [] → config.RingsFit) ∧
          Provided (Channel.build id (base + config.capabilities.registers.channelOffset id)
            config m) (pieces + 2 * rest.length) (arrays + 2 * rest.length) := by
      refine provided_bind ?_ ?_
      · intro e n he
        exact ⟨_, by simp only [buildChannels, he]; rfl⟩
      · intro c n he
        simp only [buildChannels, he]
        exact ih
    rw [hrest, Channel.provided_build, List.length_cons, Nat.mul_succ, ← Nat.add_assoc,
      ← Nat.add_assoc]
    constructor
    · exact fun h => ⟨fun _ => h.2.1, h.2.2⟩
    · exact fun h => ⟨fun _ => h.1 (by simp), h.1 (by simp), h.2⟩

theorem provided_buildRow {count : Nat} :
    Provided (buildRow config base count m) pieces arrays ↔
      (0 < count → config.RingsFit) ∧
        m.mapper.Serves (pieces + 2 * count + 1) (arrays + 2 * count) := by
  have hrow : Provided (buildRow config base count m) pieces arrays ↔
      (0 < count → config.RingsFit) ∧
        Provided (m.reserve (.ok ())) (pieces + 2 * count) (arrays + 2 * count) := by
    refine provided_bind ?_ ?_
    · intro e n he
      exact ⟨n, by simp only [buildRow, he]⟩
    · intro _ n he
      simp only [buildRow, he, provided_buildChannels, List.length_range, ne_eq,
        List.range_eq_nil, Nat.pos_iff_ne_zero]
  have hmade : ∃ a, (Except.ok () : Except Error Unit) = .ok a := ⟨(), rfl⟩
  rw [hrow, provided_reserve, and_iff_right hmade]

end Engine

/-! ### What is made -/

/-- A ring without the address at which the device finds it. -/
def Ring.unplaced (r : Ring β) : Ring β := { r with base := .null }

/-- A channel without the addresses at which the device finds its rings. -/
def Channel.unplaced (c : Channel β) : Channel β :=
  { c with tx := c.tx.unplaced, rx := c.rx.unplaced }

/-- A new ring of a direction. -/
def Ring.blank (config : Config) (direction : Direction) : Ring β :=
  ⟨config.capabilities.layout, .replicate (config.ringSize direction) .empty, 0, 0, false, .null⟩

/-- A new channel of a device at a register base. -/
def Channel.blank (config : Config) (base id : Nat) : Channel β where
  id := id
  window := base + config.capabilities.registers.channelOffset id
  map := config.capabilities.registers
  features := config.capabilities.features
  tx := .blank config .toDevice
  rx := .blank config .fromDevice
  initialized := true
  running := false

namespace Channel

variable {config : Config} {m m' : Machine β}

theorem unplaced_of_buildRing {direction : Direction} {r : Ring β}
    (h : buildRing config (config.ringSize direction) m = (.ok r, m')) :
    r.unplaced = .blank config direction := by
  unfold buildRing at h
  dsimp only at h
  split at h
  · cases h
  next new n hnew =>
    obtain ⟨rfl, _⟩ := Ring.eq_of_create?_ok (Machine.eq_of_reserve_ok hnew).1
    split at h
    · cases h
    · obtain rfl := Except.ok.inj (Prod.mk.inj h).1
      rfl

theorem unplaced_of_build {base id : Nat} {c : Channel β}
    (h : build id (base + config.capabilities.registers.channelOffset id) config m = (.ok c, m')) :
    c.unplaced = .blank config base id := by
  unfold build buildRings at h
  split at h
  · cases h
  next tx rx n hrings =>
    obtain rfl := Except.ok.inj (Prod.mk.inj h).1
    split at hrings
    · cases hrings
    next htx =>
      split at hrings
      · cases hrings
      next hrx =>
        obtain ⟨rfl, rfl⟩ := Prod.mk.inj (Except.ok.inj (Prod.mk.inj hrings).1)
        have htx : Ring.unplaced _ = .blank config .toDevice := unplaced_of_buildRing htx
        have hrx : Ring.unplaced _ = .blank config .fromDevice := unplaced_of_buildRing hrx
        rw [unplaced, blank, htx, hrx]

end Channel

namespace Engine

variable {config : Config} {base : Nat} {m m' : Machine β}

theorem unplaced_of_buildChannels {made channels : List (Channel β)} {ids : List Nat}
    (h : buildChannels config base made ids m = (.ok channels, m')) :
    channels.map Channel.unplaced =
      made.map Channel.unplaced ++ ids.map (Channel.blank config base) := by
  induction ids generalizing made m with
  | nil =>
    obtain rfl := Except.ok.inj (Prod.mk.inj h).1
    simp
  | cons id rest ih =>
    simp only [buildChannels] at h
    split at h
    · cases h
    next c n hc =>
      rw [ih h, List.map_append, List.append_assoc, List.map_cons]
      simp [Channel.unplaced_of_build hc]

/-- The channels of a row are the same whenever they are made, but for their addresses. -/
theorem unplaced_of_buildRow {count : Nat} {channels : List (Channel β)}
    (h : buildRow config base count m = (.ok channels, m')) :
    channels.map Channel.unplaced = (List.range count).map (Channel.blank config base) := by
  obtain ⟨n, -, ⟨hfailed, -⟩ | hbuild⟩ := buildRow_cases h
  · cases hfailed
  · rw [List.range_eq_range']
    exact unplaced_of_buildChannels hbuild

end Engine

end PacketDma
