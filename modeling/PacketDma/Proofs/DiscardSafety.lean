import PacketDma.Proofs.History
import PacketDma.Proofs.Placement
import PacketDma.Proofs.RingControl

/-!
# Safety of discards

A buffer is unmapped only when its descriptor came back, or while the rings of its channel are
halted in hardware. A channel that is marked as halted is not halted again before its transfers are
discarded, so the mark has to agree with the ring control at all times.

## Implementation notes

Channels that were not made yet are halted as well. This is what makes a new channel, which is
marked as halted without a write, agree with its ring control after the engine went down and up.
-/

namespace PacketDma

variable {σ β : Type}

/-- Bits that were cleared are not set. -/
theorem and_not_and_self (w b : UInt32) : w &&& ~~~b &&& b = 0 := by
  rw [UInt32.and_assoc, UInt32.and_comm (~~~b), UInt32.and_not_self, UInt32.and_zero]

/-- Setting and clearing some bits sets no others. -/
theorem or_and_not_and {w b : UInt32} (h : w &&& b = 0) (r : UInt32) :
    (w ||| r) &&& ~~~r &&& b = 0 := by
  have hcleared : (w ||| r) &&& ~~~r = w &&& ~~~r :=
    UInt32.toBitVec_inj.mp (by simp [BitVec.and_or_distrib_right])
  rw [hcleared, UInt32.and_assoc, UInt32.and_comm (~~~r), ← UInt32.and_assoc, h, UInt32.zero_and]

namespace Channel

open Machine

/-- A channel stands in its window, its rings are laid out as configured, and it is halted in
hardware if it is marked as halted. -/
structure Secured (config : Config) (d : Device) (m : Machine β) (c : Channel β) :
    Prop where
  id_lt : c.id < d.windows
  registers_eq : c.registers = d.channel c.id
  layout_eq : ∀ direction, (c.ring direction).layout = config.capabilities.layout
  halted : c.running = false → m.Halted d c.id

namespace Secured

variable {config : Config} {d : Device} {m n : Machine β} {c c' : Channel β}

theorem of_same (h : c.Secured config d m) {other : Nat → Prop} (hsame : SameWords d other m n)
    (hother : ¬ other c.id) : c.Secured config d n :=
  ⟨h.id_lt, h.registers_eq, h.layout_eq, fun hrun =>
    (h.halted hrun).of_same hsame h.id_lt hother⟩

theorem offset_eq (h : c.Secured config d m) :
    c.registers.offset .ringControl = d.ringControl c.id := by
  rw [h.registers_eq]
  rfl

/-- A ring is replaced by one of the same layout. -/
theorem setRing (h : c.Secured config d m) {direction : Direction} {r : Ring β}
    (hr : r.layout = (c.ring direction).layout) : (c.setRing direction r).Secured config d m := by
  have hplace := SamePlace.setRing c direction r
  constructor
  · exact hplace.id_eq ▸ h.id_lt
  · rw [hplace.registers_eq, hplace.id_eq]
    exact h.registers_eq
  · intro d'
    by_cases hd : d' = direction
    · subst hd
      rw [ring_setRing, hr]
      exact h.layout_eq d'
    · rw [ring_setRing_ne c hd]
      exact h.layout_eq d'
  · intro hrun
    rw [hplace.id_eq]
    apply h.halted
    cases direction <;> exact hrun

/-- No register of a channel but its ring control lies on a ring control. -/
theorem plain_ne (h : c.Secured config d m) (hd : d.map.Apart d.windows) {o : Nat}
    (ho : c.registers.Plain o) {id : Nat} (hid : id < d.windows) : o ≠ d.ringControl id := by
  obtain ⟨r, hr, rfl⟩ := ho
  rw [h.registers_eq]
  exact fun heq => hr (hd.eq_of_offset hid h.id_lt heq.symm).2

end Secured

variable {config : Config} {d : Device} {m m' : Machine β} {c c' : Channel β}

/-- What a step of a channel leaves to be relied on: effects were safe, the ring controls of other
channels are as they were, and the channel still agrees with its own. -/
structure Secures (config : Config) (d : Device) (m : Machine β) (c : Channel β)
    (m' : Machine β) (c' : Channel β) : Prop where
  guarded : m'.Guarded d config.capabilities.layout.own
  others : SameWords d (· = c.id) m m'
  secured : c'.Secured config d m'

theorem Secures.of_same (h : c'.Secured config d m)
    (hm : m'.Guarded d config.capabilities.layout.own ∧ SameWords d (fun _ => False) m m') :
    Secures config d m c m' c' :=
  ⟨hm.1, hm.2.mono fun _ => False.elim, h.of_same hm.2 not_false⟩

/-- A ring control of the channel itself is written, and the channel agrees with the new word. -/
theorem Secures.modify (h : c.Secured config d m) (hd : d.map.Apart d.windows)
    (hm : m.Guarded d config.capabilities.layout.own) (f : UInt32 → UInt32) (running : Bool)
    (hhalt : running = false → f (m.ringWord d c.id) &&& RingControl.enableBoth = 0) :
    Secures config d m c (m.modify (c.registers.offset .ringControl) f)
      (c.setRunning running) := by
  rw [h.offset_eq]
  obtain ⟨hguarded, hothers, hword⟩ := hm.modify hd h.id_lt f
  refine ⟨hguarded, hothers, h.id_lt, h.registers_eq, ?_, ?_⟩
  · intro direction
    rw [ring_setRunning]
    exact h.layout_eq direction
  · intro hrun
    show (m.modify (d.ringControl c.id) f).ringWord d c.id &&& RingControl.enableBoth = 0
    rw [hword]
    exact hhalt hrun

/-- A pulse of the local reset neither runs nor halts rings. -/
theorem Secures.pulse (h : c.Secured config d m) (hd : d.map.Apart d.windows)
    (hm : m.Guarded d config.capabilities.layout.own) (us : Nat) :
    Secures config d m c (c.pulseReset us m) c := by
  have hassert := hm.modify hd h.id_lt (· ||| RingControl.reset)
  rw [← h.offset_eq] at hassert
  change (c.registers.assertReset m).Guarded d _ ∧ SameWords d _ m (c.registers.assertReset m) ∧
    (c.registers.assertReset m).ringWord d c.id = _ at hassert
  generalize hn : c.registers.assertReset m = n at hassert
  obtain ⟨hguarded, hothers, hword⟩ := hassert
  obtain ⟨hdelayed, hsame⟩ := (hguarded.aside (n.clock.advance us) n.mapper n.retired).emit
    (e := .delay us) rfl
  change (n.delay us).Guarded d _ at hdelayed
  change SameWords d _ n (n.delay us) at hsame
  obtain ⟨hreleased, hothers', hword'⟩ := hdelayed.modify hd h.id_lt (· &&& ~~~RingControl.reset)
  have hpulse : c.pulseReset us m =
      (n.delay us).modify (d.ringControl c.id) (· &&& ~~~RingControl.reset) := by
    rw [← hn, ← h.offset_eq]
    rfl
  rw [hpulse]
  refine ⟨hreleased, (hothers.trans (hsame.mono fun _ => False.elim)).trans hothers',
    h.id_lt, h.registers_eq, h.layout_eq, ?_⟩
  intro hrun
  rw [Halted, hword', hsame c.id h.id_lt not_false, hword]
  exact or_and_not_and (h.halted hrun) RingControl.reset

/-- Every step of a channel that agrees with its ring control is safe, and it still agrees. -/
theorem Step.secures {now : List (Passage β)} (hs : Step config c m now c' m')
    (hd : d.map.Apart d.windows) (hm : m.Guarded d config.capabilities.layout.own)
    (h : c.Secured config d m) : Secures config d m c m' c' := by
  cases hs with
  | quiet hq => exact .of_same h (hm.quiet hd hq fun o ho id hid => h.plain_ne hd ho hid)
  | start => exact .modify h hd hm (· ||| RingControl.enableBoth) true (by simp)
  | stop =>
    exact .modify h hd hm (· &&& ~~~RingControl.enableBoth) false
      fun _ => and_not_and_self _ _
  | pulse us => exact .pulse h hd hm us
  | post hroom hmap =>
    refine .of_same (h.setRing rfl)
      (hm.add_aside (effects_mapBuffer hmap) ?_ (fun _ _ => rfl) trivial)
    unfold Machine.mapBuffer at hmap
    split at hmap
    · simp at hmap
    · obtain rfl := (Prod.mk.inj hmap).2
      rfl
  | @take _ direction t r hr =>
    have hlayout := (c.ring direction).layout_reclaim
    rw [hr] at hlayout
    obtain ⟨-, -, -, hreturned, -⟩ := Ring.found_of_reclaim_some hr
    rw [h.layout_eq] at hreturned
    exact .of_same (h.setRing hlayout)
      (hm.unmapBuffer direction _ _ _ (.inl ⟨t.index, t.control, rfl, hreturned⟩))
  | @look _ direction r hr =>
    have hlayout := (c.ring direction).layout_reclaim
    rw [hr] at hlayout
    exact .of_same (h.setRing hlayout) ⟨hm, .refl _ _ _⟩
  | overwrite f =>
    refine ⟨hm, .refl _ _ _, h.id_lt, h.registers_eq, ?_, h.halted⟩
    intro direction
    rw [ring_overwrite]
    exact h.layout_eq direction
  | reset _ hrun =>
    obtain ⟨htx, hsame⟩ := hm.discardSlots h.id_lt (h.halted hrun) .toDevice c.tx.slots
    obtain ⟨hrx, hsame'⟩ := htx.discardSlots h.id_lt
      ((h.halted hrun).of_same hsame h.id_lt not_false) .fromDevice c.rx.slots
    have hrings : (c.resetRings m).2.1.Secured config d m := by
      constructor
      · exact h.id_lt
      · exact h.registers_eq
      · intro direction
        cases direction
        · exact h.layout_eq .toDevice
        · exact h.layout_eq .fromDevice
      · exact h.halted
    exact .of_same hrings ⟨hrx, hsame.trans hsame'⟩
  | reload _ hrun hreload =>
    obtain ⟨tx, rx, n, hb, rfl, rfl⟩ := of_reloadRings_ok hreload
    have hquiet : m.Quiet (fun _ => False) (buildRings c.id config m).2 :=
      quiet_buildRings config (.refl m) c.id
    obtain ⟨htx, hrx⟩ := isNewRing_of_buildRings (by rw [hb])
    rw [hb] at hquiet
    obtain ⟨hbuilt, hsame⟩ := hm.quiet hd hquiet fun _ ho => ho.elim
    have hhalt : n.Halted d c.id := (h.halted hrun).of_same hsame h.id_lt not_false
    obtain ⟨hfirst, hsame'⟩ := hbuilt.releaseRing h.id_lt hhalt .toDevice c.tx
    obtain ⟨hsecond, hsame''⟩ := hfirst.releaseRing h.id_lt
      (hhalt.of_same hsame' h.id_lt not_false) .fromDevice c.rx
    have hrings : ({ c with
        tx := tx.setEnabled c.tx.enabled
        rx := rx.setEnabled c.rx.enabled } : Channel β).Secured config d m := by
      constructor
      · exact h.id_lt
      · exact h.registers_eq
      · intro direction
        cases direction
        · exact htx.layout_eq
        · exact hrx.layout_eq
      · exact h.halted
    exact .of_same hrings ⟨hsecond, (hsame.trans hsame').trans hsame''⟩

end Channel

namespace Plant

open Machine

variable {config : Config} {base windows : Nat} {uses : Nat → Prop} {p p' : Plant β}
  {story : Story β}

/-- Every effect of a plant was safe, and its channels agree with their ring controls. Where there
is no channel, the rings are halted. -/
structure Safe (config : Config) (base windows : Nat) (p : Plant β) : Prop where
  guarded : p.machine.Guarded (config.hardware base windows) config.capabilities.layout.own
  secured : ∀ (i : Nat) (c : Channel β), p.channels[i]? = some c →
    c.Secured config (config.hardware base windows) p.machine
  spare : ∀ id < windows, p.channels.length ≤ id →
    p.machine.Halted (config.hardware base windows) id

namespace Safe

/-- The machine moves on, and every ring control stays as it is. -/
theorem of_same (h : p.Safe config base windows) {m : Machine β}
    (hm : m.Guarded (config.hardware base windows) config.capabilities.layout.own ∧
      SameWords (config.hardware base windows) (fun _ => False) p.machine m) :
    (⟨p.channels, m⟩ : Plant β).Safe config base windows :=
  ⟨hm.1, fun i c hc => (h.secured i c hc).of_same hm.2 not_false,
    fun id hid hle => (h.spare id hid hle).of_same hm.2 hid not_false⟩

/-- One channel takes a step and still agrees with its ring control. The others are as they were. -/
theorem set (h : p.Safe config base windows) (hp : p.Sound) {id : Nat} {c c' : Channel β}
    {m : Machine β} (hc : p.channels[id]? = some c)
    (hs : Channel.Secures config (config.hardware base windows) p.machine c m c') :
    (⟨p.channels.set id c', m⟩ : Plant β).Safe config base windows := by
  have hid := hp.id_eq id c hc
  constructor
  · exact hs.guarded
  · intro i x hx
    rcases getElem?_replace hx with ⟨_, rfl⟩ | ⟨hne, hx⟩
    · exact hs.secured
    · refine (h.secured i x hx).of_same hs.others ?_
      rw [hp.id_eq i x hx, hid]
      exact hne
  · intro i hi hle
    obtain ⟨hlt, _⟩ := List.getElem?_eq_some_iff.mp hc
    rw [List.length_set] at hle
    refine (h.spare i hi hle).of_same hs.others hi ?_
    omega

/-- A new channel agrees with its ring control, since there was none before it. -/
theorem build (h : p.Safe config base windows)
    (hd : config.capabilities.registers.Apart windows) {c : Channel β} {m : Machine β}
    (hroom : p.channels.length < windows)
    (hbuild : Channel.build p.channels.length
      (base + config.capabilities.registers.channelOffset p.channels.length) config p.machine =
        (.ok c, m)) :
    (⟨p.channels ++ [c], m⟩ : Plant β).Safe config base windows := by
  obtain ⟨hid, hwindow, hmap, _, _, hnew⟩ := Channel.of_build hbuild
  have hquiet := h.guarded.quiet hd (Channel.quiet_of_build hbuild) fun _ ho => ho.elim
  have hsafe := h.of_same hquiet
  constructor
  · exact hsafe.guarded
  · intro i x hx
    rcases getElem?_build hx with ⟨_, rfl⟩ | hx
    · constructor
      · exact hid ▸ hroom
      · rw [Channel.registers, hmap, hwindow, hid]
        rfl
      · intro direction
        exact (hnew direction).layout_eq
      · intro _
        rw [hid]
        exact hsafe.spare _ hroom (Nat.le_refl _)
    · exact hsafe.secured i x hx
  · intro i hi hle
    rw [List.length_append] at hle
    exact hsafe.spare i hi (by simp only at *; omega)

end Safe

/-- Giving up channels that are halted in hardware is safe. -/
theorem guarded_deinitChannels {d : Device} {channels : List (Channel β)}
    {m : Machine β} (hbuilt : ∀ c ∈ channels, c.initialized = true)
    (hhalted : ∀ c ∈ channels, c.running = false)
    (hsecured : ∀ c ∈ channels, c.Secured config d m)
    (hm : m.Guarded d config.capabilities.layout.own) :
    (Engine.deinitChannels channels m).2.Guarded d config.capabilities.layout.own ∧
      SameWords d (fun _ => False) m (Engine.deinitChannels channels m).2 := by
  induction channels generalizing m with
  | nil => exact ⟨hm, .refl _ _ _⟩
  | cons c channels ih =>
    obtain ⟨text, hdeinit⟩ := c.deinit_eq_log m (hbuilt c (by simp)) (hhalted c (by simp))
    have hc := hsecured c (by simp)
    have hhalt := hc.halted (hhalted c (by simp))
    obtain ⟨htx, hsame⟩ := hm.releaseRing hc.id_lt hhalt .toDevice c.tx
    obtain ⟨hrx, hsame'⟩ := htx.releaseRing hc.id_lt (hhalt.of_same hsame hc.id_lt not_false)
      .fromDevice c.rx
    obtain ⟨hlog, hsame''⟩ := hrx.emit (e := .log .debug text) rfl
    have hfirst : SameWords d (fun _ => False) m (c.deinit m).2.2 := by
      rw [hdeinit]
      exact (hsame.trans hsame').trans hsame''
    have hguarded : (c.deinit m).2.2.Guarded d config.capabilities.layout.own := by
      rw [hdeinit]
      exact hlog
    obtain ⟨hrest, hsame⟩ := ih (fun x hx => hbuilt x (by simp [hx]))
      (fun x hx => hhalted x (by simp [hx]))
      (fun x hx => (hsecured x (by simp [hx])).of_same hfirst not_false) hguarded
    exact ⟨hrest, hfirst.trans hsame⟩

/-- Every step of a safe plant is safe, if the device is used at its register base only. -/
theorem Step.safe (h : Step config uses p story p') (hlimit : config.channelLimit ≤ windows)
    (huses : ∀ b, uses b → b = base) (hd : config.capabilities.registers.Apart windows)
    (hp : p.Sound) (hsafe : p.Safe config base windows) : p'.Safe config base windows := by
  cases h with
  | channel hc hs => exact hsafe.set hp hc (hs.secures hd hsafe.guarded (hsafe.secured _ _ hc))
  | quiet hq =>
    refine hsafe.of_same (hsafe.guarded.quiet hd hq ?_)
    intro o ho id hid
    obtain ⟨b, hb, r, rfl⟩ := ho
    obtain rfl := huses b hb
    exact RegisterMap.Apart.offset_ne (d := config.hardware b windows) hd r hid
  | build hbase hroom hbuild =>
    obtain rfl := huses _ hbase
    exact hsafe.build hd (Nat.lt_of_lt_of_le hroom hlimit) hbuild
  | release hhalted _ =>
    have hmem : ∀ c ∈ p.channels, ∃ i, p.channels[i]? = some c := fun c hc =>
      List.getElem?_of_mem hc
    obtain ⟨hguarded, hsame⟩ := guarded_deinitChannels
      (fun c hc => (hmem c hc).elim fun i hi => hp.built i c hi) hhalted
      (fun c hc => (hmem c hc).elim fun i hi => hsafe.secured i c hi) hsafe.guarded
    constructor
    · exact hguarded
    · simp
    · intro id hid _
      refine Halted.of_same ?_ hsame hid not_false
      cases hc : p.channels[id]? with
      | none => exact hsafe.spare id hid (List.getElem?_eq_none_iff.mp hc)
      | some c =>
        have hhalt := (hsafe.secured id c hc).halted (hhalted c (List.mem_of_getElem? hc))
        rwa [hp.id_eq id c hc] at hhalt

/-- A run of a safe plant is safe. -/
theorem Run.safe (h : Run config uses p story p') (hlimit : config.channelLimit ≤ windows)
    (huses : ∀ b, uses b → b = base) (hd : config.capabilities.registers.Apart windows)
    (hp : p.Sound) (hsafe : p.Safe config base windows) : p'.Safe config base windows := by
  induction h with
  | refl => exact hsafe
  | step hrun hs ih => exact hs.safe hlimit huses hd (hrun.sound hp) ih

end Plant

/-! ### Histories -/

/-- A change of registers that leaves the ring controls, and where the registers are, alone. -/
structure RegisterFile.Spares (d : Device) (f g : RegisterFile) : Prop where
  map_eq : g.map = f.map
  base_eq : g.base = f.base
  windows_eq : g.windows = f.windows
  stored_eq : ∀ id < d.windows, g.stored.get (d.ringControl id) = f.stored.get (d.ringControl id)
  held_eq : ∀ id < d.windows, g.held.get (d.ringControl id) = f.held.get (d.ringControl id)

/-- If the engine is brought up, then at the register base of the device. If the world changes
registers, it leaves the ring controls alone. -/
def Moment.Spares (d : Device) : Moment σ β → Prop
  | .operate (.init base _) => base = d.base
  | .disturb (.registers f) =>
    ∀ r, r.map = d.map → r.base = d.base → r.windows = d.windows → RegisterFile.Spares d r (f r)
  | _ => True

/-- The machine of a device whose ring controls are zero, before anything was done to it. -/
structure Machine.Pristine (d : Device) (m : Machine β) : Prop where
  map_eq : m.registers.map = d.map
  base_eq : m.registers.base = d.base
  windows_eq : m.registers.windows = d.windows
  stored_eq : ∀ id < d.windows, m.registers.stored.get (d.ringControl id) = 0
  held_eq : ∀ id < d.windows, m.registers.held.get (d.ringControl id) = 0
  effects_eq : m.effects = []

theorem Machine.Pristine.guarded {d : Device} {m : Machine β} (h : m.Pristine d)
    (own : UInt32) : m.Guarded d own := by
  constructor
  · exact h.map_eq
  · exact h.base_eq
  · exact h.windows_eq
  · exact h.held_eq
  · intro id hid
    rw [h.stored_eq id hid, ringWord, h.effects_eq]
    rfl
  · intro before e hprefix
    rw [h.effects_eq, List.prefix_nil] at hprefix
    simp at hprefix

/-- The device may raise bits of its own registers. -/
theorem RegisterFile.spares_raise {d : Device} (hd : d.map.Apart d.windows) (r : DeviceRegister)
    (bits : UInt32) (f : RegisterFile) (hmap : f.map = d.map) (hbase : f.base = d.base) :
    Spares d f (f.raise (f.deviceOffset r) bits) := by
  constructor
  · rfl
  · rfl
  · rfl
  · intro id hid
    have hne : d.ringControl id ≠ f.deviceOffset r := by
      rw [deviceOffset, hmap, hbase]
      exact (hd.offset_ne r hid).symm
    simp [raise, store, hne]
  · intro _ _
    rfl

/-- Whoever changes registers but not the ring controls changes nothing that safety looks at. -/
theorem Machine.Guarded.registers {d : Device} {own : UInt32} {m : Machine β}
    (h : m.Guarded d own) {f : RegisterFile} (hf : RegisterFile.Spares d m.registers f) :
    Guarded d own { m with registers := f } :=
  ⟨hf.map_eq.trans h.map_eq, hf.base_eq.trans h.base_eq, hf.windows_eq.trans h.windows_eq,
    fun id hid => (hf.held_eq id hid).trans (h.held_eq id hid),
    fun id hid => (hf.stored_eq id hid).trans (h.stored_eq id hid), h.safe⟩

namespace Engine

variable {config : Config} {base windows : Nat} {e e' : Engine β} {seen : Story β}

/-- An engine whose discards are safe: it drives the device at its register base, and its plant is
safe. -/
structure Safe (config : Config) (base windows : Nat) (e : Engine β) : Prop where
  idle : e.IdleEmpty
  config_eq : e.config = config
  base_eq : e.initialized = true → e.base = base
  sound : e.plant.Sound
  safe : e.plant.Safe config base windows

theorem Safe.new {m : Machine β} (h : m.Pristine (config.hardware base windows)) :
    (new config m).Safe config base windows := by
  refine ⟨idleEmpty_new config m, rfl, fun hup => Bool.noConfusion hup, .empty m,
    h.guarded _, by simp [plant, Engine.new], ?_⟩
  intro id hid _
  show lastWord _ m.effects &&& RingControl.enableBoth = 0
  rw [h.effects_eq]
  exact UInt32.zero_and

/-- The engine is up at the register base of the device only. -/
theorem base_of_pass {moment : Moment σ β} (hspares : moment.Spares (config.hardware base windows))
    (hidle : e.IdleEmpty) (hbase : e.initialized = true → e.base = base)
    (h : moment.pass e = some (seen, e')) : e'.initialized = true → e'.base = base := by
  cases moment with
  | disturb d =>
    obtain ⟨-, rfl⟩ := Prod.mk.inj (Option.some.inj h)
    have hstanding := d.standing_apply e
    have hup : (d.apply e).initialized = e.initialized := congrArg (·.2.2.1) hstanding
    have hat : (d.apply e).base = e.base := congrArg (·.2.1) hstanding
    rw [hup, hat]
    exact hbase
  | operate op =>
    cases outcome_of_perform hidle h with
    | works hworks =>
      rw [hworks.initialized_eq, hworks.base_eq]
      exact hbase
    | settles => exact hbase
    | fails => exact hbase
    | up _ hop _ hup =>
      subst hop
      exact fun _ => hup.base_eq.trans hspares
    | down _ hdown =>
      rw [hdown.initialized_eq]
      exact fun hup => Bool.noConfusion hup

/-- What a safe engine lives through leaves it safe. -/
theorem Safe.pass {moment : Moment σ β} (hlimit : config.channelLimit ≤ windows)
    (he : e.Safe config base windows) (hd : config.capabilities.registers.Apart windows)
    (hspares : moment.Spares (config.hardware base windows))
    (h : moment.pass e = some (seen, e')) : e'.Safe config base windows := by
  have hidle := moment.idleEmpty_of_pass he.idle h
  have hconfig := (moment.config_of_pass he.idle h).trans he.config_eq
  have hbase := base_of_pass hspares he.idle he.base_eq h
  by_cases hregisters : moment.IsRegisterChange
  · cases moment with
    | operate op => exact hregisters.elim
    | disturb d =>
      cases d with
      | registers f =>
        obtain ⟨-, rfl⟩ := Prod.mk.inj (Option.some.inj h)
        have hguarded := he.safe.guarded
        have hspared := hspares _ hguarded.map_eq hguarded.base_eq hguarded.windows_eq
        exact ⟨hidle, hconfig, hbase, he.sound.machine _,
          he.safe.of_same ⟨hguarded.registers hspared, .refl _ _ _⟩⟩
      | _ => exact hregisters.elim
  · have hrun := moment.run_of_pass he.idle h hregisters
    rw [he.config_eq] at hrun
    refine ⟨hidle, hconfig, hbase, hrun.sound he.sound, hrun.safe hlimit ?_ hd he.sound he.safe⟩
    rintro b (⟨hup, rfl⟩ | ⟨count, rfl⟩)
    · exact he.base_eq hup
    · exact hspares

/-- In every history of a new engine the buffers that come back are those posted last where the host
looked, and the slots remember the buffers posted last in their places. -/
theorem traced_of_live {config : Config} {m : Machine β} {moments : List (Moment σ β)}
    {seen : Story β} {e : Engine β} (hm : m.effects = [])
    (h : live moments (new config m) = some (seen, e)) : e.plant.Traced := by
  have hrun : ∀ config uses (p : Plant β) story p', Plant.Run config uses p story p' →
      p.Sound ∧ p.Traced → p'.Sound ∧ p'.Traced := fun config uses p story p' hrun hp =>
    ⟨hrun.sound hp.1, hrun.traced hp.1 hp.2⟩
  have hnew : (new config m).plant.Traced := by
    constructor
    · intro before x hprefix
      change before ++ [x] <+: m.effects at hprefix
      rw [hm, List.prefix_nil] at hprefix
      simp at hprefix
    · simp [plant, new]
  obtain ⟨-, -, htraced⟩ := live_keeps_plant hrun
    (fun channels m registers hp => ⟨hp.1.machine _, hp.2.rightful, hp.2.slots⟩)
    (idleEmpty_new config m) h ⟨.empty m, hnew⟩
  exact htraced

/-- In every history of a new engine whose device has a window for each channel, a buffer is
unmapped only after the host read in that very reclaim that the device does not own the descriptor
at its place, or while both enable bits in the ring control of its channel are clear. Ring controls
are read as what the engine last wrote to them. -/
theorem discards_safe {config : Config} {base windows : Nat} {m : Machine β}
    {moments : List (Moment σ β)} {seen : Story β} {e : Engine β}
    (hlimit : config.channelLimit ≤ windows)
    (hapart : config.capabilities.registers.Apart windows)
    (hm : m.Pristine (config.hardware base windows))
    (hmoments : ∀ moment ∈ moments, moment.Spares (config.hardware base windows))
    (h : live moments (new config m) = some (seen, e)) :
    (∀ before id direction addr length cause,
      before ++ [.unmapped id direction addr length cause] <+: e.machine.effects →
        (∃ index control, cause = .returned index control ∧
          control &&& config.capabilities.layout.own = 0 ∧
          lastPosted ⟨id, direction, index⟩ before = some (addr, length)) ∨
          lastWord ((config.device base).ringControl id) before &&& RingControl.enableBoth = 0) ∧
      (∀ before id word, id < windows →
        before ++ [.read ((config.device base).ringControl id) word] <+: e.machine.effects →
          word = lastWord ((config.device base).ringControl id) before) ∧
      ∀ id < windows, e.machine.registers.peek ((config.device base).ringControl id) =
        lastWord ((config.device base).ringControl id) e.machine.effects := by
  have hsafe : e.Safe config base windows :=
    live_keeps (Safe config base windows)
      (fun moment hmem _ _ _ hpass he => .pass hlimit he hapart (hmoments moment hmem) hpass)
      h (.new hm)
  have hguarded : e.machine.Guarded (config.hardware base windows) config.capabilities.layout.own :=
    hsafe.safe.guarded
  refine ⟨?_, ?_, ?_⟩
  · intro before id direction addr length cause hprefix
    rcases hguarded.safe _ _ hprefix with ⟨index, control, rfl, hcontrol⟩ | hhalted
    · exact .inl ⟨index, control, rfl, hcontrol,
        (traced_of_live hm.effects_eq h).rightful _ _ hprefix⟩
    · exact .inr hhalted
  · intro before id word hid hprefix
    exact hguarded.safe _ _ hprefix id hid rfl
  · intro id hid
    exact hguarded.peek_ringControl hid

/-- One buffer comes back, one is discarded when its channel is set up anew, and one when the engine
goes down. The engine comes up again after that. -/
def discardTrip : List (Moment Unit Nat) :=
  [.operate (.init 0 1), .operate (.startChannel 0),
    .operate (.enqueue 0 .toDevice 7 64), .operate (.enqueue 0 .toDevice 8 64),
    .disturb (.descriptors 0 fun _ _ d => { d with control := 0 }),
    .operate (.pollReclaim 0 .toDevice),
    .disturb (.registers fun f => f.raise (f.deviceOffset .intStatus) 1), .operate .onInterrupt,
    .operate (.reinitChannel 0), .operate (.enqueue 0 .toDevice 9 64),
    .operate .deinit, .operate (.init 0 1)]

theorem discards_safe_trip : ∃ seen e before,
    live discardTrip (new .bench .bench) = some (seen, e) ∧
      before ++ [.unmapped 0 .toDevice ⟨0x11000⟩ 64 .discarded] <+: e.machine.effects ∧
        lastWord ((Config.bench.device 0).ringControl 0) before &&& RingControl.enableBoth = 0 := by
  have hends : (live discardTrip (new .bench .bench)).isSome = true := by decide +kernel
  have hdiscard : (live discardTrip (new .bench .bench)).map (fun r =>
      (r.2.machine.effects.takeWhile (· != .unmapped 0 .toDevice ⟨0x11000⟩ 64 .discarded) ++
        [.unmapped 0 .toDevice ⟨0x11000⟩ 64 .discarded]).isPrefixOf r.2.machine.effects) =
          some true := by decide +kernel
  have hpristine : Machine.bench.Pristine (Config.bench.hardware 0 maxChannels) :=
    ⟨rfl, rfl, rfl, fun _ _ => rfl, fun _ _ => rfl, rfl⟩
  have hmoments : ∀ moment ∈ discardTrip, moment.Spares (Config.bench.hardware 0 maxChannels) := by
    simp only [discardTrip, List.forall_mem_cons]
    exact ⟨rfl, trivial, trivial, trivial, trivial, trivial, fun f hmap hbase _ =>
      RegisterFile.spares_raise (RegisterMap.apart_standard _) .intStatus 1 f hmap hbase,
      trivial, trivial, trivial, trivial, rfl, fun _ hmem => nomatch hmem⟩
  obtain ⟨⟨seen, e⟩, h⟩ := Option.isSome_iff_exists.mp hends
  rw [h] at hdiscard
  have hprefix := List.isPrefixOf_iff_prefix.mp (Option.some.inj hdiscard)
  obtain ⟨hunmapped, _, _⟩ := discards_safe (Nat.min_le_right ..)
    (RegisterMap.apart_standard _) hpristine hmoments h
  rcases hunmapped _ _ _ _ _ _ hprefix with ⟨_, _, hcause, _⟩ | hhalted
  · exact UnmapCause.noConfusion hcause
  · exact ⟨seen, e, _, h, hprefix, hhalted⟩

end Engine

end PacketDma
