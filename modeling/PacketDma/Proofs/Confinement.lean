import PacketDma.Proofs.ChannelMirror
import PacketDma.Proofs.MonitorRun

/-!
# Work on one channel

Whatever is done to one channel, registers are written in its own window only. What is stored
elsewhere stays as it is, and so does all that the engine keeps of the other channels.

## Implementation notes

The device changes its status by itself, when control is written or status is read. So the status
register is left out of what stays, and nothing is asked of where the registers lie.
-/

namespace PacketDma

variable {β : Type}

/-- The offsets of the registers of a channel. -/
def ChannelRegisters.Window (c : ChannelRegisters) (offset : Nat) : Prop :=
  ∃ r, offset = c.offset r

theorem ChannelRegisters.window_of_plain {c : ChannelRegisters} {offset : Nat}
    (h : c.Plain offset) : c.Window offset := by
  obtain ⟨r, -, heq⟩ := h
  exact ⟨r, heq⟩

namespace Machine

/-- The second machine is the first one after effects that write to `writable` offsets only. What is
stored at other ones stays, but for the status of the device. -/
structure Confined (writable : Nat → Prop) (m n : Machine β) : Prop where
  fixed_eq : n.registers.fixed = m.registers.fixed
  stored_eq : ∀ o, ¬ writable o → o ≠ m.registers.deviceOffset .status →
    n.registers.stored.get o = m.registers.stored.get o
  written : ∃ new, n.effects = m.effects ++ new ∧
    ∀ o word, Event.write o word ∈ new → writable o

namespace Confined

variable {writable : Nat → Prop} {m n p : Machine β}

theorem refl (writable : Nat → Prop) (m : Machine β) : Confined writable m m :=
  ⟨rfl, fun _ _ _ => rfl, [], (List.append_nil _).symm, fun _ _ hmem => nomatch hmem⟩

theorem map_eq (h : Confined writable m n) : n.registers.map = m.registers.map :=
  (RegisterFile.fixed_eq_iff.mp h.fixed_eq).1

theorem base_eq (h : Confined writable m n) : n.registers.base = m.registers.base :=
  (RegisterFile.fixed_eq_iff.mp h.fixed_eq).2.1

theorem held_eq (h : Confined writable m n) : n.registers.held = m.registers.held :=
  (RegisterFile.fixed_eq_iff.mp h.fixed_eq).2.2.2

theorem deviceOffset_eq (h : Confined writable m n) (r : DeviceRegister) :
    n.registers.deviceOffset r = m.registers.deviceOffset r := by
  rw [RegisterFile.deviceOffset, h.map_eq, h.base_eq, RegisterFile.deviceOffset]

theorem trans (h : Confined writable m n) (h' : Confined writable n p) :
    Confined writable m p := by
  refine ⟨h'.fixed_eq.trans h.fixed_eq, ?_, ?_⟩
  · intro o ho hstatus
    rw [h'.stored_eq o ho (by rwa [h.deviceOffset_eq]), h.stored_eq o ho hstatus]
  · obtain ⟨new, hnew, hwrites⟩ := h.written
    obtain ⟨later, hlater, hwrites'⟩ := h'.written
    refine ⟨new ++ later, by rw [hlater, hnew, List.append_assoc], ?_⟩
    intro o word hmem
    rcases List.mem_append.mp hmem with hmem | hmem
    · exact hwrites o word hmem
    · exact hwrites' o word hmem

theorem mono {wider : Nat → Prop} (hw : ∀ o, writable o → wider o) (h : Confined writable m n) :
    Confined wider m n := by
  obtain ⟨new, hnew, hwrites⟩ := h.written
  exact ⟨h.fixed_eq, fun o ho => h.stored_eq o fun hwritable => ho (hw o hwritable),
    new, hnew, fun o word hmem => hw o (hwrites o word hmem)⟩

/-- A register that is not written shows what it showed, unless it is the status. -/
theorem peek_eq (h : Confined writable m n) {o : Nat} (ho : ¬ writable o)
    (hstatus : o ≠ m.registers.deviceOffset .status) :
    n.registers.peek o = m.registers.peek o := by
  rw [RegisterFile.peek, h.stored_eq o ho hstatus, h.held_eq, RegisterFile.peek]

/-- One more effect that is no write. -/
theorem add (h : Confined writable m n) {e : Event β} (heffects : p.effects = n.effects ++ [e])
    (hfixed : p.registers.fixed = n.registers.fixed)
    (hstored : ∀ o, o ≠ n.registers.deviceOffset .status →
      p.registers.stored.get o = n.registers.stored.get o)
    (he : ∀ o word, e ≠ .write o word) : Confined writable m p := by
  refine h.trans ⟨hfixed, fun o _ => hstored o, [e], heffects, ?_⟩
  intro o word hmem
  exact absurd (List.mem_singleton.mp hmem).symm (he o word)

/-- One more effect that no register shows. -/
theorem event (h : Confined writable m n) {e : Event β} (heffects : p.effects = n.effects ++ [e])
    (hregisters : p.registers = n.registers) (he : ∀ o word, e ≠ .write o word) :
    Confined writable m p :=
  h.add heffects (by rw [hregisters]) (fun _ _ => by rw [hregisters]) he

/-- The clock, the mapped memory and descriptors that were given up are no effects. -/
theorem aside (h : Confined writable m n) (clock : Clock) (mapper : Mapper β)
    (retired : List DescriptorArray) :
    Confined writable m { n with clock := clock, mapper := mapper, retired := retired } :=
  ⟨h.fixed_eq, h.stored_eq, h.written⟩

theorem emit (h : Confined writable m n) {e : Event β} (he : e.isNote = true) :
    Confined writable m (n.emit e) := by
  refine h.event (effects_emit n e) rfl ?_
  rintro o word rfl
  cases he

theorem read (h : Confined writable m n) (offset : Nat) :
    Confined writable m (n.read offset).2 :=
  h.add (n.effects_read offset) (n.registers.fixed_read offset)
    (fun _ ho => RegisterFile.stored_read ho offset) (by simp)

theorem write (h : Confined writable m n) {offset : Nat} (hw : writable offset) (word : UInt32) :
    Confined writable m (n.write offset word) := by
  refine h.trans ⟨n.registers.fixed_write offset word, ?_, [.write offset word],
    n.effects_write offset word, ?_⟩
  · intro o ho hstatus
    refine RegisterFile.stored_write_ne ?_ hstatus word
    rintro rfl
    exact ho hw
  · intro o w hmem
    obtain ⟨rfl, -⟩ := Event.write.inj (List.mem_singleton.mp hmem)
    exact hw

theorem modify (h : Confined writable m n) {offset : Nat} (hw : writable offset)
    (f : UInt32 → UInt32) : Confined writable m (n.modify offset f) := (h.read offset).write hw _

theorem quiet (h : Confined writable m n) (hq : n.Quiet writable p) : Confined writable m p := by
  induction hq with
  | refl => exact h
  | read _ offset ih => exact ih.read offset
  | write _ hw word ih => exact ih.write hw word
  | note _ he ih => exact ih.emit he
  | aside _ clock mapper retired ih => exact ih.aside clock mapper retired

theorem discardSlots (h : Confined writable m n) (channel : Nat) (direction : Direction)
    (slots : List (Slot β)) :
    Confined writable m (Channel.discardSlots channel direction slots n) := by
  induction slots generalizing n with
  | nil => exact h
  | cons s rest ih =>
    exact ih (h.event (effects_unmapBuffer n channel direction s.addr s.length .discarded) rfl
      (by simp))

theorem releaseRing (h : Confined writable m n) (channel : Nat) (direction : Direction)
    (r : Ring β) : Confined writable m (Channel.releaseRing channel direction r n).2.2 := by
  have hslots := h.discardSlots channel direction r.slots
  unfold Channel.releaseRing
  dsimp only
  split
  · exact hslots
  · exact hslots.aside _ _ _

end Confined

end Machine

namespace Channel

open Machine

variable {config : Config} {c c' : Channel β} {m m' : Machine β} {now : List (Passage β)}

/-- One step of a channel writes to its own registers only. -/
theorem Step.confined (h : Step config c m now c' m') :
    m.Confined c.registers.Window m' := by
  have hown (r : ChannelRegister) : c.registers.Window (c.registers.offset r) := ⟨r, rfl⟩
  have hstill := Confined.refl c.registers.Window m
  cases h with
  | quiet h => exact hstill.quiet (h.mono fun _ => ChannelRegisters.window_of_plain)
  | start => exact hstill.modify (hown .ringControl) (· ||| RingControl.enableBoth)
  | stop => exact hstill.modify (hown .ringControl) (· &&& ~~~RingControl.enableBoth)
  | pulse us =>
    have hassert : m.Confined c.registers.Window (c.registers.assertReset m) :=
      hstill.modify (hown .ringControl) (· ||| RingControl.reset)
    have hdelay : m.Confined c.registers.Window ((c.registers.assertReset m).delay us) :=
      (hassert.aside _ _ _).emit rfl
    exact hdelay.modify (hown .ringControl) (· &&& ~~~RingControl.reset)
  | @post _ _ direction buffer length _ _ hmap =>
    have hregisters := m.registers_mapBuffer c.id direction (c.ring direction).head buffer length
    rw [hmap] at hregisters
    exact hstill.event (effects_mapBuffer hmap) hregisters (by simp)
  | take => exact hstill.event (effects_unmapBuffer _ _ _ _ _ _) rfl (by simp)
  | look => exact hstill
  | overwrite => exact hstill
  | reset => exact (hstill.discardSlots _ _ _).discardSlots _ _ _
  | reload _ _ h =>
    obtain ⟨tx, rx, n, hbuild, -, rfl⟩ := of_reloadRings_ok h
    have hmade : m.Quiet c.registers.Window (buildRings c.id config m).2 :=
      quiet_buildRings config (.refl m) c.id
    rw [hbuild] at hmade
    exact ((hstill.quiet hmade).releaseRing _ _ _).releaseRing _ _ _

/-- Whatever a channel does, it writes to its own registers only. -/
theorem Run.confined (h : Run config c m now c' m') : m.Confined c.registers.Window m' := by
  induction h with
  | refl => exact .refl _ _
  | step hrun hs ih =>
    have hlast := hs.confined
    rw [hrun.samePlace.registers_eq] at hlast
    exact ih.trans hlast

end Channel

/-! ### The engine -/

/-- The offsets of the registers of a channel that exists. -/
def Device.Owns (d : Device) (id : Nat) (offset : Nat) : Prop :=
  ∃ r, (RegisterName.channel id r).Exists d.windows ∧ offset = d.place (.channel id r)

/-- The kinds of work that wait for a channel. -/
def PendingWork.of (p : PendingWork) (id : Nat) : Work where
  reclaim := p.reclaim.contains id
  refill := p.refill.contains id
  recover := p.recover.contains id

/-- Work that is posted for a channel waits for that channel only. -/
theorem WorkQueue.pending_post_of_ne (q : WorkQueue) (work : Work) {id i : Nat} (hid : id < 32)
    (hi : i < 32) (hne : i ≠ id) : (q.post id work).2.pending.of i = q.pending.of i := by
  have hinsert (m : ChannelMask) : (m.insert id).contains i = m.contains i := by
    rw [m.contains_insert hi hid, decide_eq_false hne.symm, Bool.or_false]
  unfold post
  split
  · obtain ⟨reclaim, refill, recover⟩ := work
    cases reclaim <;> cases refill <;> cases recover <;>
      simp [PendingWork.of, PendingWork.add, hinsert]
  · rfl

theorem Monitor.update_of_ne (m : Monitor) (f : ChannelRecord → ChannelRecord) {id i : Nat}
    (hne : i ≠ id) : (m.update id f).records[i]? = m.records[i]? := by
  simp [update, hne.symm]

namespace Engine

/-- The channel of some number, if there is one, stands at its number and in its window. -/
def Home (d : Device) (id : Nat) (e : Engine β) : Prop :=
  ∀ c, e.channels[id]? = some c → c.id = id ∧ id < maxChannels ∧ c.Placed d

/-- The second engine is the first one after work on one channel. -/
structure KeepsTo (d : Device) (id : Nat) (e e' : Engine β) : Prop where
  home : e'.Home d id
  channel_eq : ∀ i, i ≠ id → e'.channels[i]? = e.channels[i]?
  record_eq : ∀ i, i ≠ id → e'.monitor.records[i]? = e.monitor.records[i]?
  policy_eq : ∀ i, i ≠ id → e'.policies.get? i = e.policies.get? i
  pending_eq : ∀ i < 32, i ≠ id → e'.work.pending.of i = e.work.pending.of i
  confined : e.machine.Confined (d.Owns id) e'.machine

namespace KeepsTo

variable {d : Device} {id : Nat} {e e' e'' : Engine β}

theorem refl (h : e.Home d id) : KeepsTo d id e e :=
  ⟨h, fun _ _ => rfl, fun _ _ => rfl, fun _ _ => rfl, fun _ _ _ => rfl, .refl _ _⟩

theorem trans (h : KeepsTo d id e e') (h' : KeepsTo d id e' e'') : KeepsTo d id e e'' where
  home := h'.home
  channel_eq i hi := (h'.channel_eq i hi).trans (h.channel_eq i hi)
  record_eq i hi := (h'.record_eq i hi).trans (h.record_eq i hi)
  policy_eq i hi := (h'.policy_eq i hi).trans (h.policy_eq i hi)
  pending_eq i hlt hi := (h'.pending_eq i hlt hi).trans (h.pending_eq i hlt hi)
  confined := h.confined.trans h'.confined

/-- Bookkeeping about the channel: all channels stay as they are, and no register is written. -/
theorem aside (h : KeepsTo d id e e') (hchannels : e''.channels = e'.channels)
    (hrecords : ∀ i, i ≠ id → e''.monitor.records[i]? = e'.monitor.records[i]?)
    (hpolicies : e''.policies = e'.policies)
    (hpending : ∀ i < 32, i ≠ id → e''.work.pending.of i = e'.work.pending.of i)
    (hq : e'.machine.Quiet (fun _ => False) e''.machine) : KeepsTo d id e e'' := by
  refine h.trans ⟨?_, fun _ _ => by rw [hchannels], hrecords, fun _ _ => by rw [hpolicies],
    hpending, (Machine.Confined.refl _ _).quiet (hq.mono fun _ ho => ho.elim)⟩
  intro c hc
  exact h.home c (hchannels ▸ hc)

theorem log (h : KeepsTo d id e e') (level : LogLevel) (text : String) :
    KeepsTo d id e (e'.log level text) :=
  h.aside rfl (fun _ _ => rfl) rfl (fun _ _ _ => rfl) ((Machine.Quiet.refl _).log level text)

theorem now (h : KeepsTo d id e e') : KeepsTo d id e e'.now.2 :=
  h.aside rfl (fun _ _ => rfl) rfl (fun _ _ _ => rfl) (Machine.Quiet.refl _).now

theorem count (h : KeepsTo d id e e') (f : EngineStats → EngineStats) :
    KeepsTo d id e (e'.count f) :=
  h.aside rfl (fun _ _ => rfl) rfl (fun _ _ _ => rfl) (.refl _)

theorem update (h : KeepsTo d id e e') (f : ChannelRecord → ChannelRecord) :
    KeepsTo d id e { e' with monitor := e'.monitor.update id f } :=
  h.aside rfl (fun _ hi => e'.monitor.update_of_ne f hi) rfl (fun _ _ _ => rfl) (.refl _)

/-- Something is asked about the record of the channel. -/
theorem act {α : Type} (h : KeepsTo d id e e') {absent answer : α}
    {f : ChannelRecord → α × ChannelRecord} {monitor : Monitor}
    (hact : e'.monitor.act id absent f = (answer, monitor)) :
    KeepsTo d id e { e' with monitor := monitor } := by
  have hmonitor : monitor = e'.monitor.update id fun r => (f r).2 := by
    rw [← Monitor.act_snd e'.monitor id absent f, hact]
  rw [hmonitor]
  exact h.update _

theorem post (h : KeepsTo d id e e') (hid : id < 32) (work : Work) :
    KeepsTo d id e (e'.post id work) :=
  h.aside rfl (fun _ _ => rfl) rfl
    (fun _ hi hne => e'.work.pending_post_of_ne work hid hi hne) ((Machine.Quiet.refl _).wake _)

theorem lt_of_channel (h : KeepsTo d id e e') {c : Channel β} (hc : e'.channels[id]? = some c) :
    id < maxChannels := by
  obtain ⟨-, hid, -⟩ := h.home c hc
  exact hid

/-- The channel acts. -/
theorem put (h : KeepsTo d id e e') {c c' : Channel β} {m' : Machine β}
    {passages : List (Passage β)} (hc : e'.channels[id]? = some c)
    (hrun : Channel.Run e'.config c e'.machine passages c' m') :
    KeepsTo d id e (e'.put id c' m') := by
  obtain ⟨hid, hlt, hplaced⟩ := h.home c hc
  have hsame := hrun.samePlace
  refine h.trans ⟨?_, ?_, fun _ _ => rfl, fun _ _ => rfl, fun _ _ _ => rfl, ?_⟩
  · intro x hx
    rcases Plant.getElem?_replace hx with ⟨-, rfl⟩ | ⟨hne, -⟩
    · exact ⟨hsame.id_eq.trans hid, hlt, hplaced.of_samePlace hsame⟩
    · exact absurd rfl hne
  · intro i hi
    exact List.getElem?_set_ne hi.symm
  · refine hrun.confined.mono ?_
    rintro o ⟨r, rfl⟩
    rw [hplaced.offset_eq, hid]
    exact ⟨r, hid ▸ hplaced.id_lt, rfl⟩

/-- The channel looks at its registers. -/
theorem look (h : KeepsTo d id e e') {c : Channel β} {m' : Machine β}
    (hc : e'.channels[id]? = some c) (hrun : Channel.Run e'.config c e'.machine [] c m') :
    KeepsTo d id e { e' with machine := m' } := by
  have hput := h.put hc hrun
  obtain ⟨_, hget⟩ := List.getElem?_eq_some_iff.mp hc
  rwa [Engine.put, ← hget, List.set_getElem_self] at hput

/-! ### Operations on one channel -/

theorem haltChannel (h : KeepsTo d id e e') : KeepsTo d id e (e'.haltChannel id).2 := by
  unfold Engine.haltChannel
  split
  · exact h
  next c hc => exact h.put hc (c.run_stop e'.config e'.machine)

theorem startChannel (h : KeepsTo d id e e') : KeepsTo d id e (e'.startChannel id).2 := by
  unfold Engine.startChannel
  split
  · exact h
  next c hu =>
    have hc := channels_of_usable?_ok hu
    split
    · exact h
    · have hrun := c.run_start e'.config e'.machine
      split
      next he =>
        rw [he] at hrun
        exact h.put hc hrun
      next he =>
        rw [he] at hrun
        have hnow := (h.put hc hrun).now
        dsimp only
        split
        next hstart => exact hnow.act hstart
        next hstart => exact (hnow.act hstart).log _ _
    · exact h

theorem stopChannel (h : KeepsTo d id e e') : KeepsTo d id e (e'.stopChannel id).2 := by
  unfold Engine.stopChannel
  split
  · exact h
  · split
    next hstop => exact h.act hstop
    next hstop => exact (h.act hstop).haltChannel

theorem suspendChannel (h : KeepsTo d id e e') : KeepsTo d id e (e'.suspendChannel id).2 := by
  unfold Engine.suspendChannel
  split
  · exact h
  · split
    next hpause => exact h.act hpause
    next hpause => exact (h.act hpause).haltChannel

theorem resumeChannel (h : KeepsTo d id e e') : KeepsTo d id e (e'.resumeChannel id).2 := by
  unfold Engine.resumeChannel
  split
  · exact h
  next c hu =>
    have hc := channels_of_usable?_ok hu
    dsimp only
    split
    next hresume => exact h.now.act hresume
    next hresume =>
      exact (h.now.act hresume).put hc (c.run_start e'.config e'.now.2.machine)
    next hresume =>
      exact ((h.now.act hresume).post (Nat.lt_trans (h.lt_of_channel hc) (by decide)) _).log _ _

theorem reinitChannel (h : KeepsTo d id e e') : KeepsTo d id e (e'.reinitChannel id).2 := by
  unfold Engine.reinitChannel
  split
  · exact h
  next c hu =>
    have hc := channels_of_channel?_ok hu
    dsimp only
    split
    next hreset => exact h.act hreset
    next hreset =>
      have hstop := c.run_stop e'.config e'.machine
      have hpulse := hstop.andThen (.pulse e'.config.channelResetUs)
      have hclear := hpulse.trans (Channel.run_clearErrors e'.config _ .all _)
      have hempty := hclear.step (.reset .reinit (c.running_stop e'.machine))
      have hprogram := hempty.trans (Channel.run_program e'.config _ _)
      have hput := (h.act hreset).put hc hprogram
      split
      · exact hput.log _ _
      · exact (hput.log _ _).startChannel

theorem enqueue (h : KeepsTo d id e e') (direction : Direction) (buffer : β) (length : Nat) :
    KeepsTo d id e (e'.enqueue id direction buffer length).2 := by
  unfold Engine.enqueue
  split
  · exact h
  next c hu =>
    have hc := channels_of_usable?_ok hu
    split
    next he =>
      dsimp only
      exact (h.put hc (Channel.run_enqueue_ok he)).count _
    next he =>
      have hput := h.put hc (Channel.run_enqueue_error he).1
      dsimp only
      split
      · dsimp only
        exact (hput.update (·.onRingFull)).count _
      · exact hput

theorem pollReclaim (h : KeepsTo d id e e') (direction : Direction) :
    KeepsTo d id e (e'.pollReclaim id direction).2 := by
  unfold Engine.pollReclaim
  split
  · exact h
  next c hu =>
    have hc := channels_of_usable?_ok hu
    split
    next he => exact h.put hc (Channel.run_reclaim_none he)
    next he =>
      dsimp only
      exact (h.put hc (Channel.run_reclaim_some he)).count _

theorem setRecoveryPolicy (h : KeepsTo d id e e') (policy : RecoveryPolicy) :
    KeepsTo d id e (e'.setRecoveryPolicy id policy).2 := by
  unfold Engine.setRecoveryPolicy
  split
  · exact h
  · refine h.trans ⟨h.home, fun _ _ => rfl, fun _ _ => rfl, ?_, fun _ _ _ => rfl, .refl _ _⟩
    intro i hi
    exact List.getElem?_set_ne hi.symm

theorem resetChannelStats (h : KeepsTo d id e e') :
    KeepsTo d id e (e'.resetChannelStats id).2 := by
  unfold Engine.resetChannelStats
  split
  · exact h
  · exact h.update _

theorem runRecovery (h : KeepsTo d id e e') {c : Channel β} (hc : e'.channels[id]? = some c)
    (policy : RecoveryPolicy) (faults : FaultSet) :
    KeepsTo d id e (e'.runRecovery id c policy faults).2 := by
  unfold Engine.runRecovery
  split
  next he => exact h.put hc (Channel.run_recover he)
  next he =>
    exact h.put hc ((Channel.run_recover he).trans (Channel.run_errorStatus e'.config _ _))
  next he => exact h.put hc (Channel.run_recover he)

theorem recoverClaimed (h : KeepsTo d id e e') {c : Channel β} (hc : e'.channels[id]? = some c)
    (policy : RecoveryPolicy) (faults : FaultSet) :
    KeepsTo d id e (e'.recoverClaimed id c policy faults).2 := by
  have hid : id < 32 := Nat.lt_trans (h.lt_of_channel hc) (by decide)
  unfold Engine.recoverClaimed
  dsimp only
  generalize hcount : (e'.count fun s =>
    { s with recoveriesAttempted := Counter.add s.recoveriesAttempted 1 }) = e₁
  have h₁ : KeepsTo d id e e₁ := hcount ▸ h.count _
  have hc₁ : e₁.channels[id]? = some c := hcount ▸ hc
  have h₂ := h₁.runRecovery hc₁ policy faults
  generalize e₁.runRecovery id c policy faults = attempt at h₂ ⊢
  obtain ⟨⟨success, residual⟩, e₂⟩ := attempt
  dsimp only at h₂ ⊢
  generalize hfinish : e₂.now.2.monitor.finishRecovery id success residual policy.maxRetries
    e₂.now.1 = finished
  obtain ⟨down, monitor⟩ := finished
  have h₃ := h₂.now.act hfinish
  split
  · exact ((h₃.count _).post hid _).log _ _
  split
  · exact h₃.haltChannel.log _ _
  · exact h₃.log _ _

theorem attemptRecovery (h : KeepsTo d id e e') : KeepsTo d id e (e'.attemptRecovery id).2 := by
  unfold Engine.attemptRecovery
  split
  next c policy hc _ =>
    split
    · exact h
    dsimp only
    generalize hbegin : e'.now.2.monitor.beginRecovery id policy e'.now.1 = begun
    obtain ⟨claim, monitor⟩ := begun
    have hclaim := h.now.act hbegin
    cases claim with
    | claimed faults => exact hclaim.recoverClaimed hc policy faults
    | notNeeded => exact hclaim
    | tooSoon => exact hclaim
    | notCovered faults => exact hclaim.log _ _
    | down =>
      have hhalt := hclaim.haltChannel
      dsimp only
      split
      next he =>
        rw [he] at hhalt
        exact hhalt.log _ _
      next he => rwa [he] at hhalt
  · exact h

theorem recoverChannel (h : KeepsTo d id e e') : KeepsTo d id e (e'.recoverChannel id).2 := by
  unfold Engine.recoverChannel
  split
  · exact h
  · exact h.attemptRecovery

/-! ### Interrupts of one channel -/

theorem handleError (h : KeepsTo d id e e') (hid : id < 32) (now : Nat) :
    KeepsTo d id e (e'.handleError id now) := by
  unfold Engine.handleError
  split
  · exact h
  next c hc =>
    have hlook := h.look hc (Channel.run_errorStatus e'.config c e'.machine)
    dsimp only
    generalize hfault : e'.monitor.recordFault id (c.errorStatus e'.machine).1 now = noticed
    obtain ⟨wasRunning, monitor⟩ := noticed
    have hnoticed := hlook.act hfault
    split
    · exact (hnoticed.haltChannel.post hid _).log _ _
    · exact (hnoticed.post hid _).log _ _

theorem handleChannel (h : KeepsTo d id e e') (hid : id < 32) (status : InterruptStatus)
    (now : Nat) : KeepsTo d id e (handleChannel status now e' id) := by
  have hnoted := h.update (·.onInterrupt (status.error.contains id) now)
  unfold Engine.handleChannel
  dsimp only
  split <;> split
  · exact (hnoted.post hid _).handleError hid now
  · exact hnoted.handleError hid now
  · exact hnoted.post hid _
  · exact hnoted

end KeepsTo

end Engine

end PacketDma
