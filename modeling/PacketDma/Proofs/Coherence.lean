import PacketDma.Proofs.Fitting
import PacketDma.Proofs.History

/-!
# Coherence of an engine

The channels of an engine, what the monitor knows of them and their policies live in separate
tables, which every operation changes in an order of its own. An engine is coherent if the tables
are of one length and each record fits its channel. Every complete operation keeps an engine
coherent, whatever registers, descriptors, clock and mapper answer.

## Implementation notes

An operation works on one channel at a time, so it is enough to show for that channel which record
it ends with and whether it ends running. Between the two changes no engine is coherent.
-/

namespace PacketDma

variable {σ β : Type}

/-! ### Channels -/

namespace Channel

variable {config : Config} {c c' : Channel β} {m m' : Machine β}

/-- A channel that has rings, on both of which posting is allowed exactly if the channel runs. -/
structure Uniform (c : Channel β) : Prop where
  built : c.initialized = true
  enabled_eq : ∀ d, (c.ring d).enabled = c.running

theorem running_setRing (c : Channel β) (d : Direction) (r : Ring β) :
    (c.setRing d r).running = c.running := by
  cases d <;> rfl

theorem Uniform.setRing (h : c.Uniform) {d : Direction} {r : Ring β}
    (hr : r.enabled = (c.ring d).enabled) : (c.setRing d r).Uniform := by
  constructor
  · exact (SamePlace.setRing c d r).initialized_eq.trans h.built
  · intro d'
    rw [running_setRing]
    by_cases hd : d' = d
    · subst hd
      rw [ring_setRing, hr]
      exact h.enabled_eq d'
    · rw [ring_setRing_ne c hd]
      exact h.enabled_eq d'

theorem Step.uniform {now : List (Passage β)} (h : Step config c m now c' m') (hc : c.Uniform) :
    c'.Uniform := by
  have hbuilt : c'.initialized = true := h.samePlace.initialized_eq.trans hc.built
  cases h with
  | quiet => exact hc
  | start | stop =>
    constructor
    · exact hbuilt
    · intro d
      rw [ring_setRunning]
      rfl
  | pulse => exact hc
  | post => exact hc.setRing rfl
  | @take _ direction t r hr =>
    have henabled := (c.ring direction).enabled_reclaim
    rw [hr] at henabled
    exact hc.setRing henabled
  | @look _ direction r hr =>
    have henabled := (c.ring direction).enabled_reclaim
    rw [hr] at henabled
    exact hc.setRing henabled
  | overwrite f =>
    constructor
    · exact hbuilt
    · intro d
      rw [ring_overwrite]
      exact hc.enabled_eq d
  | reset =>
    constructor
    · exact hbuilt
    · intro d
      cases d
      · exact hc.enabled_eq .toDevice
      · exact hc.enabled_eq .fromDevice
  | reload _ _ h =>
    obtain ⟨tx, rx, _, _, rfl, _⟩ := of_reloadRings_ok h
    constructor
    · exact hbuilt
    · intro d
      cases d
      · exact hc.enabled_eq .toDevice
      · exact hc.enabled_eq .fromDevice

/-- Whatever is done to a channel, its rings and the channel agree. -/
theorem Uniform.run {log : List (Passage β)} (hc : c.Uniform) (h : Run config c m log c' m') :
    c'.Uniform := by
  induction h with
  | refl => exact hc
  | step _ hs ih => exact hs.uniform ih

theorem running_enqueue (c : Channel β) (direction : Direction) (buffer : β) (length : Nat)
    (m : Machine β) : (c.enqueue direction buffer length m).2.1.running = c.running := by
  unfold enqueue
  split
  · rfl
  dsimp only
  split
  · rfl
  split
  · rfl
  · exact running_setRing c _ _

theorem running_reclaim (c : Channel β) (direction : Direction) (m : Machine β) :
    (c.reclaim direction m).2.1.running = c.running := by
  unfold reclaim
  split <;> exact running_setRing c _ _

/-- A recovery attempt that succeeded leaves the channel running. -/
theorem running_of_recover {action : RecoveryAction} {faults : FaultSet}
    (h : c.recover action faults config m = (.ok true, c', m')) (hc : c.initialized = true) :
    c'.running = true := by
  unfold recover at h
  split at h
  · simp at h
  dsimp only at h
  obtain ⟨hready, hhalted⟩ := c.run_readied action faults config m
  split at h
  · simp at h
  next c₂ n hrenew =>
    have hrun := (run_renewRings action faults hhalted hrenew).1
    have hbuilt : c₂.initialized = true :=
      hrun.samePlace.initialized_eq.trans (hready.samePlace.initialized_eq.trans hc)
    have hstart := running_start hbuilt n
    split at h
    · simp at h
    next hs =>
      rw [hs] at hstart
      obtain ⟨rfl, _⟩ := Prod.mk.inj (Prod.mk.inj h).2
      exact hstart

end Channel

namespace Engine

/-- The tables of an engine are of one length, no longer than any device has channels, and what is
known of each channel fits it. -/
structure Coherent (e : Engine β) : Prop where
  records_length : e.monitor.records.length = e.channels.length
  policies_length : e.policies.policies.length = e.channels.length
  length_le : e.channels.length ≤ maxChannels
  uniform : ∀ (i : Nat) (c : Channel β), e.channels[i]? = some c → c.Uniform
  fits : ∀ (i : Nat) (c : Channel β) (r : ChannelRecord), e.channels[i]? = some c →
    e.monitor.records[i]? = some r → r.Fits c.running

namespace Coherent

variable {e e' : Engine β} {c c' : Channel β} {r : ChannelRecord}

/-- There is a record for each channel. -/
theorem record (h : e.Coherent) {id : Nat} (hc : e.channels[id]? = some c) :
    ∃ r, e.monitor.records[id]? = some r ∧ r.Fits c.running := by
  obtain ⟨hlt, _⟩ := List.getElem?_eq_some_iff.mp hc
  have hlt : id < e.monitor.records.length := h.records_length ▸ hlt
  exact ⟨_, List.getElem?_eq_getElem hlt, h.fits id c _ hc (List.getElem?_eq_getElem hlt)⟩

/-- Bookkeeping that leaves the tables alone. -/
theorem aside (h : e.Coherent) (hchannels : e'.channels = e.channels)
    (hrecords : e'.monitor.records = e.monitor.records) (hpolicies : e'.policies = e.policies) :
    e'.Coherent := by
  constructor
  · rw [hrecords, hchannels, h.records_length]
  · rw [hpolicies, hchannels, h.policies_length]
  · rw [hchannels]
    exact h.length_le
  · intro i c hc
    exact h.uniform i c (hchannels ▸ hc)
  · intro i c r hc hr
    exact h.fits i c r (hchannels ▸ hc) (hrecords ▸ hr)

theorem log (h : e.Coherent) (level : LogLevel) (text : String) : (e.log level text).Coherent :=
  h.aside rfl rfl rfl

theorem now (h : e.Coherent) : e.now.2.Coherent := h.aside rfl rfl rfl

theorem count (h : e.Coherent) (f : EngineStats → EngineStats) : (e.count f).Coherent :=
  h.aside rfl rfl rfl

theorem post (h : e.Coherent) (id : Nat) (work : Work) : (e.post id work).Coherent :=
  h.aside rfl rfl rfl

theorem machine (h : e.Coherent) (m : Machine β) : Coherent { e with machine := m } :=
  h.aside rfl rfl rfl

theorem queue (h : e.Coherent) (work : WorkQueue) : Coherent { e with work := work } :=
  h.aside rfl rfl rfl

/-- One channel and its record are replaced by two that fit. -/
theorem settle (h : e.Coherent) (id : Nat) (hchannels : e'.channels = e.channels.set id c)
    (hrecords : e'.monitor.records = e.monitor.records.set id r)
    (hpolicies : e'.policies = e.policies) (hc : c.Uniform) (hr : r.Fits c.running) :
    e'.Coherent := by
  constructor
  · rw [hrecords, hchannels, List.length_set, List.length_set, h.records_length]
  · rw [hpolicies, hchannels, List.length_set, h.policies_length]
  · rw [hchannels, List.length_set]
    exact h.length_le
  · intro i d hd
    rw [hchannels, List.getElem?_set] at hd
    split at hd
    · split at hd
      · exact Option.some.inj hd ▸ hc
      · simp at hd
    · exact h.uniform i d hd
  · intro i d s hd hs
    rw [hchannels, List.getElem?_set] at hd
    rw [hrecords, List.getElem?_set] at hs
    split at hd
    next hi =>
      rw [if_pos hi] at hs
      split at hd
      · split at hs
        · rw [← Option.some.inj hd, ← Option.some.inj hs]
          exact hr
        · simp at hs
      · simp at hd
    next hi =>
      rw [if_neg hi] at hs
      exact h.fits i d s hd hs

/-- Every record is replaced by one that fits whatever the old one did. -/
theorem refit (h : e.Coherent) (hchannels : e'.channels = e.channels)
    (hlength : e'.monitor.records.length = e.monitor.records.length)
    (hrecords : ∀ (i : Nat) (s : ChannelRecord), e'.monitor.records[i]? = some s →
      ∃ r, e.monitor.records[i]? = some r ∧ ∀ running, r.Fits running → s.Fits running)
    (hpolicies : e'.policies = e.policies) : e'.Coherent := by
  constructor
  · rw [hlength, hchannels, h.records_length]
  · rw [hpolicies, hchannels, h.policies_length]
  · rw [hchannels]
    exact h.length_le
  · intro i c hc
    exact h.uniform i c (hchannels ▸ hc)
  · intro i c s hc hs
    obtain ⟨r, hr, hfits⟩ := hrecords i s hs
    exact hfits _ (h.fits i c r (hchannels ▸ hc) hr)

/-- A change of one record that goes on fitting. -/
theorem update (h : e.Coherent) (id : Nat) (f : ChannelRecord → ChannelRecord)
    (hf : ∀ r running, ChannelRecord.Fits r running → (f r).Fits running) :
    Coherent { e with monitor := e.monitor.update id f } := by
  refine h.refit rfl (List.length_modify f _ id) ?_ rfl
  intro i s hs
  obtain ⟨r, hr, rfl | rfl⟩ := Monitor.of_update hs
  · exact ⟨_, hr, fun _ hfits => hfits⟩
  · exact ⟨r, hr, hf r⟩

/-- One record is replaced by another one that fits. -/
theorem settleRecord (h : e.Coherent) {id : Nat} (hc : e.channels[id]? = some c)
    (hchannels : e'.channels = e.channels)
    (hrecords : e'.monitor.records = e.monitor.records.set id r)
    (hpolicies : e'.policies = e.policies) (hr : r.Fits c.running) : e'.Coherent := by
  obtain ⟨_, hget⟩ := List.getElem?_eq_some_iff.mp hc
  refine h.settle id (c := c) ?_ hrecords hpolicies (h.uniform id c hc) hr
  rw [hchannels, ← hget, List.set_getElem_self]

/-- One channel is replaced by another one that runs if the first one did. -/
theorem settleChannel (h : e.Coherent) {id : Nat} (hc : e.channels[id]? = some c)
    (hchannels : e'.channels = e.channels.set id c')
    (hrecords : e'.monitor.records = e.monitor.records)
    (hpolicies : e'.policies = e.policies) (huniform : c'.Uniform)
    (hrunning : c'.running = c.running) : e'.Coherent := by
  obtain ⟨r, hr, hfits⟩ := h.record hc
  obtain ⟨_, hget⟩ := List.getElem?_eq_some_iff.mp hr
  refine h.settle id (r := r) hchannels ?_ hpolicies huniform (hrunning ▸ hfits)
  rw [hrecords, ← hget, List.set_getElem_self]

end Coherent

/-! ### Starting and stopping -/

variable {e : Engine β}

theorem haltChannel_eq {id : Nat} {c : Channel β} (hc : e.channels[id]? = some c) :
    (e.haltChannel id).2 = e.put id (c.stop e.machine).2.1 (c.stop e.machine).2.2 := by
  rw [haltChannel, hc]

/-- A channel that was replaced, and whose new record fits a halted channel, is halted. -/
theorem Coherent.haltReplaced (h : e.Coherent) {e' : Engine β} {id : Nat} {c : Channel β}
    {r : ChannelRecord} (hlt : id < e.channels.length)
    (hchannels : e'.channels = e.channels.set id c)
    (hrecords : e'.monitor.records = e.monitor.records.set id r)
    (hpolicies : e'.policies = e.policies) (hc : c.Uniform) (hr : r.Fits false) :
    (e'.haltChannel id).2.Coherent := by
  have hget : e'.channels[id]? = some c := by
    rw [hchannels]
    exact List.getElem?_set_self hlt
  rw [haltChannel_eq hget]
  refine h.settle id (r := r) ?_ hrecords hpolicies (hc.run (c.run_stop e.config e'.machine)) ?_
  · rw [put, hchannels, List.set_set]
  · rw [c.running_stop]
    exact hr

/-- A channel whose new record fits a halted channel is halted. -/
theorem Coherent.halt (h : e.Coherent) {e' : Engine β} {id : Nat} {c : Channel β}
    {r : ChannelRecord} (hc : e.channels[id]? = some c) (hchannels : e'.channels = e.channels)
    (hrecords : e'.monitor.records = e.monitor.records.set id r)
    (hpolicies : e'.policies = e.policies) (hr : r.Fits false) :
    (e'.haltChannel id).2.Coherent := by
  obtain ⟨hlt, hget⟩ := List.getElem?_eq_some_iff.mp hc
  refine h.haltReplaced hlt (c := c) ?_ hrecords hpolicies (h.uniform id c hc) hr
  rw [hchannels, ← hget, List.set_getElem_self]

theorem coherent_startChannel (h : e.Coherent) (id : Nat) : (e.startChannel id).2.Coherent := by
  unfold startChannel
  split
  · exact h
  next c hu =>
    have hc := channels_of_usable?_ok hu
    have huniform := h.uniform id c hc
    obtain ⟨r, hr, hfits⟩ := h.record hc
    have hdown := Monitor.down_of_downError? hr (channel?_of_usable?_ok hu).2
    rw [Monitor.state?_eq hr]
    split
    · exact h
    next hstate =>
      have hstate : r.state = .stopped := Option.some.inj hstate
      have hrun := huniform.run (c.run_start e.config e.machine)
      have hrunning := Channel.running_start huniform.built e.machine
      have hok := Channel.start_eq_ok huniform.built e.machine
      generalize c.start e.machine = started at hrun hrunning hok
      obtain ⟨_, d, m⟩ := started
      obtain rfl : _ = Except.ok () := hok
      dsimp only
      obtain ⟨s, hs, hfit⟩ := hfits.start hstate hdown (e.put id d m).now.1
      have hrecord : (e.put id d m).now.2.monitor.records[id]? = some r := hr
      rw [Monitor.start, Monitor.act_eq hrecord, hs]
      exact h.settle id (c := d) (r := s) rfl rfl rfl hrun (hrunning ▸ hfit)
    · exact h

theorem coherent_stopChannel (h : e.Coherent) (id : Nat) : (e.stopChannel id).2.Coherent := by
  unfold stopChannel
  split
  · exact h
  next c hu =>
    have hc := channels_of_channel?_ok hu
    obtain ⟨r, hr, hfits⟩ := h.record hc
    obtain ⟨s, hs, hfit⟩ := hfits.stop
    rw [Monitor.stop, Monitor.act_eq hr, hs]
    exact h.halt hc rfl rfl rfl hfit

theorem coherent_suspendChannel (h : e.Coherent) (id : Nat) :
    (e.suspendChannel id).2.Coherent := by
  unfold suspendChannel
  split
  · exact h
  next c hu =>
    have hc := channels_of_channel?_ok hu
    obtain ⟨r, hr, hfits⟩ := h.record hc
    rw [Monitor.suspend, Monitor.act_eq hr]
    rcases hfits.suspend with hs | ⟨s, hs, hfit⟩
    · rw [hs]
      exact h.settleRecord hc rfl rfl rfl hfits
    · rw [hs]
      exact h.halt hc rfl rfl rfl hfit

theorem coherent_resumeChannel (h : e.Coherent) (id : Nat) :
    (e.resumeChannel id).2.Coherent := by
  unfold resumeChannel
  split
  · exact h
  next c hu =>
    have hc := channels_of_usable?_ok hu
    have huniform := h.uniform id c hc
    obtain ⟨r, hr, hfits⟩ := h.record hc
    have hdown := Monitor.down_of_downError? hr (channel?_of_usable?_ok hu).2
    have hrecord : e.now.2.monitor.records[id]? = some r := hr
    dsimp only
    rw [Monitor.resume, Monitor.act_eq hrecord]
    rcases hfits.resume hdown e.now.1 with hs | ⟨s, hs, hfit⟩ | ⟨s, hs, hfit⟩
    · rw [hs]
      exact h.settleRecord hc rfl rfl rfl hfits
    · rw [hs]
      have hrun := huniform.run (c.run_start e.config e.now.2.machine)
      have hrunning := Channel.running_start huniform.built e.now.2.machine
      exact h.settle id (r := s) rfl rfl rfl hrun (hrunning ▸ hfit)
    · rw [hs]
      exact h.settleRecord hc rfl rfl rfl hfit

/-- What every action on a channel keeps, actions on several channels keep. -/
theorem coherent_eachChannel {act : Engine β → Nat → Except Error Unit × Engine β}
    (hact : ∀ (e : Engine β) id, e.Coherent → (act e id).2.Coherent) (ids : List Nat)
    (h : e.Coherent) : (eachChannel act ids e).2.Coherent := by
  induction ids generalizing e with
  | nil => exact h
  | cons id rest ih =>
    have hfirst := hact e id h
    unfold eachChannel
    split
    next he => rwa [he] at hfirst
    next he =>
      rw [he] at hfirst
      exact ih hfirst

theorem coherent_reinitChannel (h : e.Coherent) (id : Nat) :
    (e.reinitChannel id).2.Coherent := by
  unfold reinitChannel
  split
  · exact h
  next c hu =>
    have hc := channels_of_channel?_ok hu
    obtain ⟨r, hr, hfits⟩ := h.record hc
    obtain ⟨s, hs, hfit⟩ := hfits.reset
    dsimp only
    rw [Monitor.reset, Monitor.act_eq hr, hs]
    dsimp only
    have hhalted := c.running_stop e.machine
    have hstop := (h.uniform id c hc).run (c.run_stop e.config e.machine)
    generalize (c.stop e.machine).2.1 = d at hhalted hstop ⊢
    have hstep : Channel.Step e.config d e.machine [.discarded .reinit]
        (d.resetRings e.machine).2.1 (d.resetRings e.machine).2.2 := .reset .reinit hhalted
    have hreset := hstop.run (.single hstep)
    have hrunning : (d.resetRings e.machine).2.1.running = false := hhalted
    split
    · exact h.settle id (r := s) rfl rfl rfl hreset (hrunning ▸ hfit)
    · refine coherent_startChannel ?_ id
      exact h.settle id (r := s) rfl rfl rfl hreset (hrunning ▸ hfit)

/-! ### Posting and taking back -/

theorem coherent_enqueue (h : e.Coherent) (id : Nat) (direction : Direction) (buffer : β)
    (length : Nat) : (e.enqueue id direction buffer length).2.Coherent := by
  unfold enqueue
  split
  · exact h
  next c hu =>
    have hc := channels_of_usable?_ok hu
    have huniform := h.uniform id c hc
    have hrunning := c.running_enqueue direction buffer length e.machine
    split
    next d m hd =>
      have hrun : Channel.Run e.config c e.machine _ d m := Channel.run_enqueue_ok hd
      rw [hd] at hrunning
      exact h.settleChannel hc rfl rfl rfl (huniform.run hrun) hrunning
    next x d m hd =>
      have hput : (e.put id d m).Coherent := by
        have hrun : Channel.Run e.config c e.machine [] d m := (Channel.run_enqueue_error hd).1
        rw [hd] at hrunning
        exact h.settleChannel hc rfl rfl rfl (huniform.run hrun) hrunning
      dsimp only
      split
      · dsimp only
        exact (hput.update id (·.onRingFull) fun r running hfits => hfits.stats _).count _
      · exact hput

theorem coherent_pollReclaim (h : e.Coherent) (id : Nat) (direction : Direction) :
    (e.pollReclaim id direction).2.Coherent := by
  unfold pollReclaim
  split
  · exact h
  next c hu =>
    have hc := channels_of_usable?_ok hu
    have huniform := h.uniform id c hc
    have hrunning := c.running_reclaim direction e.machine
    split
    next d m hd =>
      have hrun : Channel.Run e.config c e.machine [] d m := Channel.run_reclaim_none hd
      rw [hd] at hrunning
      exact h.settleChannel hc rfl rfl rfl (huniform.run hrun) hrunning
    next t d m hd =>
      have hrun : Channel.Run e.config c e.machine _ d m := Channel.run_reclaim_some hd
      rw [hd] at hrunning
      exact h.settleChannel hc rfl rfl rfl (huniform.run hrun) hrunning

theorem coherent_setRecoveryPolicy (h : e.Coherent) (id : Nat) (policy : RecoveryPolicy) :
    (e.setRecoveryPolicy id policy).2.Coherent := by
  unfold setRecoveryPolicy
  split
  · exact h
  · constructor
    · exact h.records_length
    · exact (List.length_set).trans h.policies_length
    · exact h.length_le
    · exact h.uniform
    · exact h.fits

theorem coherent_resetChannelStats (h : e.Coherent) (id : Nat) :
    (e.resetChannelStats id).2.Coherent := by
  unfold resetChannelStats
  split
  · exact h
  · exact h.update id _ fun r running hfits => hfits.stats _

end Engine

end PacketDma
