import Mathlib.Logic.Relation
import PacketDma.Proofs.LifecycleInvariant
import PacketDma.Proofs.MonitorRun

/-!
# Operations and bystanders

Whatever the engine does, it does to one channel at a time. The other channels are bystanders and
keep their rings and all that is known of them. So what an operation does to a channel is found by
following that channel alone, through all turns of a loop that are about other channels.

## Implementation notes

A loop takes each channel once, so what it does to a channel is what one turn does. This would be
lost if loops were followed under a transitive relation, as they are for runs of the plant.
-/

namespace PacketDma

variable {σ β : Type}

namespace Channel

/-- One thing done to a channel that does not start its rings. -/
inductive Calm (c : Channel β) : Channel β → Prop where
  | stop (m : Machine β) : Calm c (c.stop m).2.1
  | enqueue (direction : Direction) (buffer : β) (length : Nat) (m : Machine β) :
      Calm c (c.enqueue direction buffer length m).2.1
  | reclaim (direction : Direction) (m : Machine β) : Calm c (c.reclaim direction m).2.1
  | overwrite (f : Direction → Nat → Descriptor → Descriptor) : Calm c (c.overwrite f)

/-- A channel after things done to it that do not start its rings. -/
def Unstarted : Channel β → Channel β → Prop := Relation.ReflTransGen Calm

end Channel

namespace Engine

/-- A channel and what is known of it. -/
abbrev Entry (β : Type) := Channel β × ChannelRecord

/-- The entry of a channel, if there is such a channel. -/
def entryAt (e : Engine β) (i : Nat) : Option (Entry β) := (e.channels.zip e.monitor.records)[i]?

/-- Only one channel is touched, as a relation between entries allows. -/
structure Touches (id : Nat) (allowed : Entry β → Entry β → Prop) (e e' : Engine β) : Prop where
  other : ∀ i, i ≠ id → e'.entryAt i = e.entryAt i
  own : ∀ p, e.entryAt id = some p → ∃ q, e'.entryAt id = some q ∧ allowed p q

/-- Some channels are touched one after the other. -/
inductive Round (allowed : Entry β → Entry β → Prop) : List Nat → Engine β → Engine β → Prop where
  | nil (e : Engine β) : Round allowed [] e e
  | cons {id : Nat} {rest : List Nat} {e e₁ e₂ : Engine β} (h : Touches id allowed e e₁)
      (hrest : Round allowed rest e₁ e₂) : Round allowed (id :: rest) e e₂

/-- Every entry is changed as a relation allows. -/
def Brings (allowed : Entry β → Entry β → Prop) (e e' : Engine β) : Prop :=
  ∀ i p, e.entryAt i = some p → ∃ q, e'.entryAt i = some q ∧ allowed p q

variable {e e' e'' : Engine β} {id i : Nat} {p q u : Entry β}

theorem entryAt_eq_some :
    e.entryAt i = some p ↔ e.channels[i]? = some p.1 ∧ e.monitor.records[i]? = some p.2 :=
  List.getElem?_zip_eq_some

theorem entryAt_of_record {c : Channel β} {r : ChannelRecord} (hc : e.channels[i]? = some c)
    (hr : e.monitor.records[i]? = some r) : e.entryAt i = some (c, r) :=
  entryAt_eq_some.mpr ⟨hc, hr⟩

theorem entryAt_congr (hc : e'.channels[i]? = e.channels[i]?)
    (hr : e'.monitor.records[i]? = e.monitor.records[i]?) : e'.entryAt i = e.entryAt i := by
  apply Option.ext
  intro p
  rw [entryAt_eq_some, entryAt_eq_some, hc, hr]

/-! ### One channel -/

namespace Touches

variable {X Y : Entry β → Entry β → Prop}

theorem refl (hX : ∀ p, X p p) (e : Engine β) : Touches id X e e :=
  ⟨fun _ _ => rfl, fun p hp => ⟨p, hp, hX p⟩⟩

theorem mono (h : Touches id X e e') (hXY : ∀ p q, X p q → Y p q) : Touches id Y e e' := by
  refine ⟨h.other, fun p hp => ?_⟩
  obtain ⟨q, hq, hpq⟩ := h.own p hp
  exact ⟨q, hq, hXY p q hpq⟩

theorem comp (h : Touches id X e e') (h' : Touches id Y e' e'') :
    Touches id (Relation.Comp X Y) e e'' := by
  refine ⟨fun i hi => (h'.other i hi).trans (h.other i hi), fun p hp => ?_⟩
  obtain ⟨q, hq, hpq⟩ := h.own p hp
  obtain ⟨u, hu, hqu⟩ := h'.own q hq
  exact ⟨u, hu, q, hpq, hqu⟩

/-- Bookkeeping that leaves channels and records alone. -/
theorem aside (h : Touches id X e e') (hc : e''.channels = e'.channels)
    (hr : e''.monitor.records = e'.monitor.records) : Touches id X e e'' := by
  have hentry (i : Nat) : e''.entryAt i = e'.entryAt i := entryAt_congr (by rw [hc]) (by rw [hr])
  refine ⟨fun i hi => (hentry i).trans (h.other i hi), fun p hp => ?_⟩
  rw [hentry]
  exact h.own p hp

theorem log (h : Touches id X e e') (level : LogLevel) (text : String) :
    Touches id X e (e'.log level text) := h.aside rfl rfl

theorem now (h : Touches id X e e') : Touches id X e e'.now.2 := h.aside rfl rfl

theorem count (h : Touches id X e e') (f : EngineStats → EngineStats) :
    Touches id X e (e'.count f) := h.aside rfl rfl

theorem post (h : Touches id X e e') (i : Nat) (work : Work) : Touches id X e (e'.post i work) :=
  h.aside rfl rfl

end Touches

/-- What becomes of any channel if only one is touched. -/
theorem Touches.entry {X : Entry β → Entry β → Prop} (h : Touches id X e e')
    (hp : e.entryAt i = some p) : ∃ q, e'.entryAt i = some q ∧ if id = i then X p q else q = p := by
  by_cases hi : id = i
  · subst hi
    simpa only [if_pos] using h.own p hp
  · exact ⟨p, (h.other i fun heq => hi heq.symm).trans hp, by rw [if_neg hi]⟩

/-- A channel is replaced. -/
theorem touches_channel {c c' : Channel β} (hc : e.channels[id]? = some c)
    (hchannels : e'.channels = e.channels.set id c')
    (hrecords : e'.monitor.records = e.monitor.records) :
    Touches id (fun p q => p.1 = c ∧ q = (c', p.2)) e e' := by
  obtain ⟨hlt, _⟩ := List.getElem?_eq_some_iff.mp hc
  constructor
  · intro i hi
    apply entryAt_congr
    · rw [hchannels, List.getElem?_set_ne hi.symm]
    · rw [hrecords]
  · intro p hp
    obtain ⟨hp₁, hp₂⟩ := entryAt_eq_some.mp hp
    refine ⟨(c', p.2), entryAt_eq_some.mpr ⟨?_, ?_⟩, Option.some.inj (hp₁.symm.trans hc), rfl⟩
    · rw [hchannels, List.getElem?_set_self hlt]
    · rw [hrecords, hp₂]

/-- What is known of a channel is replaced. -/
theorem touches_record {r s : ChannelRecord} (hr : e.monitor.records[id]? = some r)
    (hchannels : e'.channels = e.channels)
    (hrecords : e'.monitor.records = e.monitor.records.set id s) :
    Touches id (fun p q => p.2 = r ∧ q = (p.1, s)) e e' := by
  obtain ⟨hlt, _⟩ := List.getElem?_eq_some_iff.mp hr
  constructor
  · intro i hi
    apply entryAt_congr
    · rw [hchannels]
    · rw [hrecords, List.getElem?_set_ne hi.symm]
  · intro p hp
    obtain ⟨hp₁, hp₂⟩ := entryAt_eq_some.mp hp
    refine ⟨(p.1, s), entryAt_eq_some.mpr ⟨?_, ?_⟩, Option.some.inj (hp₂.symm.trans hr), rfl⟩
    · rw [hchannels, hp₁]
    · rw [hrecords, List.getElem?_set_self hlt]

/-- A channel and what is known of it are replaced. -/
theorem touches_entry {c c' : Channel β} {r s : ChannelRecord} (hc : e.channels[id]? = some c)
    (hr : e.monitor.records[id]? = some r) (hchannels : e'.channels = e.channels.set id c')
    (hrecords : e'.monitor.records = e.monitor.records.set id s) :
    Touches id (fun p q => p = (c, r) ∧ q = (c', s)) e e' := by
  have hput : Touches id _ e { e with channels := e.channels.set id c' } :=
    touches_channel hc rfl rfl
  refine Touches.mono (hput.comp (touches_record hr hchannels hrecords)) ?_
  rintro p _ ⟨_, ⟨rfl, rfl⟩, rfl, rfl⟩
  exact ⟨rfl, rfl⟩

theorem touches_update (e : Engine β) (id : Nat) (f : ChannelRecord → ChannelRecord) :
    Touches id (fun p q => q = (p.1, f p.2)) e { e with monitor := e.monitor.update id f } := by
  cases hr : e.monitor.records[id]? with
  | none =>
    rw [Monitor.update_absent hr]
    refine ⟨fun _ _ => rfl, fun p hp => ?_⟩
    cases hr.symm.trans (entryAt_eq_some.mp hp).2
  | some r =>
    rw [Monitor.update_eq hr]
    refine Touches.mono (touches_record hr rfl rfl) ?_
    rintro p _ ⟨rfl, rfl⟩
    rfl

theorem touches_haltChannel (e : Engine β) (id : Nat) :
    Touches id (fun p q => p.1.Unstarted q.1 ∧ q.2 = p.2) e (e.haltChannel id).2 := by
  cases hc : e.channels[id]? with
  | none =>
    rw [haltChannel, hc]
    exact .refl (fun p => ⟨.refl, rfl⟩) e
  | some c =>
    rw [haltChannel_eq hc]
    refine Touches.mono (touches_channel hc rfl rfl) ?_
    rintro p _ ⟨rfl, rfl⟩
    exact ⟨.single (.stop _), rfl⟩

/-! ### All channels -/

section Loops

variable {X Y : Entry β → Entry β → Prop} {ids : List Nat}

/-- A round touches each of its channels once, and no other. -/
theorem Round.entry (h : Round X ids e e') (hids : ids.Nodup) (hp : e.entryAt i = some p) :
    ∃ q, e'.entryAt i = some q ∧ if i ∈ ids then X p q else q = p := by
  -- A channel that the first touch is about is not touched again, as no channel comes twice.
  induction h generalizing p with
  | nil e => exact ⟨p, hp, if_neg List.not_mem_nil ▸ rfl⟩
  | @cons id rest e e₁ e₂ h _ ih =>
    obtain ⟨hid, hrest⟩ := List.nodup_cons.mp hids
    by_cases hi : i = id
    · subst hi
      obtain ⟨q, hq, hpq⟩ := h.own p hp
      obtain ⟨u, hu, hqu⟩ := ih hrest hq
      rw [if_neg hid] at hqu
      exact ⟨u, hu, by rw [if_pos List.mem_cons_self, hqu]; exact hpq⟩
    · obtain ⟨u, hu, hqu⟩ := ih hrest ((h.other i hi).trans hp)
      exact ⟨u, hu, by simpa only [List.mem_cons, hi, false_or] using hqu⟩

theorem Round.brings (h : Round X ids e e') (hids : ids.Nodup) (hX : ∀ p, X p p) :
    Brings X e e' := by
  intro i p hp
  obtain ⟨q, hq, hpq⟩ := h.entry hids hp
  refine ⟨q, hq, ?_⟩
  split at hpq
  · exact hpq
  · exact hpq ▸ hX p

theorem Touches.brings (h : Touches id X e e') (hX : ∀ p, X p p) : Brings X e e' := by
  intro i p hp
  by_cases hi : i = id
  · subst hi
    exact h.own p hp
  · exact ⟨p, (h.other i hi).trans hp, hX p⟩

/-- Bookkeeping that leaves channels and records alone. -/
theorem Brings.still (hX : ∀ p, X p p) (hc : e'.channels = e.channels)
    (hr : e'.monitor.records = e.monitor.records) : Brings X e e' :=
  fun _ p hp => ⟨p, (entryAt_congr (by rw [hc]) (by rw [hr])).trans hp, hX p⟩

theorem Brings.before (h : Brings X e' e'') (hc : e'.channels = e.channels)
    (hr : e'.monitor.records = e.monitor.records) : Brings X e e'' :=
  fun i p hp => h i p ((entryAt_congr (by rw [hc]) (by rw [hr])).trans hp)

theorem Brings.aside (h : Brings X e e') (hc : e''.channels = e'.channels)
    (hr : e''.monitor.records = e'.monitor.records) : Brings X e e'' := by
  intro i p hp
  rw [entryAt_congr (e := e') (by rw [hc]) (by rw [hr])]
  exact h i p hp

theorem Brings.mono (h : Brings X e e') (hXY : ∀ p q, X p q → Y p q) : Brings Y e e' := by
  intro i p hp
  obtain ⟨q, hq, hpq⟩ := h i p hp
  exact ⟨q, hq, hXY p q hpq⟩

theorem Brings.comp (h : Brings X e e') (h' : Brings Y e' e'') :
    Brings (Relation.Comp X Y) e e'' := by
  intro i p hp
  obtain ⟨q, hq, hpq⟩ := h i p hp
  obtain ⟨u, hu, hqu⟩ := h' i q hq
  exact ⟨u, hu, q, hpq, hqu⟩

/-- What no turn of a loop touches, the loop does not touch. -/
theorem entryAt_foldl {α : Type} (engine : α → Engine β) {turn : α → Nat → α} {ids : List Nat}
    (hturn : ∀ a, ∀ id ∈ ids, (engine (turn a id)).entryAt i = (engine a).entryAt i) (a : α) :
    (engine (ids.foldl turn a)).entryAt i = (engine a).entryAt i := by
  induction ids generalizing a with
  | nil => rfl
  | cons id rest ih =>
    have hrest := ih (fun a k hk => hturn a k (List.mem_cons_of_mem _ hk)) (turn a id)
    exact hrest.trans (hturn a id List.mem_cons_self)

/-- A loop whose turns touch one channel each is a round. -/
theorem round_foldl {α : Type} (engine : α → Engine β) {turn : α → Nat → α}
    (hturn : ∀ a id, Touches id X (engine a) (engine (turn a id))) (ids : List Nat) (a : α) :
    Round X ids (engine a) (engine (ids.foldl turn a)) := by
  induction ids generalizing a with
  | nil => exact .nil _
  | cons id rest ih => exact .cons (hturn a id) (ih _)

theorem round_sumOver {work : Nat → σ → Engine β → Nat × σ × Engine β}
    (hwork : ∀ id s e, Touches id X e (work id s e).2.2) (ids : List Nat) (s : σ)
    (e : Engine β) : Round X ids e (sumOver work ids s e).2.2 := by
  induction ids generalizing s e with
  | nil => exact .nil _
  | cons id rest ih => exact .cons (hwork id s e) (ih _ _)

end Loops

end Engine

end PacketDma
