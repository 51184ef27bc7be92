import PacketDma.Proofs.FailedStart
import PacketDma.Proofs.RingShape
import PacketDma.Proofs.Tallies

/-!
# Totals of a history

The totals of an engine tell what happened since it came up. Those of transfers count the buffers
that were accepted and the transfers that came back. Every other total is the sum of a counter over
all channels.

## Implementation notes

A story shows buffers and no status, so the transfers that came back are listed besides. For a
worker both are taken from one sink that keeps the two of them.

A worker counts what it does for one channel in words, which start again at zero. So the totals are
told of rings that do not hold as many buffers together as there are words.
-/

namespace PacketDma

variable {σ β : Type}

/-- Keeps the transfers that are handed over besides the state of a sink. -/
def Sink.logged (sink : Sink σ β) : Sink (σ × List (Completion β)) β where
  complete s id direction t := (sink.complete s.1 id direction t, s.2 ++ [t])
  rxBuffer s id := ((sink.rxBuffer s.1 id).1, (sink.rxBuffer s.1 id).2, s.2)
  giveBack s id buffer := (sink.giveBack s.1 id buffer, s.2)

/-- What a sink keeps that logs transfers and records passages. -/
abbrev Kept (σ β : Type) := (σ × List (Completion β)) × Story β

/-- The transfers that an operation gives back. -/
def Operation.returns : Operation σ β → Engine β → List (Completion β)
  | .pollReclaim id direction, e =>
    match (e.pollReclaim id direction).1 with
    | .ok (some t) => [t]
    | _ => []
  | .runDeferred noise sink s, e => (e.runDeferred noise sink.logged (s, [])).2.1.2
  | _, _ => []

/-- The transfers that are given back at a moment. -/
def Moment.returns : Moment σ β → Engine β → List (Completion β)
  | .operate op, e => op.returns e
  | .disturb _, _ => []

/-- The transfers that a history gives back. -/
def Engine.returned : List (Moment σ β) → Engine β → List (Completion β)
  | [], _ => []
  | moment :: rest, e =>
    moment.returns e ++
      match moment.pass e with
      | none => []
      | some (_, e) => returned rest e

namespace Engine

/-! ### Words -/

section Words

variable {e e' : Engine β} {id : Nat} {c : Channel β}

/-- The rings of a channel never hold so many buffers that a word cannot count them. -/
structure Countable (e : Engine β) : Prop where
  shaped : e.plant.Shaped e.config
  size_le : e.config.txRingSize + e.config.rxRingSize ≤ UInt32.size

namespace Countable

theorem works {uses : Nat → Prop} {story : Story β} (h : e.Countable)
    (hworks : Works uses e story e') : e'.Countable := by
  refine ⟨?_, ?_⟩ <;> rw [hworks.config_eq]
  · exact hworks.run.shaped h.shaped
  · exact h.size_le

theorem pass {moment : Moment σ β} {seen : Story β} (h : e.Countable) (hidle : e.IdleEmpty)
    (hpass : moment.pass e = some (seen, e')) : e'.Countable := by
  have hlive : live [moment] e = some (seen ++ [], e') := by
    simp only [live, hpass, Option.map_some]
  obtain ⟨hconfig, hshaped⟩ := shaped_of_moments hidle hlive h.shaped
  refine ⟨?_, ?_⟩ <;> rw [hconfig]
  · exact hshaped
  · exact h.size_le

end Countable

end Words

/-! ### Workers -/

/-- Transfers were handed over. They are counted in words, and the sink keeps them. -/
structure Drained.Hands (d : Drained (Kept σ β) β) (seen : Story β) (back : List (Completion β))
    (d' : Drained (Kept σ β) β) : Prop where
  story_eq : d'.sink.2 = d.sink.2 ++ seen
  log_eq : d'.sink.1.2 = d.sink.1.2 ++ back
  delivered : seen.countP (·.2.isAccepted) = 0
  total_eq : d'.total = d.total + .ofNat back.length
  failed_eq : d'.failed = d.failed + .ofNat (back.countP (·.isError))

theorem Drained.Hands.trans {d d' d'' : Drained (Kept σ β) β} {seen seen' : Story β}
    {back back' : List (Completion β)} (h : d.Hands seen back d') (h' : d'.Hands seen' back' d'') :
    d.Hands (seen ++ seen') (back ++ back') d'' where
  story_eq := by rw [h'.story_eq, h.story_eq, List.append_assoc]
  log_eq := by rw [h'.log_eq, h.log_eq, List.append_assoc]
  delivered := by rw [List.countP_append, h.delivered, h'.delivered]
  total_eq := by
    rw [h'.total_eq, h.total_eq, List.length_append, UInt32.ofNat_add, UInt32.add_assoc]
  failed_eq := by
    rw [h'.failed_eq, h.failed_eq, List.countP_append, UInt32.ofNat_add, UInt32.add_assoc]

/-- Work of an engine counts what the sink keeps of it, as long as words can count it. -/
def CountsKept (e : Engine β) (s : Kept σ β) (e' : Engine β) (s' : Kept σ β) : Prop :=
  e.Countable → e'.Countable ∧
    ∃ seen back, Counts e seen back e' ∧ s'.2 = s.2 ++ seen ∧ s'.1.2 = s.1.2 ++ back

variable {e e' e'' : Engine β} {s s' s'' : Kept σ β}

theorem CountsKept.refl (e : Engine β) (s : Kept σ β) : CountsKept e s e s := fun h =>
  ⟨h, [], [], .refl e, (List.append_nil _).symm, (List.append_nil _).symm⟩

theorem CountsKept.trans (h : CountsKept e s e' s') (h' : CountsKept e' s' e'' s'') :
    CountsKept e s e'' s'' := by
  intro he
  obtain ⟨he', seen, back, hcounts, hstory, hlog⟩ := h he
  obtain ⟨he'', seen', back', hcounts', hstory', hlog'⟩ := h' he'
  refine ⟨he'', seen ++ seen', back ++ back', hcounts.trans hcounts', ?_, ?_⟩
  · rw [hstory', hstory, List.append_assoc]
  · rw [hlog', hlog, List.append_assoc]

/-- Receive buffers were posted. They are counted, and the sink keeps their passages. -/
structure Refilled.Posts (d : Refilled (Kept σ β) β) (seen : Story β)
    (d' : Refilled (Kept σ β) β) : Prop where
  story_eq : d'.sink.2 = d.sink.2 ++ seen
  log_eq : d'.sink.1.2 = d.sink.1.2
  posted_eq : d'.posted = d.posted + seen.countP (·.2.isAccepted)

theorem Refilled.Posts.trans {d d' d'' : Refilled (Kept σ β) β} {seen seen' : Story β}
    (h : d.Posts seen d') (h' : d'.Posts seen' d'') : d.Posts (seen ++ seen') d'' where
  story_eq := by rw [h'.story_eq, h.story_eq, List.append_assoc]
  log_eq := h'.log_eq.trans h.log_eq
  posted_eq := by rw [h'.posted_eq, h.posted_eq, List.countP_append, Nat.add_assoc]

end Engine

end PacketDma
