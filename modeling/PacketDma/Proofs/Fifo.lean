import PacketDma.Proofs.Flow
import PacketDma.Proofs.History

/-!
# First in, first out, exactly once

On every ring, the buffers come out in the order in which they went in, and none comes out twice.
Those that do not come out are still in flight, or were in flight when the rings were emptied,
replaced or given up. Nothing the device writes to descriptors changes this, at whatever time.

## Implementation notes

The account of a ring is a relation between a story and the buffers that the ring holds after it.
Each rule lets buffers in at the end and out at the front only. The slots of the ring follow it.
-/

namespace PacketDma

variable {σ β : Type}

/-! ### The account of a ring -/

namespace Story

/-- The buffers that a story lets in on a ring, in their order. -/
def accepted (id : Nat) (d : Direction) (story : Story β) : List β :=
  story.filterMap fun entry =>
    match entry.2 with
    | .accepted d' b => if entry.1 = id ∧ d' = d then some b else none
    | _ => none

/-- The buffers that a story lets out of a ring, in their order. -/
def delivered (id : Nat) (d : Direction) (story : Story β) : List β :=
  story.filterMap fun entry =>
    match entry.2 with
    | .delivered d' b => if entry.1 = id ∧ d' = d then some b else none
    | _ => none

/-- Whether an entry of a story tells of the ring of a channel and direction. -/
def Concerns (id : Nat) (d : Direction) (entry : Nat × Passage β) : Prop :=
  entry.1 = id ∧
    match entry.2 with
    | .accepted d' _ | .delivered d' _ => d' = d
    | .discarded _ => True

/-- The account of a ring: after a story, these buffers were lost and these are held, the oldest
first. A buffer that is accepted comes last, the one that is delivered was first, and all that are
held are lost together. -/
inductive Account (id : Nat) (d : Direction) : Story β → List β → List β → Prop where
  | nil : Account id d [] [] []
  | accept {story : Story β} {lost held : List β} (h : Account id d story lost held) (b : β) :
      Account id d (story ++ [(id, .accepted d b)]) lost (held ++ [b])
  | deliver {story : Story β} {lost held : List β} {b : β}
      (h : Account id d story lost (b :: held)) :
      Account id d (story ++ [(id, .delivered d b)]) lost held
  | discard {story : Story β} {lost held : List β} (h : Account id d story lost held)
      (cause : Discard) :
      Account id d (story ++ [(id, .discarded cause)]) (lost ++ held) []
  | elsewhere {story : Story β} {lost held : List β} (h : Account id d story lost held)
      {entry : Nat × Passage β} (he : ¬ Concerns id d entry) :
      Account id d (story ++ [entry]) lost held

namespace Account

variable {id : Nat} {d : Direction} {story story' : Story β} {lost held : List β}

theorem accepted_elsewhere {entry : Nat × Passage β} (he : ¬ Concerns id d entry) :
    accepted id d (story ++ [entry]) = accepted id d story := by
  obtain ⟨i, p⟩ := entry
  cases p <;> simp_all [accepted, Concerns]

theorem delivered_elsewhere {entry : Nat × Passage β} (he : ¬ Concerns id d entry) :
    delivered id d (story ++ [entry]) = delivered id d story := by
  obtain ⟨i, p⟩ := entry
  cases p <;> simp_all [delivered, Concerns]

/-- The buffers that came out and those that are held came in, in this order. -/
theorem sublist (h : Account id d story lost held) :
    (story.delivered id d ++ held).Sublist (story.accepted id d) := by
  induction h with
  | nil => exact .refl _
  | accept _ b ih =>
    simpa [accepted, delivered] using ih.append (List.Sublist.refl [b])
  | deliver _ ih => simpa [accepted, delivered] using ih
  | discard _ cause ih =>
    have hout := (List.sublist_append_left _ _).trans ih
    simpa [accepted, delivered] using hout
  | elsewhere _ he ih => rwa [accepted_elsewhere he, delivered_elsewhere he]

/-- Every buffer that came in went one way: it came out, was lost, or is held. -/
theorem perm (h : Account id d story lost held) :
    (story.accepted id d).Perm (story.delivered id d ++ lost ++ held) := by
  induction h with
  | nil => exact .refl _
  | accept _ b ih =>
    simpa [accepted, delivered] using ih.append_right [b]
  | @deliver story lost held b _ ih =>
    have hmiddle : (delivered id d story ++ lost ++ b :: held).Perm
        (delivered id d story ++ b :: (lost ++ held)) := by
      rw [List.append_assoc]
      exact List.Perm.append_left _ List.perm_middle
    simpa [accepted, delivered] using ih.trans hmiddle
  | discard _ cause ih => simpa [accepted, delivered] using ih
  | elsewhere _ he ih => rwa [accepted_elsewhere he, delivered_elsewhere he]

/-- After some discards, nothing is held if one of them was on the ring's channel. -/
theorem discards (entries : Story β) (h : Account id d story lost held)
    (hall : ∀ entry ∈ entries, ∃ cause, entry.2 = .discarded cause) :
    ∃ lost', ((∃ entry ∈ entries, entry.1 = id) → Account id d (story ++ entries) lost' []) ∧
      ((∀ entry ∈ entries, entry.1 ≠ id) → Account id d (story ++ entries) lost' held) := by
  induction entries generalizing story lost held with
  | nil => exact ⟨lost, by simp, by simpa using h⟩
  | cons entry rest ih =>
    obtain ⟨i, p⟩ := entry
    obtain ⟨cause, hcause⟩ := hall (i, p) (by simp)
    obtain rfl : p = .discarded cause := hcause
    have hrest : ∀ entry ∈ rest, ∃ cause, entry.2 = .discarded cause := fun entry hmem =>
      hall entry (by simp [hmem])
    have hassoc : story ++ (i, .discarded cause) :: rest =
        story ++ [(i, .discarded cause)] ++ rest := by simp
    rw [hassoc]
    by_cases hi : i = id
    · subst hi
      obtain ⟨lost', hsome, hnone⟩ := ih (h.discard cause) hrest
      refine ⟨lost', ?_, fun hno => absurd rfl (hno (i, .discarded cause) (by simp))⟩
      intro _
      by_cases hmore : ∃ entry ∈ rest, entry.1 = i
      · exact hsome hmore
      · exact hnone fun entry hmem heq => hmore ⟨entry, hmem, heq⟩
    · have he : ¬ Concerns id d (i, (.discarded cause : Passage β)) := fun hconcerns =>
        hi hconcerns.1
      obtain ⟨lost', hsome, hnone⟩ := ih (h.elsewhere he) hrest
      refine ⟨lost', fun hyes => hsome ?_, fun hno => hnone ?_⟩
      · obtain ⟨entry, hmem, heq⟩ := hyes
        rcases List.mem_cons.mp hmem with rfl | hmem
        · exact absurd heq hi
        · exact ⟨entry, hmem, heq⟩
      · intro entry hmem
        exact hno entry (by simp [hmem])

end Account

end Story

/-! ### Runs follow their accounts -/

namespace Plant

variable {config : Config} {uses : Nat → Prop} {p p' : Plant β} {story now : Story β}

/-- Every ring of the plant holds what its account says. -/
def Follows (p : Plant β) (story : Story β) : Prop :=
  ∀ id d, ∃ lost, Story.Account id d story lost ((p.queue id d).map (·.buffer))

theorem queue_set_self {channels : List (Channel β)} {m : Machine β} {id : Nat}
    {c : Channel β} (hlt : id < channels.length) (d : Direction) :
    queue ⟨channels.set id c, m⟩ id d = c.queue d :=
  queue_of_some (List.getElem?_set_self hlt) d

theorem queue_set_ne {channels : List (Channel β)} {m n : Machine β} {id i : Nat}
    {c : Channel β} (hne : i ≠ id) (d : Direction) :
    queue ⟨channels.set id c, m⟩ i d = queue ⟨channels, n⟩ i d := by
  simp only [queue, List.getElem?_set_ne (Ne.symm hne)]

/-- The flow of one channel follows the accounts of its rings and leaves the others alone. -/
theorem Follows.flow {id : Nat} {c c' : Channel β} {m' : Machine β} {passages : List (Passage β)}
    (h : p.Follows story) (hc : p.channels[id]? = some c)
    (hflow : Channel.Flow c p.machine passages c' m') :
    Follows ⟨p.channels.set id c', m'⟩ (story ++ passages.map (id, ·)) := by
  obtain ⟨hlt, _⟩ := List.getElem?_eq_some_iff.mp hc
  intro i d
  obtain ⟨lost, haccount⟩ := h i d
  by_cases hi : i = id
  · subst hi
    rw [queue_set_self hlt]
    rw [queue_of_some hc] at haccount
    cases hflow with
    | still hqueue _ =>
      rw [hqueue]
      exact ⟨lost, by simpa using haccount⟩
    | accept d₀ s _ hqueue hother _ =>
      by_cases hd : d = d₀
      · subst hd
        rw [hqueue, List.map_append]
        exact ⟨lost, haccount.accept s.buffer⟩
      · rw [hother d hd]
        exact ⟨lost, haccount.elsewhere fun hconcerns => hd hconcerns.2.symm⟩
    | deliver d₀ s _ control hqueue hother _ =>
      by_cases hd : d = d₀
      · subst hd
        rw [hqueue, List.map_cons] at haccount
        exact ⟨lost, haccount.deliver⟩
      · rw [hother d hd]
        exact ⟨lost, haccount.elsewhere fun hconcerns => hd hconcerns.2.symm⟩
    | discard cause n hqueue _ _ =>
      rw [hqueue]
      exact ⟨_, haccount.discard cause⟩
  · rw [queue_set_ne hi d (n := p.machine)]
    refine ⟨lost, ?_⟩
    cases hflow with
    | still => simpa using haccount
    | accept => exact haccount.elsewhere fun hconcerns => hi hconcerns.1.symm
    | deliver => exact haccount.elsewhere fun hconcerns => hi hconcerns.1.symm
    | discard => exact haccount.elsewhere fun hconcerns => hi hconcerns.1.symm

/-- A new channel holds nothing, as its number was not in use. -/
theorem Follows.build {c : Channel β} {m : Machine β} (h : p.Follows story)
    (hnew : ∀ d, c.queue d = []) : Follows ⟨p.channels ++ [c], m⟩ story := by
  intro i d
  obtain ⟨lost, haccount⟩ := h i d
  refine ⟨lost, ?_⟩
  cases hi : (p.channels ++ [c])[i]? with
  | none =>
    have hnone : p.channels[i]? = none := by
      rw [List.getElem?_eq_none_iff] at hi ⊢
      rw [List.length_append] at hi
      omega
    rw [queue_of_none hi]
    rwa [queue_of_none hnone] at haccount
  | some e =>
    rw [queue_of_some hi]
    rcases getElem?_build hi with ⟨rfl, rfl⟩ | hold
    · rw [hnew]
      rwa [queue_of_none (List.getElem?_eq_none_iff.mpr (Nat.le_refl _))] at haccount
    · rwa [queue_of_some hold] at haccount

/-- Once all channels are given up, nothing is held. -/
theorem Follows.release {m : Machine β} (h : p.Follows story) (hp : p.Sound)
    (hnow : now = p.channels.map (fun c => (c.id, .discarded .teardown)) ∨
      now = [] ∧ ∀ c ∈ p.channels, ∀ d, (c.ring d).slots = []) :
    Follows ⟨[], m⟩ (story ++ now) := by
  intro i d
  obtain ⟨lost, haccount⟩ := h i d
  have hempty : queue ⟨[], m⟩ i d = [] := queue_of_none (by simp) d
  rw [hempty]
  rcases hnow with rfl | ⟨rfl, hslots⟩
  · obtain ⟨lost', hsome, hnone⟩ := haccount.discards
      (p.channels.map fun c => (c.id, .discarded .teardown)) fun entry hmem => by
        obtain ⟨c, _, rfl⟩ := List.mem_map.mp hmem
        exact ⟨.teardown, rfl⟩
    refine ⟨lost', ?_⟩
    cases hi : p.channels[i]? with
    | some c =>
      have hid := hp.id_eq i c hi
      exact hsome ⟨_, List.mem_map.mpr ⟨c, List.mem_of_getElem? hi, rfl⟩, hid⟩
    | none =>
      rw [queue_of_none hi] at hnone
      apply hnone
      intro entry hmem heq
      obtain ⟨c, hc, rfl⟩ := List.mem_map.mp hmem
      obtain ⟨j, hj⟩ := List.getElem?_of_mem hc
      rw [← heq, hp.id_eq j c hj, hj] at hi
      simp at hi
  · refine ⟨lost, ?_⟩
    rw [List.append_nil]
    cases hi : p.channels[i]? with
    | none => rwa [queue_of_none hi] at haccount
    | some c =>
      have hqueue : c.queue d = [] := by
        have hperm := (c.ring d).queue_perm_slots
        rw [hslots c (List.mem_of_getElem? hi) d] at hperm
        exact hperm.eq_nil
      rwa [queue_of_some hi, hqueue] at haccount

theorem Step.follows (h : Step config uses p now p') (hp : p.Sound) (hf : p.Follows story) :
    p'.Follows (story ++ now) := by
  cases h with
  | channel hc h => exact hf.flow hc (h.flow (hp.rings _ _ hc)).1
  | quiet =>
    rw [List.append_nil]
    exact hf
  | build _ _ h =>
    obtain ⟨_, _, _, _, _, hnew⟩ := Channel.of_build h
    rw [List.append_nil]
    exact hf.build fun d => (hnew d).carries.queue_eq
  | release _ hnow => exact hf.release hp hnow

/-- A run of the plant follows the accounts of all rings. -/
theorem Run.follows (h : Run config uses p now p') (hp : p.Sound) (hf : p.Follows story) :
    p'.Follows (story ++ now) := by
  induction h with
  | refl => simpa using hf
  | step hrun hs ih =>
    rw [← List.append_assoc]
    exact hs.follows (hrun.sound hp) ih

end Plant

/-! ### Histories -/

namespace Story

theorem accepted_seen (id : Nat) (d : Direction) (story : Story β) :
    story.seen.accepted id d = story.accepted id d := by
  rw [accepted, accepted, seen, List.filterMap_filter]
  congr 1
  funext entry
  obtain ⟨i, p⟩ := entry
  cases p <;> rfl

theorem delivered_seen (id : Nat) (d : Direction) (story : Story β) :
    story.seen.delivered id d = story.delivered id d := by
  rw [delivered, delivered, seen, List.filterMap_filter]
  congr 1
  funext entry
  obtain ⟨i, p⟩ := entry
  cases p <;> rfl

end Story

namespace Engine

/-- The buffers in flight on the ring of a channel and direction, oldest first. -/
def held (e : Engine β) (id : Nat) (d : Direction) : List β :=
  (e.plant.queue id d).map (·.buffer)

/-- The full story of some moments: what each moment shows, and then what it discards. -/
def tale : List (Moment σ β) → Engine β → Story β
  | [], _ => []
  | moment :: rest, e =>
    match moment.pass e with
    | none => []
    | some (seen, e') => seen ++ .ofDiscards (moment.discards e) ++ tale rest e'

/-- The rings follow the story of a moment. -/
theorem follows_of_pass {moment : Moment σ β} {e e' : Engine β} {seen before : Story β}
    (hidle : e.IdleEmpty) (hsound : e.plant.Sound) (hf : e.plant.Follows before)
    (h : moment.pass e = some (seen, e')) :
    e'.plant.Sound ∧
      e'.plant.Follows (before ++ (seen ++ .ofDiscards (moment.discards e))) := by
  by_cases hworld : moment.IsRegisterChange
  · cases moment with
    | operate op => exact hworld.elim
    | disturb d =>
      cases d with
      | registers f =>
        obtain ⟨rfl, rfl⟩ := Prod.mk.inj (Option.some.inj h)
        refine ⟨hsound.machine _, ?_⟩
        rw [Moment.discards, Story.ofDiscards, List.map_nil, List.append_nil, List.append_nil]
        exact hf
      | _ => exact hworld.elim
  · have hrun := moment.run_of_pass hidle h hworld
    exact ⟨hrun.sound hsound, hrun.follows hsound hf⟩

/-- The rings follow the story of a history, and its owner sees what the history shows. -/
theorem follows_of_live {moments : List (Moment σ β)} {e e' : Engine β} {seen before : Story β}
    (hidle : e.IdleEmpty) (hsound : e.plant.Sound) (hf : e.plant.Follows before)
    (h : live moments e = some (seen, e')) :
    (tale moments e).seen = seen ∧ e'.plant.Sound ∧
      e'.plant.Follows (before ++ tale moments e) := by
  induction moments generalizing e seen before with
  | nil =>
    obtain ⟨rfl, rfl⟩ := Prod.mk.inj (Option.some.inj h)
    exact ⟨rfl, hsound, by rwa [tale, List.append_nil]⟩
  | cons moment rest ih =>
    simp only [live] at h
    split at h
    · simp at h
    next now e₁ hfirst =>
      obtain ⟨⟨later, e₂⟩, hrest, h⟩ := Option.map_eq_some_iff.mp h
      obtain ⟨rfl, rfl⟩ := Prod.mk.inj h
      obtain ⟨hsound₁, hf₁⟩ := follows_of_pass hidle hsound hf hfirst
      obtain ⟨hseen, hsound₂, hf₂⟩ := ih (moment.idleEmpty_of_pass hidle hfirst) hsound₁ hf₁ hrest
      simp only [tale, hfirst]
      refine ⟨?_, hsound₂, by rwa [← List.append_assoc]⟩
      rw [Story.seen_append, Story.seen_append, Story.seen_ofDiscards, List.append_nil, hseen,
        moment.seen_of_pass hfirst]

/-- In every history of a new engine, the buffers delivered on a ring are those accepted on it, in
their order, without those that are still in flight and those that were in flight at a discard.
Buffers are discarded where a channel is set up anew, the engine goes down, or an attempt to recover
was claimed for faults for which its action empties or replaces the rings, and nowhere else. None is
delivered twice, and no look at the ring ever finds a slot missing. -/
theorem fifo_exactly_once {config : Config} {m : Machine β} {moments : List (Moment σ β)}
    {seen : Story β} {e : Engine β} (h : live moments (new config m) = some (seen, e)) :
    (tale moments (new config m)).seen = seen ∧
      ∀ id d, ∃ lost, Story.Account id d (tale moments (new config m)) lost (e.held id d) ∧
        (seen.delivered id d ++ e.held id d).Sublist (seen.accepted id d) ∧
        (seen.accepted id d).Perm (seen.delivered id d ++ lost ++ e.held id d) ∧
        ∀ c, e.channels[id]? = some c → ∀ writes f,
          ¬ (((c.ring d).looks writes).overwrite f).Misses := by
  have hnew : (new config m).plant.Follows [] := fun id d => ⟨[], by
    rw [Plant.queue_of_none (by simp [plant, new]) d]
    exact .nil⟩
  obtain ⟨hseen, hsound, hfollows⟩ :=
    follows_of_live (idleEmpty_new config m) (.empty m) hnew h
  refine ⟨hseen, ?_⟩
  intro id d
  obtain ⟨lost, haccount⟩ := hfollows id d
  rw [List.nil_append] at haccount
  refine ⟨lost, haccount, ?_, ?_, ?_⟩
  · rw [← hseen, Story.accepted_seen, Story.delivered_seen]
    exact haccount.sublist
  · rw [← hseen, Story.accepted_seen, Story.delivered_seen]
    exact haccount.perm
  · intro c hc writes f
    obtain ⟨rest, hcarries⟩ := Ring.carries_looks (hsound.rings id c hc d) writes
    exact Ring.not_misses (Ring.carries_overwrite hcarries f)

/-- Two buffers are posted, and one of them is taken back before the channel is set up anew. Two
more are drained by a worker, at whose first look the device hands them back. -/
def trip : List (Moment Unit Nat) :=
  [.operate (.init 0 1), .operate (.startChannel 0),
    .operate (.enqueue 0 .toDevice 7 64), .operate (.enqueue 0 .toDevice 8 64),
    .disturb (.descriptors 0 fun _ _ d => { d with control := 0 }),
    .operate (.pollReclaim 0 .toDevice), .operate (.reinitChannel 0),
    .operate (.enqueue 0 .toDevice 9 64), .operate (.enqueue 0 .toDevice 10 64),
    .disturb (.work { WorkQueue.new with
      isOpen := true
      pending := PendingWork.none.add 0 .completion }),
    .operate (.runDeferred
      (fun _ _ n _ _ d => if n = 2 then { d with control := 0 } else d)
      (.bare fun s _ _ _ => s) ())]

theorem fifo_exactly_once_trip : ∃ seen e,
    live trip (new .bench .bench) = some (seen, e) ∧
      seen.accepted 0 .toDevice = [7, 8, 9, 10] ∧ seen.delivered 0 .toDevice = [7, 9, 10] ∧
        (tale trip (new .bench .bench)).filter (!·.2.isSeen) = [(0, .discarded .reinit)] ∧
        ∃ lost, (seen.accepted 0 .toDevice).Perm
          (seen.delivered 0 .toDevice ++ lost ++ e.held 0 .toDevice) := by
  have hends : (live trip (new .bench .bench)).isSome = true := by decide +kernel
  have hseen : (live trip (new .bench .bench)).map (fun r =>
      (r.1.accepted 0 .toDevice, r.1.delivered 0 .toDevice)) =
        some ([7, 8, 9, 10], [7, 9, 10]) := by decide +kernel
  have hdiscards : (tale trip (new .bench .bench)).filter (!·.2.isSeen) =
      [(0, .discarded .reinit)] := by decide +kernel
  obtain ⟨⟨seen, e⟩, h⟩ := Option.isSome_iff_exists.mp hends
  rw [h] at hseen
  obtain ⟨haccepted, hdelivered⟩ := Prod.mk.inj (Option.some.inj hseen)
  obtain ⟨_, hrings⟩ := fifo_exactly_once h
  obtain ⟨lost, _, _, hperm, _⟩ := hrings 0 .toDevice
  exact ⟨seen, e, h, haccepted, hdelivered, hdiscards, lost, hperm⟩

end Engine

end PacketDma
