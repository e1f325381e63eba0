import RadioSpectrum.Proofs.Flowgraph.Invariant

namespace RadioSpectrum

namespace Flowgraph

-- A window that was drained, and the flowgraph before and after the turn in which it was.
structure Drain (α : Type) where
  handoff : Handoff α
  before  : State α
  after   : State α

namespace Drain

variable {α : Type}

structure Publishes (d : Drain α) (bins : List Float32) : Prop where
  store     : d.after.store = d.before.store.publish bins
  published : d.after.stats.windowsPublished = d.before.stats.windowsPublished + 1
  decimated : d.after.stats.windowsDecimated = d.before.stats.windowsDecimated

-- The result is left out, and counted as such.
structure LeavesOut (d : Drain α) : Prop where
  store     : d.after.store = d.before.store
  published : d.after.stats.windowsPublished = d.before.stats.windowsPublished
  decimated : d.after.stats.windowsDecimated = d.before.stats.windowsDecimated + 1

-- There is no result to be published or left out.
structure Faults (d : Drain α) : Prop where
  store     : d.after.store = d.before.store
  published : d.after.stats.windowsPublished = d.before.stats.windowsPublished
  decimated : d.after.stats.windowsDecimated = d.before.stats.windowsDecimated

-- The block computes the window, and what comes of that is told.
inductive Computes (d : Drain α) : Prop
  | published {bins} (result : d.handoff.block.compute d.handoff.window = .ok bins)
    (publishes : d.Publishes bins)
  | decimated {bins} (result : d.handoff.block.compute d.handoff.window = .ok bins)
    (leavesOut : d.LeavesOut)
  | faulted {error} (result : d.handoff.block.compute d.handoff.window = .error error)
    (faults : d.Faults)
    (report : d.after.faults.getLast? =
      some ⟨d.handoff.block.name, d.after.scheduler.sequence, error⟩)

end Drain

namespace State

variable {α : Type} {s t : State α} {chunk : List Int8}

-- What is settled for good when a flowgraph is built.
structure Fixed (s t : State α) : Prop where
  capacity : t.ring.capacity = s.ring.capacity
  policy   : t.policy = s.policy
  factory  : t.factory = s.factory

theorem Fixed.trans {u : State α} (f₁ : Fixed s t) (f₂ : Fixed t u) : Fixed s u where
  capacity := f₂.capacity.trans f₁.capacity
  policy   := f₂.policy.trans f₁.policy
  factory  := f₂.factory.trans f₁.factory

-- What a step does to the contents of the ring, told by its event.
structure Conserves (s : State α) (event : Event α) (t : State α) : Prop where
  samples : (windows [event]).flatten ++ t.ring.toList = s.ring.toList ++ (accepted [event]).flatten
  fixed   : Fixed s t

-- A step that neither accepts a chunk nor hands out a window leaves the contents alone.
theorem Conserves.of_silent {event : Event α} (ha : event.accepted? = none)
    (hh : event.handoff? = none) (h : t.ring.toList = s.ring.toList) (f : Fixed s t) :
    Conserves s event t :=
  ⟨by simp [windows, handoffs, accepted, ha, hh, h], f⟩

theorem Keeps.fixed (k : Keeps s t) : Fixed s t :=
  ⟨by rw [k.ring], k.policy, k.factory⟩

theorem Pushed.conserves {answer} (p : Pushed s chunk answer t) :
    Conserves s (.push chunk answer) t := by
  cases p
  case slept => exact .of_silent rfl rfl rfl ⟨rfl, rfl, rfl⟩
  case answered o =>
    cases o
    case accepted _ w =>
      refine ⟨?_, w.capacity, rfl, rfl⟩
      simp [windows, handoffs, accepted, Event.accepted?, Event.handoff?, w.toList]
    all_goals exact .of_silent rfl rfl rfl ⟨rfl, rfl, rfl⟩

theorem Resumed.conserves {answer} (r : Resumed s answer t) (hs : s.suspended = some chunk) :
    Conserves s (.push chunk answer) t := by
  cases r
  case asleep => exact .of_silent rfl rfl rfl ⟨rfl, rfl, rfl⟩
  case woken hs' _ p =>
    obtain rfl : chunk = _ := Option.some_inj.mp (hs.symm.trans hs')
    have ⟨h, f⟩ := p.conserves
    exact ⟨h, f.capacity, f.policy, f.factory⟩

theorem Turn.conserves {handoff summary} (e : Turn s handoff summary t) :
    Conserves s (.turn handoff summary) t := by
  cases e
  case rest => exact .of_silent rfl rfl rfl ⟨rfl, rfl, rfl⟩
  case ended r o _ =>
    have k := r.keeps.trans o.keeps
    exact .of_silent rfl rfl (by simp [finish, announce, k.ring])
      ⟨by simp [finish, announce, k.ring], k.policy, k.factory⟩
  case starved r o _ _ =>
    have k := r.keeps.trans o.keeps
    exact .of_silent rfl rfl (by simp [park, k.ring]) ⟨by simp [park, k.ring], k.policy, k.factory⟩
  case drained t _ ring r o _ hr c =>
    have k := r.keeps.trans o.keeps
    have hd := SampleRing.read_of_read? hr
    have f : Fixed t (t.drained ring) := ⟨hd.capacity, rfl, rfl⟩
    refine ⟨?_, (k.fixed.trans f).trans c.keeps.fixed⟩
    simp [windows, handoffs, accepted, Event.accepted?, Event.handoff?, c.keeps.ring,
      State.drained, ← hd.toList, k.ring]

theorem Turn.window_length {handoff summary} (e : Turn s (some handoff) summary t) (h : s.Sound) :
    handoff.window.length = handoff.block.inputLength := by
  cases e
  case drained r o _ hr _ =>
    rw [(SampleRing.read_of_read? hr).window_length, (o.up (r.up h)).coherent.buffer]

theorem computes_of_handoff? {handoff} (h : s.handoff? = some handoff) :
    s.turn.2.scheduler.transform = handoff.block ∧ Drain.Computes ⟨handoff, s, s.turn.2⟩ := by
  obtain ⟨t, hb, hr, ht⟩ := turn_of_handoff? h
  simp only [results, Prod.mk.injEq] at hr
  obtain ⟨ho, hp, hd⟩ := hr
  have c := compute_computed t handoff.window
  rw [ht]
  generalize t.compute handoff.window = u at c
  cases c
  case published bins result _ =>
    exact ⟨hb, .published (hb ▸ result) ⟨congrArg (·.publish bins) ho, congrArg (· + 1) hp, hd⟩⟩
  case decimated result _ =>
    exact ⟨hb, .decimated (hb ▸ result) ⟨ho, hp, congrArg (· + 1) hd⟩⟩
  case faulted result =>
    exact ⟨hb, .faulted (hb ▸ result) ⟨ho, hp, hd⟩ (hb ▸ List.getLast?_concat)⟩

-- New settings get hold of the samples that are already there. Nobody has to wake the scheduler for
-- that: if it sleeps, it was told to get up.
theorem handoff?_of_pending {config block} (h : s.Sound) (o : s.Open) (hp : s.pending = some config)
    (hm : s.factory s.built config = .ok block) (pos : 0 < block.inputLength)
    (hl : block.inputLength ≤ s.ring.length) :
    s.handoff? = some ⟨block, s.ring.toList.take block.inputLength⟩ ∧
      s.turn.2.ring.toList = s.ring.toList.drop block.inputLength := by
  have e := turn_turn s
  have hf := hl.trans s.ring.length_le_capacity
  generalize s.handoff? = handoff, s.turn.1 = summary, s.turn.2 = t at e ⊢
  cases e
  case rest u =>
    have ⟨_, ha⟩ := u.sleeps h o.readerDropped
    rw [(h.attentive.starved ha).pending] at hp
    contradiction
  case ended r k hs =>
    rw [(r.keeps.trans k.keeps).stopping, o.stopping] at hs
    contradiction
  case drained a t window ring r k _ hr c =>
    have ⟨ht, hb⟩ := r.installs k hp hm pos hf
    have hd := SampleRing.read_of_read? hr
    have hw : window.length = block.inputLength := hd.window_length.trans hb
    have hs : s.ring.toList = window ++ ring.toList := by
      rw [← (r.keeps.trans k.keeps).ring, hd.toList]
    constructor
    · simp [ht, hs, ← hw]
    · simp [hs, ← hw, c.keeps.ring, State.drained]
  case starved r k _ hl' =>
    have ⟨_, hb⟩ := r.installs k hp hm pos hf
    rw [hb, (r.keeps.trans k.keeps).ring] at hl'
    omega

theorem Waited.conserves {ticket generation answer} (r : Waited s ticket generation answer t) :
    Conserves s (.wait ticket answer) t := by
  cases r <;> exact .of_silent rfl rfl rfl ⟨rfl, rfl, rfl⟩

theorem WaitResumed.conserves {ticket answer} (r : WaitResumed s ticket answer t) :
    Conserves s (.wait ticket answer) t := by
  cases r
  case asleep => exact .of_silent rfl rfl rfl ⟨rfl, rfl, rfl⟩
  case woken r =>
    have ⟨h, f⟩ := r.conserves
    exact ⟨h, f.capacity, f.policy, f.factory⟩

theorem drop_conserves (s : State α) : Conserves s .drop s.drop := by
  unfold drop
  split <;> exact .of_silent rfl rfl rfl ⟨rfl, rfl, rfl⟩

variable [Scalar α]

theorem Updated.conserves {block index value stored} (d : Updated s block index value stored t) :
    Conserves s (.update block index value (.ok stored)) t := by
  cases d <;> exact .of_silent rfl rfl rfl ⟨rfl, rfl, rfl⟩

theorem Step.conserves {event} (e : Step s event t) : Conserves s event t := by
  cases e
  case push       => exact (push_pushed s _).conserves
  case resume hs  => exact (resumePush_resumed s).conserves hs
  case update hu  => exact (updated_of_update hu).conserves
  case refuse     => exact .of_silent rfl rfl rfl ⟨rfl, rfl, rfl⟩
  case stop       => exact .of_silent rfl rfl rfl ⟨rfl, rfl, rfl⟩
  case turn       => exact (turn_turn s).conserves
  case wait       => exact (wait_waited s _ _).conserves
  case resumeWait => exact (resumeWait_waitResumed s _).conserves
  case drop       => exact drop_conserves s

theorem Run.conserves {events} (r : Run s events t) :
    (windows events).flatten ++ t.ring.toList = s.ring.toList ++ (accepted events).flatten := by
  induction r
  case refl => simp [windows, handoffs, accepted]
  case step t u events event r e hi =>
    calc (windows (events ++ [event])).flatten ++ u.ring.toList
      _ = (windows events).flatten ++ ((windows [event]).flatten ++ u.ring.toList) := by simp
      _ = (windows events).flatten ++ (t.ring.toList ++ (accepted [event]).flatten) := by
        rw [e.conserves.samples]
      _ = s.ring.toList ++ (accepted events).flatten ++ (accepted [event]).flatten := by
        rw [← List.append_assoc, hi]
      _ = s.ring.toList ++ (accepted (events ++ [event])).flatten := by simp

theorem Run.fixed {events} (r : Run s events t) : Fixed s t := by
  induction r
  case refl      => exact ⟨rfl, rfl, rfl⟩
  case step e hi => exact hi.trans e.conserves.fixed

theorem Step.eq_turn {event handoff} (e : Step s event t) (h : event.handoff? = some handoff) :
    s.handoff? = some handoff ∧ t = s.turn.2 := by
  cases e
  case turn => exact ⟨h, rfl⟩
  all_goals contradiction

theorem Step.window_length {event handoff} (e : Step s event t) (h : s.Sound)
    (hm : handoff ∈ handoffs [event]) : handoff.window.length = handoff.block.inputLength := by
  have he : event.handoff? = some handoff := by simpa [handoffs] using hm
  have ⟨hh, _⟩ := e.eq_turn he
  exact (hh ▸ turn_turn s).window_length h

theorem Run.window_length {events handoff} (r : Run s events t) (h : s.Sound)
    (hm : handoff ∈ handoffs events) : handoff.window.length = handoff.block.inputLength := by
  induction r
  case refl => simp [handoffs] at hm
  case step r e hi =>
    rw [handoffs_append, List.mem_append] at hm
    exact hm.elim hi (e.window_length (r.sound h))

-- The states between which a window was drained.
theorem Run.exists_drain {events before handoff summary after} (r : Run s events t)
    (h : events = before ++ .turn (some handoff) summary :: after) :
    ∃ u v, Run s before u ∧ Step u (.turn (some handoff) summary) v ∧ Run v after t ∧
      v.scheduler.transform = handoff.block ∧ Drain.Computes ⟨handoff, u, v⟩ := by
  obtain ⟨u, v, r, e, r'⟩ := r.exists_step h
  obtain ⟨hh, rfl⟩ := e.eq_turn rfl
  exact ⟨_, _, r, e, r', computes_of_handoff? hh⟩

-- The last part is what becomes of samples when new settings change the length of windows: they
-- stay, and are drained by the new length.
theorem samples_conserved {s₀ s : State α} {factory config events}
    (h₀ : ofConfig factory config = .ok s₀) (r : Run s₀ events s) :
    (windows events).flatten ++ s.ring.toList = (accepted events).flatten ∧
      (∀ handoff ∈ handoffs events, handoff.window.length = handoff.block.inputLength) ∧
      (∀ before handoff summary after, events = before ++ .turn (some handoff) summary :: after →
        ∃ t u, Run s₀ before t ∧ Step t (.turn (some handoff) summary) u ∧ Run u after s ∧
          u.scheduler.transform = handoff.block ∧ Drain.Computes ⟨handoff, t, u⟩) ∧
      s.ring.toList.length ≤ config.bufferCapacity ∧
      (s.Open → ∀ next block, s.pending = some next → factory s.built next = .ok block →
        0 < block.inputLength → block.inputLength ≤ s.ring.toList.length →
        s.handoff? = some ⟨block, s.ring.toList.take block.inputLength⟩ ∧
          s.turn.2.ring.toList = s.ring.toList.drop block.inputLength) := by
  have b := built_of_ofConfig h₀
  have h := b.sound
  refine ⟨?_, fun _ hm => r.window_length h hm, fun _ _ _ _ => r.exists_drain, ?_, ?_⟩
  · simpa [b.ring_toList] using r.conserves
  · simpa [r.fixed.capacity, b.ring_capacity] using s.ring.length_le_capacity
  · intro o next block hp hm pos hl
    rw [← b.factory_eq, ← r.fixed.factory] at hm
    exact handoff?_of_pending (r.sound h) o hp hm pos (by simpa using hl)

section Fickle

-- A block that shows the samples themselves.
def plain (n : Nat) : Transform Rat :=
  ⟨"plain", n, n, fun window => .ok (window.map Precision.ofSample)⟩

-- Blocks whose windows get shorter each time, until no more can be made.
def fickle : Factory Rat := fun built _ =>
  if built < 3 then .ok (plain (3 - built)) else .error .invalidChunk

def fickleConfig : FlowgraphConfig where
  bufferCapacity := 64
  transform := { fftSize := 64, format := .real }

theorem fickle_isSome : (ofConfig fickle fickleConfig).toOption.isSome := by
  decide +kernel

-- Two chunks come in. One window was drained from them when new settings arrive.
def fickleStart : State Rat :=
  (ofConfig fickle fickleConfig).toOption.get fickle_isSome

def fickleHeld : State Rat :=
  ((fickleStart.push [1, 2, 3, 4]).2.push [5, 6]).2

def fickleFed : State Rat :=
  fickleHeld.turn.2

theorem fickleFed_update_isSome : (fickleFed.update .spectrum 0 6).toOption.isSome := by
  decide +kernel

def fickleChanged : State Rat :=
  ((fickleFed.update .spectrum 0 6).toOption.get fickleFed_update_isSome).2

theorem fickleHeld_step :
    Step fickleHeld (.turn (some ⟨plain 3, [1, 2, 3]⟩) none) fickleFed := by
  have hh : fickleHeld.handoff? = some ⟨plain 3, [1, 2, 3]⟩ := by with_unfolding_all rfl
  have ht : fickleHeld.turn.1 = none := by decide +kernel
  exact hh ▸ ht ▸ Step.turn

theorem samples_conserved_fickle :
    ∃ events, ofConfig fickle fickleConfig = .ok fickleStart ∧
      Run fickleStart events fickleChanged ∧ windows events = [[1, 2, 3]] ∧
      accepted events = [[1, 2, 3, 4], [5, 6]] ∧
      (windows events).flatten ++ fickleChanged.ring.toList = (accepted events).flatten ∧
      (∀ handoff ∈ handoffs events, handoff.window.length = handoff.block.inputLength) ∧
      (∃ t u, Run fickleStart (events.take 2) t ∧
        Step t (.turn (some ⟨plain 3, [1, 2, 3]⟩) none) u ∧ Run u (events.drop 3) fickleChanged ∧
        u.scheduler.transform = plain 3 ∧ Drain.Computes ⟨⟨plain 3, [1, 2, 3]⟩, t, u⟩) ∧
      fickleChanged.store.current.bins = [1, 2, 3].map Precision.ofSample ∧
      fickleChanged.ring.toList.length ≤ 64 ∧
      fickleChanged.handoff?.map (·.window) = some [4, 5] ∧
      fickleChanged.turn.2.ring.toList = [6] := by
  have h₀ := eq_ok_get fickle_isSome
  have r : Run fickleStart _ fickleChanged :=
    .step (.step (.step (.step .refl (.push [1, 2, 3, 4] (by decide +kernel)))
      (.push [5, 6] (by decide +kernel))) fickleHeld_step)
      (.update (eq_ok_get fickleFed_update_isSome))
  have hb : fickleChanged.built = 1 := by decide +kernel
  have hm : fickle fickleChanged.built fickleChanged.staged = .ok (plain 2) := by rw [hb]; rfl
  have hp : fickleChanged.pending = some fickleChanged.staged := by decide +kernel
  have ⟨hs, hw, hd, hc, hl⟩ := samples_conserved h₀ r
  have ⟨hh, hr⟩ := hl ⟨by decide +kernel, by decide +kernel⟩ _ _ hp hm (by decide)
    (by decide +kernel)
  exact ⟨_, h₀, r, by decide +kernel, by decide +kernel, hs, hw, hd _ _ _ _ rfl,
    by decide +kernel, hc, by rw [hh]; decide +kernel, by rw [hr]; decide +kernel⟩

end Fickle

end State

end Flowgraph

end RadioSpectrum
