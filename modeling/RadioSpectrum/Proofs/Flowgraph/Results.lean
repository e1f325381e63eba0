import RadioSpectrum.Proofs.Flowgraph.Settings
import RadioSpectrum.Proofs.Spectrum.Kernel

namespace RadioSpectrum

namespace Flowgraph

namespace State

open Precision

variable {α : Type} {s t : State α} {chunk window : List Int8} {kernel : Kernel}

-- No fault is reported on the way from `s` to `t`.
structure Smooth (s t : State α) : Prop where
  faults  : t.faults = s.faults
  counted : t.stats.faults = s.stats.faults

-- No result is published either.
structure Quiet (s t : State α) : Prop extends Smooth s t where
  store : t.store = s.store

-- A window was drained, and its bins became the latest result.
structure Published (handoff : Option (Handoff α)) (s t : State α) : Prop where
  store  : t.store = s.store.publish t.store.current.bins
  shaped : t.active.Shaped t.store.current.bins
  window : ∃ block window, handoff = some ⟨block, window⟩ ∧
    window.length = t.active.windowLength ∧ block.compute window = .ok t.store.current.bins

theorem Pushed.quiet {answer} (p : Pushed s chunk answer t) : Quiet s t := by
  cases p
  case answered o => cases o <;> exact ⟨⟨rfl, rfl⟩, rfl⟩
  case slept      => exact ⟨⟨rfl, rfl⟩, rfl⟩

theorem Resumed.quiet {answer} (r : Resumed s answer t) : Quiet s t := by
  cases r
  case asleep  => exact ⟨⟨rfl, rfl⟩, rfl⟩
  case woken p => exact ⟨⟨p.quiet.faults, p.quiet.counted⟩, p.quiet.store⟩

theorem drop_quiet (s : State α) : Quiet s s.drop := by
  unfold drop
  split <;> exact ⟨⟨rfl, rfl⟩, rfl⟩

theorem Roused.quiet (r : Roused s t) : Quiet s t := by
  cases r <;> exact ⟨⟨rfl, rfl⟩, rfl⟩

theorem Quiet.trans {u : State α} (q₁ : Quiet s t) (q₂ : Quiet t u) : Quiet s u where
  faults  := q₂.faults.trans q₁.faults
  counted := q₂.counted.trans q₁.counted
  store   := q₂.store.trans q₁.store

theorem Published.congr {u : State α} {handoff} (p : Published handoff u t)
    (h : u.store = s.store) : Published handoff s t :=
  ⟨h ▸ p.store, p.shaped, p.window⟩

variable [Scalar α]

theorem Updated.quiet {block index value stored} (d : Updated s block index value stored t) :
    Quiet s t := by
  cases d <;> exact ⟨⟨rfl, rfl⟩, rfl⟩

theorem TakenOver.quiet (o : TakenOver s t) (h : s.Settled kernel) : Quiet s t := by
  rcases o.eq_self_or_install h with ⟨-, rfl⟩ | ⟨transform, -, -, rfl⟩ <;> exact ⟨⟨rfl, rfl⟩, rfl⟩

theorem exists_compute_of_spectrumFactory {n config} {block : Transform α} (hk : kernel.Regular)
    (h : spectrumFactory kernel n config = .ok block) (hw : window.length = config.windowLength) :
    ∃ bins, block.compute window = .ok bins ∧ config.Shaped bins := by
  obtain ⟨b, hb, rfl⟩ := map_eq_ok.mp h
  have hc := SpectrumBlock.single_coefficients hk hb
  obtain ⟨rfl, rfl, ready⟩ := SpectrumBlock.ready_of_ofConfig hb
  exact ready.exists_compute hk hc hw

-- A block that was made for the settings in force computes a window of their length.
theorem Computed.published_or_quiet (c : Computed s window t) (hk : kernel.Regular)
    (h : s.Settled kernel) (hw : window.length = s.active.windowLength) :
    Smooth s t ∧ (t.store = s.store ∨ Published (some ⟨s.scheduler.transform, window⟩) s t) := by
  have ⟨bins, hb, shaped⟩ := exists_compute_of_spectrumFactory hk h.block hw
  cases c
  case published bins' result _ =>
    obtain rfl := Except.ok.inj (hb.symm.trans result)
    exact ⟨⟨rfl, rfl⟩, .inr ⟨rfl, shaped, _, _, rfl, hw, result⟩⟩
  case decimated      => exact ⟨⟨rfl, rfl⟩, .inl rfl⟩
  case faulted result =>
    rw [hb] at result
    contradiction

theorem Turn.published_or_quiet {handoff summary} (e : Turn s handoff summary t)
    (hk : kernel.Regular) (h : s.Sound) (hs : s.Settled kernel) :
    Smooth s t ∧ (t.store = s.store ∨ Published handoff s t) := by
  cases e
  case rest => exact ⟨⟨rfl, rfl⟩, .inl rfl⟩
  case ended r o _ =>
    have q := r.quiet.trans (o.quiet (r.settled hs))
    exact ⟨⟨q.faults, q.counted⟩, .inl q.store⟩
  case starved r o _ _ =>
    have q := r.quiet.trans (o.quiet (r.settled hs))
    exact ⟨⟨q.faults, q.counted⟩, .inl q.store⟩
  case drained a u window ring r o _ hr c =>
    have q := r.quiet.trans (o.quiet (r.settled hs))
    have hu := o.settled (r.settled hs)
    have hd := SampleRing.read_of_read? hr
    have hw : window.length = u.active.windowLength := by
      rw [hd.window_length, (o.up (r.up h)).coherent.buffer, hu.length]
    have hu' : (u.drained ring).Settled kernel := hu.congr rfl hd.capacity
    have ⟨smooth, hp⟩ := c.published_or_quiet hk hu' hw
    refine ⟨⟨smooth.faults.trans q.faults, smooth.counted.trans q.counted⟩, ?_⟩
    exact hp.imp (·.trans q.store) (·.congr q.store)

-- Nothing but a turn publishes a result.
theorem Step.published_or_quiet {event} (e : Step s event t) (hk : kernel.Regular) (h : s.Sound)
    (hs : s.Settled kernel) :
    Smooth s t ∧ (t.store = s.store ∨
      event = .turn s.handoff? s.turn.1 ∧ t = s.turn.2 ∧ Published s.handoff? s t) := by
  have quiet (q : Quiet s t) : Smooth s t ∧ (t.store = s.store ∨
      event = .turn s.handoff? s.turn.1 ∧ t = s.turn.2 ∧ Published s.handoff? s t) :=
    ⟨q.toSmooth, .inl q.store⟩
  cases e
  case push       => exact quiet (push_pushed s _).quiet
  case resume     => exact quiet (resumePush_resumed s).quiet
  case update hu  => exact quiet (updated_of_update hu).quiet
  case refuse     => exact quiet ⟨⟨rfl, rfl⟩, rfl⟩
  case stop       => exact quiet ⟨⟨rfl, rfl⟩, rfl⟩
  case drop       => exact quiet (drop_quiet s)
  case wait ticket generation _ =>
    obtain ⟨_, hw⟩ := (wait_waited s ticket generation).exists_waits
    exact quiet (hw ▸ ⟨⟨rfl, rfl⟩, rfl⟩)
  case resumeWait ticket =>
    obtain ⟨_, hw⟩ := (resumeWait_waitResumed s ticket).exists_waits
    exact quiet (hw ▸ ⟨⟨rfl, rfl⟩, rfl⟩)
  case turn       =>
    have ⟨smooth, hp⟩ := (turn_turn s).published_or_quiet hk h hs
    exact ⟨smooth, hp.imp id fun p => ⟨rfl, rfl, p⟩⟩

theorem Run.smooth {events} (r : Run s events t) (hk : kernel.Regular) (h : s.Sound)
    (hs : s.Settled kernel) : Smooth s t := by
  induction r
  case refl => exact ⟨rfl, rfl⟩
  case step r e hi =>
    have ⟨smooth, _⟩ := e.published_or_quiet hk (r.sound h) (r.settled hs)
    exact ⟨smooth.faults.trans hi.faults, smooth.counted.trans hi.counted⟩

-- The result that is current at the end of a run was published in a turn of it.
inductive Origin (s : State α) (events : List (Event α)) (t : State α) : Prop
  | intro {before after} {u : State α}
    (split : events = before ++ .turn u.handoff? u.turn.1 :: after) (r₁ : Run s before u)
    (published : Published u.handoff? u u.turn.2) (r₂ : Run u.turn.2 after t)
    (kept : t.store = u.turn.2.store)

theorem Run.origin {events} (r : Run s events t) (hk : kernel.Regular) (h : s.Sound)
    (hs : s.Settled kernel) (hn : t.store ≠ s.store) : Origin s events t := by
  induction r
  case refl => contradiction
  case step t u events event r e hi =>
    have ⟨_, hp⟩ := e.published_or_quiet hk (r.sound h) (r.settled hs)
    rcases hp with hu | ⟨rfl, rfl, p⟩
    case inl =>
      have ⟨split, r₁, published, r₂, kept⟩ := hi (hu ▸ hn)
      exact .intro (by rw [split]; simp) r₁ published (r₂.step e) (hu.trans kept)
    case inr => exact .intro rfl r p .refl rfl

theorem Built.store_eq {factory config} (b : Built factory config s) :
    s.store = {} ∧ s.stats.faults = 0 ∧ s.faults = [] := by
  cases b
  exact ⟨rfl, rfl, rfl⟩

theorem results_shaped {s₀ s : State α} {config events} (hk : kernel.Regular)
    (h₀ : ofConfig (spectrumFactory kernel) config = .ok s₀) (r : Run s₀ events s) :
    s.stats.faults = 0 ∧ s.faults = [] ∧ (∀ x ∈ s.store.current.bins, x.isFinite ∧ 0 ≤ x) ∧
      (0 < s.generation → Origin s₀ events s) := by
  have b := built_of_ofConfig h₀
  have ⟨he, hc, hf⟩ := b.store_eq
  have smooth := r.smooth hk b.sound b.settled
  have ho := r.origin hk b.sound b.settled
  refine ⟨smooth.counted.trans hc, smooth.faults.trans hf, ?magnitudes, ?origin⟩
  case magnitudes =>
    intro x hx
    by_cases hs : s.store = s₀.store
    case pos => simp [hs, he, Snapshot.empty] at hx
    case neg =>
      have ⟨_, _, published, _, kept⟩ := ho hs
      have ⟨finite, nonNegative⟩ := published.shaped.magnitudes x (kept ▸ hx)
      exact ⟨finite, nonNegative⟩
  case origin =>
    intro hg
    refine ho fun hs => ?_
    rw [generation, hs, he] at hg
    contradiction

section Struck

theorem struck_isSome :
    (ofConfig (α := Rat) (spectrumFactory .flat) smallConfig).toOption.isSome := by
  decide +kernel

def struckBuilt : State Rat :=
  (ofConfig (spectrumFactory .flat) smallConfig).toOption.get struck_isSome

-- One sample is heard, and then silence.
def struckOnce : State Rat :=
  (struckBuilt.push (64 :: List.replicate 63 0)).2.turn.2

theorem results_shaped_struck :
    ∃ events, Kernel.flat.Regular ∧ ofConfig (spectrumFactory .flat) smallConfig = .ok struckBuilt ∧
      Run struckBuilt events struckOnce ∧ struckOnce.stats.faults = 0 ∧ struckOnce.faults = [] ∧
      struckOnce.store.current.bins = List.replicate 33 0.5 ∧
      Origin struckBuilt events struckOnce := by
  have h₀ := eq_ok_get struck_isSome
  have r : Run struckBuilt _ struckOnce :=
    .step (.step .refl (.push (64 :: List.replicate 63 0) (by decide +kernel))) .turn
  have ⟨hc, hf, _, ho⟩ := results_shaped Kernel.flat_regular h₀ r
  have hb : struckOnce.generation = 1 ∧ struckOnce.store.current.bins = List.replicate 33 0.5 := by
    decide +kernel
  exact ⟨_, Kernel.flat_regular, h₀, r, hc, hf, hb.right, ho (by rw [hb.left]; decide)⟩

end Struck

end State

end Flowgraph

end RadioSpectrum
