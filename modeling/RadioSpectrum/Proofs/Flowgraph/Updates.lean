import RadioSpectrum.Proofs.Flowgraph.Conservation
import RadioSpectrum.Proofs.Flowgraph.Settings

namespace RadioSpectrum

namespace SpectrumConfig

variable {α : Type} [Scalar α]

-- The settings with several parameters set, one after the other.
def withParameters (c : SpectrumConfig) (changes : List (Nat × α)) :
    Except (StreamError α) SpectrumConfig :=
  changes.foldlM (fun c (index, value) => c.withParameter index value) c

theorem withParameters_append (c : SpectrumConfig) (changes changes' : List (Nat × α)) :
    c.withParameters (changes ++ changes') =
      c.withParameters changes >>= (·.withParameters changes') :=
  List.foldlM_append

theorem withParameters_singleton (c : SpectrumConfig) (index : Nat) (value : α) :
    c.withParameters [(index, value)] = c.withParameter index value := by
  simp only [withParameters, List.foldlM_cons, List.foldlM_nil]
  exact bind_pure _

end SpectrumConfig

namespace Flowgraph

variable {α : Type}

-- The parameter of the spectrum block that was set, and the value that was asked for.
def Event.change? : Event α → Option (Nat × α)
  | update block index value (.ok _) => if block = .spectrum then some (index, value) else none
  | _ => none

-- The updates that were taken.
def Event.Adjusts : Event α → Prop
  | update _ _ _ (.ok _) => True
  | _                    => False

-- The updates of the spectrum block that were accepted in a run, in the order in which they were.
def changes (events : List (Event α)) : List (Nat × α) :=
  events.filterMap Event.change?

@[simp]
theorem changes_append (events events' : List (Event α)) :
    changes (events ++ events') = changes events ++ changes events' :=
  List.filterMap_append

theorem Event.change?_eq_none : {event : Event α} → ¬event.Adjusts → event.change? = none
  | update _ _ _ (.ok _), h => absurd trivial h
  | update _ _ _ (.error _), _ | push .., _ | stop, _ | turn .., _ | wait .., _ | drop, _ => rfl

namespace State

variable {s t : State α} {chunk : List Int8}

-- Nothing but an update changes what was asked for, be it of the blocks or of the radio.
theorem Turn.preserves_settings {handoff summary} (e : Turn s handoff summary t) :
    t.staged = s.staged ∧ t.frontend = s.frontend := by
  cases e
  case rest => exact ⟨rfl, rfl⟩
  case ended r o _ | starved r o _ _ =>
    have k := r.keeps.trans o.keeps
    exact ⟨k.staged, k.frontend⟩
  case drained r o _ _ c =>
    have k := r.keeps.trans o.keeps
    exact ⟨c.keeps.staged.trans k.staged, c.keeps.frontend.trans k.frontend⟩

theorem Pushed.preserves_settings {answer} (p : Pushed s chunk answer t) :
    t.staged = s.staged ∧ t.frontend = s.frontend := by
  cases p
  case answered o => cases o <;> exact ⟨rfl, rfl⟩
  case slept      => exact ⟨rfl, rfl⟩

theorem Resumed.preserves_settings {answer} (r : Resumed s answer t) :
    t.staged = s.staged ∧ t.frontend = s.frontend := by
  cases r
  case asleep  => exact ⟨rfl, rfl⟩
  case woken p => exact p.preserves_settings

theorem drop_settings (s : State α) : s.drop.staged = s.staged ∧ s.drop.frontend = s.frontend := by
  unfold drop
  split <;> exact ⟨rfl, rfl⟩

-- A scheduler that sleeps has nothing to take over, and any other takes over before all else.
theorem Turn.pending_eq_none {handoff summary} (e : Turn s handoff summary t) (h : s.Sound)
    (hr : s.ring.readerDropped = false) : t.pending = none := by
  cases e
  case rest u              => exact (h.attentive.starved (u.sleeps h hr).right).pending
  case ended o _           => exact o.pending_eq_none
  case starved o _ _       => exact o.pending_eq_none
  case drained a u window ring _ o _ _ c =>
    have hp : u.pending = none := o.pending_eq_none
    cases c <;> exact hp

variable [Scalar α] {kernel : Kernel}

theorem Step.preserves_settings {event} (e : Step s event t) (h : ¬event.Adjusts) :
    t.staged = s.staged ∧ t.frontend = s.frontend := by
  cases e
  case push       => exact (push_pushed s _).preserves_settings
  case resume     => exact (resumePush_resumed s).preserves_settings
  case update     => exact absurd trivial h
  case refuse     => exact ⟨rfl, rfl⟩
  case stop       => exact ⟨rfl, rfl⟩
  case turn       => exact (turn_turn s).preserves_settings
  case drop       => exact drop_settings s
  case wait ticket generation _ =>
    obtain ⟨_, hw⟩ := (wait_waited s ticket generation).exists_waits
    exact hw ▸ ⟨rfl, rfl⟩
  case resumeWait ticket =>
    obtain ⟨_, hw⟩ := (resumeWait_waitResumed s ticket).exists_waits
    exact hw ▸ ⟨rfl, rfl⟩

theorem withParameters_changes_of_silent {event : Event α} (he : event.change? = none)
    (hs : t.staged = s.staged) : s.staged.withParameters (changes [event]) = .ok t.staged := by
  simp [changes, he, SpectrumConfig.withParameters, hs, pure_eq_ok]

-- An update of the spectrum block sets its parameter in the settings that were asked for before.
theorem Updated.withParameters_changes {block index value stored}
    (d : Updated s block index value stored t) :
    s.staged.withParameters (changes [.update block index value (.ok stored)]) = .ok t.staged := by
  cases d
  case staged next table _ hb hn _ _ =>
    simp only [changes, Event.change?, hb, List.filterMap_cons, List.filterMap_nil, if_true,
      SpectrumConfig.withParameters_singleton, hn]
    rfl
  case tuned hb _ =>
    have hn : BlockId.frontend ≠ .spectrum := by decide
    exact withParameters_changes_of_silent (by simp [Event.change?, hb, hn]) rfl

theorem Step.withParameters_changes {event} (e : Step s event t) :
    s.staged.withParameters (changes [event]) = .ok t.staged := by
  by_cases ha : event.Adjusts
  case pos =>
    cases e
    case update hu => exact (updated_of_update hu).withParameters_changes
    all_goals contradiction
  case neg =>
    exact withParameters_changes_of_silent (Event.change?_eq_none ha) (e.preserves_settings ha).left

theorem Run.withParameters_changes {events} (r : Run s events t) :
    s.staged.withParameters (changes events) = .ok t.staged := by
  induction r
  case refl => rfl
  case step t u events event r e hi =>
    rw [changes_append, SpectrumConfig.withParameters_append, hi]
    exact e.withParameters_changes

theorem Built.staged_eq {factory config} (b : Built factory config s) :
    s.staged = config.transform := by
  cases b
  rfl

theorem updates_kept {s₀ s : State α} {config events}
    (h₀ : ofConfig (spectrumFactory kernel) config = .ok s₀) (r : Run s₀ events s) :
    config.transform.withParameters (changes events) = .ok s.staged ∧
      s.staged.validate (α := α) = .ok () ∧ s.staged.windowLength ≤ config.bufferCapacity ∧
      (∀ next, s.pending = some next → next = s.staged) ∧
      (s.pending = none → s.active = s.staged) ∧
      s.windowLength = s.active.windowLength ∧
      s.scheduler.transform.inputLength = s.active.windowLength ∧
      s.scheduler.bufferLength = s.active.windowLength ∧
      (s.ring.readerDropped = false → s.turn.2.pending = none ∧ s.turn.2.active = s.staged) := by
  have b := built_of_ofConfig h₀
  have h := r.sound b.sound
  have hs := r.settled b.settled
  have hl := hs.length
  refine ⟨?_, hs.valid, ?_, hs.pending, hs.active, h.coherent.shared.trans hl, hl,
    h.coherent.buffer.trans hl, fun hr => ?_⟩
  · rw [← b.staged_eq]
    exact r.withParameters_changes
  · simpa [r.fixed.capacity, b.ring_capacity] using hs.fits
  · have e := turn_turn s
    have hp := e.pending_eq_none h hr
    exact ⟨hp, ((e.settled hs).active hp).trans e.preserves_settings.left⟩

section Small

theorem small_update_isSome : (small.update .spectrum 1 2).toOption.isSome := by
  decide +kernel

-- Another window function is asked for, and then a decimation, before the first window.
def smallShaped : State Rat :=
  ((small.update .spectrum 1 2).toOption.get small_update_isSome).2

theorem smallShaped_update_isSome : (smallShaped.update .spectrum 3 4).toOption.isSome := by
  decide +kernel

def smallThinned : State Rat :=
  ((smallShaped.update .spectrum 3 4).toOption.get smallShaped_update_isSome).2

theorem updates_kept_small :
    ∃ events, ofConfig (spectrumFactory identityKernel) smallConfig = .ok small ∧
      Run small events smallThinned ∧ changes events = [(1, 2), (3, 4)] ∧
      smallConfig.transform.withParameters (changes events) = .ok smallThinned.staged ∧
      smallThinned.staged.validate (α := Rat) = .ok () ∧ smallThinned.active.decimation = 1 ∧
      smallThinned.windowLength = 64 ∧ smallThinned.scheduler.bufferLength = 64 ∧
      smallThinned.turn.2.active =
        { smallConfig.transform with window := .hamming, decimation := 4 } := by
  have r : Run small _ smallThinned :=
    .step (.step .refl (.update (eq_ok_get small_update_isSome)))
      (.update (eq_ok_get smallShaped_update_isSome))
  have ⟨hc, hv, _, _, _, hw, _, hb, ht⟩ := updates_kept ofConfig_eq_small r
  have hl : smallThinned.active.windowLength = 64 := by decide +kernel
  have hs : smallThinned.staged =
      { smallConfig.transform with window := .hamming, decimation := 4 } := by decide +kernel
  exact ⟨_, ofConfig_eq_small, r, by decide +kernel, hc, hv, by decide +kernel, hw.trans hl,
    hb.trans hl, (ht (by decide +kernel)).right.trans hs⟩

end Small

end State

end Flowgraph

end RadioSpectrum
