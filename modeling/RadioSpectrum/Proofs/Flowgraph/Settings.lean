import RadioSpectrum.Proofs.Flowgraph.Invariant
import RadioSpectrum.Proofs.Spectrum.Config

namespace RadioSpectrum

namespace Flowgraph

namespace State

variable {α : Type} [Scalar α] {s t : State α} {chunk window : List Int8} {kernel : Kernel}

theorem inputLength_of_spectrumFactory {n config} {block : Transform α}
    (h : spectrumFactory kernel n config = .ok block) :
    block.inputLength = config.windowLength := by
  simp only [spectrumFactory, SpectrumBlock.ofConfig, map_eq_ok, bind_eq_ok, pure_eq_ok] at h
  obtain ⟨_, ⟨_, -, rfl⟩, rfl⟩ := h
  rfl

theorem exists_spectrumFactory (kernel : Kernel) (n : Nat) {config : SpectrumConfig}
    (h : config.validate (α := α) = .ok ()) :
    ∃ block : Transform α, spectrumFactory kernel n config = .ok block := by
  simp [spectrumFactory, SpectrumBlock.ofConfig, map_eq_ok, h]

-- The settings in force are those that were asked for last, or the latter are about to be taken
-- over.
structure Settled (kernel : Kernel) (s : State α) : Prop where
  factory : s.factory = spectrumFactory kernel
  valid   : s.staged.validate (α := α) = .ok ()
  fits    : s.staged.windowLength ≤ s.ring.capacity
  pending : ∀ config, s.pending = some config → config = s.staged
  active  : s.pending = none → s.active = s.staged
  block   : spectrumFactory kernel 0 s.active = .ok s.scheduler.transform

theorem Settled.length (h : s.Settled kernel) :
    s.scheduler.transform.inputLength = s.active.windowLength :=
  inputLength_of_spectrumFactory h.block

-- Only few parts of the state matter.
def settings (s : State α) :=
  (s.factory, s.staged, s.pending, s.active, s.scheduler.transform)

theorem Settled.congr (h : s.Settled kernel) (he : t.settings = s.settings)
    (hr : t.ring.capacity = s.ring.capacity) : t.Settled kernel := by
  simp only [settings, Prod.mk.injEq] at he
  have ⟨hf, hs, hp, ha, ht⟩ := he
  constructor
  case factory => exact hf.trans h.factory
  case valid   => exact hs ▸ h.valid
  case fits    => rw [hs, hr]; exact h.fits
  case pending => rw [hs, hp]; exact h.pending
  case active  => rw [hs, hp, ha]; exact h.active
  case block   => rw [ht, ha]; exact h.block

theorem Settled.windowLength_pos (h : s.Settled kernel) : 0 < s.staged.windowLength :=
  SpectrumConfig.windowLength_pos h.valid

-- What the gate takes for the length of the next window is the length of the next window.
theorem Settled.nextWindowLength_eq (h : s.Settled kernel) (hc : s.Coherent) :
    s.nextWindowLength = s.staged.windowLength := by
  unfold nextWindowLength
  split
  case h_1 config hp => rw [h.pending config hp]
  case h_2 hp        => rw [hc.shared, h.length, h.active hp]

theorem Roused.settled (r : Roused s t) (h : s.Settled kernel) : t.Settled kernel := by
  cases r <;> exact h.congr rfl rfl

-- Blocks of spectra can be made for all settings that pass the checks of an update.
theorem TakenOver.eq_self_or_install (o : TakenOver s t) (h : s.Settled kernel) :
    s.pending = none ∧ t = s ∨
      ∃ transform, s.pending = some s.staged ∧
        spectrumFactory kernel 0 s.staged = .ok transform ∧
        t = { s with pending := none, built := s.built + 1 }.install s.staged transform := by
  cases o
  case idle hp => exact .inl ⟨hp, rfl⟩
  case installed config transform hp hm pos fits =>
    obtain rfl := h.pending config hp
    rw [h.factory] at hm
    exact .inr ⟨transform, hp, hm, rfl⟩
  case unmade config error hp hm =>
    obtain rfl := h.pending config hp
    have ⟨_, hb⟩ := exists_spectrumFactory kernel s.built h.valid
    rw [h.factory, hb] at hm
    contradiction
  case unfit config transform hp hm hn =>
    obtain rfl := h.pending config hp
    rw [h.factory] at hm
    rw [inputLength_of_spectrumFactory hm] at hn
    exact absurd ⟨h.windowLength_pos, h.fits⟩ hn

theorem TakenOver.settled (o : TakenOver s t) (h : s.Settled kernel) : t.Settled kernel := by
  rcases o.eq_self_or_install h with ⟨-, rfl⟩ | ⟨transform, -, hm, rfl⟩
  · exact h
  · exact ⟨h.factory, h.valid, h.fits, nofun, fun _ => rfl, hm⟩

theorem Computed.settled (c : Computed s window t) (h : s.Settled kernel) : t.Settled kernel := by
  cases c <;> exact h.congr rfl rfl

theorem Turn.settled {handoff summary} (e : Turn s handoff summary t) (h : s.Settled kernel) :
    t.Settled kernel := by
  cases e
  case rest            => exact h
  case ended r o _      => exact (o.settled (r.settled h)).congr rfl rfl
  case starved r o _ _ => exact (o.settled (r.settled h)).congr rfl rfl
  case drained a t window ring r o _ hr c =>
    have hd := SampleRing.read_of_read? hr
    exact c.settled ((o.settled (r.settled h)).congr rfl hd.capacity)

theorem Pushed.settled {answer} (p : Pushed s chunk answer t) (h : s.Settled kernel) :
    t.Settled kernel := by
  cases p
  case slept => exact h.congr rfl rfl
  case answered o =>
    cases o
    case accepted _ w => exact h.congr rfl w.capacity
    all_goals exact h.congr rfl rfl

theorem Resumed.settled {answer} (r : Resumed s answer t) (h : s.Settled kernel) :
    t.Settled kernel := by
  cases r
  case asleep  => exact h
  case woken p => exact p.settled (h.congr rfl rfl)

theorem Waited.settled {ticket generation answer} (r : Waited s ticket generation answer t)
    (h : s.Settled kernel) : t.Settled kernel := by
  cases r <;> exact h.congr rfl rfl

theorem WaitResumed.settled {ticket answer} (r : WaitResumed s ticket answer t)
    (h : s.Settled kernel) : t.Settled kernel := by
  cases r
  case asleep  => exact h
  case woken r => exact r.settled (h.congr rfl rfl)

theorem drop_settled (h : s.Settled kernel) : s.drop.Settled kernel := by
  unfold drop
  split <;> exact h.congr rfl rfl

theorem Updated.settled {block index value stored} (d : Updated s block index value stored t)
    (h : s.Settled kernel) : t.Settled kernel := by
  cases d
  case staged next table _ _ hv hf _ =>
    exact ⟨h.factory, SpectrumConfig.validate_of_withParameter hv, hf,
      fun _ hp => (Option.some.inj hp).symm, nofun, h.block⟩
  case tuned => exact h.congr rfl rfl

theorem Step.settled {event} (e : Step s event t) (h : s.Settled kernel) : t.Settled kernel := by
  cases e
  case push       => exact (push_pushed s _).settled h
  case resume     => exact (resumePush_resumed s).settled h
  case update hu  => exact (updated_of_update hu).settled h
  case refuse     => exact h
  case stop       => exact h.congr rfl rfl
  case turn       => exact (turn_turn s).settled h
  case wait       => exact (wait_waited s _ _).settled h
  case resumeWait => exact (resumeWait_waitResumed s _).settled h
  case drop       => exact drop_settled h

theorem Run.settled {events} (r : Run s events t) (h : s.Settled kernel) : t.Settled kernel := by
  induction r
  case refl      => exact h
  case step e hi => exact e.settled hi

theorem Built.settled {config} (b : Built (spectrumFactory kernel) config s) :
    s.Settled kernel := by
  cases b
  case intro hv hr hm _ _ _ =>
    exact ⟨rfl, hv, by simpa using hr, nofun, fun _ => rfl, hm⟩

end State

end Flowgraph

end RadioSpectrum
