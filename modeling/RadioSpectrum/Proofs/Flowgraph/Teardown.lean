import RadioSpectrum.Proofs.Flowgraph.Invariant

namespace RadioSpectrum

namespace Flowgraph

namespace State

variable {α : Type} {s t : State α} {chunk : List Int8}

-- The push was woken, and gets its answer when it is looked after next.
structure Released (s : State α) : Prop where
  woken     : s.spaceFreed.listener = .woken
  answer    : s.resumePush.1 = some (.error .shutdownInProgress)
  suspended : s.resumePush.2.suspended = none
  ring      : s.resumePush.2.ring = s.ring

-- The push sleeps, and the flowgraph was let go.
@[mk_iff]
structure Forsaken (s : State α) : Prop where
  phase    : s.scheduler.phase = .dropped
  listener : s.spaceFreed.listener = .asleep

theorem released_of_woken (h : ¬s.Open) (hs : s.suspended = some chunk)
    (hw : s.spaceFreed.listener = .woken) : s.Released := by
  have hn : ¬State.Open { s with
      suspended := none
      spaceFreed := { s.spaceFreed with listener := .absent } } :=
    fun ⟨ho, hr⟩ => h ⟨ho, hr⟩
  have hp := (resumePush_of_woken hs hw).trans (push_of_not_open hn chunk)
  exact ⟨hw, by rw [hp], by rw [hp], by rw [hp]⟩

-- Where nobody asked for a stop, only a flowgraph that was never run has been let go of.
theorem Sound.woken_or_forsaken (h : s.Sound) (gone : ¬s.Open) (hs : s.suspended = some chunk) :
    s.spaceFreed.listener = .woken ∨ s.Forsaken := by
  cases hl : s.spaceFreed.listener
  case woken  => exact .inl rfl
  case absent => simp [h.patient.listener.mp hl] at hs
  case asleep =>
    have ho := h.patient.stopping hl
    refine .inr ⟨?_, hl⟩
    by_contra hd
    have hf : s.scheduler.phase ≠ .finished := fun hf => by simp [h.phased.finished hf] at ho
    exact gone ⟨ho, h.phased.reader_eq_false_iff.mpr ⟨hf, hd⟩⟩

theorem Forsaken.stopping (f : s.Forsaken) (h : s.Sound) : s.stopping = false :=
  h.patient.stopping f.listener

theorem Forsaken.not_released (f : s.Forsaken) : ¬s.Released := by
  intro ⟨hw, _, _, _⟩
  simp [f.listener] at hw

theorem Forsaken.resumePush_eq (f : s.Forsaken) : s.resumePush = (none, s) :=
  resumePush_of_asleep (by simp [f.listener])

theorem Roused.not_forsaken (r : Roused s t) : ¬s.Forsaken := by
  intro ⟨hd, _⟩
  cases r <;> simp_all

theorem Turn.forsaken_iff {handoff summary} (e : Turn s handoff summary t) :
    t.Forsaken ↔ s.Forsaken := by
  cases e
  case rest => rfl
  case ended r _ _ => simp [r.not_forsaken, State.forsaken_iff, finish, announce]
  case drained r _ _ _ c =>
    simp [r.not_forsaken, State.forsaken_iff, c.preserves_phase, State.drained]
  case starved r _ _ _ => simp [r.not_forsaken, State.forsaken_iff, park]

-- A push that is made when the flowgraph is gone does not fall asleep.
theorem Pushed.not_forsaken {answer} (p : Pushed s chunk answer t) (h : s.Sound)
    (hn : s.suspended = none) : ¬t.Forsaken := by
  intro ⟨hd, ha⟩
  have hl := h.patient.listener.mpr hn
  cases p
  case answered o     => cases o <;> simp_all
  case slept o _ _ _  => exact (h.phased.reader_eq_false_iff.mp o.readerDropped).right hd

theorem Resumed.forsaken_iff {answer} (r : Resumed s answer t) (h : s.Sound) :
    t.Forsaken ↔ s.Forsaken := by
  cases r
  case asleep => rfl
  case woken hl p => simp [p.not_forsaken h.rise rfl, State.forsaken_iff, hl]

theorem Waited.forsaken_iff {ticket generation answer} (r : Waited s ticket generation answer t) :
    t.Forsaken ↔ s.Forsaken := by
  cases r <;> simp [State.forsaken_iff]

theorem WaitResumed.forsaken_iff {ticket answer} (r : WaitResumed s ticket answer t) :
    t.Forsaken ↔ s.Forsaken := by
  cases r
  case asleep  => rfl
  case woken r => exact r.forsaken_iff.trans (by simp [State.forsaken_iff])

variable [Scalar α]

theorem Updated.forsaken_iff {block index value stored} (d : Updated s block index value stored t) :
    t.Forsaken ↔ s.Forsaken ∧ block ≠ .spectrum := by
  cases d
  case staged hb _ _ _ => simp [State.forsaken_iff, stage, hb]
  case tuned hb _ =>
    have hn : BlockId.frontend ≠ .spectrum := by decide
    simp [State.forsaken_iff, hb, hn]

-- Only letting go of a flowgraph forsakes a push, and only a signal puts an end to that.
theorem Step.forsaken_iff {event} (e : Step s event t) (h : s.Sound) :
    t.Forsaken ↔ s.Forsaken ∧ ¬event.Signals ∨
      event = .drop ∧ s.scheduler.phase = .idle ∧ s.spaceFreed.listener = .asleep := by
  cases e
  case push hn =>
    have hl := h.patient.listener.mpr hn
    simp [(push_pushed s _).not_forsaken h hn, State.forsaken_iff, hl]
  case resume     => simp [(resumePush_resumed s).forsaken_iff h, Event.Signals]
  case update hu  => simp [(updated_of_update hu).forsaken_iff, Event.Signals]
  case refuse     => simp [Event.Signals]
  case stop       => simp [State.forsaken_iff, State.stop, announce, Event.Signals]
  case turn       => simp [(turn_turn s).forsaken_iff, Event.Signals]
  case wait       => simp [(wait_waited s _ _).forsaken_iff, Event.Signals]
  case resumeWait => simp [(resumeWait_waitResumed s _).forsaken_iff, Event.Signals]
  case drop =>
    unfold State.drop
    split
    case h_1 hi => simp [State.forsaken_iff, hi]
    case h_2 hn =>
      have hi : s.scheduler.phase ≠ .idle := hn
      simp [Event.Signals, hi]

theorem Run.forsaken {events} (r : Run s events t) (h : s.Sound) (f : s.Forsaken)
    (silent : ∀ event ∈ events, ¬event.Signals) : t.Forsaken := by
  induction r
  case refl => exact f
  case step r e hi =>
    have ft := hi fun _ hm => silent _ (List.mem_append_left _ hm)
    exact (e.forsaken_iff (r.sound h)).mpr (.inl ⟨ft, silent _ (by simp)⟩)

-- In a run to `t` the flowgraph was let go while the push slept, and no signal was given since.
inductive Abandoned (s : State α) (events : List (Event α)) (t : State α) : Prop
  | intro {before after} {u : State α} (split : events = before ++ .drop :: after)
    (idle : u.scheduler.phase = .idle) (asleep : u.spaceFreed.listener = .asleep)
    (r₁ : Run s before u) (r₂ : Run u.drop after t) (silent : ∀ event ∈ after, ¬event.Signals)

theorem Run.forsaken_iff {events} (r : Run s events t) (h : s.Sound) (hn : ¬s.Forsaken) :
    t.Forsaken ↔ Abandoned s events t := by
  constructor
  · intro f
    induction r
    case refl => contradiction
    case step t u events event r e hi =>
      rcases (e.forsaken_iff (r.sound h)).mp f with ⟨f, hs⟩ | ⟨rfl, idle, asleep⟩
      · have ⟨split, idle, asleep, r₁, r₂, silent⟩ := hi f
        refine .intro (by rw [split]; simp) idle asleep r₁ (r₂.step e) ?_
        simpa [or_imp, forall_and] using ⟨silent, hs⟩
      · cases e
        exact .intro rfl idle asleep r .refl nofun
  · intro ⟨_, idle, asleep, r₁, r₂, silent⟩
    refine r₂.forsaken (drop_sound (r₁.sound h)) ⟨?_, ?_⟩ silent
    · simp [drop, idle]
    · simp [drop, idle, asleep]

theorem Built.not_forsaken {factory config} (b : Built factory config s) : ¬s.Forsaken := by
  cases b
  simp [State.forsaken_iff]

-- Nobody is left who drains the ring. Pushes that are made now are told so, and a push that sleeps
-- was woken to be told, unless the flowgraph was let go without a word.
theorem released_iff_not_abandoned {s₀ : State α} {factory config events}
    (h₀ : ofConfig factory config = .ok s₀) (r : Run s₀ events s)
    (gone : s.stopping = true ∨ s.ring.readerDropped = true) :
    (∀ chunk, s.push chunk = (some (.error .shutdownInProgress), s)) ∧
      ∀ chunk, s.suspended = some chunk →
        (s.Released ↔ ¬Abandoned s₀ events s) ∧
        (s.stopping = true ∨ s.scheduler.phase = .finished → s.Released) ∧
        (Abandoned s₀ events s → s.resumePush = (none, s)) := by
  have b := built_of_ofConfig h₀
  have h := r.sound b.sound
  have ha := r.forsaken_iff b.sound b.not_forsaken
  have ho : ¬s.Open := open_iff.not.mpr (not_not.mpr gone)
  refine ⟨push_of_not_open ho, fun chunk hs => ?_⟩
  have hr : ¬s.Forsaken → s.Released := fun hf =>
    released_of_woken ho hs ((h.woken_or_forsaken ho hs).resolve_right hf)
  refine ⟨?_, fun he => hr fun f => ?_, fun f => (ha.mpr f).resumePush_eq⟩
  · rw [← ha]
    exact ⟨fun hr f => f.not_released hr, hr⟩
  · have hf := he.elim id h.phased.finished
    simp [f.stopping h] at hf

-- A push of 64 samples waits for a first window to be drained from the 70 that are there.
def smallWaiting : State Rat :=
  ((small.push (List.replicate 70 0)).2.push (List.replicate 64 0)).2

theorem exists_run_smallWaiting : ∃ events, Run small events smallWaiting :=
  ⟨_, .step (.step .refl (.push (List.replicate 70 0) (by decide +kernel)))
    (.push (List.replicate 64 0) (by decide +kernel))⟩

theorem smallWaiting_suspended : smallWaiting.suspended = some (List.replicate 64 0) := by
  decide +kernel

theorem released_iff_not_abandoned_small :
    ∃ events, ofConfig (spectrumFactory identityKernel) smallConfig = .ok small ∧
      Run small events smallWaiting.stop ∧ smallWaiting.stop.stopping = true ∧
      smallWaiting.stop.suspended = some (List.replicate 64 0) ∧ smallWaiting.stop.Released := by
  have ⟨_, r⟩ := exists_run_smallWaiting
  have h := (released_iff_not_abandoned ofConfig_eq_small (r.step .stop) (.inl rfl)).right
  exact ⟨_, ofConfig_eq_small, r.step .stop, rfl, smallWaiting_suspended,
    (h _ smallWaiting_suspended).right.left (.inl rfl)⟩

theorem small_drop_not_released :
    ∃ events, ofConfig (spectrumFactory identityKernel) smallConfig = .ok small ∧
      Run small events smallWaiting.drop ∧ smallWaiting.drop.ring.readerDropped = true ∧
      smallWaiting.drop.suspended = some (List.replicate 64 0) ∧ ¬smallWaiting.drop.Released ∧
      smallWaiting.drop.resumePush = (none, smallWaiting.drop) := by
  have ⟨_, r⟩ := exists_run_smallWaiting
  have f : smallWaiting.drop.Forsaken := ⟨by decide +kernel, by decide +kernel⟩
  exact ⟨_, ofConfig_eq_small, r.step .drop, by decide +kernel, by decide +kernel,
    f.not_released, f.resumePush_eq⟩

end State

end Flowgraph

end RadioSpectrum
