import RadioSpectrum.Proofs.Flowgraph.Invariant

namespace RadioSpectrum

namespace Flowgraph

namespace State

variable {α : Type} {s t : State α} {chunk window : List Int8}

-- Those who sleep though there is nothing left to wait for have been told, and only have to look.
def Expectant (s : State α) : Prop :=
  ∀ w ∈ s.waits, w.woken = false → ¬s.Due w.generation

-- An announcement is for everyone who sleeps by then, so it may come with any change.
theorem announce_expectant (s : State α) : s.announce.Expectant := by
  intro w hw hn
  obtain ⟨w', _, rfl⟩ : ∃ w' ∈ s.waits, { w' with woken := true } = w := by
    simpa [announce] using hw
  contradiction

theorem Roused.expectant (r : Roused s t) (h : s.Expectant) : t.Expectant := by
  cases r
  case started =>
    -- A run that begins makes it less likely that no other generation comes.
    intro w hw hn hd
    exact h w hw hn (hd.imp_right fun ⟨_, hr⟩ => by contradiction)
  all_goals exact h

theorem TakenOver.expectant (o : TakenOver s t) (h : s.Expectant) : t.Expectant := by
  cases o <;> exact h

theorem Computed.expectant (c : Computed s window t) (h : s.Expectant) : t.Expectant := by
  cases c
  case published => exact announce_expectant _
  all_goals exact h

theorem Turn.expectant {handoff summary} (e : Turn s handoff summary t) (h : s.Expectant) :
    t.Expectant := by
  cases e
  case rest => exact h
  case ended => exact announce_expectant _
  case drained r o _ _ c => exact c.expectant (o.expectant (r.expectant h))
  case starved r o _ _ => exact o.expectant (r.expectant h)

theorem Pushed.expectant {answer} (p : Pushed s chunk answer t) (h : s.Expectant) :
    t.Expectant := by
  cases p
  case answered o => cases o <;> exact h
  case slept      => exact h

theorem Resumed.expectant {answer} (r : Resumed s answer t) (h : s.Expectant) : t.Expectant := by
  cases r
  case asleep  => exact h
  case woken p => exact p.expectant h

theorem Waited.expectant {ticket generation answer} (r : Waited s ticket generation answer t)
    (h : s.Expectant) : t.Expectant := by
  cases r
  case answered => exact h
  case slept hd =>
    intro w hw hn
    rcases List.mem_append.mp hw with hw | hw
    · exact h w hw hn
    · rw [List.mem_singleton.mp hw]
      exact hd

theorem WaitResumed.expectant {ticket answer} (r : WaitResumed s ticket answer t)
    (h : s.Expectant) : t.Expectant := by
  cases r
  case asleep  => exact h
  case woken r => exact r.expectant fun w hw => h w (List.mem_filter.mp hw).left

theorem drop_expectant (h : s.Expectant) : s.drop.Expectant := by
  unfold drop
  split <;> exact h

variable [Scalar α]

theorem Updated.expectant {block index value stored} (d : Updated s block index value stored t)
    (h : s.Expectant) : t.Expectant := by
  cases d <;> exact h

theorem Step.expectant {event} (e : Step s event t) (h : s.Expectant) : t.Expectant := by
  cases e
  case push       => exact (push_pushed s _).expectant h
  case resume     => exact (resumePush_resumed s).expectant h
  case update hu  => exact (updated_of_update hu).expectant h
  case refuse     => exact h
  case stop       => exact announce_expectant _
  case turn       => exact (turn_turn s).expectant h
  case wait       => exact (wait_waited s _ _).expectant h
  case resumeWait => exact (resumeWait_waitResumed s _).expectant h
  case drop       => exact drop_expectant h

theorem Run.expectant {events} (r : Run s events t) (h : s.Expectant) : t.Expectant := by
  induction r
  case refl      => exact h
  case step e hi => exact e.expectant hi

theorem Built.expectant {factory config} (b : Built factory config s) : s.Expectant := by
  cases b
  intro w hw
  contradiction

-- Neither the scheduler nor anyone who waits sleeps for longer than there is reason to. A scheduler
-- that was woken does not sleep, though it has yet to take its turn.
theorem sleepers_have_reason {s₀ : State α} {factory config events}
    (h₀ : ofConfig factory config = .ok s₀) (r : Run s₀ events s) :
    (s.scheduler.phase = .parked → s.dataReady.listener ≠ .woken →
      s.dataReady.permit = false ∧ s.pending = none ∧ s.stopping = false ∧
        s.ring.toList.length < s.scheduler.transform.inputLength) ∧
      (∀ w ∈ s.waits, w.woken = false →
        s.generation < w.generation ∧ ¬(s.stopping = true ∧ s.running = false)) := by
  have b := built_of_ofConfig h₀
  have h := r.sound b.sound
  constructor
  · intro hp hw
    have st := h.attentive.starved (h.attentive.asleep hp hw)
    refine ⟨st.permit, st.pending, st.stopping, ?_⟩
    simpa [h.coherent.buffer] using st.short
  · intro w hw hn
    have hd := r.expectant b.expectant w hw hn
    simpa [Due] using hd

-- Ten samples came in and did not make up a window, and somebody waits for the first result.
def smallStarved : State Rat :=
  ((small.push (List.replicate 10 1)).2.turn.2.wait 0 1).2

theorem sleepers_have_reason_small :
    ∃ events, ofConfig (spectrumFactory identityKernel) smallConfig = .ok small ∧
      Run small events smallStarved ∧ smallStarved.scheduler.phase = .parked ∧
      smallStarved.dataReady.listener = .asleep ∧ ⟨0, 1, false⟩ ∈ smallStarved.waits ∧
      smallStarved.dataReady.permit = false ∧ smallStarved.pending = none ∧
      smallStarved.stopping = false ∧
      smallStarved.ring.toList.length < smallStarved.scheduler.transform.inputLength ∧
      smallStarved.generation < 1 ∧
      ¬(smallStarved.stopping = true ∧ smallStarved.running = false) := by
  have r : Run small _ smallStarved :=
    .step (.step (.step .refl (.push (List.replicate 10 1) (by decide +kernel))) .turn)
      (.wait 0 1 (by decide +kernel))
  have hp : smallStarved.scheduler.phase = .parked := by decide +kernel
  have hl : smallStarved.dataReady.listener = .asleep := by decide +kernel
  have hm : ⟨0, 1, false⟩ ∈ smallStarved.waits := by decide +kernel
  have ⟨hs, hw⟩ := sleepers_have_reason ofConfig_eq_small r
  have ⟨hk, hn, hd, hf⟩ := hs hp (by rw [hl]; decide)
  have ⟨hg, hr⟩ := hw _ hm rfl
  exact ⟨_, ofConfig_eq_small, r, hp, hl, hm, hk, hn, hd, hf, hg, hr⟩

end State

end Flowgraph

end RadioSpectrum
