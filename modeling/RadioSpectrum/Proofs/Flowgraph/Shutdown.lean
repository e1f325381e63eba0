import RadioSpectrum.Proofs.Flowgraph.Counters
import RadioSpectrum.Proofs.Flowgraph.Teardown

namespace RadioSpectrum

-- The counters of pushes, samples and windows.
def Stats.traffic (s : Stats) : Stats :=
  { s with faults := 0 }

namespace Flowgraph

variable {α : Type}

-- A request to take samples or to change a parameter is answered by the news of the stop.
def Event.TurnedAway : Event α → Prop
  | push _ answer       => answer = some (.error .shutdownInProgress)
  | update _ _ _ answer => answer = .error .shutdownInProgress
  | turn handoff _      => handoff = none
  | stop | wait .. | drop => True

-- Nothing is accepted and nothing is handed to a block where everything is turned away.
theorem Event.TurnedAway.accepted? : {event : Event α} → event.TurnedAway → event.accepted? = none
  | push .., h => by rw [show _ = _ from h]; rfl
  | update .., _ | stop, _ | turn .., _ | wait .., _ | drop, _ => rfl

theorem Event.TurnedAway.handoff? : {event : Event α} → event.TurnedAway → event.handoff? = none
  | turn .., h => h
  | push .., _ | update .., _ | stop, _ | wait .., _ | drop, _ => rfl

theorem accepted_eq_nil {events : List (Event α)} (h : ∀ event ∈ events, event.TurnedAway) :
    accepted events = [] :=
  List.filterMap_eq_nil_iff.mpr fun event he => (h event he).accepted?

theorem handoffs_eq_nil {events : List (Event α)} (h : ∀ event ∈ events, event.TurnedAway) :
    handoffs events = [] :=
  List.filterMap_eq_nil_iff.mpr fun event he => (h event he).handoff?

namespace State

variable {s t u : State α} {chunk : List Int8}

-- No more than who sleeps, and who was woken, differs.
def Still (s t : State α) : Prop :=
  ∃ dataReady spaceFreed suspended waits,
    t = { s with dataReady, spaceFreed, suspended, waits }

namespace Still

theorem refl (s : State α) : Still s s :=
  ⟨_, _, _, _, rfl⟩

theorem trans : Still s t → Still t u → Still s u := by
  rintro ⟨_, _, _, _, rfl⟩ ⟨_, _, _, _, rfl⟩
  exact ⟨_, _, _, _, rfl⟩

theorem takeOver : Still s t → Still s.takeOver t.takeOver := by
  rintro ⟨_, _, _, _, rfl⟩
  cases hp : s.pending <;> simp only [State.takeOver, hp]
  case none => exact ⟨_, _, _, _, by rw [hp]⟩
  case some config =>
    cases hf : s.factory s.built config <;> simp only [apply, hf]
    case error => exact ⟨_, _, _, _, rfl⟩
    case ok    => split <;> exact ⟨_, _, _, _, rfl⟩

theorem finish : Still s t → t.finish.1 = s.finish.1 ∧ Still s.finish.2 t.finish.2 := by
  rintro ⟨_, _, _, _, rfl⟩
  exact ⟨rfl, _, _, _, _, rfl⟩

theorem drop : Still s t → Still s.drop t.drop := by
  rintro ⟨_, _, _, _, rfl⟩
  unfold State.drop
  cases s.scheduler.phase <;> exact ⟨_, _, _, _, rfl⟩

theorem phase : Still s t → t.scheduler.phase = s.scheduler.phase := by
  rintro ⟨_, _, _, _, rfl⟩
  rfl

theorem stopping : Still s t → t.stopping = s.stopping := by
  rintro ⟨_, _, _, _, rfl⟩
  rfl

end Still

-- A scheduler that sleeps was told of the stop.
theorem Sound.woken_of_stopping (h : s.Sound) (hs : s.stopping = true)
    (hp : s.scheduler.phase = .parked) : s.dataReady.listener = .woken := by
  by_contra hw
  have ho := (h.attentive.starved (h.attentive.asleep hp hw)).stopping
  simp [hs] at ho

-- All that is left for a scheduler to do is to take over what is pending and to end the run.
theorem turn_of_stopping {a : State α} (hs : s.stopping = true) (ha : s.rouse? = some a) :
    s.turn = (some a.takeOver.finish.1, a.takeOver.finish.2) := by
  have k := (roused_of_rouse? ha).keeps.trans a.takeOver_takenOver.keeps
  have hl : a.look = .ended a.takeOver := by simp [look, k.stopping, hs]
  simp [turn, sight?, ha, watch, hl, Sight.act]

theorem turn_of_rouse?_eq_none (h : s.rouse? = none) : s.turn = (none, s) := by
  simp [turn, sight?, h]

theorem Still.rouse? (st : Still s t) (h : s.Sound) (ht : t.Sound) (hs : s.stopping = true) :
    (s.rouse? = none ∧ t.rouse? = none) ∨
      ∃ a b, s.rouse? = some a ∧ t.rouse? = some b ∧ Still a b := by
  have hp := st.phase
  cases hc : s.scheduler.phase <;> rw [hc] at hp
  case finished | dropped => exact .inl (by simp [State.rouse?, hp, hc])
  case idle =>
    refine .inr ⟨s.start, t.start, by simp [State.rouse?, hc], by simp [State.rouse?, hp], ?_⟩
    obtain ⟨_, _, _, _, rfl⟩ := st
    exact ⟨_, _, _, _, rfl⟩
  case boundary => exact .inr ⟨s, t, by simp [State.rouse?, hc], by simp [State.rouse?, hp], st⟩
  case parked =>
    have hw := h.woken_of_stopping hs hc
    have hw' := ht.woken_of_stopping (st.stopping.trans hs) hp
    refine .inr ⟨_, _, by simp [State.rouse?, hc, Wakeup.rise?, hw]; rfl,
      by simp [State.rouse?, hp, Wakeup.rise?, hw']; rfl, ?_⟩
    obtain ⟨_, _, _, _, rfl⟩ := st
    exact ⟨_, _, _, _, rfl⟩

-- The end of the run comes to the same, whenever it comes.
theorem Still.turn (st : Still s t) (h : s.Sound) (ht : t.Sound) (hs : s.stopping = true) :
    t.turn.1 = s.turn.1 ∧ Still s.turn.2 t.turn.2 := by
  rcases st.rouse? h ht hs with ⟨hn, hn'⟩ | ⟨a, b, ha, hb, sab⟩
  · rw [turn_of_rouse?_eq_none hn, turn_of_rouse?_eq_none hn']
    exact ⟨rfl, st⟩
  · rw [turn_of_stopping hs ha, turn_of_stopping (st.stopping.trans hs) hb]
    have ⟨hf, sf⟩ := sab.takeOver.finish
    exact ⟨congrArg some hf, sf⟩

theorem handoff?_of_stopping (hs : s.stopping = true) : s.handoff? = none := by
  have e := turn_turn s
  generalize s.handoff? = handoff, s.turn.1 = summary, s.turn.2 = t at e
  cases e
  case drained r o hn _ _ =>
    rw [(r.keeps.trans o.keeps).stopping, hs] at hn
    contradiction
  all_goals rfl

-- A push that sleeps is told of the stop when it is looked after next.
theorem Sound.resumePush_of_stopping (h : s.Sound) (hs : s.stopping = true)
    (hc : s.suspended = some chunk) :
    s.resumePush.1 = some (.error .shutdownInProgress) ∧ Still s s.resumePush.2 := by
  have hn : ¬State.Open { s with
      suspended := none
      spaceFreed := { s.spaceFreed with listener := .absent } } :=
    fun ⟨ho, _⟩ => by simp [hs] at ho
  have hw : s.spaceFreed.listener = .woken := by
    have hf : ¬s.Forsaken := fun f => by simp [f.stopping h] at hs
    exact (h.woken_or_forsaken (fun ho => by simp [ho.stopping] at hs) hc).resolve_right hf
  rw [resumePush_of_woken hc hw, push_of_not_open hn]
  exact ⟨rfl, _, _, _, _, rfl⟩

theorem drop_of_ne_idle (h : s.scheduler.phase ≠ .idle) : s.drop = s := by
  unfold drop
  split
  case h_1 hi => exact absurd hi h
  case h_2    => rfl

theorem dropped_of_drop (idle : s.scheduler.phase = .idle) :
    s.drop.scheduler.phase = .dropped := by
  simp [drop, idle]

theorem turn_of_gone (gone : s.scheduler.phase = .finished ∨ s.scheduler.phase = .dropped) :
    s.turn = (none, s) := by
  refine turn_of_rouse?_eq_none ?_
  rcases gone with hp | hp <;> simp [State.rouse?, hp]

-- The turn that sums up the run is the last one.
theorem exists_rouse?_of_summary {summary} (hs : s.stopping = true)
    (last : s.turn.1 = some summary) :
    ∃ a, s.rouse? = some a ∧ summary = a.takeOver.finish.1 ∧ s.turn.2 = a.takeOver.finish.2 := by
  cases hr : s.rouse?
  case none   => simp [turn_of_rouse?_eq_none hr] at last
  case some a =>
    have ht := turn_of_stopping hs hr
    exact ⟨a, rfl, Option.some_inj.mp (last.symm.trans (by rw [ht])), by rw [ht]⟩

-- What is there when a stop is asked for stays as it is. Of the counters only that of faults may
-- still grow.
structure Frozen (s t : State α) : Prop where
  stopping : t.stopping = s.stopping
  samples  : t.ring.toList = s.ring.toList
  store    : t.store = s.store
  staged   : t.staged = s.staged
  frontend : t.frontend = s.frontend
  traffic  : t.stats.traffic = s.stats.traffic

theorem Frozen.trans (f₁ : Frozen s t) (f₂ : Frozen t u) : Frozen s u where
  stopping := f₂.stopping.trans f₁.stopping
  samples  := f₂.samples.trans f₁.samples
  store    := f₂.store.trans f₁.store
  staged   := f₂.staged.trans f₁.staged
  frontend := f₂.frontend.trans f₁.frontend
  traffic  := f₂.traffic.trans f₁.traffic

theorem Still.frozen : Still s t → Frozen s t := by
  rintro ⟨_, _, _, _, rfl⟩
  exact ⟨rfl, rfl, rfl, rfl, rfl, rfl⟩

theorem drop_frozen (s : State α) : Frozen s s.drop := by
  unfold drop
  split <;> exact ⟨rfl, rfl, rfl, rfl, rfl, rfl⟩

theorem Roused.frozen (r : Roused s t) : Frozen s t := by
  cases r <;> exact ⟨rfl, rfl, rfl, rfl, rfl, rfl⟩

theorem TakenOver.frozen (o : TakenOver s t) : Frozen s t := by
  cases o <;> exact ⟨rfl, rfl, rfl, rfl, rfl, rfl⟩

theorem finish_frozen (s : State α) : Frozen s s.finish.2 :=
  ⟨rfl, rfl, rfl, rfl, rfl, rfl⟩

-- The same block is in place, made for the same settings, and the same faults were reported.
structure SameBlock (s t : State α) : Prop where
  transform    : t.scheduler.transform = s.scheduler.transform
  decimation   : t.scheduler.decimation = s.scheduler.decimation
  windowLength : t.windowLength = s.windowLength
  active       : t.active = s.active
  pending      : t.pending = s.pending
  built        : t.built = s.built
  faults       : t.faults = s.faults
  stats        : t.stats = s.stats

theorem Still.sameBlock : Still s t → SameBlock s t := by
  rintro ⟨_, _, _, _, rfl⟩
  exact ⟨rfl, rfl, rfl, rfl, rfl, rfl, rfl, rfl⟩

theorem SameBlock.trans (b₁ : SameBlock s t) (b₂ : SameBlock t u) : SameBlock s u where
  transform    := b₂.transform.trans b₁.transform
  decimation   := b₂.decimation.trans b₁.decimation
  windowLength := b₂.windowLength.trans b₁.windowLength
  active       := b₂.active.trans b₁.active
  pending      := b₂.pending.trans b₁.pending
  built        := b₂.built.trans b₁.built
  faults       := b₂.faults.trans b₁.faults
  stats        := b₂.stats.trans b₁.stats

theorem drop_sameBlock (s : State α) : SameBlock s s.drop := by
  unfold drop
  split <;> exact ⟨rfl, rfl, rfl, rfl, rfl, rfl, rfl, rfl⟩

theorem finish_sameBlock (s : State α) : SameBlock s s.finish.2 :=
  ⟨rfl, rfl, rfl, rfl, rfl, rfl, rfl, rfl⟩

-- What becomes of a flowgraph in a step after a stop: it stays as it is, or is let go without having
-- been run, or its run ends.
inductive Ebbed (s : State α) : Event α → State α → Prop
  | still {event t} (silent : summaries [event] = []) (st : Still s t) : Ebbed s event t
  | dropped (idle : s.scheduler.phase = .idle) : Ebbed s .drop s.drop
  | ended {summary} (last : s.turn.1 = some summary) :
    Ebbed s (.turn none (some summary)) s.turn.2

theorem Ebbed.still_of_gone {event} (e : Ebbed s event t)
    (gone : s.scheduler.phase = .finished ∨ s.scheduler.phase = .dropped) :
    summaries [event] = [] ∧ Still s t := by
  cases e
  case still silent st => exact ⟨silent, st⟩
  case dropped idle    => simp [idle] at gone
  case ended last      => simp [turn_of_gone gone] at last

-- What has become of a flowgraph since a stop.
inductive Settling (s : State α) (events : List (Event α)) (t : State α) : Prop
  | still (silent : summaries events = []) (st : Still s t)
  | dropped (silent : summaries events = []) (idle : s.scheduler.phase = .idle)
    (st : Still s.drop t)
  | ended {summary} (last : s.turn.1 = some summary) (told : summaries events = [summary])
    (st : Still s.turn.2 t)

theorem Settling.frozen {events} (d : Settling s events t) (hs : s.stopping = true) :
    Frozen s t := by
  cases d
  case still st   => exact st.frozen
  case dropped st => exact s.drop_frozen.trans st.frozen
  case ended last _ st =>
    have ⟨a, ha, _, ht⟩ := exists_rouse?_of_summary hs last
    have f := (roused_of_rouse? ha).frozen.trans a.takeOver_takenOver.frozen
    exact (f.trans (ht ▸ finish_frozen _)).trans st.frozen

theorem Ebbed.settling {events event} (e : Ebbed t event u) (d : Settling s events t)
    (h : s.Sound) (ht : t.Sound) (hs : s.stopping = true) : Settling s (events ++ [event]) u := by
  cases d
  case still silent st =>
    cases e
    case still silent' st' =>
      exact .still (by rw [summaries_append, silent, silent']; rfl) (st.trans st')
    case dropped idle =>
      exact .dropped (by rw [summaries_append, silent]; rfl) (st.phase ▸ idle) st.drop
    case ended last =>
      have ⟨hl, st'⟩ := st.turn h ht hs
      exact .ended (hl ▸ last) (by rw [summaries_append, silent]; rfl) st'
  case dropped silent idle st =>
    have ⟨silent', st'⟩ := e.still_of_gone (.inr (st.phase.trans (dropped_of_drop idle)))
    exact .dropped (by rw [summaries_append, silent, silent']; rfl) idle (st.trans st')
  case ended last told st =>
    have ⟨a, _, _, hf⟩ := exists_rouse?_of_summary hs last
    have finished : s.turn.2.scheduler.phase = .finished := by rw [hf]; rfl
    have ⟨silent, st'⟩ := e.still_of_gone (.inl (st.phase.trans finished))
    exact .ended last (by rw [summaries_append, told, silent]; rfl) (st.trans st')

variable [Scalar α]

theorem update_of_stopping (hs : s.stopping = true) (block : BlockId) (index : Nat) (value : α) :
    s.update block index value = .error .shutdownInProgress := by
  simp only [update, hs, if_true]
  rfl

theorem Step.ebbed {event} (e : Step s event t) (h : s.Sound) (hs : s.stopping = true) :
    event.TurnedAway ∧ Ebbed s event t := by
  have hn : ¬s.Open := fun o => by simp [o.stopping] at hs
  cases e
  case push chunk _ =>
    rw [push_of_not_open hn]
    exact ⟨rfl, .still rfl (.refl s)⟩
  case resume hc =>
    have ⟨ha, st⟩ := h.resumePush_of_stopping hs hc
    exact ⟨ha, .still rfl st⟩
  case update hu =>
    rw [update_of_stopping hs] at hu
    contradiction
  case refuse hu =>
    rw [update_of_stopping hs] at hu
    cases hu
    exact ⟨rfl, .still rfl (.refl s)⟩
  case stop =>
    have st : Still s s.stop :=
      ⟨s.stop.dataReady, s.stop.spaceFreed, s.suspended, s.stop.waits, by
        simp [State.stop, announce, hs]⟩
    exact ⟨trivial, .still rfl st⟩
  case turn =>
    rw [handoff?_of_stopping hs]
    refine ⟨rfl, ?_⟩
    cases hr : s.rouse?
    case none =>
      rw [turn_of_rouse?_eq_none hr]
      exact .still rfl (.refl s)
    case some a =>
      have hl : s.turn.1 = some a.takeOver.finish.1 := by rw [turn_of_stopping hs hr]
      rw [hl]
      exact .ended hl
  case wait ticket generation _ =>
    obtain ⟨_, hw⟩ := (wait_waited s ticket generation).exists_waits
    exact ⟨trivial, .still rfl ⟨_, _, _, _, hw⟩⟩
  case resumeWait ticket =>
    obtain ⟨_, hw⟩ := (resumeWait_waitResumed s ticket).exists_waits
    exact ⟨trivial, .still rfl ⟨_, _, _, _, hw⟩⟩
  case drop =>
    refine ⟨trivial, ?_⟩
    by_cases hi : s.scheduler.phase = .idle
    case pos => exact .dropped hi
    case neg => exact .still rfl (by rw [drop_of_ne_idle hi]; exact .refl s)

theorem Run.settling {events} (r : Run s events t) (h : s.Sound) (hs : s.stopping = true) :
    (∀ event ∈ events, event.TurnedAway) ∧ Settling s events t := by
  induction r
  case refl => exact ⟨nofun, .still rfl (.refl s)⟩
  case step t u events event r e hi =>
    have ⟨away, d⟩ := hi
    have ht := (d.frozen hs).stopping.trans hs
    have ⟨away', eb⟩ := e.ebbed (r.sound h) ht
    refine ⟨?_, eb.settling d h (r.sound h) hs⟩
    simpa [or_imp, forall_and] using ⟨away, away'⟩

-- The scheduler may still get up once, `a` being the flowgraph then. It takes over what is pending,
-- which gives `u`, and sums up the run.
theorem frozen_after_stop {s₀ : State α} {factory config before events}
    (h₀ : ofConfig factory config = .ok s₀) (r₁ : Run s₀ before s) (stopped : s.stopping = true)
    (r₂ : Run s events t) :
    accepted events = [] ∧ handoffs events = [] ∧
      (∀ chunk answer, .push chunk answer ∈ events →
        answer = some (.error .shutdownInProgress)) ∧
      (∀ block index value answer, .update block index value answer ∈ events →
        answer = .error .shutdownInProgress) ∧
      Frozen s t ∧
      (summaries events = [] ∧ SameBlock s t ∨
        ∃ a u, Roused s a ∧ TakenOver a u ∧ SameBlock u t ∧ t.scheduler.phase = .finished ∧
          u.stats.traffic = s.stats.traffic ∧
          summaries events = [⟨s.generation, s.ring.toList.length, u.stats⟩]) := by
  have b := built_of_ofConfig h₀
  have ⟨away, d⟩ := r₂.settling (r₁.sound b.sound) stopped
  refine ⟨accepted_eq_nil away, handoffs_eq_nil away, fun _ _ he => away _ he,
    fun _ _ _ _ he => away _ he, d.frozen stopped, ?_⟩
  cases d
  case still silent st     => exact .inl ⟨silent, st.sameBlock⟩
  case dropped silent _ st => exact .inl ⟨silent, s.drop_sameBlock.trans st.sameBlock⟩
  case ended last told st =>
    obtain ⟨a, ha, rfl, ht⟩ := exists_rouse?_of_summary stopped last
    have r := roused_of_rouse? ha
    have o := a.takeOver_takenOver
    have f := r.frozen.trans o.frozen
    have hg : s.store.published = s.generation :=
      (r₁.tallied b).published.trans (r₁.tallied b).generation.symm
    refine .inr ⟨a, _, r, o, ?_, ?_, f.traffic, ?_⟩
    · exact (finish_sameBlock _).trans (ht ▸ st.sameBlock)
    · rw [st.phase, ht]
      rfl
    · rw [told, finish, f.store, hg, ← f.samples, SampleRing.toList_length]

-- A stop comes while a push sleeps. The push is told, a change of a parameter is refused, and the
-- run begins and ends.
theorem frozen_after_stop_small :
    ∃ before events, ofConfig (spectrumFactory identityKernel) smallConfig = .ok small ∧
      Run small before smallWaiting.stop ∧ smallWaiting.stop.stopping = true ∧
      Run smallWaiting.stop events smallWaiting.stop.resumePush.2.turn.2 ∧ events.length = 3 ∧
      accepted events = [] ∧ handoffs events = [] ∧
      Frozen smallWaiting.stop smallWaiting.stop.resumePush.2.turn.2 := by
  have ⟨_, r⟩ := exists_run_smallWaiting
  have r₁ := r.step .stop
  have h := r₁.sound (built_of_ofConfig ofConfig_eq_small).sound
  have hc : smallWaiting.stop.suspended = some (List.replicate 64 0) := smallWaiting_suspended
  have hs := (h.resumePush_of_stopping rfl hc).right.stopping
  have r₂ : Run smallWaiting.stop _ smallWaiting.stop.resumePush.2.turn.2 :=
    .step (.step (.step .refl (.resume hc)) (.refuse (update_of_stopping hs .spectrum 1 2))) .turn
  have ⟨ha, hh, _, _, hf, _⟩ := frozen_after_stop ofConfig_eq_small r₁ rfl r₂
  exact ⟨_, _, ofConfig_eq_small, r₁, rfl, r₂, rfl, ha, hh, hf⟩

end State

end Flowgraph

end RadioSpectrum
