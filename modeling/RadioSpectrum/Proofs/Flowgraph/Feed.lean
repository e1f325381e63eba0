import RadioSpectrum.Flowgraph.Stream
import RadioSpectrum.Proofs.Flowgraph.Pace
import RadioSpectrum.Proofs.Flowgraph.Shutdown

namespace RadioSpectrum

namespace Flowgraph

namespace State

section Definitions

variable {α : Type}

-- A flowgraph that was not given any samples yet.
structure Fresh (s : State α) : Prop where
  isOpen     : s.Open
  phase      : s.scheduler.phase = .idle
  empty      : s.ring.toList = []
  suspended  : s.suspended = none
  store      : s.store = {}
  stats      : s.stats = {}
  decimation : s.scheduler.decimation = max s.active.decimation 1

-- What comes of a push at a gate that is not shut. It sleeps until it has its answer.
structure Asked (chunk : List Int8) (answer : Option (Admission α)) (t : State α) : Prop where
  notShut   : answer ≠ some (.error .shutdownInProgress)
  suspended : t.suspended = if answer.isSome then none else some chunk

-- The gate is asked to take a chunk, by the push that sleeps there or by a new one.
def ask (s : State α) (chunk : List Int8) : Option (Admission α) × State α :=
  if s.suspended.isSome then s.resumePush else s.push chunk

-- A chunk is fed: the gate is asked to take it, until it does or is shut, and the scheduler has a
-- turn in between.
inductive ChunkFed (chunk : List Int8) : State α → Bool → State α → Prop
  | taken {s t} (asked : s.ask chunk = (some (.ok true), t)) : ChunkFed chunk s true t
  | shut {s t} (asked : s.ask chunk = (some (.error .shutdownInProgress), t)) :
    ChunkFed chunk s false t
  | again {s t u isOpen answer} (asked : s.ask chunk = (answer, t))
    (full : answer = some (.ok false) ∨ answer = none) (rest : ChunkFed chunk t.turn.2 isOpen u) :
    ChunkFed chunk s isOpen u

variable [Scalar α]

-- A flowgraph that was built and had parameters set, and to which nothing else happened.
inductive Prepared (kernel : Kernel) (config : FlowgraphConfig) (s : State α) : Prop
  | intro {s₀ events} (b : Built (spectrumFactory kernel) config s₀) (r : Run s₀ events s)
    (set : ∀ event ∈ events, event.Adjusts)

-- From `s` to `t` the chunks are taken in, while nobody stops the flowgraph or changes it.
inductive Fed (s : State α) (chunks : List (List Int8)) (t : State α) : Prop
  | intro {events} (r : Run s events t) (calm : ∀ event ∈ events, event.Calm)
    (taken : accepted events = chunks)

end Definitions

variable {α : Type} {s t u : State α} {chunk : List Int8} {answer : Option (Admission α)}
  {isOpen : Bool}

theorem Fresh.paced (f : Fresh s) : Paced [] s :=
  .idle f.phase rfl f.store (by rw [f.stats]) f.decimation

theorem Turn.preserves_suspended {handoff summary} (e : Turn s handoff summary t) :
    t.suspended = s.suspended := by
  cases e
  case rest              => rfl
  case ended r o _       => exact (r.keeps.trans o.keeps).suspended
  case starved r o _ _   => exact (r.keeps.trans o.keeps).suspended
  case drained r o _ _ c => exact c.keeps.suspended.trans (r.keeps.trans o.keeps).suspended

-- A scheduler that is still there gets up after a stop.
theorem Sound.exists_rouse?_of_stopping (h : s.Sound) (hs : s.stopping = true)
    (hr : s.ring.readerDropped = false) : ∃ a, s.rouse? = some a := by
  refine Option.ne_none_iff_exists'.mp fun hn => ?_
  obtain ⟨_, ha⟩ := (unroused_of_rouse? hn).sleeps h hr
  have := (h.attentive.starved ha).stopping
  simp [hs] at this

theorem Pushed.asked (p : Pushed s chunk answer t) (o : s.Open) (free : s.suspended = none) :
    Asked chunk answer t := by
  cases p
  case slept => exact ⟨nofun, rfl⟩
  case answered o' =>
    cases o'
    case closed hn => exact absurd o hn
    all_goals exact ⟨by simp, free⟩

theorem Resumed.asked (r : Resumed s answer t) (o : s.Open) (hs : s.suspended = some chunk) :
    Asked chunk answer t := by
  cases r
  case asleep => exact ⟨nofun, hs⟩
  case woken hs' _ p =>
    obtain rfl : chunk = _ := Option.some_inj.mp (hs.symm.trans hs')
    exact p.asked ⟨o.stopping, o.readerDropped⟩ rfl

theorem chunkFed_of_feedChunk (h : s.feedChunk chunk = .ok (isOpen, t)) :
    ChunkFed chunk s isOpen t := by
  fun_induction feedChunk s chunk
  case case1 ha  => cases h; exact .taken ha
  case case2 ha  => cases h; exact .shut ha
  case case3     => contradiction
  case case4 hs | case7 hs =>
    rw [if_pos hs] at h
    contradiction
  case case6 hl _ hn | case9 hl _ hn =>
    rw [if_neg hn, dif_neg hl] at h
    contradiction
  case case5 hl ha hn hi =>
    rw [if_neg hn, dif_pos hl] at h
    exact .again ha (.inl rfl) (hi h)
  case case8 hl ha hn hi =>
    rw [if_neg hn, dif_pos hl] at h
    exact .again ha (.inr rfl) (hi h)

-- The scheduler is still there when the stop comes, and its next turn ends the run.
theorem exists_turn_of_stop (o : s.Open) (h : s.Sound) :
    ∃ summary last, s.stop.turn = (some summary, last) := by
  obtain ⟨a, ha⟩ := (stop_sound h).exists_rouse?_of_stopping rfl o.readerDropped
  exact ⟨_, _, turn_of_stopping rfl ha⟩

variable [Scalar α] {kernel : Kernel} {config : FlowgraphConfig} {events : List (Event α)}
  {chunks chunks' : List (List Int8)}

theorem Built.fresh {factory} (b : Built factory config s) : s.Fresh := by
  cases b
  exact ⟨⟨rfl, rfl⟩, rfl, rfl, rfl, rfl, rfl, rfl⟩

theorem Updated.fresh {block index value stored} (d : Updated s block index value stored t)
    (f : s.Fresh) : t.Fresh := by
  obtain ⟨⟨hs, hr⟩, phase, empty, suspended, store, stats, decimation⟩ := f
  cases d <;> exact ⟨⟨hs, hr⟩, phase, empty, suspended, store, stats, decimation⟩

theorem Run.fresh (r : Run s events t) (set : ∀ event ∈ events, event.Adjusts) (f : s.Fresh) :
    t.Fresh := by
  induction r
  case refl => exact f
  case step t u events event r e hi =>
    obtain ⟨earlier, last⟩ := List.forall_mem_append.mp set
    have last := last event List.mem_cons_self
    cases e
    case update hu => exact (updated_of_update hu).fresh (hi earlier)
    all_goals contradiction

namespace Prepared

theorem of_built (b : Built (spectrumFactory kernel) config s) : Prepared kernel config s :=
  ⟨b, .refl, nofun⟩

theorem update {block index value stored} (p : Prepared kernel config s)
    (h : s.update block index value = .ok (stored, t)) : Prepared kernel config t := by
  obtain ⟨b, r, set⟩ := p
  refine ⟨b, r.step (.update h), List.forall_mem_append.mpr ⟨set, ?_⟩⟩
  exact List.forall_mem_singleton.mpr trivial

theorem sound (p : Prepared kernel config s) : s.Sound := by
  obtain ⟨b, r, _⟩ := p
  exact r.sound b.sound

theorem settled (p : Prepared kernel config s) : s.Settled kernel := by
  obtain ⟨b, r, _⟩ := p
  exact r.settled b.settled

theorem fresh (p : Prepared kernel config s) : s.Fresh := by
  obtain ⟨b, r, set⟩ := p
  exact r.fresh set b.fresh

-- The samples that were not drained yet are those in the ring.
theorem pendingSamples_eq (p : Prepared kernel config s) (r : Run s events t) :
    t.stats.pendingSamples = t.ring.length := by
  obtain ⟨b, r₀, _⟩ := p
  rw [Stats.pendingSamples, (r₀.trans r).samplesAccepted_eq b, Nat.add_sub_cancel_left]

end Prepared

-- Nobody waits in vain for the last windows, or for the end of the run.
theorem Prepared.progress (p : Prepared kernel config s) (r : Run s events t)
    (calm : ∀ event ∈ events, event.Calm) :
    (t.staged.windowLength ≤ t.stats.pendingSamples →
      t.turn.2.stats.pendingSamples < t.stats.pendingSamples) ∧ t.stop.turn.1.isSome := by
  have o := r.isOpen calm p.fresh.isOpen
  have h := r.sound p.sound
  constructor
  · intro hl
    rw [p.pendingSamples_eq r] at hl
    rw [p.pendingSamples_eq r, p.pendingSamples_eq (r.step .turn)]
    exact (turn_turn t).drains o h (r.settled p.settled) hl
  · obtain ⟨summary, _, ht⟩ := exists_turn_of_stop o h
    rw [ht]
    rfl

namespace Fed

theorem refl (s : State α) : Fed s [] s :=
  ⟨.refl, nofun, rfl⟩

theorem step {event} (f : Fed s chunks t) (e : Step t event u) (calm : event.Calm) :
    Fed s (chunks ++ accepted [event]) u := by
  obtain ⟨r, hc, rfl⟩ := f
  refine ⟨r.step e, ?_, accepted_append ..⟩
  simpa [or_imp, forall_and] using ⟨hc, calm⟩

theorem trans (f₁ : Fed s chunks t) (f₂ : Fed t chunks' u) : Fed s (chunks ++ chunks') u := by
  obtain ⟨r₁, calm₁, rfl⟩ := f₁
  obtain ⟨r₂, calm₂, rfl⟩ := f₂
  refine ⟨r₁.trans r₂, ?_, accepted_append ..⟩
  simpa [or_imp, forall_and] using ⟨calm₁, calm₂⟩

end Fed

theorem step_of_ask {answer} (o : s.Open) (hc : s.suspended = none ∨ s.suspended = some chunk)
    (h : s.ask chunk = (answer, t)) : Step s (.push chunk answer) t ∧ Asked chunk answer t := by
  unfold ask at h
  rcases hc with hc | hc
  · have h : s.push chunk = (answer, t) := by simpa [hc] using h
    have e := Step.push chunk hc
    have a := (push_pushed s chunk).asked o hc
    rw [h] at e a
    exact ⟨e, a⟩
  · have h : s.resumePush = (answer, t) := by simpa [hc] using h
    have e := Step.resume hc
    have a := (resumePush_resumed s).asked o hc
    rw [h] at e a
    exact ⟨e, a⟩

-- While it is fed, a chunk sleeps at the gate or is not there at all, whatever came of the last
-- attempt. This is why the next attempt is a push of the same chunk.
theorem ChunkFed.fed (f : ChunkFed chunk s isOpen t) (o : s.Open)
    (hc : s.suspended = none ∨ s.suspended = some chunk) :
    isOpen = true ∧ t.Open ∧ t.suspended = none ∧ Fed s [chunk] t := by
  induction f
  case taken s t asked =>
    obtain ⟨e, a⟩ := step_of_ask o hc asked
    exact ⟨rfl, e.isOpen trivial o, a.suspended, (Fed.refl s).step e trivial⟩
  case shut asked =>
    obtain ⟨_, a⟩ := step_of_ask o hc asked
    exact absurd rfl a.notShut
  case again s t u isOpen answer asked full rest hi =>
    obtain ⟨e, a⟩ := step_of_ask o hc asked
    have o' := (turn_turn t).isOpen (e.isOpen trivial o)
    have hc' : t.turn.2.suspended = none ∨ t.turn.2.suspended = some chunk := by
      rw [(turn_turn t).preserves_suspended, a.suspended]
      split
      · exact .inl rfl
      · exact .inr rfl
    obtain ⟨ho, hu, hn, f⟩ := hi o' hc'
    have f₀ : Fed s [] t.turn.2 := by
      have f₀ := ((Fed.refl s).step e trivial).step .turn trivial
      rcases full with rfl | rfl <;> exact f₀
    exact ⟨ho, hu, hn, f₀.trans f⟩

theorem fed_of_feed (o : s.Open) (hn : s.suspended = none) (h : s.feed chunks = .ok t) :
    Fed s chunks t := by
  induction chunks generalizing s
  case nil => cases h; exact .refl _
  case cons chunk chunks hi =>
    obtain ⟨⟨isOpen, u⟩, hu, h⟩ := bind_eq_ok.mp h
    obtain ⟨ho, o', hn', f⟩ := (chunkFed_of_feedChunk hu).fed o (.inl hn)
    simp only [ho, if_true] at h
    exact f.trans (hi o' hn' h)

-- The samples that are counted are those in the ring, so as long as they make up a window the
-- scheduler drains one.
theorem fed_of_drain (p : Prepared kernel config s) (r : Run s events t) (o : t.Open) :
    Fed t [] t.drain ∧ t.drain.stats.pendingSamples < t.drain.staged.windowLength := by
  fun_induction drain t generalizing events
  case case1 h =>
    refine ⟨.refl _, h.resolve_left ?_⟩
    simp [o.stopping]
  case case2 u hn next hl hi =>
    obtain ⟨f, dry⟩ := hi (r.step .turn) ((turn_turn u).isOpen o)
    have f₀ : Fed u [] u.turn.2 := (Fed.refl u).step .turn trivial
    exact ⟨f₀.trans f, dry⟩
  case case3 u hn next hl =>
    simp only [not_or, Nat.not_lt, p.pendingSamples_eq r] at hn
    exact absurd ((turn_turn u).drains o (r.sound p.sound) (r.settled p.settled) hn.right) hl

theorem exists_run_of_close (o : s.Open) (h : s.Sound) :
    ∃ events, Run s.stop events s.close.2 ∧ summaries events = [s.close.1] := by
  obtain ⟨summary, last, ht⟩ := exists_turn_of_stop o h
  have e : Step s.stop (.turn s.stop.handoff? s.stop.turn.1) s.stop.turn.2 := .turn
  rw [ht] at e
  rw [close, ht]
  exact ⟨_, .step .refl e, rfl⟩

end State

end Flowgraph

end RadioSpectrum
