import RadioSpectrum.Proofs.Flowgraph.Conservation

namespace RadioSpectrum

namespace Flowgraph

variable {α : Type}

namespace Event

-- The chunk that a push was refused.
def refused? : Event α → Option (List Int8)
  | push chunk (some (.ok false)) => some chunk
  | _ => none

def summary? : Event α → Option Summary
  | turn _ summary => summary
  | _ => none

end Event

-- The chunks that were turned away in a run, in the order in which they were.
def refused (events : List (Event α)) : List (List Int8) :=
  events.filterMap Event.refused?

-- The summary of a run that is over.
def summaries (events : List (Event α)) : List Summary :=
  events.filterMap Event.summary?

@[simp]
theorem refused_append (events events' : List (Event α)) :
    refused (events ++ events') = refused events ++ refused events' :=
  List.filterMap_append

@[simp]
theorem summaries_append (events events' : List (Event α)) :
    summaries (events ++ events') = summaries events ++ summaries events' :=
  List.filterMap_append

-- The counters and the latest result are those of a flowgraph to which the events happened.
structure Tallied (events : List (Event α)) (stats : Stats) (store : SnapshotStore Float32) :
    Prop where
  pushesAccepted  : stats.pushesAccepted = (accepted events).length
  pushesRejected  : stats.pushesRejected = (refused events).length
  samplesAccepted : stats.samplesAccepted = (accepted events).flatten.length
  samplesConsumed : stats.samplesConsumed = (windows events).flatten.length
  windowsComputed : stats.windowsComputed = stats.windowsPublished + stats.windowsDecimated
  published       : store.published = stats.windowsPublished
  generation      : store.generation = stats.windowsPublished

-- The samples that were left over are those that came in and were not drained.
structure Summary.Balanced (summary : Summary) : Prop where
  samples    : summary.stats.samplesAccepted = summary.stats.samplesConsumed + summary.discarded
  generation : summary.lastGeneration = summary.stats.windowsPublished

-- The counters after one more event, but for what becomes of the window that was drained in it.
def tally (stats : Stats) (event : Event α) : Stats :=
  { stats with
    pushesAccepted  := stats.pushesAccepted + (accepted [event]).length
    pushesRejected  := stats.pushesRejected + (refused [event]).length
    samplesAccepted := stats.samplesAccepted + (accepted [event]).flatten.length
    samplesConsumed := stats.samplesConsumed + (windows [event]).flatten.length }

namespace Tallied

variable {events : List (Event α)} {stats : Stats} {store : SnapshotStore Float32}

theorem record (h : Tallied events stats store) (event : Event α) :
    Tallied (events ++ [event]) (tally stats event) store where
  pushesAccepted  := by simp [tally, h.pushesAccepted]
  pushesRejected  := by simp [tally, h.pushesRejected]
  samplesAccepted := by simp [tally, h.samplesAccepted]
  samplesConsumed := by simp [tally, h.samplesConsumed]
  windowsComputed := h.windowsComputed
  published       := h.published
  generation      := h.generation

theorem accept (h : Tallied events stats store) (chunk : List Int8) :
    Tallied (events ++ [.push chunk (some (.ok true))]) (stats.accept chunk.length) store := by
  have hl : chunk.length = [chunk].flatten.length := by rw [List.flatten_singleton]
  rw [hl]
  exact h.record _

theorem consume (h : Tallied events stats store) (handoff : Handoff α) (summary) :
    Tallied (events ++ [.turn (some handoff) summary]) (stats.consume handoff.window.length)
      store := by
  have hl : handoff.window.length = [handoff.window].flatten.length := by
    rw [List.flatten_singleton]
  rw [hl]
  exact h.record _

theorem fault (h : Tallied events stats store) : Tallied events stats.fault store :=
  { h with }

theorem publish (h : Tallied events stats store) (bins : List Float32) :
    Tallied events (stats.compute true) (store.publish bins) :=
  { h with
    windowsComputed := by simp [Stats.compute, h.windowsComputed]; omega
    published       := congrArg (· + 1) h.published
    generation      := congrArg (· + 1) h.published }

theorem decimate (h : Tallied events stats store) : Tallied events (stats.compute false) store :=
  { h with windowsComputed := by simp [Stats.compute, h.windowsComputed]; omega }

end Tallied

namespace State

variable {s t : State α} {events : List (Event α)} {chunk window : List Int8}

theorem TakenOver.tallied (o : TakenOver s t) (h : Tallied events s.stats s.store) :
    Tallied events t.stats t.store := by
  cases o
  case idle | installed => exact h
  case unmade | unfit   => exact h.fault

theorem Computed.tallied (c : Computed s window t) (h : Tallied events s.stats s.store) :
    Tallied events t.stats t.store := by
  cases c
  case published bins _ _ => exact h.publish bins
  case decimated          => exact h.decimate
  case faulted            => exact h.fault

theorem Roused.tallied (r : Roused s t) (h : Tallied events s.stats s.store) :
    Tallied events t.stats t.store := by
  cases r <;> exact h

theorem Turn.tallied {handoff summary} (e : Turn s handoff summary t)
    (h : Tallied events s.stats s.store) :
    Tallied (events ++ [.turn handoff summary]) t.stats t.store := by
  cases e
  case rest            => exact h.record _
  case ended r o _     => exact (o.tallied (r.tallied h)).record _
  case starved r o _ _ => exact (o.tallied (r.tallied h)).record _
  case drained a u window ring r o _ hr c =>
    have hw : window.length = u.scheduler.bufferLength :=
      (SampleRing.read_of_read? hr).window_length
    have hd := (o.tallied (r.tallied h)).consume ⟨u.scheduler.transform, window⟩ none
    simp only [hw] at hd
    exact c.tallied hd

theorem Pushed.tallied {answer} (p : Pushed s chunk answer t)
    (h : Tallied events s.stats s.store) :
    Tallied (events ++ [.push chunk answer]) t.stats t.store := by
  cases p
  case slept => exact h.record _
  case answered o =>
    cases o
    case accepted => exact h.accept chunk
    case refused  => exact h.record _
    all_goals exact h.record _

theorem Resumed.tallied {answer} (r : Resumed s answer t) (hs : s.suspended = some chunk)
    (h : Tallied events s.stats s.store) :
    Tallied (events ++ [.push chunk answer]) t.stats t.store := by
  cases r
  case asleep => exact h.record _
  case woken hs' _ p =>
    obtain rfl : chunk = _ := Option.some_inj.mp (hs.symm.trans hs')
    exact p.tallied h

theorem drop_tallied (h : Tallied events s.stats s.store) :
    Tallied (events ++ [.drop]) s.drop.stats s.drop.store := by
  unfold drop
  split <;> exact h.record _

-- The ring is not touched in a turn that ends the run, and neither is it by settings that are taken
-- over in that turn.
theorem Turn.balanced {handoff summary} (e : Turn s handoff (some summary) t)
    (h : Tallied events s.stats s.store)
    (hs : s.stats.samplesAccepted = s.stats.samplesConsumed + s.ring.length) :
    summary.Balanced := by
  cases e
  case ended a u r o _ =>
    have hu := o.tallied (r.tallied h)
    refine ⟨?_, hu.published⟩
    calc u.stats.samplesAccepted
      _ = s.stats.samplesAccepted := hu.samplesAccepted.trans h.samplesAccepted.symm
      _ = s.stats.samplesConsumed + s.ring.length := hs
      _ = u.stats.samplesConsumed + u.ring.length := by
        rw [hu.samplesConsumed, ← h.samplesConsumed, (r.keeps.trans o.keeps).ring]

variable [Scalar α]

theorem Updated.tallied {block index value stored} (d : Updated s block index value stored t)
    (h : Tallied events s.stats s.store) :
    Tallied (events ++ [.update block index value (.ok stored)]) t.stats t.store := by
  cases d <;> exact h.record _

theorem Step.tallied {event} (e : Step s event t) (h : Tallied events s.stats s.store) :
    Tallied (events ++ [event]) t.stats t.store := by
  cases e
  case push       => exact (push_pushed s _).tallied h
  case resume hs  => exact (resumePush_resumed s).tallied hs h
  case update hu  => exact (updated_of_update hu).tallied h
  case refuse     => exact h.record _
  case stop       => exact h.record _
  case turn       => exact (turn_turn s).tallied h
  case drop       => exact drop_tallied h
  case wait ticket generation _ =>
    obtain ⟨_, hw⟩ := (wait_waited s ticket generation).exists_waits
    exact hw ▸ h.record _
  case resumeWait ticket =>
    obtain ⟨_, hw⟩ := (resumeWait_waitResumed s ticket).exists_waits
    exact hw ▸ h.record _

theorem Built.tallied {factory config} (b : Built factory config s) :
    Tallied (α := α) [] s.stats s.store := by
  cases b
  constructor <;> rfl

theorem Run.tallied {s₀ : State α} {factory config} (r : Run s₀ events s)
    (b : Built factory config s₀) : Tallied events s.stats s.store := by
  induction r
  case refl      => exact b.tallied
  case step e hi => exact e.tallied hi

-- What came in and was not drained is in the ring.
theorem Run.samplesAccepted_eq {s₀ : State α} {factory config} (r : Run s₀ events s)
    (b : Built factory config s₀) :
    s.stats.samplesAccepted = s.stats.samplesConsumed + s.ring.length := by
  have h := r.tallied b
  have hc : (windows events).flatten ++ s.ring.toList = (accepted events).flatten := by
    simpa [b.ring_toList] using r.conserves
  calc s.stats.samplesAccepted
    _ = ((windows events).flatten ++ s.ring.toList).length := by rw [h.samplesAccepted, hc]
    _ = s.stats.samplesConsumed + s.ring.length := by simp [h.samplesConsumed]

theorem Step.balanced {event summary} (e : Step s event t) (hm : summary ∈ summaries [event])
    (h : Tallied events s.stats s.store)
    (hs : s.stats.samplesAccepted = s.stats.samplesConsumed + s.ring.length) :
    summary.Balanced := by
  cases e
  case turn =>
    have ht : s.turn.1 = some summary := by simpa [summaries, Event.summary?] using hm
    exact (ht ▸ turn_turn s).balanced h hs
  all_goals simp [summaries, Event.summary?] at hm

theorem Run.balanced {s₀ : State α} {factory config summary} (r : Run s₀ events s)
    (b : Built factory config s₀) (hm : summary ∈ summaries events) : summary.Balanced := by
  induction r
  case refl => simp [summaries] at hm
  case step r e hi =>
    rw [summaries_append, List.mem_append] at hm
    exact hm.elim hi fun hm => e.balanced hm (r.tallied b) (r.samplesAccepted_eq b)

theorem counters_agree {s₀ : State α} {factory config}
    (h₀ : ofConfig factory config = .ok s₀) (r : Run s₀ events s) :
    s.stats.samplesAccepted = s.stats.samplesConsumed + s.ring.toList.length ∧
      s.stats.pendingSamples = s.ring.toList.length ∧
      s.stats.windowsComputed = s.stats.windowsPublished + s.stats.windowsDecimated ∧
      s.generation = s.stats.windowsPublished ∧ s.store.published = s.stats.windowsPublished ∧
      s.stats.pushesAccepted = (accepted events).length ∧
      s.stats.pushesRejected = (refused events).length ∧
      ∀ summary ∈ summaries events,
        summary.discarded = summary.stats.samplesAccepted - summary.stats.samplesConsumed ∧
        summary.lastGeneration = summary.stats.windowsPublished := by
  have b := built_of_ofConfig h₀
  have h := r.tallied b
  have hs : s.stats.samplesAccepted = s.stats.samplesConsumed + s.ring.toList.length := by
    simpa using r.samplesAccepted_eq b
  refine ⟨hs, ?_, h.windowsComputed, h.generation, h.published, h.pushesAccepted,
    h.pushesRejected, fun summary hm => ?_⟩
  · simp [Stats.pendingSamples, hs]
  · have hb := r.balanced b hm
    exact ⟨by rw [hb.samples, Nat.add_sub_cancel_left], hb.generation⟩

-- Of six samples three were drained, and a chunk that left no room was refused before the stop.
def fickleEnded : State Rat :=
  (fickleFed.push (List.replicate 62 0)).2.stop.turn.2

theorem counters_agree_fickle :
    ∃ events summary, ofConfig fickle fickleConfig = .ok fickleStart ∧
      Run fickleStart events fickleEnded ∧ summaries events = [summary] ∧
      fickleEnded.stats.samplesAccepted = fickleEnded.stats.samplesConsumed + 3 ∧
      fickleEnded.stats.pendingSamples = 3 ∧ fickleEnded.stats.windowsComputed = 1 ∧
      fickleEnded.generation = 1 ∧ fickleEnded.store.published = 1 ∧
      fickleEnded.stats.pushesAccepted = 2 ∧ fickleEnded.stats.pushesRejected = 1 ∧
      summary.discarded = 3 ∧ summary.lastGeneration = 1 := by
  have h₀ := eq_ok_get fickle_isSome
  have r : Run fickleStart _ fickleEnded :=
    .step (.step (.step (.step (.step (.step .refl (.push [1, 2, 3, 4] (by decide +kernel)))
      (.push [5, 6] (by decide +kernel))) .turn)
      (.push (List.replicate 62 0) (by decide +kernel))) .stop) .turn
  have ⟨hs, hp, hc, hg, hu, ha, hr, hb⟩ := counters_agree h₀ r
  have hl : fickleEnded.ring.toList.length = 3 := by decide +kernel
  have hw : fickleEnded.stats.windowsPublished = 1 := by decide +kernel
  have hd : fickleEnded.stats.windowsDecimated = 0 := by decide +kernel
  have hm := hb ⟨1, 3, fickleEnded.stats⟩ (by decide +kernel)
  rw [hl] at hs hp
  rw [hw] at hc hg hu
  refine ⟨_, ⟨1, 3, fickleEnded.stats⟩, h₀, r, by decide +kernel, hs, hp, ?_, hg, hu, ?_, ?_, ?_,
    ?_⟩
  · rw [hc, hd]
  · rw [ha]; decide +kernel
  · rw [hr]; decide +kernel
  · rw [hm.left]; decide +kernel
  · rw [hm.right, hw]

end State

end Flowgraph

end RadioSpectrum
