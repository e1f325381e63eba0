import Mathlib.Algebra.Order.Floor.Div
import RadioSpectrum.Proofs.Flowgraph.Results
import RadioSpectrum.Proofs.Flowgraph.Updates

namespace RadioSpectrum

namespace Flowgraph

-- What may happen while nobody stops, changes or lets go of a flowgraph.
def Event.Calm {α : Type} : Event α → Prop
  | push .. | turn .. | wait .. => True
  | update .. | stop | drop     => False

theorem Event.Calm.not_adjusts {α : Type} {event : Event α} (h : event.Calm) : ¬event.Adjusts := by
  cases event <;> first | contradiction | exact id

namespace State

variable {α : Type} {s t u : State α} {chunk window : List Int8} {ws : List (List Int8)}

-- The latest result once the windows `ws` were computed. It is that of the first window of a group.
inductive Latest (block : Transform α) (decimation : Nat) (ws : List (List Int8)) :
    SnapshotStore Float32 → Prop
  | blank : Latest block decimation ws {}
  | shown {group window bins} (first : ws[decimation * group]? = some window)
    (result : block.compute window = .ok bins) :
    Latest block decimation ws ⟨⟨group + 1, bins⟩, group + 1⟩

-- The scheduler is at work under the settings that were asked for last, and has computed the windows
-- `ws` and no others. With the results that are to be left out next, they make up whole groups.
structure Working (ws : List (List Int8)) (s : State α) : Prop where
  pending    : s.pending = none
  decimation : s.scheduler.decimation = s.staged.decimation
  skip       : s.scheduler.skip < s.staged.decimation
  count      : ws.length + s.scheduler.skip = s.staged.decimation * s.store.published
  computed   : s.stats.windowsComputed = ws.length
  lengths    : ∀ window ∈ ws, window.length = s.staged.windowLength
  latest     : Latest s.scheduler.transform s.staged.decimation ws s.store

-- A scheduler that has not begun yet takes over settings before its first window.
inductive Paced (ws : List (List Int8)) (s : State α) : Prop
  | idle (phase : s.scheduler.phase = .idle) (none : ws = []) (store : s.store = {})
    (computed : s.stats.windowsComputed = 0)
    (decimation : s.scheduler.decimation = max s.active.decimation 1)
  | working (phase : s.scheduler.phase ≠ .idle) (w : Working ws s)

theorem Latest.append {block : Transform α} {n store} (l : Latest block n ws store)
    (ws' : List (List Int8)) : Latest block n (ws ++ ws') store := by
  cases l
  case blank              => exact .blank
  case shown first result =>
    have hi := (List.getElem?_eq_some_iff.mp first).choose
    exact .shown (by rw [List.getElem?_append_left hi, first]) result

theorem Latest.generation_eq {block : Transform α} {n store} (l : Latest block n ws store) :
    store.generation = store.published := by
  cases l <;> rfl

theorem Latest.eq_empty {block : Transform α} {n store} (l : Latest block n ws store)
    (h : store.generation = 0) : store = {} := by
  cases l
  case blank => rfl
  case shown => contradiction

theorem Latest.exists_window {block : Transform α} {n store} (l : Latest block n ws store)
    (h : 0 < store.generation) : ∃ window, ws[n * (store.generation - 1)]? = some window ∧
      block.compute window = .ok store.current.bins := by
  cases l
  case blank              => contradiction
  case shown first result => exact ⟨_, first, result⟩

-- The results that were computed and those that are to be left out next make up whole groups, each
-- with one result that was published.
theorem groups_eq_ceilDiv {n skip computed groups : Nat} (hs : skip < n)
    (hc : computed + skip = n * groups) : groups = computed ⌈/⌉ n := by
  rw [Nat.ceilDiv_eq_add_pred_div]
  refine (Nat.div_eq_of_lt_le ?_ ?_).symm
  · rw [Nat.mul_comm]; omega
  · rw [Nat.mul_comm, Nat.mul_succ]; omega

theorem Working.published_eq (w : Working ws s) :
    s.store.published = ws.length ⌈/⌉ s.staged.decimation :=
  groups_eq_ceilDiv w.skip w.count

-- The pace is about some parts of the state only, and they are none of those that a push touches.
def pace (s : State α) :=
  (s.pending, s.scheduler, s.staged, s.active, s.store, s.stats.windowsComputed)

theorem Paced.congr (p : Paced ws s) (he : t.pace = s.pace) : Paced ws t := by
  simp only [pace, Prod.mk.injEq] at he
  obtain ⟨hp, hs, hg, ha, ho, hc⟩ := he
  cases p
  case idle phase none store computed decimation =>
    exact .idle (hs ▸ phase) none (ho.trans store) (hc.trans computed) (by rw [hs, ha, decimation])
  case working phase w =>
    refine .working (hs ▸ phase) ⟨hp.trans w.pending, ?_, ?_, ?_, hc.trans w.computed, ?_, ?_⟩
    · rw [hs, hg, w.decimation]
    · rw [hs, hg]; exact w.skip
    · rw [hs, hg, ho, w.count]
    · rw [hg]; exact w.lengths
    · rw [hs, hg, ho]; exact w.latest

-- A step that hands out no window.
theorem Paced.of_silent {event : Event α} (p : Paced ws s) (hh : event.handoff? = none)
    (he : t.pace = s.pace) : Paced (ws ++ windows [event]) t := by
  simpa [windows, handoffs, hh] using p.congr he

theorem Pushed.pace_eq {answer} (p : Pushed s chunk answer t) : t.pace = s.pace := by
  cases p
  case answered o => cases o <;> rfl
  case slept      => rfl

theorem Resumed.pace_eq {answer} (r : Resumed s answer t) : t.pace = s.pace := by
  cases r
  case asleep  => rfl
  case woken p => exact p.pace_eq

theorem Keeps.isOpen (k : Keeps s t) (o : s.Open) : t.Open :=
  ⟨k.stopping.trans o.stopping, (congrArg _ k.ring).trans o.readerDropped⟩

theorem Pushed.isOpen {answer} (p : Pushed s chunk answer t) (o : s.Open) : t.Open := by
  obtain ⟨hs, hr⟩ := o
  cases p
  case slept => exact ⟨hs, hr⟩
  case answered o =>
    cases o
    case accepted w => exact ⟨hs, w.readerDropped.trans hr⟩
    all_goals exact ⟨hs, hr⟩

theorem Resumed.isOpen {answer} (r : Resumed s answer t) (o : s.Open) : t.Open := by
  cases r
  case asleep  => exact o
  case woken p => exact p.isOpen ⟨o.stopping, o.readerDropped⟩

-- A run does not end by itself.
theorem Turn.isOpen {handoff summary} (e : Turn s handoff summary t) (o : s.Open) : t.Open := by
  cases e
  case rest => exact o
  case ended r k hs =>
    rw [(r.keeps.trans k.keeps).stopping, o.stopping] at hs
    contradiction
  case drained r k hn hr c =>
    have hd := SampleRing.read_of_read? hr
    have ho := (r.keeps.trans k.keeps).isOpen o
    exact c.keeps.isOpen ⟨hn, hd.readerDropped.trans ho.readerDropped⟩
  case starved r k _ _ =>
    have ho := (r.keeps.trans k.keeps).isOpen o
    exact ⟨ho.stopping, ho.readerDropped⟩

variable [Scalar α] {kernel : Kernel}

theorem Settled.decimation_pos (h : s.Settled kernel) : 0 < s.staged.decimation :=
  SpectrumConfig.decimation_pos h.valid

theorem Settled.bufferLength_eq (h : s.Settled kernel) (hc : s.Coherent) (hp : s.pending = none) :
    s.scheduler.bufferLength = s.staged.windowLength := by
  rw [hc.buffer, h.length, h.active hp]

-- Getting up and taking over come before all else, so the first window finds the settings in force
-- that were asked for last.
theorem Paced.working_of_takenOver (p : Paced ws s) (r : Roused s t) (o : TakenOver t u)
    (h : s.Settled kernel) : Working ws u := by
  have hn := h.decimation_pos
  cases p
  case idle phase none store computed decimation =>
    subst none
    cases r
    case started =>
      have hs : s.start.Settled kernel := h.congr rfl rfl
      have hm : max s.staged.decimation 1 = s.staged.decimation := Nat.max_eq_left hn
      rcases o.eq_self_or_install hs with ⟨hp, rfl⟩ | ⟨transform, -, -, rfl⟩
      · refine ⟨hp, ?_, hn, ?_, computed, nofun, ?_⟩
        · rw [start, decimation, h.active hp, hm]
        · simp [start, store]
        · rw [start, store]; exact .blank
      · refine ⟨rfl, hm, hn, ?_, computed, nofun, ?_⟩
        · simp [install, start, store]
        · simp only [install, start, store]; exact .blank
    case ready hb   => rw [hb] at phase; contradiction
    case woken hb _ => rw [hb] at phase; contradiction
  case working phase w =>
    have hp := r.preserves_pending.trans w.pending
    have hu : u = t := by
      rcases o.eq_self_or_install (r.settled h) with ⟨-, rfl⟩ | ⟨_, hq, -, -⟩
      · rfl
      · rw [hp] at hq; contradiction
    subst hu
    cases r
    case started hi => exact absurd hi phase
    case ready      => exact w
    case woken      =>
      exact ⟨w.pending, w.decimation, w.skip, w.count, w.computed, w.lengths, w.latest⟩

theorem Computed.working (c : Computed s window t) (hk : kernel.Regular) (h : s.Settled kernel)
    (w : Working ws s) (hl : window.length = s.staged.windowLength) :
    Working (ws ++ [window]) t := by
  have lengths : ∀ v ∈ ws ++ [window], v.length = s.staged.windowLength := by
    simpa [or_imp, forall_and] using ⟨w.lengths, hl⟩
  have hn := h.decimation_pos
  cases c
  case published bins result hs =>
    have hc : ws.length = s.staged.decimation * s.store.published := by
      rw [← w.count, hs, Nat.add_zero]
    refine ⟨w.pending, w.decimation, ?_, ?_, ?_, lengths, ?_⟩
    · simp only [announce, w.decimation]; omega
    · simp only [announce, w.decimation, SnapshotStore.publish, List.length_append,
        List.length_singleton, hc, Nat.mul_succ]
      omega
    · simp [announce, Stats.compute, w.computed]
    · exact .shown (by simp [announce, ← hc]) result
  case decimated bins result hs =>
    refine ⟨w.pending, w.decimation, ?_, ?_, ?_, lengths, w.latest.append [window]⟩
    · have := w.skip
      simp only
      omega
    · have := w.count
      simp only [List.length_append, List.length_singleton]
      omega
    · simp [Stats.compute, w.computed]
  case faulted result =>
    rw [← h.active w.pending] at hl
    obtain ⟨bins, hb, _⟩ := exists_compute_of_spectrumFactory hk h.block hl
    rw [hb] at result
    contradiction

theorem Turn.paced {handoff summary} (e : Turn s handoff summary t) (hk : kernel.Regular)
    (o : s.Open) (h : s.Sound) (hs : s.Settled kernel) (p : Paced ws s) :
    Paced (ws ++ windows [.turn handoff summary]) t := by
  cases e
  case rest => exact p.of_silent rfl rfl
  case ended r k hn =>
    rw [(r.keeps.trans k.keeps).stopping, o.stopping] at hn
    contradiction
  case starved a t r k _ _ =>
    have w := p.working_of_takenOver r k hs
    have w' : Working ws { t with dataReady := { t.dataReady with permit := false } }.park :=
      ⟨w.pending, w.decimation, w.skip, w.count, w.computed, w.lengths, w.latest⟩
    exact (Paced.working (by simp [park]) w').of_silent rfl rfl
  case drained a u window ring r k hn hr c =>
    have w := p.working_of_takenOver r k hs
    have hu := k.settled (r.settled hs)
    have hd := SampleRing.read_of_read? hr
    have hl : window.length = u.staged.windowLength :=
      hd.window_length.trans (hu.bufferLength_eq (k.up (r.up h)).coherent w.pending)
    have w' : Working ws (u.drained ring) :=
      ⟨w.pending, w.decimation, w.skip, w.count, w.computed, w.lengths, w.latest⟩
    have phase : (u.drained ring).scheduler.phase ≠ .idle := by simp [State.drained]
    exact .working (c.preserves_phase ▸ phase) (c.working hk (hu.congr rfl hd.capacity) w' hl)

theorem Step.isOpen {event} (e : Step s event t) (calm : event.Calm) (o : s.Open) : t.Open := by
  cases e
  case push   => exact (push_pushed s _).isOpen o
  case resume => exact (resumePush_resumed s).isOpen o
  case turn   => exact (turn_turn s).isOpen o
  case wait ticket generation _ =>
    obtain ⟨_, hw⟩ := (wait_waited s ticket generation).exists_waits
    exact hw ▸ ⟨o.stopping, o.readerDropped⟩
  case resumeWait ticket =>
    obtain ⟨_, hw⟩ := (resumeWait_waitResumed s ticket).exists_waits
    exact hw ▸ ⟨o.stopping, o.readerDropped⟩
  all_goals contradiction

theorem Step.paced {event} (e : Step s event t) (calm : event.Calm) (hk : kernel.Regular)
    (o : s.Open) (h : s.Sound) (hs : s.Settled kernel) (p : Paced ws s) :
    Paced (ws ++ windows [event]) t := by
  cases e
  case push   => exact p.of_silent rfl (push_pushed s _).pace_eq
  case resume => exact p.of_silent rfl (resumePush_resumed s).pace_eq
  case turn   => exact (turn_turn s).paced hk o h hs p
  case wait ticket generation _ =>
    obtain ⟨_, hw⟩ := (wait_waited s ticket generation).exists_waits
    exact hw ▸ p.of_silent rfl rfl
  case resumeWait ticket =>
    obtain ⟨_, hw⟩ := (resumeWait_waitResumed s ticket).exists_waits
    exact hw ▸ p.of_silent rfl rfl
  all_goals contradiction

theorem Run.isOpen {events} (r : Run s events t) (calm : ∀ event ∈ events, event.Calm)
    (o : s.Open) : t.Open := by
  induction r
  case refl => exact o
  case step e hi =>
    obtain ⟨calm, last⟩ := List.forall_mem_append.mp calm
    exact e.isOpen (last _ List.mem_cons_self) (hi calm)

-- A calm run goes on with the windows under the same settings.
theorem Run.paced {events} (r : Run s events t) (calm : ∀ event ∈ events, event.Calm)
    (hk : kernel.Regular) (o : s.Open) (h : s.Sound) (hs : s.Settled kernel) (p : Paced [] s) :
    t.staged = s.staged ∧ t.frontend = s.frontend ∧ Paced (windows events) t := by
  induction r
  case refl => exact ⟨rfl, rfl, p⟩
  case step t u events event r e hi =>
    obtain ⟨calm, last⟩ := List.forall_mem_append.mp calm
    have last := last event List.mem_cons_self
    obtain ⟨staged, frontend, p⟩ := hi calm
    obtain ⟨hg, hf⟩ := e.preserves_settings last.not_adjusts
    refine ⟨hg.trans staged, hf.trans frontend, ?_⟩
    rw [windows_append]
    exact e.paced last hk (r.isOpen calm o) (r.sound h) (r.settled hs) p

-- Where there is a whole window, the scheduler has only to be given a turn.
theorem Turn.drains {handoff summary} (e : Turn s handoff summary t) (o : s.Open) (h : s.Sound)
    (hs : s.Settled kernel) (hl : s.staged.windowLength ≤ s.ring.length) :
    t.ring.length < s.ring.length := by
  cases e
  case rest u =>
    have st := h.attentive.starved (u.sleeps h o.readerDropped).right
    have short := st.short
    rw [hs.bufferLength_eq h.coherent st.pending] at short
    omega
  case ended r k hn =>
    rw [(r.keeps.trans k.keeps).stopping, o.stopping] at hn
    contradiction
  case drained a u window ring r k _ hr c =>
    have up := k.up (r.up h)
    have hd := (SampleRing.read_of_read? hr).length
    have hp := up.coherent.buffer ▸ up.coherent.pos
    calc t.ring.length
      _ = ring.length := congrArg _ c.keeps.ring
      _ < u.ring.length := by omega
      _ = s.ring.length := congrArg _ (r.keeps.trans k.keeps).ring
  case starved a u r k _ short =>
    have ks := r.keeps.trans k.keeps
    have hu := k.settled (r.settled hs)
    rw [hu.bufferLength_eq (k.up (r.up h)).coherent k.pending_eq_none, ks.ring, ks.staged] at short
    omega

end State

end Flowgraph

end RadioSpectrum
