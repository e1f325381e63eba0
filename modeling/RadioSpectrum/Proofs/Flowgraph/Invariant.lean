import Mathlib.Tactic.MkIffOfInductiveProp
import RadioSpectrum.Proofs.Flowgraph.Run

namespace RadioSpectrum

namespace Wakeup

variable {w : Wakeup}

-- Nobody sleeps through a signal.
@[simp]
theorem notify_listener_ne_asleep (w : Wakeup) : w.notify.listener ≠ .asleep := by
  unfold notify
  cases w.listener <;> simp

@[simp]
theorem notify_listener_eq_absent_iff : w.notify.listener = .absent ↔ w.listener = .absent := by
  unfold notify
  cases w.listener <;> simp

end Wakeup

namespace Flowgraph

namespace State

variable {α : Type} {s t : State α} {chunk window : List Int8} {n : Nat}

-- The window buffer and the length that the gate sees are those of the block, and its windows fit
-- into the ring.
@[mk_iff]
structure Coherent (s : State α) : Prop where
  buffer : s.scheduler.bufferLength = s.scheduler.transform.inputLength
  shared : s.windowLength = s.scheduler.transform.inputLength
  pos    : 0 < s.scheduler.transform.inputLength
  fits   : s.scheduler.transform.inputLength ≤ s.ring.capacity

@[mk_iff]
structure Phased (s : State α) : Prop where
  running  : s.running = true ↔ s.scheduler.phase = .boundary ∨ s.scheduler.phase = .parked
  reader   : s.ring.readerDropped = true ↔
    s.scheduler.phase = .finished ∨ s.scheduler.phase = .dropped
  finished : s.scheduler.phase = .finished → s.stopping = true

-- There is nothing that the scheduler could do.
@[mk_iff]
structure Starved (s : State α) : Prop where
  permit   : s.dataReady.permit = false
  pending  : s.pending = none
  stopping : s.stopping = false
  short    : s.ring.length < s.scheduler.bufferLength

@[mk_iff]
structure Attentive (s : State α) : Prop where
  listener : s.dataReady.listener = .absent ↔ s.scheduler.phase ≠ .parked
  starved  : s.dataReady.listener = .asleep → s.Starved

-- A push that sleeps has a chunk that does not fit, and nobody asked for a stop.
@[mk_iff]
structure Patient (s : State α) : Prop where
  listener : s.spaceFreed.listener = .absent ↔ s.suspended = none
  stopping : s.spaceFreed.listener = .asleep → s.stopping = false
  full     : s.spaceFreed.listener = .asleep → ∀ chunk, s.suspended = some chunk →
    s.ring.free < chunk.length
  ne_nil   : ∀ chunk, s.suspended = some chunk → chunk ≠ []

@[mk_iff]
structure Sound (s : State α) : Prop where
  coherent  : s.Coherent
  phased    : s.Phased
  attentive : s.Attentive
  patient   : s.Patient

-- The scheduler is up, in the middle of its turn.
structure Up (s : State α) : Prop where
  coherent : s.Coherent
  running  : s.running = true
  reader   : s.ring.readerDropped = false
  listener : s.dataReady.listener = .absent
  patient  : s.Patient

theorem Phased.reader_eq_false_iff (h : s.Phased) : s.ring.readerDropped = false ↔
    s.scheduler.phase ≠ .finished ∧ s.scheduler.phase ≠ .dropped := by
  rw [← Bool.not_eq_true, h.reader, not_or]

theorem Attentive.parked (h : s.Attentive) (ha : s.dataReady.listener = .asleep) :
    s.scheduler.phase = .parked := by
  by_contra hp
  simp [h.listener.mpr hp] at ha

theorem Attentive.asleep (h : s.Attentive) (hp : s.scheduler.phase = .parked)
    (hw : s.dataReady.listener ≠ .woken) : s.dataReady.listener = .asleep := by
  have hn := mt h.listener.mp (not_not.mpr hp)
  cases hl : s.dataReady.listener <;> simp_all

theorem Roused.up (r : Roused s t) (h : s.Sound) : t.Up := by
  have ⟨⟨_, hw, hp, hc⟩, hph, ha, hg⟩ := h
  have hr := hph.reader_eq_false_iff
  cases r
  case started hi =>
    refine ⟨⟨rfl, hw, hp, hc⟩, rfl, ?_, ?_, ⟨hg.listener, hg.stopping, hg.full, hg.ne_nil⟩⟩
    · exact hr.mpr (by simp [hi])
    · exact ha.listener.mpr (by simp [hi])
  case ready hb =>
    refine ⟨h.coherent, ?_, ?_, ?_, hg⟩
    · exact hph.running.mpr (Or.inl hb)
    · exact hr.mpr (by simp [hb])
    · exact ha.listener.mpr (by simp [hb])
  case woken hb hl =>
    refine ⟨⟨h.coherent.buffer, hw, hp, hc⟩, ?_, ?_, rfl,
      ⟨hg.listener, hg.stopping, hg.full, hg.ne_nil⟩⟩
    · exact hph.running.mpr (Or.inr hb)
    · exact hr.mpr (by simp [hb])

theorem Roused.not_asleep (r : Roused s t) (h : s.Sound) : s.dataReady.listener ≠ .asleep := by
  have hl := h.attentive.listener
  cases r
  case started hp => simp [hl.mpr (by simp [hp])]
  case ready hp   => simp [hl.mpr (by simp [hp])]
  case woken hw   => simp [hw]

-- A scheduler that does not get up though nobody dropped the reader was not woken, and so it has
-- nothing to do.
theorem Unroused.sleeps (u : Unroused s) (h : s.Sound) (hr : s.ring.readerDropped = false) :
    s.scheduler.phase = .parked ∧ s.dataReady.listener = .asleep := by
  have ⟨hf, hd⟩ := h.phased.reader_eq_false_iff.mp hr
  cases u
  case asleep hp hw => exact ⟨hp, h.attentive.asleep hp hw⟩
  case finished hp  => exact absurd hp hf
  case dropped hp   => exact absurd hp hd

theorem TakenOver.up (o : TakenOver s t) (h : s.Up) : t.Up := by
  have ⟨hc, hr, hd, hl, hg⟩ := h
  cases o
  case idle => exact h
  case installed hp hf =>
    refine ⟨⟨rfl, rfl, hp, hf⟩, hr, hd, hl, ?_⟩
    constructor <;> simp [install, hg.listener]
    exact hg.ne_nil
  all_goals
    exact ⟨⟨hc.buffer, hc.shared, hc.pos, hc.fits⟩, hr, hd, hl,
      ⟨hg.listener, hg.stopping, hg.full, hg.ne_nil⟩⟩

theorem Up.drained {ring} (h : s.Up) (d : s.ring.Read n window ring) : (s.drained ring).Up := by
  have ⟨hc, hr, hd, hl, hg⟩ := h
  refine ⟨⟨hc.buffer, hc.shared, hc.pos, ?_⟩, hr, ?_, hl, ?_⟩
  · exact d.capacity.symm ▸ hc.fits
  · exact d.readerDropped.trans hd
  · constructor <;> simp [State.drained, hg.listener]
    exact hg.ne_nil

theorem Computed.up (c : Computed s window t) (h : s.Up) : t.Up := by
  have ⟨hc, hr, hd, hl, hg⟩ := h
  cases c <;> exact ⟨⟨hc.buffer, hc.shared, hc.pos, hc.fits⟩, hr, hd, hl,
    ⟨hg.listener, hg.stopping, hg.full, hg.ne_nil⟩⟩

theorem Computed.preserves_phase (c : Computed s window t) :
    t.scheduler.phase = s.scheduler.phase := by
  cases c <;> rfl

theorem Up.sound_of_boundary (h : s.Up) (hp : s.scheduler.phase = .boundary) : s.Sound where
  coherent  := h.coherent
  phased    := by constructor <;> simp [hp, h.running, h.reader]
  attentive := by constructor <;> simp [hp, h.listener]
  patient   := h.patient

theorem Up.sound_finish (h : s.Up) (hs : s.stopping = true) : s.finish.2.Sound where
  coherent  := ⟨h.coherent.buffer, h.coherent.shared, h.coherent.pos, h.coherent.fits⟩
  phased    := by constructor <;> simp [finish, announce, SampleRing.dropReader, hs]
  attentive := by constructor <;> simp [finish, announce, h.listener]
  patient   := ⟨h.patient.listener, h.patient.stopping, h.patient.full, h.patient.ne_nil⟩

theorem Up.sound_park (h : s.Up) (st : s.Starved) : s.park.Sound where
  coherent  := ⟨h.coherent.buffer, h.coherent.shared, h.coherent.pos, h.coherent.fits⟩
  phased    := by constructor <;> simp [park, h.running, h.reader]
  attentive :=
    ⟨by simp [park, Wakeup.listen], fun _ => ⟨st.permit, st.pending, st.stopping, st.short⟩⟩
  patient   := ⟨h.patient.listener, h.patient.stopping, h.patient.full, h.patient.ne_nil⟩

theorem Turn.sound {handoff summary} (e : Turn s handoff summary t) (h : s.Sound) : t.Sound := by
  cases e
  case rest => exact h
  case ended r o hs => exact (o.up (r.up h)).sound_finish hs
  case drained r o hs hr c =>
    have hu := c.up ((o.up (r.up h)).drained (SampleRing.read_of_read? hr))
    exact hu.sound_of_boundary c.preserves_phase
  case starved r o hs hl =>
    have ⟨hc, hr, hd, hl', hg⟩ := o.up (r.up h)
    refine Up.sound_park ⟨⟨hc.buffer, hc.shared, hc.pos, hc.fits⟩, hr, hd, hl',
      ⟨hg.listener, hg.stopping, hg.full, hg.ne_nil⟩⟩ ?_
    exact ⟨rfl, o.pending_eq_none, hs, hl⟩

-- Soundness is about some parts of the state only. A push goes to sleep and gets up without
-- touching any of these.
def core (s : State α) :=
  (s.ring, s.scheduler, s.pending, s.windowLength, s.dataReady, s.stopping, s.running)

theorem Sound.of_patient (h : s.Sound) (hg : t.Patient) (he : t.core = s.core) : t.Sound := by
  simp only [core, Prod.mk.injEq] at he
  have ⟨hr, hs, hp, hw, hd, ho, hn⟩ := he
  have ⟨hc, hph, ha, _⟩ := h
  refine ⟨?_, ?_, ?_, hg⟩
  all_goals
    simp only [coherent_iff, phased_iff, attentive_iff, starved_iff, hr, hs, hp, hw, hd, ho, hn]
      at *
    assumption

theorem Sound.congr (h : s.Sound) (he : t.core = s.core) (hf : t.spaceFreed = s.spaceFreed)
    (hu : t.suspended = s.suspended) : t.Sound := by
  refine h.of_patient ?_ he
  simp only [core, Prod.mk.injEq] at he
  have ⟨hr, _, _, _, _, ho, _⟩ := he
  have hg := h.patient
  simp only [patient_iff, hr, ho, hf, hu] at *
  exact hg

theorem Offered.sound {answer} (o : Offered s chunk answer t) (h : s.Sound)
    (hn : s.suspended = none) : t.Sound := by
  cases o
  case closed | invalid | hopeful => exact h
  case refused => exact h.congr rfl rfl rfl
  case accepted ring _ w =>
    have ⟨hc, hph, ha, hg⟩ := h
    have hl := hg.listener.mpr hn
    refine ⟨⟨hc.buffer, hc.shared, hc.pos, ?_⟩, ⟨hph.running, ?_, hph.finished⟩, ⟨?_, ?_⟩,
      ⟨hg.listener, hg.stopping, ?_, hg.ne_nil⟩⟩
    · simpa [w.capacity] using hc.fits
    · simpa [w.readerDropped] using hph.reader
    · simpa using ha.listener
    · simp
    · simp [hl]

theorem Pushed.sound {answer} (p : Pushed s chunk answer t) (h : s.Sound)
    (hn : s.suspended = none) : t.Sound := by
  cases p
  case answered o => exact o.sound h hn
  case slept o hc hf _ =>
    refine h.of_patient ?_ rfl
    constructor <;> simp [suspend, Wakeup.listen, o.stopping, hf, hc]

-- A push that was woken gets up.
theorem Sound.rise (h : s.Sound) : { s with
    suspended := none
    spaceFreed := { s.spaceFreed with listener := .absent } }.Sound := by
  refine h.of_patient ?_ rfl
  constructor <;> simp

theorem Resumed.sound {answer} (r : Resumed s answer t) (h : s.Sound) : t.Sound := by
  cases r
  case asleep => exact h
  case woken p => exact p.sound h.rise rfl

theorem stop_sound (h : s.Sound) : s.stop.Sound where
  coherent  := ⟨h.coherent.buffer, h.coherent.shared, h.coherent.pos, h.coherent.fits⟩
  phased    := ⟨h.phased.running, h.phased.reader, fun _ => rfl⟩
  attentive := by constructor <;> simp [stop, announce, h.attentive.listener]
  patient   := by
    constructor <;> simp [stop, announce, h.patient.listener]
    exact h.patient.ne_nil

theorem stage_sound (h : s.Sound) (config : SpectrumConfig) : (s.stage config).Sound where
  coherent  := ⟨h.coherent.buffer, h.coherent.shared, h.coherent.pos, h.coherent.fits⟩
  phased    := ⟨h.phased.running, h.phased.reader, h.phased.finished⟩
  attentive := by constructor <;> simp [stage, h.attentive.listener]
  patient   := by
    constructor <;> simp [stage, h.patient.listener]
    exact h.patient.ne_nil

theorem drop_sound (h : s.Sound) : s.drop.Sound := by
  unfold drop
  split
  case h_1 hi =>
    have hl := h.attentive.listener.mpr (by simp [hi])
    refine ⟨⟨h.coherent.buffer, h.coherent.shared, h.coherent.pos, h.coherent.fits⟩, ?_, ?_,
      ⟨h.patient.listener, h.patient.stopping, h.patient.full, h.patient.ne_nil⟩⟩
    · have := h.phased.running
      constructor <;> simp_all [SampleRing.dropReader]
    · constructor <;> simp [hl]
  case h_2 => exact h

-- Whether a call waits or gets its answer, nothing but the list of those who wait changes.
theorem Waited.sound {ticket generation answer} (r : Waited s ticket generation answer t)
    (h : s.Sound) : t.Sound := by
  cases r
  case answered => exact h
  case slept    => exact h.congr rfl rfl rfl

theorem WaitResumed.sound {ticket answer} (r : WaitResumed s ticket answer t) (h : s.Sound) :
    t.Sound := by
  cases r
  case asleep  => exact h
  case woken r => exact r.sound (h.congr rfl rfl rfl)

variable [Scalar α]

theorem Updated.sound {block index value stored} (d : Updated s block index value stored t)
    (h : s.Sound) : t.Sound := by
  cases d
  case staged => exact stage_sound h _
  case tuned  => exact h.congr rfl rfl rfl

theorem Step.sound {event} (e : Step s event t) (h : s.Sound) : t.Sound := by
  cases e
  case push hn       => exact (push_pushed s _).sound h hn
  case resume        => exact (resumePush_resumed s).sound h
  case update hu     => exact (updated_of_update hu).sound h
  case refuse        => exact h
  case stop          => exact stop_sound h
  case turn          => exact (turn_turn s).sound h
  case wait          => exact (wait_waited s _ _).sound h
  case resumeWait    => exact (resumeWait_waitResumed s _).sound h
  case drop          => exact drop_sound h

theorem Run.sound {events} (r : Run s events t) (h : s.Sound) : t.Sound := by
  induction r
  case refl      => exact h
  case step e hi => exact e.sound hi

theorem Built.sound {factory config} (b : Built factory config s) : s.Sound := by
  cases b
  case intro hp hf _ =>
    refine ⟨⟨rfl, rfl, hp, by simpa using hf⟩, ?_, ?_, ?_⟩
    all_goals constructor <;> simp [SampleRing.empty]

end State

end Flowgraph

end RadioSpectrum
