import RadioSpectrum.Proofs.Flowgraph.Conservation
import RadioSpectrum.Proofs.Flowgraph.Settings

namespace RadioSpectrum

namespace Flowgraph

namespace State

variable {α : Type}

-- A push is made and looked after again and again. In between the scheduler takes `n` turns, and
-- others may wait for generations. Nothing happens to a push that has its answer.
inductive Attempt (s : State α) (chunk : List Int8) : Nat → Option (Admission α) → State α → Prop
  | push : Attempt s chunk 0 (s.push chunk).1 (s.push chunk).2
  | poll {n t} (a : Attempt s chunk n none t) : Attempt s chunk n t.resumePush.1 t.resumePush.2
  | turn {n t} (a : Attempt s chunk n none t) : Attempt s chunk (n + 1) none t.turn.2
  | wait {n t} (ticket generation) (a : Attempt s chunk n none t) :
    Attempt s chunk n none (t.wait ticket generation).2
  | resumeWait {n t} (ticket) (a : Attempt s chunk n none t) :
    Attempt s chunk n none (t.resumeWait ticket).2

variable {s t u : State α} {chunk : List Int8} {answer : Option (Admission α)} {n : Nat}

theorem exists_attempt (h : (s.push chunk).1 = none) (n : Nat) : ∃ t, Attempt s chunk n none t := by
  induction n
  case zero =>
    have a : Attempt s chunk 0 _ _ := .push
    exact ⟨_, h ▸ a⟩
  case succ n hi =>
    have ⟨t, a⟩ := hi
    exact ⟨_, a.turn⟩

-- There is room for the chunk once all windows are drained.
def Fits (s : State α) (chunk : List Int8) : Prop :=
  chunk.length ≤ s.ring.capacity - s.ring.length % s.staged.windowLength

variable [Scalar α] {kernel : Kernel}

theorem worthwhile_iff (h : s.Settled kernel) (hc : s.Coherent) (hp : s.policy = .wait) :
    s.Worthwhile chunk ↔ s.Fits chunk := by
  have hw := h.nextWindowLength_eq hc
  have hr := free_add_reclaimable (hw ▸ h.windowLength_pos)
  rw [Fits, ← hw, ← hr]
  exact ⟨fun h => h.fits, fun h => ⟨hp, h⟩⟩

-- What stays as it was when a push was made in `s`, `n` turns of the scheduler ago.
structure Underway (kernel : Kernel) (s : State α) (n : Nat) (t : State α) : Prop where
  sound    : t.Sound
  settled  : t.Settled kernel
  policy   : t.policy = .wait
  stopping : t.stopping = false
  reader   : t.ring.readerDropped = false
  staged   : t.staged = s.staged
  capacity : t.ring.capacity = s.ring.capacity
  rest     : t.ring.length % s.staged.windowLength = s.ring.length % s.staged.windowLength
  drained  : ∃ gone, gone ++ t.ring.toList = s.ring.toList
  progress : t.dataReady.listener = .asleep ∨
    t.ring.length + n * s.staged.windowLength = s.ring.length

-- What an attempt has come to.
inductive Outcome (kernel : Kernel) (s : State α) (chunk : List Int8) (n : Nat) :
    Option (Admission α) → State α → Prop
  | asleep {t : State α} (h : Underway kernel s n t) (suspended : t.suspended = some chunk)
    (fits : s.Fits chunk) : Outcome kernel s chunk n none t
  | accepted {t : State α} (gone) (fits : s.Fits chunk)
    (drained : gone ++ t.ring.toList = s.ring.toList ++ chunk) :
    Outcome kernel s chunk n (some (.ok true)) t
  | refused {t : State α} (gone) (vain : ¬s.Fits chunk)
    (drained : gone ++ t.ring.toList = s.ring.toList) :
    Outcome kernel s chunk n (some (.ok false)) t

theorem Outcome.underway : Outcome kernel s chunk n none t →
    Underway kernel s n t ∧ t.suspended = some chunk ∧ s.Fits chunk
  | asleep h suspended fits => ⟨h, suspended, fits⟩

namespace Underway

theorem fits_iff (h : Underway kernel s n t) : t.Fits chunk ↔ s.Fits chunk := by
  unfold Fits
  rw [h.staged, h.capacity, h.rest]

theorem push (h : Underway kernel s n t) (p : Pushed t chunk answer u) (free : t.suspended = none)
    (ne : chunk ≠ []) : Outcome kernel s chunk n answer u := by
  have sound := p.sound h.sound free
  have settled := p.settled h.settled
  have hw : t.Worthwhile chunk ↔ s.Fits chunk :=
    (worthwhile_iff h.settled h.sound.coherent h.policy).trans h.fits_iff
  have ⟨gone, hg⟩ := h.drained
  cases p
  case slept worth => exact .asleep { h with sound, settled } rfl (hw.mp worth)
  case answered o =>
    cases o
    case closed hn         => exact absurd ⟨h.stopping, h.reader⟩ hn
    case invalid hn        => exact absurd hn ne
    case refused vain      => exact .refused gone (mt hw.mpr vain) hg
    case accepted ring _ w =>
      refine .accepted gone (h.fits_iff.mp ?_) ?_
      · have hf : t.ring.free = t.ring.capacity - t.ring.length := rfl
        have := Nat.mod_le t.ring.length t.staged.windowLength
        have := w.le_free
        unfold Fits
        omega
      · rw [w.toList, ← List.append_assoc, hg]

theorem resume (h : Underway kernel s n t) (r : Resumed t answer u)
    (hs : t.suspended = some chunk) (fits : s.Fits chunk) : Outcome kernel s chunk n answer u := by
  have ne := h.sound.patient.ne_nil chunk hs
  cases r
  case asleep => exact .asleep h hs fits
  case woken hs' _ p =>
    obtain rfl : chunk = _ := Option.some_inj.mp (hs.symm.trans hs')
    exact push { h with sound := h.sound.rise, settled := h.settled.congr rfl rfl } p rfl ne

-- The windows that are drained have the length that the gate counts on.
theorem bufferLength_eq {a : State α} (h : Underway kernel s n t) (r : Roused t a)
    (o : TakenOver a u) : u.scheduler.bufferLength = s.staged.windowLength := by
  have hs := o.settled (r.settled h.settled)
  rw [(o.up (r.up h.sound)).coherent.buffer, hs.length, hs.active o.pending_eq_none,
    (r.keeps.trans o.keeps).staged, h.staged]

theorem turn {handoff summary} (h : Underway kernel s n t) (e : Turn t handoff summary u) :
    Underway kernel s (n + 1) u ∧ u.suspended = t.suspended := by
  have sound := e.sound h.sound
  have settled := e.settled h.settled
  have f := e.conserves.fixed
  have policy := f.policy.trans h.policy
  have capacity := f.capacity.trans h.capacity
  have ⟨gone, hg⟩ := h.drained
  cases e
  case rest w =>
    have ha := (w.sleeps h.sound h.reader).right
    exact ⟨{ h with progress := .inl ha }, rfl⟩
  case ended r o hs =>
    rw [(r.keeps.trans o.keeps).stopping, h.stopping] at hs
    contradiction
  case starved r o hs _ =>
    have k := r.keeps.trans o.keeps
    have h' : Underway kernel s (n + 1) _ := {
      sound, settled, policy, capacity
      stopping := hs
      reader   := (congrArg _ k.ring).trans h.reader
      staged   := k.staged.trans h.staged
      rest     := by simpa [park, k.ring] using h.rest
      drained  := ⟨gone, by simpa [park, k.ring] using hg⟩
      progress := .inl rfl }
    exact ⟨h', k.suspended⟩
  case drained a t' window ring r o hs hr c =>
    have k := r.keeps.trans o.keeps
    have hd := SampleRing.read_of_read? hr
    have hu : u.ring = ring := c.keeps.ring
    have hl : t.ring.length = s.staged.windowLength + ring.length := by
      rw [← k.ring, hd.length, h.bufferLength_eq r o]
    have hn := h.progress.resolve_left (r.not_asleep h.sound)
    have h' : Underway kernel s (n + 1) u := {
      sound, settled, policy, capacity
      stopping := c.keeps.stopping.trans hs
      reader   := by rw [hu, hd.readerDropped, k.ring, h.reader]
      staged   := c.keeps.staged.trans (k.staged.trans h.staged)
      rest     := by rw [hu, ← h.rest, hl, Nat.add_mod_left]
      drained  := ⟨gone ++ window, by rw [hu, ← hg, ← k.ring, hd.toList, List.append_assoc]⟩
      progress := .inr (by rw [hu, Nat.add_mul, Nat.one_mul]; omega) }
    exact ⟨h', c.keeps.suspended.trans k.suspended⟩

theorem waited {ticket generation reply} (h : Underway kernel s n t)
    (r : Waited t ticket generation reply u) :
    Underway kernel s n u ∧ u.suspended = t.suspended := by
  cases r
  case answered => exact ⟨h, rfl⟩
  case slept    =>
    refine ⟨?_, rfl⟩
    exact { h with sound := h.sound.congr rfl rfl rfl, settled := h.settled.congr rfl rfl }

theorem waitResumed {ticket reply} (h : Underway kernel s n t)
    (r : WaitResumed t ticket reply u) : Underway kernel s n u ∧ u.suspended = t.suspended := by
  cases r
  case asleep  => exact ⟨h, rfl⟩
  case woken r =>
    have h' : Underway kernel s n { t with waits := t.waits.filter (·.ticket ≠ ticket) } :=
      { h with sound := h.sound.congr rfl rfl rfl, settled := h.settled.congr rfl rfl }
    exact h'.waited r

theorem asleep_of_lt (h : Underway kernel s n t)
    (hn : s.ring.length / s.staged.windowLength < n) : t.dataReady.listener = .asleep := by
  refine h.progress.resolve_right fun he => ?_
  have hw : 0 < s.staged.windowLength := h.staged ▸ h.settled.windowLength_pos
  have := (Nat.div_lt_iff_lt_mul hw).mp hn
  omega

-- A scheduler that sleeps has drained all windows and told the push so, which finds room.
theorem accepts (h : Underway kernel s n t) (hs : t.suspended = some chunk) (fits : s.Fits chunk)
    (ha : t.dataReady.listener = .asleep) :
    t.spaceFreed.listener = .woken ∧ t.resumePush.1 = some (.ok true) := by
  have ne := h.sound.patient.ne_nil chunk hs
  have st := h.sound.attentive.starved ha
  have hl : t.ring.length < t.staged.windowLength := by
    rw [← h.settled.active st.pending, ← h.settled.length, ← h.sound.coherent.buffer]
    exact st.short
  have hf : chunk.length ≤ t.ring.free := by
    have := h.fits_iff.mpr fits
    rwa [Fits, Nat.mod_eq_of_lt hl] at this
  have hk : t.spaceFreed.listener = .woken := by
    have hn := mt h.sound.patient.listener.mp (by simp [hs])
    have hp := fun hp => Nat.not_le.mpr (h.sound.patient.full hp chunk hs) hf
    cases hl : t.spaceFreed.listener <;> simp_all
  refine ⟨hk, ?_⟩
  rw [resumePush_of_woken hs hk]
  exact (push_pushed _ chunk).accepted_of_le_free ⟨h.stopping, h.reader⟩ ne hf

end Underway

theorem Attempt.outcome (a : Attempt s chunk n answer t) (h : Underway kernel s 0 s)
    (free : s.suspended = none) (ne : chunk ≠ []) : Outcome kernel s chunk n answer t := by
  induction a
  case push => exact h.push (push_pushed s chunk) free ne
  case poll t a hi =>
    have ⟨h, hs, hf⟩ := hi.underway
    exact h.resume (resumePush_resumed t) hs hf
  case turn t a hi =>
    have ⟨h, hs, hf⟩ := hi.underway
    have ⟨h, hu⟩ := h.turn (turn_turn t)
    exact .asleep h (hu.trans hs) hf
  case wait t ticket generation a hi =>
    have ⟨h, hs, hf⟩ := hi.underway
    have ⟨h, hu⟩ := h.waited (wait_waited t ticket generation)
    exact .asleep h (hu.trans hs) hf
  case resumeWait t ticket a hi =>
    have ⟨h, hs, hf⟩ := hi.underway
    have ⟨h, hu⟩ := h.waitResumed (resumeWait_waitResumed t ticket)
    exact .asleep h (hu.trans hs) hf

theorem Underway.start (sound : s.Sound) (settled : s.Settled kernel) (policy : s.policy = .wait)
    (running : s.running = true) (stopping : s.stopping = false) : Underway kernel s 0 s where
  sound; settled; policy; stopping
  reader   := by
    rw [sound.phased.reader_eq_false_iff]
    rcases sound.phased.running.mp running with hp | hp <;> simp [hp]
  staged   := rfl
  capacity := rfl
  rest     := rfl
  drained  := ⟨[], rfl⟩
  progress := .inr (by simp)

-- Every answer is the same, and there is one after so many turns that the scheduler sleeps.
theorem Underway.answers (h : Underway kernel s 0 s) (free : s.suspended = none) (ne : chunk ≠ []) :
    (∃ n t, Attempt s chunk n (some (.ok true)) t) ∧ s.Fits chunk ∨
      (∃ n t, Attempt s chunk n (some (.ok false)) t) ∧ ¬s.Fits chunk := by
  have a : Attempt s chunk 0 _ _ := .push
  have o := a.outcome h free ne
  cases hp : (s.push chunk).1
  case none =>
    rw [hp] at o
    have ⟨t, a⟩ := exists_attempt hp (s.ring.length / s.staged.windowLength + 1)
    have ⟨h, hs, hf⟩ := (a.outcome h free ne).underway
    have ⟨_, hr⟩ := h.accepts hs hf (h.asleep_of_lt (Nat.lt_succ_self _))
    exact .inl ⟨⟨_, _, hr ▸ a.poll⟩, hf⟩
  case some answer =>
    rw [hp] at o a
    cases o
    case accepted hf _ => exact .inl ⟨⟨_, _, a⟩, hf⟩
    case refused hf _  => exact .inr ⟨⟨_, _, a⟩, hf⟩

-- What is left over of whole windows stays in the ring, and the rest of the ring is there for the
-- chunk. If that is enough, the answer may take as many turns as there are windows to be drained
-- and one more. By then the scheduler sleeps, and the push was woken if it has not got in yet.
theorem admission_decided {s₀ : State α} {config events}
    (h₀ : ofConfig (spectrumFactory kernel) config = .ok s₀) (r : Run s₀ events s)
    (policy : config.admission = .wait) (running : s.running = true) (stopping : s.stopping = false)
    (free : s.suspended = none) (ne : chunk ≠ []) :
    let room := config.bufferCapacity - s.ring.toList.length % s.staged.windowLength
    (∃ n t, Attempt s chunk n (some (.ok (decide (chunk.length ≤ room)))) t) ∧
      (∀ n answer t, Attempt s chunk n (some answer) t →
        answer = .ok (decide (chunk.length ≤ room)) ∧
          ∃ gone, gone ++ t.ring.toList =
            s.ring.toList ++ if chunk.length ≤ room then chunk else []) ∧
      (∀ n t, Attempt s chunk n none t → chunk.length ≤ room ∧
        (s.ring.toList.length / s.staged.windowLength < n →
          t.scheduler.phase = .parked ∧ t.dataReady.listener = .asleep) ∧
        (t.scheduler.phase = .parked → t.dataReady.listener ≠ .woken →
          t.spaceFreed.listener = .woken ∧ t.resumePush.1 = some (.ok true))) := by
  intro room
  have b := built_of_ofConfig h₀
  have h : Underway kernel s 0 s := .start (r.sound b.sound) (r.settled b.settled)
    (r.fixed.policy.trans (b.policy_eq.trans policy)) running stopping
  have hf : s.Fits chunk ↔ chunk.length ≤ room := by
    simp [Fits, room, r.fixed.capacity, b.ring_capacity]
  refine ⟨?_, ?_, ?_⟩
  · rcases h.answers free ne with ⟨ha, hf'⟩ | ⟨ha, hf'⟩
    · simpa [hf.mp hf'] using ha
    · simpa [mt hf.mpr hf'] using ha
  · intro n answer t a
    have o := a.outcome h free ne
    cases o
    case accepted gone fits hd =>
      simp only [hf.mp fits]
      exact ⟨rfl, gone, hd⟩
    case refused gone vain hd =>
      simp only [mt hf.mpr vain]
      exact ⟨rfl, gone, by simpa using hd⟩
  · intro n t a
    have ⟨h, hs, fits⟩ := (a.outcome h free ne).underway
    refine ⟨hf.mp fits, fun hn => ?_, fun hp hl => ?_⟩
    · have ha := h.asleep_of_lt (by simpa using hn)
      exact ⟨h.sound.attentive.parked ha, ha⟩
    · exact h.accepts hs fits (h.sound.attentive.asleep hp hl)

-- Seventy samples are there. Once a window is drained from them, six are left.
def smallFilled : State Rat :=
  (small.turn.2.push (List.replicate 70 1)).2

theorem admission_decided_small :
    ∃ events, ofConfig (spectrumFactory identityKernel) smallConfig = .ok small ∧
      Run small events smallFilled ∧ smallConfig.admission = .wait ∧ smallFilled.running = true ∧
      smallFilled.stopping = false ∧ smallFilled.suspended = none ∧
      (∃ n t, Attempt smallFilled (List.replicate 94 1) n (some (.ok true)) t) ∧
      (∃ n t, Attempt smallFilled (List.replicate 95 1) n (some (.ok false)) t) := by
  have r : Run small _ smallFilled :=
    .step (.step .refl .turn) (.push (List.replicate 70 1) (by decide +kernel))
  have hr : smallFilled.running = true := by decide +kernel
  have hs : smallFilled.stopping = false := by decide +kernel
  have hf : smallFilled.suspended = none := by decide +kernel
  have hb : smallFilled.ring.toList.length = 70 := by decide +kernel
  have hw : smallFilled.staged.windowLength = 64 := by decide +kernel
  have h (k : Nat) (hk : List.replicate k 1 ≠ []) :=
    (admission_decided ofConfig_eq_small r rfl hr hs hf hk).left
  have ht := h 94 (by simp)
  have hn := h 95 (by simp)
  simp only [hb, hw, List.length_replicate, smallConfig] at ht hn
  exact ⟨_, ofConfig_eq_small, r, rfl, hr, hs, hf, ht, hn⟩

end State

end Flowgraph

end RadioSpectrum
