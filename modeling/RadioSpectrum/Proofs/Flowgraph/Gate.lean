import RadioSpectrum.Flowgraph.Admission
import RadioSpectrum.Proofs.SampleRing.Contents

namespace RadioSpectrum

namespace Flowgraph

namespace State

variable {α : Type} {s t : State α} {chunk : List Int8}

-- The gate takes chunks for as long as somebody is there to read them.
structure Open (s : State α) : Prop where
  stopping      : s.stopping = false
  readerDropped : s.ring.readerDropped = false

theorem open_iff : s.Open ↔ ¬(s.stopping ∨ s.ring.readerDropped) := by
  constructor
  · intro ⟨hs, hr⟩; simp [hs, hr]
  · intro h; simp only [not_or, Bool.not_eq_true] at h; exact ⟨h.left, h.right⟩

-- A chunk that does not fit yet is worth waiting for if whole windows make room for it.
structure Worthwhile (s : State α) (chunk : List Int8) : Prop where
  policy : s.policy = .wait
  fits   : chunk.length ≤ s.ring.free + s.reclaimable s.ring.free

-- Draining a window turns as many buffered samples into free places as it takes from the windows
-- that are still to be drained.
theorem free_add_reclaimable (h : 0 < s.nextWindowLength) :
    s.ring.free + s.reclaimable s.ring.free =
      s.ring.capacity - s.ring.length % s.nextWindowLength := by
  have hl := s.ring.length_le_capacity
  have hd := Nat.div_add_mod s.ring.length s.nextWindowLength
  rw [reclaimable, Nat.max_eq_left h, SampleRing.free, Nat.sub_sub_self hl, Nat.mul_comm]
  omega

inductive Offered (s : State α) (chunk : List Int8) : Option (Admission α) → State α → Prop
  | closed (shut : ¬s.Open) : Offered s chunk (some (.error .shutdownInProgress)) s
  | invalid (o : s.Open) (nil : chunk = []) : Offered s chunk (some (.error .invalidChunk)) s
  | accepted {ring} (o : s.Open) (w : s.ring.Written chunk ring) :
    Offered s chunk (some (.ok true)) { s with
      ring
      stats := s.stats.accept chunk.length
      dataReady := s.dataReady.notify }
  | refused (o : s.Open) (ne : chunk ≠ []) (full : s.ring.free < chunk.length)
    (vain : ¬s.Worthwhile chunk) :
    Offered s chunk (some (.ok false)) { s with stats := s.stats.reject }
  | hopeful (o : s.Open) (ne : chunk ≠ []) (full : s.ring.free < chunk.length)
    (worth : s.Worthwhile chunk) : Offered s chunk none s

theorem offer_offered (s : State α) (chunk : List Int8) :
    Offered s chunk (s.offer chunk).1 (s.offer chunk).2 := by
  unfold offer
  split
  case isTrue h => exact .closed (open_iff.not.mpr (not_not.mpr h))
  case isFalse h =>
    have o := open_iff.mpr h
    by_cases hn : chunk = []
    case pos => subst hn; simpa [SampleRing.write_nil] using Offered.invalid o rfl
    case neg =>
      by_cases hf : chunk.length ≤ s.ring.free
      case pos =>
        have ⟨ring, hw⟩ := SampleRing.exists_write_of_le_free (α := α) hn hf
        simpa [hw] using Offered.accepted o (SampleRing.written_of_write hw)
      case neg =>
        have hf : s.ring.free < chunk.length := by omega
        simp only [SampleRing.write_eq_admissionRejected hn hf]
        split
        case isTrue h  => exact .hopeful o hn hf ⟨h.left, h.right⟩
        case isFalse h => exact .refused o hn hf fun ⟨hp, hl⟩ => h ⟨hp, hl⟩

theorem Offered.refused_of_free_lt {answer} (o : Offered s chunk answer t) (h : s.Open)
    (hn : chunk ≠ []) (hf : s.ring.free < chunk.length) (hw : ¬s.Worthwhile chunk) :
    answer = some (.ok false) := by
  cases o
  case closed shut   => exact absurd h shut
  case invalid hc    => exact absurd hc hn
  case accepted w    => exact absurd w.le_free (Nat.not_le.mpr hf)
  case refused       => rfl
  case hopeful worth => exact absurd worth hw

inductive Pushed (s : State α) (chunk : List Int8) : Option (Admission α) → State α → Prop
  | answered {a t} (o : Offered s chunk (some a) t) : Pushed s chunk (some a) t
  | slept (o : s.Open) (ne : chunk ≠ []) (full : s.ring.free < chunk.length)
    (worth : s.Worthwhile chunk) :
    Pushed s chunk none
      ({ s with spaceFreed := { s.spaceFreed with permit := false } }.suspend chunk)

-- A signal that was kept does not change what the gate sees.
theorem offer_of_hopeful (o : s.Open) (hn : chunk ≠ []) (hf : s.ring.free < chunk.length)
    (h : s.Worthwhile chunk) : s.offer chunk = (none, s) := by
  unfold offer
  rw [if_neg (open_iff.mp o)]
  simp only [SampleRing.write_eq_admissionRejected hn hf]
  rw [if_pos ⟨h.policy, h.fits⟩]

theorem push_of_hopeful (o : s.Open) (hn : chunk ≠ []) (hf : s.ring.free < chunk.length)
    (h : s.Worthwhile chunk) :
    s.push chunk =
      (none, { s with spaceFreed := { s.spaceFreed with permit := false } }.suspend chunk) := by
  simp only [push, offer_of_hopeful o hn hf h, Wakeup.spend?]
  cases hk : s.spaceFreed.permit
  case false =>
    have : s.spaceFreed = { s.spaceFreed with permit := false } := by rw [← hk]
    simp [← this]
  case true =>
    have := offer_of_hopeful (s := { s with spaceFreed := { s.spaceFreed with permit := false } })
      ⟨o.stopping, o.readerDropped⟩ hn hf ⟨h.policy, h.fits⟩
    simp [this]

theorem push_of_answered {a} (h : (s.offer chunk).1 = some a) :
    s.push chunk = s.offer chunk := by
  unfold push
  rcases ho : s.offer chunk with ⟨_, _⟩
  simp_all

-- A gate that is shut answers at once.
theorem push_of_not_open (h : ¬s.Open) (chunk : List Int8) :
    s.push chunk = (some (.error .shutdownInProgress), s) := by
  have ho : s.offer chunk = (some (.error .shutdownInProgress), s) := by
    rw [offer, if_pos (not_not.mp (open_iff.not.mp h))]
  rw [push_of_answered (by rw [ho]), ho]

theorem push_pushed (s : State α) (chunk : List Int8) :
    Pushed s chunk (s.push chunk).1 (s.push chunk).2 := by
  have o := offer_offered s chunk
  cases ha : (s.offer chunk).1
  case some answer =>
    rw [push_of_answered ha, ha]
    exact .answered (ha ▸ o)
  case none =>
    rw [ha] at o
    generalize (s.offer chunk).2 = t at o
    cases o
    case hopeful o hn hf h =>
      rw [push_of_hopeful o hn hf h]
      exact .slept o hn hf h

theorem Pushed.accepted_of_le_free {answer} (p : Pushed s chunk answer t) (o : s.Open)
    (hn : chunk ≠ []) (hf : chunk.length ≤ s.ring.free) : answer = some (.ok true) := by
  cases p
  case slept full _ => exact absurd hf (Nat.not_le.mpr full)
  case answered o' =>
    cases o'
    case closed h       => exact absurd o h
    case invalid h      => exact absurd h hn
    case accepted       => rfl
    case refused full _ => exact absurd hf (Nat.not_le.mpr full)

-- A push that sleeps goes on once it was woken, as if it were made anew.
inductive Resumed (s : State α) : Option (Admission α) → State α → Prop
  | asleep (h : s.suspended = none ∨ s.spaceFreed.listener ≠ .woken) : Resumed s none s
  | woken {chunk answer t} (suspended : s.suspended = some chunk)
    (listener : s.spaceFreed.listener = .woken)
    (p : Pushed { s with
        suspended := none
        spaceFreed := { s.spaceFreed with listener := .absent } } chunk answer t) :
    Resumed s answer t

theorem resumePush_of_asleep (h : s.spaceFreed.listener ≠ .woken) : s.resumePush = (none, s) := by
  unfold resumePush Wakeup.rise?
  cases s.suspended <;> cases hl : s.spaceFreed.listener <;> simp_all

theorem resumePush_of_woken (hs : s.suspended = some chunk) (hl : s.spaceFreed.listener = .woken) :
    s.resumePush = { s with
      suspended := none
      spaceFreed := { s.spaceFreed with listener := .absent } }.push chunk := by
  simp [resumePush, Wakeup.rise?, hs, hl]

theorem resumePush_resumed (s : State α) : Resumed s s.resumePush.1 s.resumePush.2 := by
  cases hs : s.suspended
  case none => simpa [resumePush, hs] using Resumed.asleep (Or.inl hs)
  case some chunk =>
    by_cases hl : s.spaceFreed.listener = .woken
    case pos =>
      rw [resumePush_of_woken hs hl]
      exact .woken hs hl (push_pushed _ _)
    case neg => simpa [resumePush_of_asleep hl] using Resumed.asleep (Or.inr hl)

end State

end Flowgraph

end RadioSpectrum
