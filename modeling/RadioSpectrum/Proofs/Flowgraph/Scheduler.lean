import RadioSpectrum.Flowgraph.Turn
import RadioSpectrum.Proofs.SampleRing.Contents

namespace RadioSpectrum

namespace Flowgraph

namespace State

variable {α : Type} {s t u : State α} {window : List Int8}

-- The scheduler gets up: for the first time, after a yield, or because it was woken.
inductive Roused (s : State α) : State α → Prop
  | started (phase : s.scheduler.phase = .idle) : Roused s s.start
  | ready (phase : s.scheduler.phase = .boundary) : Roused s s
  | woken (phase : s.scheduler.phase = .parked) (listener : s.dataReady.listener = .woken) :
    Roused s { s with dataReady := { s.dataReady with listener := .absent } }

-- The scheduler stays where it is: nobody woke it, or it is gone.
inductive Unroused (s : State α) : Prop
  | asleep (phase : s.scheduler.phase = .parked) (listener : s.dataReady.listener ≠ .woken)
  | finished (phase : s.scheduler.phase = .finished)
  | dropped (phase : s.scheduler.phase = .dropped)

theorem roused_of_rouse? (h : s.rouse? = some t) : Roused s t := by
  unfold rouse? at h
  split at h <;> try contradiction
  case h_1 hp => injection h with h; exact h ▸ .started hp
  case h_2 hp => injection h with h; exact h ▸ .ready hp
  case h_3 hp =>
    obtain ⟨signal, hr, rfl⟩ := Option.map_eq_some_iff.mp h
    unfold Wakeup.rise? at hr
    split at hr <;> try contradiction
    case h_1 hl => injection hr with hr; exact hr ▸ .woken hp hl

theorem unroused_of_rouse? (h : s.rouse? = none) : Unroused s := by
  unfold rouse? at h
  split at h <;> try contradiction
  case h_3 hp =>
    refine .asleep hp fun hl => ?_
    simp [Wakeup.rise?, hl] at h
  case h_4 hp => exact .finished hp
  case h_5 hp => exact .dropped hp

-- The settings that are pending are taken over. Whatever becomes of them, they are pending no more.
inductive TakenOver (s : State α) : State α → Prop
  | idle (pending : s.pending = none) : TakenOver s s
  | installed {config transform} (pending : s.pending = some config)
    (made : s.factory s.built config = .ok transform) (pos : 0 < transform.inputLength)
    (fits : transform.inputLength ≤ s.ring.capacity) :
    TakenOver s ({ s with pending := none, built := s.built + 1 }.install config transform)
  | unmade {config error} (pending : s.pending = some config)
    (made : s.factory s.built config = .error error) :
    TakenOver s ({ s with pending := none, built := s.built + 1 }.fault error)
  | unfit {config transform} (pending : s.pending = some config)
    (made : s.factory s.built config = .ok transform)
    (unfit : ¬(0 < transform.inputLength ∧ transform.inputLength ≤ s.ring.capacity)) :
    TakenOver s ({ s with pending := none, built := s.built + 1 }.fault
      (.transformFailure (.windowTooLong transform.inputLength s.ring.capacity)))

theorem takeOver_takenOver (s : State α) : TakenOver s s.takeOver := by
  unfold takeOver
  split
  case h_1 hp => exact .idle hp
  case h_2 config hp =>
    unfold apply
    dsimp only
    split
    case h_1 error he => exact .unmade hp he
    case h_2 transform ht =>
      split
      case isTrue hl  => exact .installed hp ht hl.left hl.right
      case isFalse hl => exact .unfit hp ht hl

-- A window is computed. Its result is published or left out, or there is none.
inductive Computed (s : State α) (window : List Int8) : State α → Prop
  | published {bins} (result : s.scheduler.transform.compute window = .ok bins)
    (turn : s.scheduler.skip = 0) :
    Computed s window { s with
      store := s.store.publish bins
      stats := s.stats.compute true
      scheduler := { s.scheduler with skip := s.scheduler.decimation - 1 } }.announce
  | decimated {bins} (result : s.scheduler.transform.compute window = .ok bins)
    (turn : s.scheduler.skip ≠ 0) :
    Computed s window { s with
      stats := s.stats.compute false
      scheduler := { s.scheduler with skip := s.scheduler.skip - 1 } }
  | faulted {error} (result : s.scheduler.transform.compute window = .error error) :
    Computed s window (s.fault error)

theorem compute_computed (s : State α) (window : List Int8) :
    Computed s window (s.compute window) := by
  unfold compute
  split
  case h_1 bins hb =>
    unfold deliver
    split
    case isTrue hs  => exact .published hb hs
    case isFalse hs => exact .decimated hb hs
  case h_2 error he => exact .faulted he

-- What a turn leaves alone until it drains the ring.
structure Keeps (s t : State α) : Prop where
  ring      : t.ring = s.ring
  policy    : t.policy = s.policy
  factory   : t.factory = s.factory
  staged    : t.staged = s.staged
  frontend  : t.frontend = s.frontend
  stopping  : t.stopping = s.stopping
  suspended : t.suspended = s.suspended

theorem Keeps.trans (k₁ : Keeps s t) (k₂ : Keeps t u) : Keeps s u where
  ring      := k₂.ring.trans k₁.ring
  policy    := k₂.policy.trans k₁.policy
  factory   := k₂.factory.trans k₁.factory
  staged    := k₂.staged.trans k₁.staged
  frontend  := k₂.frontend.trans k₁.frontend
  stopping  := k₂.stopping.trans k₁.stopping
  suspended := k₂.suspended.trans k₁.suspended

theorem Roused.keeps (r : Roused s t) : Keeps s t := by
  cases r <;> constructor <;> rfl

theorem TakenOver.keeps (o : TakenOver s t) : Keeps s t := by
  cases o <;> constructor <;> rfl

theorem Computed.keeps (c : Computed s window t) : Keeps s t := by
  cases c <;> constructor <;> rfl

theorem TakenOver.pending_eq_none (o : TakenOver s t) : t.pending = none := by
  cases o
  case idle h => exact h
  all_goals rfl

theorem TakenOver.eq_install (o : TakenOver s t) {config transform}
    (hp : s.pending = some config) (hm : s.factory s.built config = .ok transform)
    (pos : 0 < transform.inputLength) (fits : transform.inputLength ≤ s.ring.capacity) :
    t = { s with pending := none, built := s.built + 1 }.install config transform := by
  cases o
  case idle h =>
    rw [hp] at h
    contradiction
  all_goals
    cases hp.symm.trans ‹s.pending = some _›
    cases hm.symm.trans ‹s.factory s.built config = _›
  case installed.refl.refl => rfl
  case unfit.refl.refl hn _ => exact absurd ⟨pos, fits⟩ hn

theorem Roused.preserves_pending : Roused s t → t.pending = s.pending
  | started _ | ready _ | woken .. => rfl

theorem Roused.preserves_built : Roused s t → t.built = s.built
  | started _ | ready _ | woken .. => rfl

theorem Roused.installs (r : Roused s t) (o : TakenOver t u) {config transform}
    (hp : s.pending = some config) (hm : s.factory s.built config = .ok transform)
    (pos : 0 < transform.inputLength) (fits : transform.inputLength ≤ s.ring.capacity) :
    u.scheduler.transform = transform ∧ u.scheduler.bufferLength = transform.inputLength := by
  have hi := o.eq_install (r.preserves_pending.trans hp)
    (by rw [r.keeps.factory, r.preserves_built, hm]) pos (by rw [r.keeps.ring]; exact fits)
  exact hi ▸ ⟨rfl, rfl⟩

-- Once nothing is pending, taking over does nothing. This is why a second look sees what the first
-- one saw.
theorem takeOver_of_pending_eq_none (h : s.pending = none) : s.takeOver = s := by
  simp [takeOver, h]

theorem look_of_settled (hp : s.pending = none) (hs : s.stopping = false)
    (hr : s.ring.read? s.scheduler.bufferLength = none) : s.look = .starved s := by
  simp [look, takeOver_of_pending_eq_none hp, hs, hr]

theorem ended_of_look (h : s.look = .ended t) : s.takeOver = t ∧ t.stopping = true := by
  unfold look at h
  grind

theorem drained_of_look (h : s.look = .drained window t) :
    s.takeOver.stopping = false ∧
      ∃ ring, s.takeOver.ring.read? s.takeOver.scheduler.bufferLength = some (window, ring) ∧
        s.takeOver.drained ring = t := by
  unfold look at h
  grind

theorem starved_of_look (h : s.look = .starved t) :
    s.takeOver = t ∧ t.stopping = false ∧ t.ring.read? t.scheduler.bufferLength = none := by
  unfold look at h
  grind

-- A scheduler that finds nothing to do falls asleep with no signal kept.
theorem watch_of_look_eq_starved (h : s.look = .starved t) :
    s.watch = .starved { t with dataReady := { t.dataReady with permit := false } } := by
  have ⟨ht, hs, hr⟩ := starved_of_look h
  have hp : t.pending = none := ht ▸ s.takeOver_takenOver.pending_eq_none
  simp only [watch, h, Wakeup.spend?]
  cases hk : t.dataReady.permit
  case false =>
    have : t.dataReady = { t.dataReady with permit := false } := by rw [← hk]
    simp [← this]
  case true => exact look_of_settled hp hs hr

end State

-- A window, and the block that is to compute it.
structure Handoff (α : Type) where
  block : Transform α
  window : List Int8

namespace State

variable {α : Type} {s t : State α}

-- The window that the scheduler hands to the block in its turn.
def handoff? (s : State α) : Option (Handoff α) :=
  match s.sight? with
  | some (.drained window t) => some ⟨t.scheduler.transform, window⟩
  | some (.ended _) | some (.starved _) | none => none

-- What is told of the results.
def results (s : State α) :=
  (s.store, s.stats.windowsPublished, s.stats.windowsDecimated)

theorem Roused.results_eq (r : Roused s t) : t.results = s.results := by
  cases r <;> rfl

theorem TakenOver.results_eq (o : TakenOver s t) : t.results = s.results := by
  cases o <;> rfl

theorem look_of_watch_eq_drained {window} (h : s.watch = .drained window t) :
    s.look = .drained window t := by
  cases hl : s.look
  case starved => exact nomatch (watch_of_look_eq_starved hl).symm.trans h
  all_goals
    rw [watch, hl] at h
    exact h

-- What comes of a turn is what the block makes of the window, and nothing was told before.
theorem turn_of_handoff? {handoff} (h : s.handoff? = some handoff) :
    ∃ t : State α, t.scheduler.transform = handoff.block ∧ t.results = s.results ∧
      s.turn = (none, t.compute handoff.window) := by
  unfold handoff? at h
  split at h <;> try contradiction
  case h_1 window t hs =>
    cases h
    obtain ⟨a, hr, hw⟩ := Option.map_eq_some_iff.mp hs
    obtain ⟨-, ring, -, rfl⟩ := drained_of_look (look_of_watch_eq_drained hw)
    have he : (a.takeOver.drained ring).results = s.results :=
      a.takeOver_takenOver.results_eq.trans (roused_of_rouse? hr).results_eq
    exact ⟨_, rfl, he, by simp [turn, hs, Sight.act]⟩

inductive Turn (s : State α) : Option (Handoff α) → Option Summary → State α → Prop
  | rest (u : Unroused s) : Turn s none none s
  | ended {a t} (r : Roused s a) (o : TakenOver a t) (stopping : t.stopping = true) :
    Turn s none (some t.finish.1) t.finish.2
  | drained {a t u window ring} (r : Roused s a) (o : TakenOver a t) (stopping : t.stopping = false)
    (read : t.ring.read? t.scheduler.bufferLength = some (window, ring))
    (c : Computed (t.drained ring) window u) :
    Turn s (some ⟨t.scheduler.transform, window⟩) none u
  | starved {a t} (r : Roused s a) (o : TakenOver a t) (stopping : t.stopping = false)
    (short : t.ring.length < t.scheduler.bufferLength) :
    Turn s none none { t with dataReady := { t.dataReady with permit := false } }.park

theorem turn_turn (s : State α) : Turn s s.handoff? s.turn.1 s.turn.2 := by
  unfold turn handoff? sight?
  cases hr : s.rouse?
  case none => exact .rest (unroused_of_rouse? hr)
  case some a =>
    have r := roused_of_rouse? hr
    have o := a.takeOver_takenOver
    simp only [Option.map_some]
    cases hl : a.look
    case ended t =>
      have ⟨ht, hs⟩ := ended_of_look hl
      subst ht
      simp only [watch, hl, Sight.act]
      exact .ended r o hs
    case drained window t =>
      have ⟨hs, ring, hd, ht⟩ := drained_of_look hl
      subst ht
      simp only [watch, hl, Sight.act]
      exact Turn.drained (t := a.takeOver) r o hs hd (compute_computed _ _)
    case starved t =>
      have ⟨ht, hs, hn⟩ := starved_of_look hl
      subst ht
      simp only [watch_of_look_eq_starved hl, Sight.act]
      exact .starved r o hs (SampleRing.read?_eq_none_iff.mp hn)

end State

end Flowgraph

end RadioSpectrum
