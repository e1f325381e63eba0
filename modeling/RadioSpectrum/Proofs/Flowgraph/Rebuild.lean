import RadioSpectrum.Proofs.Flowgraph.Invariant

namespace RadioSpectrum

namespace Flowgraph

namespace State

variable {α : Type} {s t u : State α} {chunk chunk' : List Int8}

-- The scheduler sleeps and so does the push, though draining all windows of the block that is there
-- makes no room for its chunk.
@[mk_iff]
structure Stranded (s : State α) (chunk : List Int8) : Prop where
  parked    : s.scheduler.phase = .parked
  permit    : s.dataReady.permit = false
  pending   : s.pending = none
  suspended : s.suspended = some chunk
  asleep    : s.spaceFreed.listener = .asleep
  vain      :
    s.ring.capacity - s.ring.length % s.scheduler.transform.inputLength < chunk.length

-- The settings that are pending give no block, or one whose windows do not fit into the ring.
def RebuildFails (s : State α) : Prop :=
  ∃ config, s.pending = some config ∧ ∀ transform, s.factory s.built config = .ok transform →
    ¬(0 < transform.inputLength ∧ transform.inputLength ≤ s.ring.capacity)

-- The push sleeps on account of settings that come to nothing, and there is less than a window of
-- the block that stays.
structure Misled (s : State α) (chunk : List Int8) : Prop where
  open_gate : s.Open
  fails     : s.RebuildFails
  suspended : s.suspended = some chunk
  asleep    : s.spaceFreed.listener = .asleep
  short     : s.ring.length < s.scheduler.transform.inputLength

-- For as long as the scheduler is not asleep, a push that sleeps has something to wait for.
def Hopeful (s : State α) : Prop :=
  s.dataReady.listener ≠ .asleep → s.spaceFreed.listener = .asleep →
    ∀ chunk, s.suspended = some chunk → s.Worthwhile chunk

theorem nextWindowLength_of_pending_eq_none (hc : s.Coherent) (hp : s.pending = none) :
    s.nextWindowLength = s.scheduler.transform.inputLength := by
  simp [nextWindowLength, hp, hc.shared]

-- With no settings pending, the gate counts on the windows of the block that is there.
theorem Worthwhile.not_vain (w : s.Worthwhile chunk) (hc : s.Coherent) (hp : s.pending = none) :
    chunk.length ≤ s.ring.capacity - s.ring.length % s.scheduler.transform.inputLength := by
  have hn := nextWindowLength_of_pending_eq_none hc hp
  rw [← hn, ← free_add_reclaimable (hn ▸ hc.pos)]
  exact w.fits

theorem Stranded.not_worthwhile (d : s.Stranded chunk) (hc : s.Coherent) : ¬s.Worthwhile chunk :=
  fun w => Nat.not_le.mpr d.vain (w.not_vain hc d.pending)

theorem Stranded.scheduler_asleep (d : s.Stranded chunk) (h : s.Sound) (hh : s.Hopeful) :
    s.dataReady.listener = .asleep := by
  by_contra ha
  exact d.not_worthwhile h.coherent (hh ha d.asleep chunk d.suspended)

-- Nobody has anything to do, and so nothing changes until somebody comes from outside.
theorem Stranded.turn_eq (d : s.Stranded chunk) (h : s.Sound) (hh : s.Hopeful) :
    s.turn = (none, s) := by
  have ha := d.scheduler_asleep h hh
  simp [turn, sight?, rouse?, d.parked, Wakeup.rise?, ha]

theorem Stranded.resumePush_eq (d : s.Stranded chunk) : s.resumePush = (none, s) :=
  resumePush_of_asleep (by simp [d.asleep])

theorem Stranded.open_gate (d : s.Stranded chunk) (h : s.Sound) : s.Open :=
  ⟨h.patient.stopping d.asleep, h.phased.reader_eq_false_iff.mpr (by simp [d.parked])⟩

-- The gate would refuse the chunk if it were pushed now.
theorem Stranded.offer_eq (d : s.Stranded chunk) (h : s.Sound) :
    (s.offer chunk).1 = some (.ok false) :=
  (offer_offered s chunk).refused_of_free_lt (d.open_gate h)
    (h.patient.ne_nil chunk d.suspended) (h.patient.full d.asleep chunk d.suspended)
    (d.not_worthwhile h.coherent)

theorem Roused.preserves_block (r : Roused s t) :
    t.scheduler.transform = s.scheduler.transform := by
  cases r <;> rfl

theorem Roused.preserves_spaceFreed (r : Roused s t) : t.spaceFreed = s.spaceFreed := by
  cases r <;> rfl

theorem Computed.preserves_spaceFreed {window} (c : Computed s window t) :
    t.spaceFreed = s.spaceFreed := by
  cases c <;> rfl

theorem Roused.rebuildFails_iff (r : Roused s t) : t.RebuildFails ↔ s.RebuildFails := by
  cases r <;> rfl

-- Settings that come to nothing leave everything as it was, the push asleep included.
structure Stays (s t : State α) : Prop where
  scheduler  : t.scheduler = s.scheduler
  spaceFreed : t.spaceFreed = s.spaceFreed

theorem TakenOver.stays_of_rebuildFails (o : TakenOver s t) (f : s.RebuildFails) : Stays s t := by
  have ⟨config, hp, hf⟩ := f
  cases o
  case idle hn => simp [hn] at hp
  case unmade | unfit => exact ⟨rfl, rfl⟩
  case installed transform hp' hm pos fits =>
    obtain rfl := Option.some_inj.mp (hp.symm.trans hp')
    exact absurd ⟨pos, fits⟩ (hf transform hm)

-- A block that is put in place wakes the push.
theorem TakenOver.idle_or_rebuildFails (o : TakenOver s t) (ha : t.spaceFreed.listener = .asleep) :
    s.pending = none ∧ t = s ∨ s.RebuildFails ∧ Stays s t := by
  cases o
  case idle hp   => exact .inl ⟨hp, rfl⟩
  case installed => simp [install] at ha
  case unmade config error hp hm =>
    refine .inr ⟨⟨config, hp, fun transform hf => ?_⟩, rfl, rfl⟩
    simp [hm] at hf
  case unfit config transform hp hm hn =>
    refine .inr ⟨⟨config, hp, fun transform' hf => ?_⟩, rfl, rfl⟩
    obtain rfl := Except.ok.inj (hm.symm.trans hf)
    exact hn

-- In the turn after, nothing is drained and nobody is told.
theorem Turn.stranded_of_misled {handoff summary} (e : Turn s handoff summary t) (h : s.Sound)
    (m : s.Misled chunk) : t.Stranded chunk := by
  have ⟨config, hp, _⟩ := m.fails
  cases e
  case rest w =>
    have ⟨_, ha⟩ := w.sleeps h m.open_gate.readerDropped
    simp [(h.attentive.starved ha).pending] at hp
  case ended r o hs =>
    rw [(r.keeps.trans o.keeps).stopping, m.open_gate.stopping] at hs
    contradiction
  case drained a u window ring r o _ hr _ =>
    have st := o.stays_of_rebuildFails (r.rebuildFails_iff.mpr m.fails)
    have hb : u.scheduler.bufferLength = s.scheduler.transform.inputLength := by
      rw [(o.up (r.up h)).coherent.buffer, st.scheduler, r.preserves_block]
    have hl : s.ring.length = u.scheduler.bufferLength + ring.length := by
      rw [← (r.keeps.trans o.keeps).ring, (SampleRing.read_of_read? hr).length]
    have := m.short
    omega
  case starved a u r o _ _ =>
    have k := r.keeps.trans o.keeps
    have st := o.stays_of_rebuildFails (r.rebuildFails_iff.mpr m.fails)
    have hb : u.scheduler.transform = s.scheduler.transform := by
      rw [st.scheduler, r.preserves_block]
    have full := h.patient.full m.asleep chunk m.suspended
    refine ⟨rfl, rfl, o.pending_eq_none, k.suspended.trans m.suspended, ?_, ?_⟩
    · simpa [park, st.spaceFreed, r.preserves_spaceFreed] using m.asleep
    · simpa [park, k.ring, hb, Nat.mod_eq_of_lt m.short, SampleRing.free] using full

theorem Turn.stranded_iff {handoff summary} (e : Turn s handoff summary t) (h : s.Sound)
    (hh : s.Hopeful) : t.Stranded chunk ↔ s.Stranded chunk ∨ s.Misled chunk := by
  refine ⟨fun d => ?_, fun hd => ?_⟩
  · cases e
    case rest => exact .inl d
    case ended r o _ => simpa [finish, announce] using d.parked
    case drained c =>
      have := c.preserves_phase.symm.trans d.parked
      simp [State.drained] at this
    case starved a u r o hs hl =>
      have k := r.keeps.trans o.keeps
      have up := o.up (r.up h)
      have hu : s.suspended = some chunk := k.suspended.symm.trans d.suspended
      rcases o.idle_or_rebuildFails d.asleep with ⟨hp, rfl⟩ | ⟨f, st⟩
      · have ha := r.preserves_spaceFreed ▸ d.asleep
        have hw := hh (r.not_asleep h) ha chunk hu
        have hv := hw.not_vain h.coherent (r.preserves_pending.symm.trans hp)
        have vain := d.vain
        simp only [park, k.ring, r.preserves_block] at vain
        omega
      · have hb : u.scheduler.transform = s.scheduler.transform := by
          rw [st.scheduler, r.preserves_block]
        refine .inr ⟨⟨k.stopping.symm.trans hs, ?_⟩, r.rebuildFails_iff.mp f, hu, ?_, ?_⟩
        · exact (congrArg _ k.ring).symm.trans up.reader
        · rw [← r.preserves_spaceFreed, ← st.spaceFreed]
          exact d.asleep
        · rwa [up.coherent.buffer, hb, k.ring] at hl
  · rcases hd with d | m
    · have ha := d.scheduler_asleep h hh
      cases e
      case rest => exact d
      all_goals exact absurd ha (Roused.not_asleep ‹_› h)
    · exact e.stranded_of_misled h m

-- A turn that leaves the push asleep leaves the scheduler asleep, too.
theorem Turn.hopeful {handoff summary} (e : Turn s handoff summary t) (h : s.Sound)
    (hh : s.Hopeful) : t.Hopeful := by
  intro hd ha
  cases e
  case rest => exact hh hd ha
  case ended r o hs =>
    have hp := (o.up (r.up h)).patient.stopping ha
    simp [hs] at hp
  case starved => simp [park, Wakeup.listen] at hd
  case drained c =>
    rw [c.preserves_spaceFreed] at ha
    simp [State.drained] at ha

theorem Pushed.hopeful {answer} (p : Pushed s chunk answer t) (h : s.Sound)
    (hn : s.suspended = none) : t.Hopeful := by
  have hl := h.patient.listener.mpr hn
  intro hd ha chunk' hs
  cases p
  case answered o => cases o <;> simp [hl] at ha
  case slept w =>
    obtain rfl : chunk = chunk' := Option.some_inj.mp hs
    exact ⟨w.policy, w.fits⟩

theorem Resumed.hopeful {answer} (r : Resumed s answer t) (h : s.Sound) (hh : s.Hopeful) :
    t.Hopeful := by
  cases r
  case asleep  => exact hh
  case woken p => exact p.hopeful h.rise rfl

-- A push that has just been made is not stranded: the gate counts on what the scheduler does next.
theorem Pushed.not_stranded {answer} (p : Pushed s chunk answer t) (h : s.Sound)
    (hn : s.suspended = none) : ¬t.Stranded chunk' := by
  intro d
  have hl := h.patient.listener.mpr hn
  have ha := d.asleep
  cases p
  case answered o => cases o <;> simp [hl] at ha
  case slept w =>
    obtain rfl : chunk = chunk' := Option.some_inj.mp d.suspended
    exact Nat.not_le.mpr d.vain (w.not_vain h.coherent d.pending)

theorem Resumed.stranded_iff {answer} (r : Resumed s answer t) (h : s.Sound) :
    t.Stranded chunk ↔ s.Stranded chunk := by
  cases r
  case asleep => rfl
  case woken hl p => simp [p.not_stranded h.rise rfl, State.stranded_iff, hl]

theorem drop_stranded_iff (s : State α) : s.drop.Stranded chunk ↔ s.Stranded chunk := by
  unfold drop
  split
  case h_1 hi => simp [State.stranded_iff, hi]
  case h_2    => rfl

-- What a push that sleeps can hope for depends on these.
def prospects (s : State α) :=
  (s.dataReady, s.spaceFreed, s.suspended, s.policy, s.ring.capacity, s.ring.length, s.pending,
    s.windowLength)

theorem Hopeful.congr (h : s.Hopeful) (he : t.prospects = s.prospects) : t.Hopeful := by
  simp only [prospects, Prod.mk.injEq] at he
  have ⟨hd, hf, hs, ho, hc, hl, hp, hw⟩ := he
  intro ha hk chunk hu
  have ⟨policy, fits⟩ := h (hd ▸ ha) (hf ▸ hk) chunk (hs ▸ hu)
  refine ⟨ho.trans policy, ?_⟩
  simpa only [SampleRing.free, reclaimable, nextWindowLength, hc, hl, hp, hw] using fits

theorem drop_hopeful (hh : s.Hopeful) : s.drop.Hopeful := by
  unfold drop
  split <;> exact hh.congr rfl

variable [Scalar α]

theorem Updated.stranded_iff {block index value stored} (d : Updated s block index value stored t) :
    t.Stranded chunk ↔ s.Stranded chunk ∧ block ≠ .spectrum := by
  cases d
  case staged hb _ _ _ => simp [State.stranded_iff, stage, hb]
  case tuned hb _ =>
    have hn : BlockId.frontend ≠ .spectrum := by decide
    simp [State.stranded_iff, hb, hn]

theorem Updated.hopeful {block index value stored} (d : Updated s block index value stored t)
    (hh : s.Hopeful) : t.Hopeful := by
  cases d
  case staged => simp [Hopeful, stage]
  case tuned  => exact hh.congr rfl

theorem Step.hopeful {event} (e : Step s event t) (h : s.Sound) (hh : s.Hopeful) : t.Hopeful := by
  cases e
  case push hn    => exact (push_pushed s _).hopeful h hn
  case resume     => exact (resumePush_resumed s).hopeful h hh
  case update hu  => exact (updated_of_update hu).hopeful hh
  case refuse     => exact hh
  case stop       => simp [Hopeful, State.stop, announce]
  case turn       => exact (turn_turn s).hopeful h hh
  case drop       => exact drop_hopeful hh
  case wait ticket generation _ =>
    obtain ⟨_, hw⟩ := (wait_waited s ticket generation).exists_waits
    exact hw ▸ hh.congr rfl
  case resumeWait ticket =>
    obtain ⟨_, hw⟩ := (resumeWait_waitResumed s ticket).exists_waits
    exact hw ▸ hh.congr rfl

theorem Run.hopeful {events} (r : Run s events t) (h : s.Sound) (hh : s.Hopeful) : t.Hopeful := by
  induction r
  case refl        => exact hh
  case step r e hi => exact e.hopeful (r.sound h) hi

-- Only a turn that comes to nothing strands a push, and only a signal puts an end to that.
theorem Step.stranded_iff {event} (e : Step s event t) (h : s.Sound) (hh : s.Hopeful) :
    t.Stranded chunk ↔ s.Stranded chunk ∧ ¬event.Signals ∨
      event = .turn s.handoff? s.turn.1 ∧ t = s.turn.2 ∧ s.Misled chunk := by
  cases e
  case push hn    =>
    simp [(push_pushed s _).not_stranded h hn, State.stranded_iff, hn]
  case resume     => simp [(resumePush_resumed s).stranded_iff h, Event.Signals]
  case update hu  => simp [(updated_of_update hu).stranded_iff, Event.Signals]
  case refuse     => simp [Event.Signals]
  case stop       => simp [State.stranded_iff, State.stop, announce, Event.Signals]
  case turn       => simp [(turn_turn s).stranded_iff h hh, Event.Signals]
  case drop       => simp [drop_stranded_iff, Event.Signals]
  case wait ticket generation _ =>
    obtain ⟨_, hw⟩ := (wait_waited s ticket generation).exists_waits
    simp [hw, State.stranded_iff, Event.Signals]
  case resumeWait ticket =>
    obtain ⟨_, hw⟩ := (resumeWait_waitResumed s ticket).exists_waits
    simp [hw, State.stranded_iff, Event.Signals]

theorem Run.stranded {events} (r : Run s events t) (h : s.Sound) (hh : s.Hopeful)
    (d : s.Stranded chunk) (silent : ∀ event ∈ events, ¬event.Signals) : t.Stranded chunk := by
  induction r
  case refl => exact d
  case step r e hi =>
    have dt := hi fun _ hm => silent _ (List.mem_append_left _ hm)
    exact (e.stranded_iff (r.sound h) (r.hopeful h hh)).mpr (.inl ⟨dt, silent _ (by simp)⟩)

-- In a run to `t` the settings that the push slept on account of came to nothing in a turn, and no
-- signal was given since.
inductive LeftBehind (s : State α) (events : List (Event α)) (t : State α) (chunk : List Int8) :
    Prop
  | intro {before after} {u : State α}
    (split : events = before ++ .turn u.handoff? u.turn.1 :: after) (r₁ : Run s before u)
    (misled : u.Misled chunk) (r₂ : Run u.turn.2 after t)
    (silent : ∀ event ∈ after, ¬event.Signals)

theorem Run.stranded_iff {events} (r : Run s events t) (h : s.Sound) (hh : s.Hopeful)
    (hn : ¬s.Stranded chunk) : t.Stranded chunk ↔ LeftBehind s events t chunk := by
  constructor
  · intro d
    induction r
    case refl => contradiction
    case step t u events event r e hi =>
      rcases (e.stranded_iff (r.sound h) (r.hopeful h hh)).mp d with ⟨d, hs⟩ | ⟨rfl, rfl, m⟩
      · have ⟨split, r₁, m, r₂, silent⟩ := hi d
        refine .intro (by rw [split]; simp) r₁ m (r₂.step e) ?_
        simpa [or_imp, forall_and] using ⟨silent, hs⟩
      · exact .intro rfl r m .refl nofun
  · intro l
    cases l
    case intro u split r₁ m r₂ silent =>
      have h₁ := r₁.sound h
      have e := turn_turn u
      exact r₂.stranded (e.sound h₁) (e.hopeful h₁ (r₁.hopeful h hh)) (e.stranded_of_misled h₁ m)
        silent

theorem Built.hopeful {factory config} (b : Built factory config s) : s.Hopeful := by
  cases b
  intro _ ha
  contradiction

theorem Built.not_stranded {factory config} (b : Built factory config s) : ¬s.Stranded chunk := by
  cases b
  simp [State.stranded_iff]

-- Just the pushes that are left behind sleep on though nothing will make room for them. The same
-- chunk would be refused if it were pushed anew.
theorem stranded_iff_leftBehind {s₀ : State α} {factory config events}
    (h₀ : ofConfig factory config = .ok s₀) (r : Run s₀ events s) (chunk : List Int8) :
    (s.Stranded chunk ↔ LeftBehind s₀ events s chunk) ∧
      (s.Stranded chunk →
        s.turn = (none, s) ∧ s.resumePush = (none, s) ∧
        (s.offer chunk).1 = some (.ok false)) := by
  have b := built_of_ofConfig h₀
  have h := r.sound b.sound
  have hh := r.hopeful b.sound b.hopeful
  exact ⟨r.stranded_iff b.sound b.hopeful b.not_stranded,
    fun d => ⟨d.turn_eq h hh, d.resumePush_eq, d.offer_eq h⟩⟩

section Brittle

-- A factory that makes one block and then no more.
def brittle : Factory Rat := fun built config =>
  if built = 0 then
    .ok {
      name := "sum"
      inputLength := config.windowLength
      outputLength := 1
      compute := fun _ => .ok [0] }
  else .error .invalidChunk

def brittleConfig : FlowgraphConfig where
  bufferCapacity := 128
  transform := { fftSize := 128, format := .real }
  admission := .wait

theorem brittle_isSome : (ofConfig brittle brittleConfig).toOption.isSome := by
  decide +kernel

def brittleBuilt : State Rat :=
  (ofConfig brittle brittleConfig).toOption.get brittle_isSome

-- The scheduler goes to sleep in front of an empty ring, and then 100 samples come in.
def brittleFed : State Rat :=
  (brittleBuilt.turn.2.push (List.replicate 100 0)).2

theorem brittleFed_update_isSome : (brittleFed.update .spectrum 0 6).toOption.isSome := by
  decide +kernel

def brittleStaged : State Rat :=
  ((brittleFed.update .spectrum 0 6).toOption.get brittleFed_update_isSome).2

-- Windows of half the length were asked for. 64 more samples wait for the first of them, but no
-- block is made for it.
def brittleLeft : State Rat :=
  (brittleStaged.push (List.replicate 64 0)).2.turn.2

theorem exists_run_brittleLeft : ∃ events, Run brittleBuilt events brittleLeft :=
  ⟨_, .step (.step (.step (.step (.step .refl .turn)
      (.push (List.replicate 100 0) (by decide +kernel)))
      (.update (eq_ok_get brittleFed_update_isSome)))
      (.push (List.replicate 64 0) (by decide +kernel))) .turn⟩

theorem brittleLeft_stranded : brittleLeft.Stranded (List.replicate 64 0) :=
  (State.stranded_iff ..).mpr (by decide +kernel)

theorem stranded_iff_leftBehind_brittle :
    ∃ events, ofConfig brittle brittleConfig = .ok brittleBuilt ∧
      Run brittleBuilt events brittleLeft ∧
      LeftBehind brittleBuilt events brittleLeft (List.replicate 64 0) ∧
      brittleLeft.turn = (none, brittleLeft) ∧
      (brittleLeft.offer (List.replicate 64 0)).1 = some (.ok false) := by
  have ⟨_, r⟩ := exists_run_brittleLeft
  have h₀ := eq_ok_get brittle_isSome
  have ⟨hl, hs⟩ := stranded_iff_leftBehind h₀ r (List.replicate 64 0)
  have ⟨ht, _, ho⟩ := hs brittleLeft_stranded
  exact ⟨_, h₀, r, hl.mp brittleLeft_stranded, ht, ho⟩

theorem brittle_strands_push :
    ∃ events, ofConfig brittle brittleConfig = .ok brittleBuilt ∧
      Run brittleBuilt events brittleLeft ∧ brittleLeft.policy = .wait ∧
      brittleLeft.running = true ∧ brittleLeft.Stranded (List.replicate 64 0) ∧
      brittleLeft.resumePush = (none, brittleLeft) := by
  have ⟨_, r⟩ := exists_run_brittleLeft
  have ⟨hp, hr⟩ : brittleLeft.policy = .wait ∧ brittleLeft.running = true := by decide +kernel
  exact ⟨_, eq_ok_get brittle_isSome, r, hp, hr, brittleLeft_stranded,
    brittleLeft_stranded.resumePush_eq⟩

end Brittle

end State

end Flowgraph

end RadioSpectrum
