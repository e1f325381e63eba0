import RadioSpectrum.Proofs.Flowgraph.Faults
import RadioSpectrum.Proofs.Flowgraph.Pace

namespace RadioSpectrum

namespace Flowgraph

-- The windows that were drained under some settings.
structure Epoch (α : Type) where
  config : SpectrumConfig
  drains : List (Drain α) := []

-- The epochs of a run.
structure Chart (α : Type) where
  past    : List (Epoch α) := []
  current : Epoch α

variable {α : Type}

namespace Drain

variable {d : Drain α} {bins : List Float32}

def bins? (d : Drain α) : Option (List Float32) :=
  (d.handoff.block.compute d.handoff.window).toOption

-- The snapshot that readers find after the turn, if it is not the one they found before.
def shown? (d : Drain α) : Option (Snapshot Float32) :=
  if d.after.store.published = d.before.store.published then none else some d.after.store.current

-- A result is published if it has its turn, and left out if not.
structure Takes (d : Drain α) (bins : List Float32) (turn : Prop) : Prop where
  publishes : d.Publishes bins ↔ turn
  leavesOut : d.LeavesOut ↔ ¬turn

theorem Publishes.not_leavesOut (h : d.Publishes bins) : ¬d.LeavesOut := fun hl => by
  have := h.published.symm.trans hl.published
  omega

theorem Publishes.takes (h : d.Publishes bins) {turn : Prop} (ht : turn) : d.Takes bins turn :=
  ⟨iff_of_true h ht, iff_of_false h.not_leavesOut (not_not_intro ht)⟩

theorem LeavesOut.takes (h : d.LeavesOut) {turn : Prop} (ht : ¬turn) : d.Takes bins turn :=
  ⟨iff_of_false (fun hp => hp.not_leavesOut h) ht, iff_of_true h ht⟩

theorem Publishes.shown?_eq (h : d.Publishes bins) :
    d.shown? = some ⟨d.before.store.published + 1, bins⟩ := by
  simp [shown?, h.store, SnapshotStore.publish]

theorem shown?_eq_none (h : d.after.store = d.before.store) : d.shown? = none := by
  simp [shown?, h]

end Drain

namespace Epoch

variable {e : Epoch α} {d : Drain α} {bins : List Float32} {skip : Nat}

-- The windows that gave a result.
def successes (e : Epoch α) : List (Drain α) :=
  e.drains.filter (·.bins?.isSome)

def shown (e : Epoch α) : List (Snapshot Float32) :=
  e.drains.filterMap Drain.shown?

def drain (e : Epoch α) (d : Drain α) : Epoch α :=
  { e with drains := e.drains ++ [d] }

-- The results are published that the decimation says, and they are shown in the order of windows.
structure Thinned (e : Epoch α) : Prop where
  pos    : 0 < e.config.decimation
  turns  : ∀ j (drain : Drain α) bins, e.successes[j]? = some drain → drain.bins? = some bins →
    drain.Takes bins (e.config.decimation ∣ j)
  faults : ∀ drain ∈ e.drains, drain.bins? = none → drain.Faults
  shown  : ∀ k snapshot, e.shown[k]? = some snapshot →
    ∃ drain, e.successes[e.config.decimation * k]? = some drain ∧
      drain.bins? = some snapshot.bins ∧ drain.shown? = some snapshot

-- With the results that are to be left out next, those of the epoch make up whole groups.
structure InStep (e : Epoch α) (skip : Nat) : Prop extends e.Thinned where
  skip_lt : skip < e.config.decimation
  groups  : e.successes.length + skip = e.config.decimation * e.shown.length

theorem InStep.shown_length (h : e.InStep skip) :
    e.shown.length = e.successes.length ⌈/⌉ e.config.decimation :=
  State.groups_eq_ceilDiv h.skip_lt h.groups

-- A group is complete when the next result has its turn.
theorem InStep.dvd_iff (h : e.InStep skip) :
    e.config.decimation ∣ e.successes.length ↔ skip = 0 := by
  have hd : e.config.decimation ∣ e.successes.length + skip := h.groups ▸ Nat.dvd_mul_right ..
  refine ⟨fun hs => ?_, fun hs => by simpa [hs] using hd⟩
  exact Nat.eq_zero_of_dvd_of_lt ((Nat.dvd_add_right hs).mp hd) h.skip_lt

theorem successes_drain_of_some (h : d.bins? = some bins) :
    (e.drain d).successes = e.successes ++ [d] := by
  simp [successes, drain, h]

theorem successes_drain_of_none (h : d.bins? = none) : (e.drain d).successes = e.successes := by
  simp [successes, drain, h]

theorem shown_drain (e : Epoch α) (d : Drain α) :
    (e.drain d).shown = e.shown ++ d.shown?.toList := by
  cases h : d.shown? <;> simp [shown, drain, h]

theorem InStep.begin {config : SpectrumConfig} (h : 0 < config.decimation) :
    InStep (α := α) ⟨config, []⟩ 0 where
  pos     := h
  turns   := by simp [successes]
  faults  := by simp
  shown   := by simp [Epoch.shown]
  skip_lt := h
  groups  := by simp [successes, Epoch.shown]

theorem getElem?_concat_eq_some {β : Type} {xs : List β} {x y : β} {i : Nat}
    (h : (xs ++ [x])[i]? = some y) : xs[i]? = some y ∨ i = xs.length ∧ x = y := by
  rw [List.getElem?_append] at h
  split at h
  case isTrue  => exact .inl h
  case isFalse =>
    obtain ⟨hi, hx⟩ := List.getElem?_eq_some_iff.mp h
    rw [List.length_singleton] at hi
    exact .inr ⟨by omega, by simpa using hx⟩

theorem Thinned.turns_drain (h : e.Thinned) (hb : d.bins? = some bins)
    (ht : d.Takes bins (e.config.decimation ∣ e.successes.length)) {j bins'} {drain : Drain α}
    (hj : (e.drain d).successes[j]? = some drain) (hb' : drain.bins? = some bins') :
    drain.Takes bins' (e.config.decimation ∣ j) := by
  rw [successes_drain_of_some hb] at hj
  rcases getElem?_concat_eq_some hj with hj | ⟨rfl, rfl⟩
  case inl => exact h.turns j drain bins' hj hb'
  case inr =>
    obtain rfl := Option.some.inj (hb.symm.trans hb')
    exact ht

theorem Thinned.faults_drain (h : e.Thinned) (hd : d.bins? = none → d.Faults) :
    ∀ drain ∈ (e.drain d).drains, drain.bins? = none → drain.Faults :=
  List.forall_mem_append.mpr ⟨h.faults, by simpa using hd⟩

theorem InStep.publish (h : e.InStep 0) (hb : d.bins? = some bins) (hp : d.Publishes bins) :
    (e.drain d).InStep (e.config.decimation - 1) where
  pos     := h.pos
  turns   := fun _ _ _ => h.turns_drain hb (hp.takes (h.dvd_iff.mpr rfl))
  faults  := h.faults_drain (by simp [hb])
  shown   := fun k snapshot hk => by
    rw [shown_drain, hp.shown?_eq] at hk
    rw [successes_drain_of_some hb]
    rcases getElem?_concat_eq_some hk with hk | ⟨rfl, rfl⟩
    case inl =>
      obtain ⟨drain, hj, hs⟩ := h.shown k snapshot hk
      have hl := (List.getElem?_eq_some_iff.mp hj).choose
      exact ⟨drain, (List.getElem?_append_left hl).trans hj, hs⟩
    case inr =>
      refine ⟨d, ?_, hb, hp.shown?_eq⟩
      show (e.successes ++ [d])[e.config.decimation * e.shown.length]? = some d
      rw [← h.groups]
      exact List.getElem?_concat_length
  skip_lt := Nat.sub_one_lt h.pos.ne'
  groups  := by
    have hg := h.groups
    have hn := h.pos
    rw [shown_drain, hp.shown?_eq, successes_drain_of_some hb]
    simp only [drain, List.length_append, List.length_singleton, Option.toList_some, Nat.mul_succ]
    omega

theorem InStep.leaveOut (h : e.InStep skip) (hs : skip ≠ 0) (hb : d.bins? = some bins)
    (hl : d.LeavesOut) : (e.drain d).InStep (skip - 1) where
  pos     := h.pos
  turns   := fun _ _ _ => h.turns_drain hb (hl.takes (mt h.dvd_iff.mp hs))
  faults  := h.faults_drain (by simp [hb])
  shown   := fun k snapshot hk => by
    rw [shown_drain, Drain.shown?_eq_none hl.store, Option.toList_none, List.append_nil] at hk
    obtain ⟨drain, hj, hs⟩ := h.shown k snapshot hk
    have hl := (List.getElem?_eq_some_iff.mp hj).choose
    refine ⟨drain, ?_, hs⟩
    rw [successes_drain_of_some hb]
    exact (List.getElem?_append_left hl).trans hj
  skip_lt := (Nat.sub_le ..).trans_lt h.skip_lt
  groups  := by
    have hg := h.groups
    rw [shown_drain, Drain.shown?_eq_none hl.store, successes_drain_of_some hb]
    simp only [drain, List.length_append, List.length_singleton, Option.toList_none,
      List.length_nil, Nat.add_zero]
    omega

-- Windows that give no result leave the turns as they are.
theorem InStep.fault (h : e.InStep skip) (hb : d.bins? = none) (hf : d.Faults) :
    (e.drain d).InStep skip where
  pos     := h.pos
  turns   := by
    rw [successes_drain_of_none hb]
    exact h.turns
  faults  := h.faults_drain fun _ => hf
  shown   := by
    rw [shown_drain, Drain.shown?_eq_none hf.store, successes_drain_of_none hb, Option.toList_none,
      List.append_nil]
    exact h.shown
  skip_lt := h.skip_lt
  groups  := by
    rw [shown_drain, Drain.shown?_eq_none hf.store, successes_drain_of_none hb, Option.toList_none,
      List.append_nil]
    exact h.groups

end Epoch

namespace Chart

def epochs (chart : Chart α) : List (Epoch α) :=
  chart.past ++ [chart.current]

-- All windows that were drained, and all snapshots that were published.
def drains (chart : Chart α) : List (Drain α) :=
  chart.epochs.flatMap Epoch.drains

def shown (chart : Chart α) : List (Snapshot Float32) :=
  chart.epochs.flatMap Epoch.shown

-- An epoch ends, and the next one begins.
def turnOver (chart : Chart α) (config : SpectrumConfig) : Chart α where
  past    := chart.epochs
  current := { config }

def drain (chart : Chart α) (d : Drain α) : Chart α :=
  { chart with current := chart.current.drain d }

variable (chart : Chart α)

@[simp]
theorem drains_turnOver (config : SpectrumConfig) :
    (chart.turnOver config).drains = chart.drains := by
  simp [drains, epochs, turnOver]

@[simp]
theorem drains_drain (d : Drain α) : (chart.drain d).drains = chart.drains ++ [d] := by
  simp [drains, epochs, drain, Epoch.drain]

@[simp]
theorem shown_turnOver (config : SpectrumConfig) :
    (chart.turnOver config).shown = chart.shown := by
  simp [shown, epochs, turnOver, Epoch.shown]

@[simp]
theorem shown_drain (d : Drain α) : (chart.drain d).shown = chart.shown ++ d.shown?.toList := by
  simp [shown, epochs, drain, Epoch.shown_drain]

end Chart

namespace State

-- The settings for which the scheduler puts a block in place in its next turn.
def applied? (s : State α) : Option SpectrumConfig :=
  if s.rouse?.isSome ∧ ¬s.RebuildFails then s.pending else none

end State

-- What a step adds. Settings are put in force before the window of the turn is drained.
def Chart.record (chart : Chart α) (before : State α) (event : Event α) (after : State α) :
    Chart α :=
  match event with
  | .turn handoff _ =>
    let chart := before.applied?.elim chart chart.turnOver
    handoff.elim chart fun handoff => chart.drain { handoff, before, after }
  | _ => chart

namespace State

variable {s t u : State α} {chart : Chart α} {events : List (Event α)}

-- A run, and its epochs. The first one is under the settings that the flowgraph was built for.
inductive Charted [Scalar α] (config : SpectrumConfig) (s : State α) :
    List (Event α) → Chart α → State α → Prop
  | refl : Charted config s [] { current := { config } } s
  | step {t u events chart event} (r : Charted config s events chart t) (e : Step t event u) :
    Charted config s (events ++ [event]) (chart.record t event u) u

-- The chart agrees with the scheduler and with what readers find.
structure Truthful (chart : Chart α) (s : State α) : Prop where
  pending     : ∀ config, s.pending = some config → 0 < config.decimation
  past        : ∀ epoch ∈ chart.past, ∃ skip, epoch.InStep skip
  current     : chart.current.InStep s.scheduler.skip
  decimation  : s.scheduler.decimation = chart.current.config.decimation
  idle        : s.scheduler.phase = .idle → s.scheduler.skip = 0
  generations : chart.shown.map (·.generation) = List.range' 1 s.store.published
  generation  : s.store.generation = s.store.published

-- The chart is about some parts of the state only.
def thinning (s : State α) :=
  (s.pending, s.scheduler.skip, s.scheduler.decimation, s.store)

theorem Truthful.congr (h : Truthful chart s) (he : t.thinning = s.thinning)
    (hp : t.scheduler.phase = .idle → s.scheduler.phase = .idle) : Truthful chart t := by
  simp only [thinning, Prod.mk.injEq] at he
  have ⟨hc, hs, hd, ho⟩ := he
  exact {
    pending     := hc ▸ h.pending
    past        := h.past
    current     := hs ▸ h.current
    decimation  := hd ▸ h.decimation
    idle        := fun hi => hs ▸ h.idle (hp hi)
    generations := ho ▸ h.generations
    generation  := ho ▸ h.generation }

-- What a push leaves alone settles what the chart is about.
theorem Truthful.of_pace_eq (h : Truthful chart s) (he : t.pace = s.pace) : Truthful chart t := by
  simp only [pace, Prod.mk.injEq] at he
  obtain ⟨hp, hs, -, -, ho, -⟩ := he
  exact h.congr (by simp only [thinning, hp, hs, ho]) (by rw [hs]; exact id)

theorem Roused.applied?_eq (r : Roused s t) :
    s.applied? = if t.RebuildFails then none else t.pending := by
  simp [applied?, r.rouse?_eq, r.rebuildFails_iff, r.preserves_pending, ite_not]

theorem Unroused.applied?_eq (u : Unroused s) : s.applied? = none := by
  simp [applied?, u.rouse?_eq]

theorem Roused.truthful (r : Roused s t) (h : Truthful chart s) : Truthful chart t := by
  cases r
  case started hp => exact h.congr (by simp [thinning, start, h.idle hp]) nofun
  case ready      => exact h
  case woken      => exact h.congr rfl id

theorem Truthful.exists_inStep (h : Truthful chart s) :
    ∀ epoch ∈ chart.epochs, ∃ skip, epoch.InStep skip :=
  List.forall_mem_append.mpr ⟨h.past, by simpa using ⟨_, h.current⟩⟩

theorem Truthful.turnOver (h : Truthful chart s) {config : SpectrumConfig}
    (hn : 0 < config.decimation) (hp : t.pending = none) (hs : t.scheduler.skip = 0)
    (hd : t.scheduler.decimation = config.decimation) (ho : t.store = s.store) :
    Truthful (chart.turnOver config) t where
  pending     := by simp [hp]
  past        := h.exists_inStep
  current     := hs ▸ .begin hn
  decimation  := hd
  idle        := fun _ => hs
  generations := by simpa [ho] using h.generations
  generation  := ho ▸ h.generation

theorem TakenOver.truthful (o : TakenOver s t) (h : Truthful chart s) :
    Truthful ((if s.RebuildFails then none else s.pending).elim chart chart.turnOver) t := by
  cases o
  case idle hp => simpa [hp] using h
  case installed config transform hp hm pos fits =>
    have hf : ¬s.RebuildFails := by simp [RebuildFails, hp, hm, pos, fits]
    have hn := h.pending config hp
    rw [if_neg hf, hp]
    exact h.turnOver hn rfl rfl (Nat.max_eq_left hn) rfl
  case unmade | unfit =>
    have hf : s.RebuildFails := by simp_all [RebuildFails]
    rw [if_pos hf]
    exact { h with pending := nofun }

-- A window for which readers find nothing new.
theorem Truthful.drain (h : Truthful chart s) {d : Drain α} (hd : d.after.store = d.before.store)
    (current : (chart.current.drain d).InStep t.scheduler.skip)
    (he : (t.pending, t.scheduler.decimation, t.store) = (s.pending, s.scheduler.decimation, s.store))
    (hp : t.scheduler.phase ≠ .idle) : Truthful (chart.drain d) t := by
  simp only [Prod.mk.injEq] at he
  obtain ⟨hc, hn, ho⟩ := he
  exact {
    pending     := hc ▸ h.pending
    past        := h.past
    current
    decimation  := hn.trans h.decimation
    idle        := fun hi => absurd hi hp
    generations := by
      rw [Chart.shown_drain, Drain.shown?_eq_none hd, Option.toList_none, List.append_nil, ho]
      exact h.generations
    generation  := ho ▸ h.generation }

theorem Computed.truthful {window ring} (c : Computed (s.drained ring) window t)
    (h : Truthful chart s) {before : State α} (hb : s.results = before.results) :
    Truthful (chart.drain ⟨⟨s.scheduler.transform, window⟩, before, t⟩) t := by
  simp only [results, Prod.mk.injEq] at hb
  obtain ⟨ho, hp, hd⟩ := hb
  set d : Drain α := ⟨⟨s.scheduler.transform, window⟩, before, t⟩
  have bins?_eq {result} (hr : s.scheduler.transform.compute window = result) :
      d.bins? = result.toOption := congrArg _ hr
  cases c
  case published bins result turn =>
    have turn : s.scheduler.skip = 0 := turn
    have hp : d.Publishes bins := ⟨congrArg (·.publish bins) ho, congrArg (· + 1) hp, hd⟩
    exact {
      pending     := h.pending
      past        := h.past
      current     := h.decimation ▸ (turn ▸ h.current).publish (bins?_eq result) hp
      decimation  := h.decimation
      idle        := fun h => by contradiction
      generations := by
        rw [Chart.shown_drain, hp.shown?_eq, List.map_append, h.generations, ← ho]
        show _ ++ [s.store.published + 1] = List.range' 1 (s.store.published + 1)
        rw [List.range'_1_concat, Nat.add_comm 1]
      generation  := rfl }
  case decimated bins result turn =>
    have hl : d.LeavesOut := ⟨ho, hp, congrArg (· + 1) hd⟩
    exact h.drain hl.store (h.current.leaveOut turn (bins?_eq result) hl) rfl fun h => by
      contradiction
  case faulted error result =>
    have hf : d.Faults := ⟨ho, hp, hd⟩
    exact h.drain hf.store (h.current.fault (bins?_eq result) hf) rfl fun h => by contradiction

theorem Turn.truthful {handoff summary} (e : Turn s handoff summary t) (h : Truthful chart s) :
    Truthful (chart.record s (.turn handoff summary) t) t := by
  cases e
  case rest u => simpa [Chart.record, u.applied?_eq] using h
  case ended a u r o _ =>
    have h' : Truthful _ u.finish.2 := (o.truthful (r.truthful h)).congr rfl nofun
    simpa [Chart.record, r.applied?_eq] using h'
  case starved a u r o _ _ =>
    have h' : Truthful _ { u with dataReady := { u.dataReady with permit := false } }.park :=
      (o.truthful (r.truthful h)).congr rfl nofun
    simpa [Chart.record, r.applied?_eq] using h'
  case drained a u window ring r o _ _ c =>
    have h' := c.truthful (o.truthful (r.truthful h)) (o.results_eq.trans r.results_eq)
    simpa [Chart.record, r.applied?_eq] using h'

theorem drop_truthful (h : Truthful chart s) : Truthful chart s.drop := by
  unfold State.drop
  split
  case h_1 => exact h.congr rfl nofun
  case h_2 => exact h

theorem drains_record (chart : Chart α) (s : State α) (event : Event α) (t : State α) :
    (chart.record s event t).drains.map (·.handoff) =
      chart.drains.map (·.handoff) ++ handoffs [event] := by
  cases event
  case turn handoff summary =>
    cases handoff <;> cases ha : s.applied? <;>
      simp [Chart.record, handoffs, Event.handoff?, ha]
  all_goals simp [Chart.record, handoffs, Event.handoff?]

theorem Truthful.numbered (h : Truthful chart s) {past epoch rest}
    (he : chart.epochs = past ++ epoch :: rest) :
    epoch.shown.map (·.generation) = List.range' ((past.flatMap Epoch.shown).length + 1)
      (epoch.successes.length ⌈/⌉ epoch.config.decimation) := by
  obtain ⟨skip, hi⟩ := h.exists_inStep epoch (by simp [he])
  have hg := h.generations
  rw [Chart.shown, he, List.flatMap_append, List.flatMap_cons, List.map_append,
    List.map_append] at hg
  obtain ⟨k, -, hp, hr⟩ := List.range'_eq_append_iff.mp hg.symm
  obtain ⟨l, -, hs, -⟩ := List.range'_eq_append_iff.mp hr.symm
  have hk : (past.flatMap Epoch.shown).length = k := by simpa using congrArg List.length hp
  have hl : epoch.shown.length = l := by simpa using congrArg List.length hs
  rw [hs, ← hi.shown_length, hl, hk, Nat.mul_one, Nat.add_comm]

variable [Scalar α]

-- Settings that are asked for have been checked, so there is a decimation.
theorem Updated.truthful {block index value stored} (d : Updated s block index value stored t)
    (h : Truthful chart s) : Truthful chart t := by
  cases d
  case tuned => exact h.congr rfl id
  case staged next _ _ _ hn _ _ =>
    have hv := SpectrumConfig.validate_of_withParameter hn
    exact { h with pending := fun _ hc => Option.some.inj hc ▸ SpectrumConfig.decimation_pos hv }

theorem Step.truthful {event} (e : Step s event t) (h : Truthful chart s) :
    Truthful (chart.record s event t) t := by
  cases e
  case push       => exact h.of_pace_eq (push_pushed s _).pace_eq
  case resume     => exact h.of_pace_eq (resumePush_resumed s).pace_eq
  case update hu  => exact (updated_of_update hu).truthful h
  case refuse     => exact h
  case stop       => exact h.congr rfl id
  case turn       => exact (turn_turn s).truthful h
  case drop       => exact drop_truthful h
  case wait ticket generation _ =>
    obtain ⟨_, hw⟩ := (wait_waited s ticket generation).exists_waits
    exact hw ▸ h.congr rfl id
  case resumeWait ticket =>
    obtain ⟨_, hw⟩ := (resumeWait_waitResumed s ticket).exists_waits
    exact hw ▸ h.congr rfl id

theorem Built.truthful {factory config} (b : Built factory config s) :
    Truthful { current := { config := config.transform } } s := by
  cases b
  case intro valid _ _ _ _ _ =>
    have hn := SpectrumConfig.decimation_pos valid
    exact {
      pending     := nofun
      past        := nofun
      current     := .begin hn
      decimation  := Nat.max_eq_left hn
      idle        := fun _ => rfl
      generations := rfl
      generation  := rfl }

theorem Charted.truthful {s₀ : State α} {factory} {config : FlowgraphConfig}
    (r : Charted config.transform s₀ events chart s) (b : Built factory config s₀) :
    Truthful chart s := by
  induction r
  case refl      => exact b.truthful
  case step e hi => exact e.truthful hi

theorem Run.exists_charted (r : Run s events t) (config : SpectrumConfig) :
    ∃ chart, Charted config s events chart t := by
  induction r
  case refl      => exact ⟨_, .refl⟩
  case step e hi =>
    have ⟨_, r⟩ := hi
    exact ⟨_, r.step e⟩

theorem Charted.run {config} (r : Charted config s events chart t) : Run s events t := by
  induction r
  case refl      => exact .refl
  case step e hi => exact hi.step e

-- The windows on the chart are those that were drained.
theorem Charted.handoffs_eq {config} (r : Charted config s events chart t) :
    chart.drains.map (·.handoff) = handoffs events := by
  induction r
  case refl    => rfl
  case step hi => rw [drains_record, hi, handoffs_append]

-- What a chart tells of the results of a run.
structure Decimated (events : List (Event α)) (chart : Chart α) (s : State α) : Prop where
  drains   : chart.drains.map (·.handoff) = handoffs events
  thinned  : ∀ epoch ∈ chart.epochs, epoch.Thinned
  shown    : chart.shown.map (·.generation) = List.range' 1 s.generation
  -- Each epoch goes on with the numbers where those before it ended.
  numbered : ∀ past epoch rest, chart.epochs = past ++ epoch :: rest →
    epoch.shown.map (·.generation) = List.range' ((past.flatMap Epoch.shown).length + 1)
      (epoch.successes.length ⌈/⌉ epoch.config.decimation)

theorem one_of_each_group {s₀ : State α} {factory config}
    (h₀ : ofConfig factory config = .ok s₀) (r : Run s₀ events s) :
    (∃ chart, Charted config.transform s₀ events chart s) ∧
      ∀ chart, Charted config.transform s₀ events chart s → Decimated events chart s := by
  refine ⟨r.exists_charted _, fun chart c => ?_⟩
  have h := c.truthful (built_of_ofConfig h₀)
  exact {
    drains   := c.handoffs_eq
    thinned  := fun epoch he => (h.exists_inStep epoch he).choose_spec.toThinned
    shown    := h.generations.trans (congrArg (List.range' 1 ·) h.generation.symm)
    numbered := fun _ _ _ => h.numbered }

section Moody

-- A factory that makes no second block. The blocks take no window that starts below zero.
def moody : Factory Rat := fun built _ =>
  if built = 1 then .error .invalidChunk
  else
    .ok {
      name := "moody"
      inputLength := 1
      outputLength := 1
      compute := fun w => if w.headD 0 < 0 then .error .invalidChunk else .ok [0] }

def moodyConfig : FlowgraphConfig where
  bufferCapacity := 64
  transform := { fftSize := 64, format := .real, decimation := 2 }

theorem moody_isSome : (ofConfig moody moodyConfig).toOption.isSome := by
  decide +kernel

def moodyStart : State Rat :=
  (ofConfig moody moodyConfig).toOption.get moody_isSome

-- The second of four windows is not to the block's liking.
def moodyFed : State Rat :=
  (moodyStart.push [1, -1, 2, 3, 4, 5, 6]).2.turn.2.turn.2.turn.2.turn.2

theorem moodyFed_update_isSome : (moodyFed.update .spectrum 3 4).toOption.isSome := by
  decide +kernel

-- Another decimation comes to nothing, and a third one is put in force.
def moodyRefused : State Rat :=
  ((moodyFed.update .spectrum 3 4).toOption.get moodyFed_update_isSome).2.turn.2

theorem moodyRefused_update_isSome : (moodyRefused.update .spectrum 3 3).toOption.isSome := by
  decide +kernel

def moodyChanged : State Rat :=
  ((moodyRefused.update .spectrum 3 3).toOption.get moodyRefused_update_isSome).2.turn.2.turn.2

theorem one_of_each_group_moody :
    ∃ events chart, ofConfig moody moodyConfig = .ok moodyStart ∧
      Run moodyStart events moodyChanged ∧
      Charted moodyConfig.transform moodyStart events chart moodyChanged ∧
      chart.epochs.map (fun epoch => (epoch.config.decimation, epoch.successes.length)) =
        [(2, 4), (3, 2)] ∧
      Decimated events chart moodyChanged ∧ moodyChanged.generation = 3 := by
  have h₀ := eq_ok_get moody_isSome
  have c : Charted moodyConfig.transform moodyStart _ _ moodyChanged :=
    .step (.step (.step (.step (.step (.step (.step (.step (.step (.step .refl
      (.push [1, -1, 2, 3, 4, 5, 6] (by decide +kernel))) .turn) .turn) .turn) .turn)
      (.update (eq_ok_get moodyFed_update_isSome))) .turn)
      (.update (eq_ok_get moodyRefused_update_isSome))) .turn) .turn
  exact ⟨_, _, h₀, c.run, c, by decide +kernel, (one_of_each_group h₀ c.run).right _ c,
    by decide +kernel⟩

end Moody

end State

end Flowgraph

end RadioSpectrum
