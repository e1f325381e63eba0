import RadioSpectrum.Proofs.Flowgraph.Counters
import RadioSpectrum.Proofs.Flowgraph.Rebuild

namespace RadioSpectrum

namespace Flowgraph

-- What a fault is reported for.
inductive Lapse where
  -- The block gave no result for the window with this number.
  | window (number : Nat)
  -- Settings came to nothing when so many windows had been drained.
  | rebuild (drained : Nat)
deriving Repr, DecidableEq

namespace Lapse

-- The number of a window that the fault is reported with.
def number : Lapse → Nat
  | window number   => number
  | rebuild drained => drained

def isWindow : Lapse → Bool
  | window _  => true
  | rebuild _ => false

@[simp]
theorem number_window (n : Nat) : (window n).number = n :=
  rfl

@[simp]
theorem number_rebuild (n : Nat) : (rebuild n).number = n :=
  rfl

@[simp]
theorem isWindow_window (n : Nat) : (window n).isWindow = true :=
  rfl

@[simp]
theorem isWindow_rebuild (n : Nat) : (rebuild n).isWindow = false :=
  rfl

end Lapse

variable {α : Type}

-- The window that is drained next gets the number `number`. There is a lapse if the block fails.
def Handoff.lapses (handoff : Handoff α) (number : Nat) : List Lapse :=
  match handoff.block.compute handoff.window with
  | .ok _    => []
  | .error _ => [.window number]

namespace State

variable {s t u : State α} {events : List (Event α)} {log : List Lapse}

instance (s : State α) : Decidable s.RebuildFails :=
  match hp : s.pending with
  | none => .isFalse (by simp [RebuildFails, hp])
  | some config =>
    match hm : s.factory s.built config with
    | .error _ => .isTrue ⟨config, hp, by simp [hm]⟩
    | .ok transform =>
      decidable_of_iff (¬(0 < transform.inputLength ∧ transform.inputLength ≤ s.ring.capacity))
        (by simp [RebuildFails, hp, hm])

-- In the next turn of the scheduler settings come to nothing.
def Setback (s : State α) : Prop :=
  s.rouse?.isSome ∧ s.RebuildFails

instance (s : State α) : Decidable s.Setback :=
  inferInstanceAs (Decidable (_ ∧ _))

-- What goes wrong in a step, in the order in which it does.
def lapses (s : State α) : Event α → List Lapse
  | .turn handoff _ =>
    (if s.Setback then [.rebuild s.scheduler.sequence] else []) ++
      handoff.elim [] (·.lapses (s.scheduler.sequence + 1))
  | _ => []

-- A run, and all that went wrong in it.
inductive Logged [Scalar α] (s : State α) : List (Event α) → List Lapse → State α → Prop
  | refl : Logged s [] [] s
  | step {t u events log event} (r : Logged s events log t) (e : Step t event u) :
    Logged s (events ++ [event]) (log ++ t.lapses event) u

-- The numbers with which faults are reported go up with the windows that were drained. Only faults of
-- windows have numbers of their own.
structure Ordered (log : List Lapse) (drained : Nat) : Prop where
  le_drained : ∀ lapse ∈ log, lapse.number ≤ drained
  sorted     : (log.map Lapse.number).Pairwise (· ≤ ·)
  windows    : ((log.filter Lapse.isWindow).map Lapse.number).Pairwise (· < ·)
  pos        : ∀ lapse ∈ log, lapse.isWindow → 0 < lapse.number

namespace Ordered

variable {drained : Nat}

theorem nil (drained : Nat) : Ordered [] drained := by
  constructor <;> simp

theorem drain (h : Ordered log drained) : Ordered log (drained + 1) :=
  { h with le_drained := fun lapse hm => (h.le_drained lapse hm).trans (Nat.le_succ _) }

theorem rebuild (h : Ordered log drained) : Ordered (log ++ [.rebuild drained]) drained := by
  constructor
  case le_drained => exact List.forall_mem_append.mpr ⟨h.le_drained, by simp⟩
  case sorted     => simpa [List.pairwise_append] using ⟨h.sorted, h.le_drained⟩
  case windows    => simpa using h.windows
  case pos        => exact List.forall_mem_append.mpr ⟨h.pos, by simp⟩

theorem window (h : Ordered log drained) :
    Ordered (log ++ [.window (drained + 1)]) (drained + 1) := by
  have hl : ∀ n ∈ (log.filter Lapse.isWindow).map Lapse.number, n < drained + 1 :=
    List.forall_mem_map.mpr fun lapse hm =>
      Nat.lt_succ_of_le (h.le_drained lapse (List.mem_filter.mp hm |>.left))
  constructor
  case le_drained => exact List.forall_mem_append.mpr ⟨h.drain.le_drained, by simp⟩
  case sorted     => simpa [List.pairwise_append] using ⟨h.sorted, h.drain.le_drained⟩
  case windows    =>
    rw [List.filter_append, List.map_append]
    exact List.pairwise_append.mpr ⟨h.windows, by simp [List.filter_cons],
      by simpa [List.filter_cons] using hl⟩
  case pos        => exact List.forall_mem_append.mpr ⟨h.pos, by simp⟩

end Ordered

-- The log agrees with what the flowgraph tells of itself: with the faults that were reported, and
-- with the counters.
structure Accounted (events : List (Event α)) (log : List Lapse) (s : State α) : Prop where
  faults   : s.faults.map (·.window) = log.map Lapse.number
  count    : s.stats.faults = log.length
  computed : (handoffs events).length = s.stats.windowsComputed + log.countP Lapse.isWindow
  sequence : s.scheduler.sequence = (handoffs events).length
  idle     : s.scheduler.phase = .idle → s.scheduler.sequence = 0
  ordered  : Ordered log s.scheduler.sequence

-- What the account is about.
def account (s : State α) :=
  (s.faults, s.stats.faults, s.stats.windowsComputed, s.scheduler.sequence)

theorem Accounted.congr (h : Accounted events log s) (he : t.account = s.account)
    (hp : t.scheduler.phase = .idle → s.scheduler.phase = .idle) : Accounted events log t := by
  simp only [account, Prod.mk.injEq] at he
  have ⟨hf, hs, hc, hn⟩ := he
  exact {
    faults   := hf ▸ h.faults
    count    := hs ▸ h.count
    computed := hc ▸ h.computed
    sequence := hn ▸ h.sequence
    idle     := fun hi => hn ▸ h.idle (hp hi)
    ordered  := hn ▸ h.ordered }

-- An event in which no window is drained adds nothing to the account.
theorem Accounted.record (h : Accounted events log s) {event : Event α}
    (he : event.handoff? = none) : Accounted (events ++ [event]) log s := by
  have hh : handoffs (events ++ [event]) = handoffs events := by simp [handoffs, he]
  exact { h with computed := hh ▸ h.computed, sequence := hh ▸ h.sequence }

theorem Roused.rouse?_eq (r : Roused s t) : s.rouse? = some t := by
  cases r <;> simp_all [rouse?, Wakeup.rise?]

theorem Unroused.rouse?_eq (u : Unroused s) : s.rouse? = none := by
  cases u
  case asleep hp hl => cases hc : s.dataReady.listener <;> simp_all [rouse?, Wakeup.rise?]
  all_goals simp_all [rouse?]

theorem Roused.setback_iff (r : Roused s t) : s.Setback ↔ t.RebuildFails := by
  simp [Setback, r.rouse?_eq, r.rebuildFails_iff]

-- The windows are counted from the start of the run.
theorem Roused.accounted (r : Roused s t) (h : Accounted events log s) :
    Accounted events log t ∧ t.scheduler.sequence = s.scheduler.sequence := by
  cases r
  case started hp =>
    have hn : s.start.scheduler.sequence = s.scheduler.sequence := (h.idle hp).symm
    exact ⟨h.congr (by simp only [account, hn]; rfl) nofun, hn⟩
  case ready    => exact ⟨h, rfl⟩
  case woken hp => exact ⟨h.congr rfl id, rfl⟩

theorem Roused.phase_ne_idle (r : Roused s t) : t.scheduler.phase ≠ .idle := by
  cases r <;> simp_all [State.start]

theorem fault_accounted {error} (h : Accounted events log s)
    (hp : s.scheduler.phase ≠ .idle) :
    Accounted events (log ++ [.rebuild s.scheduler.sequence]) (s.fault error) where
  faults   := by simp [fault, h.faults]
  count    := by simp [fault, Stats.fault, h.count]
  computed := by simp [fault, Stats.fault, h.computed]
  sequence := h.sequence
  idle     := fun hi => absurd hi hp
  ordered  := h.ordered.rebuild

theorem TakenOver.accounted (o : TakenOver s t) (h : Accounted events log s)
    (hp : s.scheduler.phase ≠ .idle) :
    Accounted events (log ++ if s.RebuildFails then [.rebuild s.scheduler.sequence] else []) t ∧
      t.scheduler.sequence = s.scheduler.sequence := by
  cases o
  case idle hn =>
    have hf : ¬s.RebuildFails := by simp [RebuildFails, hn]
    simpa [hf] using h
  case installed config transform hn hm pos fits =>
    have hf : ¬s.RebuildFails := by simp [RebuildFails, hn, hm, pos, fits]
    rw [if_neg hf, List.append_nil]
    exact ⟨h.congr rfl id, rfl⟩
  all_goals
    have hf : s.RebuildFails := by simp_all [RebuildFails]
    have h' : Accounted events log { s with pending := none, built := s.built + 1 } :=
      h.congr rfl id
    rw [if_pos hf]
    exact ⟨fault_accounted h' hp, rfl⟩

section Handoff

variable {handoff : Handoff α} {summary : Option Summary}

theorem handoffs_concat_length :
    (handoffs (events ++ [.turn (some handoff) summary])).length = (handoffs events).length + 1 := by
  simp [handoffs, Event.handoff?]

theorem Accounted.compute (h : Accounted events log s)
    (he : t.account =
      (s.faults, s.stats.faults, s.stats.windowsComputed + 1, s.scheduler.sequence + 1))
    (hp : t.scheduler.phase ≠ .idle) :
    Accounted (events ++ [.turn (some handoff) summary]) log t := by
  simp only [account, Prod.mk.injEq] at he
  have ⟨hf, hs, hc, hn⟩ := he
  exact {
    faults   := hf ▸ h.faults
    count    := hs ▸ h.count
    computed := by rw [handoffs_concat_length, h.computed, hc]; omega
    sequence := by rw [handoffs_concat_length, hn, h.sequence]
    idle     := fun hi => absurd hi hp
    ordered  := hn ▸ h.ordered.drain }

theorem Accounted.drop (h : Accounted events log s)
    (he : t.account = (s.faults, s.stats.faults, s.stats.windowsComputed, s.scheduler.sequence + 1))
    (hp : t.scheduler.phase ≠ .idle) (error : StreamError α) :
    Accounted (events ++ [.turn (some handoff) summary])
      (log ++ [.window (s.scheduler.sequence + 1)]) (t.fault error) := by
  simp only [account, Prod.mk.injEq] at he
  have ⟨hf, hs, hc, hn⟩ := he
  exact {
    faults   := by simp [fault, hf, hn, h.faults]
    count    := by simp [fault, Stats.fault, hs, h.count]
    computed := by rw [handoffs_concat_length, h.computed]; simp [fault, Stats.fault, hc]; omega
    sequence := by rw [handoffs_concat_length, ← h.sequence]; exact hn
    idle     := fun hi => absurd hi hp
    ordered  := hn ▸ h.ordered.window }

end Handoff

-- The window that was drained is computed, or the block fails and that is told.
theorem Computed.accounted {window ring} (c : Computed (s.drained ring) window t)
    (h : Accounted events log s) {summary} :
    let handoff : Handoff α := ⟨s.scheduler.transform, window⟩
    Accounted (events ++ [.turn (some handoff) summary])
      (log ++ handoff.lapses (s.scheduler.sequence + 1)) t := by
  intro handoff
  have hr (result) (he : s.scheduler.transform.compute window = result) :
      handoff.block.compute handoff.window = result := he
  cases c
  case published bins hb _ =>
    rw [Handoff.lapses, hr _ hb, List.append_nil]
    exact h.compute rfl nofun
  case decimated bins hb _ =>
    rw [Handoff.lapses, hr _ hb, List.append_nil]
    exact h.compute rfl nofun
  case faulted error he =>
    rw [Handoff.lapses, hr _ he]
    exact h.drop (t := s.drained ring) rfl nofun error

theorem Turn.accounted {handoff summary} (e : Turn s handoff summary t)
    (h : Accounted events log s) :
    Accounted (events ++ [.turn handoff summary]) (log ++ s.lapses (.turn handoff summary)) t := by
  cases e
  case rest u =>
    have hs : ¬s.Setback := by simp [Setback, u.rouse?_eq]
    simpa [lapses, hs] using h.record rfl
  case ended a u r o _ =>
    have ⟨h, hn⟩ := r.accounted h
    have ⟨h, _⟩ := o.accounted h r.phase_ne_idle
    have h' : Accounted events _ u.finish.2 := h.congr rfl nofun
    simpa [lapses, r.setback_iff, hn] using h'.record rfl
  case starved a u r o _ _ =>
    have ⟨h, hn⟩ := r.accounted h
    have ⟨h, _⟩ := o.accounted h r.phase_ne_idle
    have h' : Accounted events _ { u with dataReady := { u.dataReady with permit := false } }.park :=
      h.congr rfl nofun
    simpa [lapses, r.setback_iff, hn] using h'.record rfl
  case drained a u window ring r o _ hr c =>
    have ⟨h, hn⟩ := r.accounted h
    have ⟨h, hn'⟩ := o.accounted h r.phase_ne_idle
    simpa [lapses, r.setback_iff, hn, hn'] using c.accounted h

theorem Pushed.accounted {chunk answer} (p : Pushed s chunk answer t)
    (h : Accounted events log s) : Accounted events log t := by
  cases p
  case answered o => cases o <;> exact h.congr rfl id
  case slept      => exact h.congr rfl id

theorem Resumed.accounted {answer} (r : Resumed s answer t) (h : Accounted events log s) :
    Accounted events log t := by
  cases r
  case asleep  => exact h
  case woken p => exact p.accounted (h.congr rfl id)

theorem drop_accounted (h : Accounted events log s) : Accounted events log s.drop := by
  unfold State.drop
  split
  case h_1 => exact h.congr rfl nofun
  case h_2 => exact h

theorem Accounted.numbered_iff (h : Accounted events log s) :
    (∀ fault ∈ s.faults, 1 ≤ fault.window) ↔ .rebuild 0 ∉ log := by
  have hf : (∀ fault ∈ s.faults, 1 ≤ fault.window) ↔ ∀ n ∈ log.map Lapse.number, 1 ≤ n := by
    simp [← h.faults]
  rw [hf]
  constructor
  · intro hn hm
    have := hn _ (List.mem_map_of_mem hm)
    simp at this
  · intro hm n hn
    obtain ⟨lapse, hl, rfl⟩ := List.mem_map.mp hn
    cases lapse
    case window n   => exact h.ordered.pos _ hl rfl
    case rebuild n  =>
      have : n ≠ 0 := fun he => hm (he ▸ hl)
      simp
      omega

-- Every fault stands for one window that was drained and gave no result.
structure OneEach (events : List (Event α)) (s : State α) : Prop where
  counted  : (windows events).length = s.stats.windowsComputed + s.stats.faults
  numbered : ∀ fault ∈ s.faults, 1 ≤ fault.window ∧ fault.window ≤ (windows events).length
  rising   : (s.faults.map (·.window)).Pairwise (· < ·)

theorem Accounted.oneEach_iff (h : Accounted events log s) :
    OneEach events s ↔ ∀ lapse ∈ log, lapse.isWindow := by
  have hc := h.computed
  have hw : (windows events).length = (handoffs events).length := by simp [windows]
  constructor
  · intro o
    have hl : log.countP Lapse.isWindow = log.length := by
      have := o.counted
      have := h.count
      omega
    exact List.countP_eq_length.mp hl
  · intro ha
    have hl : log.countP Lapse.isWindow = log.length := List.countP_eq_length.mpr ha
    have hf : log.filter Lapse.isWindow = log := List.filter_eq_self.mpr ha
    refine ⟨by rw [hw, hc, hl, h.count], fun fault hm => ?_, ?_⟩
    · have hm' : fault.window ∈ log.map Lapse.number := h.faults ▸ List.mem_map_of_mem hm
      obtain ⟨lapse, hm', he⟩ := List.mem_map.mp hm'
      rw [← he, hw, ← h.sequence]
      exact ⟨h.ordered.pos lapse hm' (ha lapse hm'), h.ordered.le_drained lapse hm'⟩
    · simpa [h.faults, hf] using h.ordered.windows

variable [Scalar α]

theorem Updated.accounted {block index value stored} (d : Updated s block index value stored t)
    (h : Accounted events log s) : Accounted events log t := by
  cases d <;> exact h.congr rfl id

theorem Step.accounted {event} (e : Step s event t) (h : Accounted events log s) :
    Accounted (events ++ [event]) (log ++ s.lapses event) t := by
  cases e
  case turn => exact (turn_turn s).accounted h
  all_goals simp only [lapses, List.append_nil]
  case push       => exact ((push_pushed s _).accounted h).record rfl
  case resume     => exact ((resumePush_resumed s).accounted h).record rfl
  case update hu  => exact ((updated_of_update hu).accounted h).record rfl
  case refuse     => exact h.record rfl
  case stop       => exact (h.congr (t := s.stop) rfl id).record rfl
  case drop       => exact (drop_accounted h).record rfl
  case wait ticket generation _ =>
    obtain ⟨_, hw⟩ := (wait_waited s ticket generation).exists_waits
    exact Accounted.record (hw ▸ h.congr rfl id) rfl
  case resumeWait ticket =>
    obtain ⟨_, hw⟩ := (resumeWait_waitResumed s ticket).exists_waits
    exact Accounted.record (hw ▸ h.congr rfl id) rfl

theorem Built.accounted {factory config} (b : Built factory config s) : Accounted [] [] s := by
  cases b
  constructor <;> simp [handoffs, Ordered.nil]

theorem Logged.accounted {s₀ : State α} {factory config} (r : Logged s₀ events log s)
    (b : Built factory config s₀) : Accounted events log s := by
  induction r
  case refl      => exact b.accounted
  case step e hi => exact e.accounted hi

theorem Run.exists_logged (r : Run s events t) : ∃ log, Logged s events log t := by
  induction r
  case refl      => exact ⟨_, .refl⟩
  case step e hi =>
    have ⟨_, r⟩ := hi
    exact ⟨_, r.step e⟩

-- Every window that was drained is computed or leaves a fault of its own. What else is reported are
-- settings that came to nothing, and just these keep faults from standing for one window each.
theorem oneEach_iff_no_setback {s₀ : State α} {factory config}
    (h₀ : ofConfig factory config = .ok s₀) (r : Run s₀ events s) :
    ∃ log, Logged s₀ events log s ∧
      s.faults.map (·.window) = log.map Lapse.number ∧ s.stats.faults = log.length ∧
      (windows events).length = s.stats.windowsComputed + log.countP Lapse.isWindow ∧
      Ordered log (windows events).length ∧
      (OneEach events s ↔ ∀ lapse ∈ log, lapse.isWindow) ∧
      ((∀ fault ∈ s.faults, 1 ≤ fault.window) ↔ .rebuild 0 ∉ log) := by
  have ⟨log, l⟩ := r.exists_logged
  have h := l.accounted (built_of_ofConfig h₀)
  have hw : (windows events).length = (handoffs events).length := by simp [windows]
  refine ⟨log, l, h.faults, h.count, hw ▸ h.computed, ?_, h.oneEach_iff, h.numbered_iff⟩
  rw [hw, ← h.sequence]
  exact h.ordered

section Picky

-- A factory that makes one block and then no more. The block takes no window that starts below zero.
def picky : Factory Rat := fun built _ =>
  if built = 0 then
    .ok {
      name := "picky"
      inputLength := 2
      outputLength := 1
      compute := fun w => if w.headD 0 < 0 then .error .invalidChunk else .ok [0] }
  else .error .invalidChunk

theorem picky_isSome : (ofConfig picky fickleConfig).toOption.isSome := by
  decide +kernel

def pickyBuilt : State Rat :=
  (ofConfig picky fickleConfig).toOption.get picky_isSome

theorem pickyBuilt_update_isSome : (pickyBuilt.update .spectrum 1 2).toOption.isSome := by
  decide +kernel

-- Another window function is asked for before the run, and comes to nothing in its first turn.
def pickyStaged : State Rat :=
  ((pickyBuilt.update .spectrum 1 2).toOption.get pickyBuilt_update_isSome).2

-- The second of two windows that are there is not to the block's liking.
def pickyFed : State Rat :=
  (pickyStaged.push [1, 2, -3, 4]).2.turn.2.turn.2

theorem oneEach_iff_no_setback_picky :
    ∃ events log, ofConfig picky fickleConfig = .ok pickyBuilt ∧ Run pickyBuilt events pickyFed ∧
      Logged pickyBuilt events log pickyFed ∧ pickyFed.faults.map (·.window) = [0, 2] ∧
      log.map Lapse.number = [0, 2] ∧ .rebuild 0 ∈ log ∧
      (windows events).length = 1 + log.countP Lapse.isWindow ∧ ¬OneEach events pickyFed := by
  have h₀ := eq_ok_get picky_isSome
  have r : Run pickyBuilt _ pickyFed :=
    .step (.step (.step (.step .refl (.update (eq_ok_get pickyBuilt_update_isSome)))
      (.push [1, 2, -3, 4] (by decide +kernel))) .turn) .turn
  have ⟨log, l, hf, _, hc, _, ho, hn⟩ := oneEach_iff_no_setback h₀ r
  have hd : pickyFed.stats.windowsComputed = 1 := by decide +kernel
  have hm : pickyFed.faults.map (·.window) = [0, 2] := by decide +kernel
  have hs : .rebuild 0 ∈ log := by
    by_contra hs
    have : ∀ n ∈ pickyFed.faults.map (·.window), 1 ≤ n := by simpa using hn.mpr hs
    simp [hm] at this
  rw [hd] at hc
  exact ⟨_, log, h₀, r, l, hm, hf ▸ hm, hs, hc, fun o => nomatch ho.mp o _ hs⟩

-- A fault is counted and reported, though no window was drained.
theorem pickyStaged_turn_not_oneEach :
    ∃ events, ofConfig picky fickleConfig = .ok pickyBuilt ∧
      Run pickyBuilt events pickyStaged.turn.2 ∧ windows events = [] ∧
      pickyStaged.turn.2.stats.windowsComputed = 0 ∧ pickyStaged.turn.2.stats.faults = 1 ∧
      pickyStaged.turn.2.faults.map (·.window) = [0] ∧ ¬OneEach events pickyStaged.turn.2 := by
  have r : Run pickyBuilt _ pickyStaged.turn.2 :=
    .step (.step .refl (.update (eq_ok_get pickyBuilt_update_isSome))) .turn
  have ⟨hc, hf, hm⟩ : pickyStaged.turn.2.stats.windowsComputed = 0 ∧
      pickyStaged.turn.2.stats.faults = 1 ∧ pickyStaged.turn.2.faults.map (·.window) = [0] := by
    decide +kernel
  refine ⟨_, eq_ok_get picky_isSome, r, by decide +kernel, hc, hf, hm, fun o => ?_⟩
  have : ∀ n ∈ pickyStaged.turn.2.faults.map (·.window), 1 ≤ n := by
    simpa using fun fault hm => (o.numbered fault hm).left
  simp [hm] at this

end Picky

end State

end Flowgraph

end RadioSpectrum
