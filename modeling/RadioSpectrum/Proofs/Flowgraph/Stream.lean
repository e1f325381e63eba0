import Mathlib.Algebra.Order.Floor.Div
import RadioSpectrum.Proofs.Flowgraph.Feed

namespace RadioSpectrum

namespace Flowgraph

variable {α : Type}

-- Of a stream of samples, the piece of some length with the number `k`, counted from 0.
def slice (length : Nat) (samples : List Int8) (k : Nat) : List Int8 :=
  (samples.drop (length * k)).take length

-- All pieces that are whole.
def slices (length : Nat) (samples : List Int8) : List (List Int8) :=
  (List.range (samples.length / length)).map (slice length samples)

section Slices

variable {β : Type} {n : Nat} {ws : List (List Int8)} {window rest samples : List Int8}

theorem pieces_flatten (hn : 0 < n) (xs : List β) : (pieces n xs).flatten = xs := by
  fun_induction pieces n xs
  case case1 xs h => simp [h.resolve_left hn.ne']
  case case2 xs h hi => rw [List.flatten_cons, hi, List.take_append_drop]

-- In front of each piece there are only pieces of the full length.
theorem pieces_getElem? {i : Nat} {xs piece : List β} (h : (pieces n xs)[i]? = some piece) :
    piece ≠ [] ∧ piece.length ≤ n ∧ ((pieces n xs).take i).flatten.length = i * n := by
  induction i generalizing xs
  all_goals
    rw [pieces] at h
    split at h <;> try contradiction
  case zero hn =>
    obtain ⟨hn, hx⟩ := not_or.mp hn
    obtain rfl : xs.take n = piece := Option.some.inj h
    exact ⟨by simp [hn, hx], List.length_take_le n xs, by simp⟩
  case succ i hi hn =>
    obtain ⟨ne, le, hl⟩ := hi h
    have hx : n ≤ xs.length := by
      by_contra hx
      rw [List.drop_of_length_le (Nat.le_of_not_le hx), pieces, if_pos (.inr rfl)] at h
      contradiction
    refine ⟨ne, le, ?_⟩
    rw [pieces, if_neg hn, List.take_succ_cons, List.flatten_cons, List.length_append, hl,
      List.length_take_of_le hx, Nat.add_comm, Nat.succ_mul]

theorem slice_append_zero (hw : window.length = n) : slice n (window ++ rest) 0 = window := by
  simp [slice, ← hw]

theorem slice_append_succ (hw : window.length = n) (k : Nat) :
    slice n (window ++ rest) (k + 1) = slice n rest k := by
  have hl : n * (k + 1) = window.length + n * k := by rw [hw, Nat.mul_succ, Nat.add_comm]
  rw [slice, hl, List.drop_length_add_append, slice]

theorem flatten_length (hw : ∀ window ∈ ws, window.length = n) :
    ws.flatten.length = n * ws.length := by
  induction ws
  case nil => rfl
  case cons window ws hi =>
    obtain ⟨hl, hw⟩ := List.forall_mem_cons.mp hw
    rw [List.flatten_cons, List.length_append, hl, hi hw, List.length_cons, Nat.mul_succ,
      Nat.add_comm]

theorem map_slice_flatten (hw : ∀ window ∈ ws, window.length = n) (rest : List Int8) :
    (List.range ws.length).map (slice n (ws.flatten ++ rest)) = ws := by
  induction ws
  case nil => rfl
  case cons window ws hi =>
    obtain ⟨hl, hw⟩ := List.forall_mem_cons.mp hw
    rw [List.flatten_cons, List.append_assoc, List.length_cons, List.range_succ_eq_map,
      List.map_cons, slice_append_zero hl, List.map_map]
    exact congrArg (window :: ·) (by simpa [Function.comp_def, slice_append_succ hl] using hi hw)

-- Windows of one length that stand one after the other are the pieces of what they are taken from,
-- if less than a window is left.
theorem windows_eq_slices (hw : ∀ window ∈ ws, window.length = n) (hr : rest.length < n)
    (h : ws.flatten ++ rest = samples) :
    ws = slices n samples ∧ ws.length = samples.length / n ∧
      rest.length = samples.length % n := by
  have hl : rest.length + n * ws.length = samples.length := by
    rw [← h, List.length_append, flatten_length hw, Nat.add_comm]
  obtain ⟨hd, hm⟩ := (Nat.div_mod_unique (Nat.zero_lt_of_lt hr)).mpr ⟨hl, hr⟩
  refine ⟨?_, hd.symm, hm.symm⟩
  rw [slices, hd, ← h, map_slice_flatten hw]

theorem slice_of_slices_getElem? {k : Nat} (h : (slices n samples)[k]? = some window) :
    slice n samples k = window := by
  have hk : k < samples.length / n := by
    simpa [slices] using (List.getElem?_eq_some_iff.mp h).choose
  simpa [slices, List.getElem?_range hk] using h

end Slices

namespace State

variable [Scalar α]

-- Samples are fed in chunks to a flowgraph that nobody else stops or changes, and the scheduler has
-- its turns whenever it likes. The flowgraph is stopped when less than a window is left, and its run
-- ends.
inductive Streamed (s : State α) (samples : List Int8) (chunk : Nat) :
    List (Event α) → Summary → State α → Prop
  | intro {before t after u summary} (r₁ : Run s before t) (calm : ∀ event ∈ before, event.Calm)
    (taken : accepted before = pieces chunk samples)
    (dry : t.stats.pendingSamples < t.staged.windowLength) (r₂ : Run t.stop after u)
    (told : summaries after = [summary]) :
    Streamed s samples chunk (before ++ .stop :: after) summary u

-- What is reported of samples that were streamed through a flowgraph with the settings of `s`.
structure Reported (kernel : Kernel) (s : State α) (samples : List Int8) (events : List (Event α))
    (summary : Summary) (t : State α) : Prop where
  windows        : windows events = slices s.staged.windowLength samples
  computed       : summary.stats.windowsComputed = samples.length / s.staged.windowLength
  discarded      : summary.discarded = samples.length % s.staged.windowLength
  faults         : summary.stats.faults = 0
  lastGeneration : summary.lastGeneration = t.generation
  generation     : t.generation =
    samples.length / s.staged.windowLength ⌈/⌉ s.staged.decimation
  active         : t.active = s.staged
  frontend       : t.frontend = s.frontend
  blank          : t.generation = 0 → t.store = {}
  result         : 0 < t.generation → ∃ block : Transform α,
    spectrumFactory kernel 0 t.active = .ok block ∧
      block.compute (slice s.staged.windowLength samples
        (s.staged.decimation * (t.generation - 1))) = .ok t.store.current.bins

variable {s t u : State α} {kernel : Kernel} {config : FlowgraphConfig} {samples : List Int8}
  {ws : List (List Int8)} {events : List (Event α)} {summary : Summary} {n : Nat}

-- The schedule that is kept when one party does everything is one of those that may be.
theorem exists_streamed_of_stream (p : Prepared kernel config s)
    (h : s.stream samples n = .ok (summary, t)) :
    ∃ events, Streamed s samples n events summary t := by
  obtain ⟨u, hu, hc⟩ := bind_eq_ok.mp h
  have hc : u.drain.close = (summary, t) := pure_eq_ok.mp hc
  obtain ⟨r, calm, taken⟩ := fed_of_feed p.fresh.isOpen p.fresh.suspended hu
  have o := r.isOpen calm p.fresh.isOpen
  obtain ⟨f, dry⟩ := fed_of_drain p r o
  obtain ⟨r', calm', taken'⟩ := Fed.trans ⟨r, calm, taken⟩ f
  obtain ⟨_, r₂, told⟩ := exists_run_of_close (r'.isOpen calm' p.fresh.isOpen) (r'.sound p.sound)
  rw [hc] at r₂ told
  exact ⟨_, .intro r' calm' (by simpa using taken') dry r₂ told⟩

-- Before the run ends, the scheduler still takes over the settings that are pending.
theorem Paced.ended {after} (p : Paced ws t) (r : Run t.stop after u) (h : t.Sound)
    (hs : t.Settled kernel) (told : summaries after = [summary]) :
    Working ws u ∧ u.staged = t.staged ∧ u.frontend = t.frontend ∧
      summary = ⟨u.store.published, t.ring.length, u.stats⟩ := by
  obtain ⟨_, d⟩ := r.settling (stop_sound h) rfl
  cases d
  case still silent _     => simp [silent] at told
  case dropped silent _ _ => simp [silent] at told
  case ended last told' st =>
    obtain rfl := List.singleton_inj.mp (told'.symm.trans told)
    obtain ⟨a, ha, rfl, ht⟩ := exists_rouse?_of_summary rfl last
    have hr := roused_of_rouse? ha
    have ho := a.takeOver_takenOver
    have k := hr.keeps.trans ho.keeps
    have w := (p.congr (t := t.stop) rfl).working_of_takenOver hr ho (hs.congr rfl rfl)
    rw [ht] at st
    obtain ⟨_, _, _, _, rfl⟩ := st
    refine ⟨⟨w.pending, w.decimation, w.skip, w.count, w.computed, w.lengths, w.latest⟩, k.staged,
      k.frontend, ?_⟩
    rw [finish, k.ring]
    rfl

-- The windows are those that the samples are made of, since none of them is lost.
theorem Working.windows_eq_slices (w : Working (windows events) u) (r : Run s events t)
    (f : s.Fresh) (hn : 0 < n) (taken : accepted events = pieces n samples)
    (dry : t.ring.length < u.staged.windowLength) :
    windows events = slices u.staged.windowLength samples ∧
      (windows events).length = samples.length / u.staged.windowLength ∧
      t.ring.length = samples.length % u.staged.windowLength := by
  have hc : (windows events).flatten ++ t.ring.toList = samples := by
    rw [r.conserves, f.empty, taken, pieces_flatten hn, List.nil_append]
  rw [← SampleRing.toList_length] at dry ⊢
  exact Flowgraph.windows_eq_slices w.lengths dry hc

theorem Streamed.reported (hk : kernel.Regular) (p : Prepared kernel config s)
    (hn : 0 < n) (st : Streamed s samples n events summary u) :
    Reported kernel s samples events summary u := by
  obtain @⟨before, t, after, _, _, r₁, calm, taken, dry, r₂, told⟩ := st
  have f := p.fresh
  have h := r₁.sound p.sound
  have hs := r₁.settled p.settled
  have hu : u.Settled kernel := r₂.settled (hs.congr (t := t.stop) rfl rfl)
  obtain ⟨staged, frontend, paced⟩ := r₁.paced calm hk f.isOpen p.sound p.settled f.paced
  obtain ⟨w, hg, hf, rfl⟩ := paced.ended r₂ h hs told
  rw [p.pendingSamples_eq r₁, ← hg] at dry
  obtain ⟨cut, count, rest⟩ := w.windows_eq_slices r₁ f hn taken dry
  have smooth := ((r₁.step .stop).trans r₂).smooth hk p.sound p.settled
  have generation : u.generation = u.store.published := w.latest.generation_eq
  obtain ⟨away, _⟩ := r₂.settling (stop_sound h) rfl
  have silent : handoffs (.stop :: after) = [] :=
    handoffs_eq_nil (List.forall_mem_cons.mpr ⟨trivial, away⟩)
  have hg : u.staged = s.staged := hg.trans staged
  rw [hg] at cut count rest
  constructor
  case windows        => rw [windows_append, cut, windows, silent, List.map_nil, List.append_nil]
  case computed       => exact w.computed.trans count
  case discarded      => exact rest
  case faults         => exact smooth.counted.trans (by rw [f.stats])
  case lastGeneration => exact generation.symm
  case generation     => rw [generation, w.published_eq, count, hg]
  case active         => rw [hu.active w.pending, hg]
  case frontend       => exact hf.trans frontend
  case blank          => exact w.latest.eq_empty
  case result =>
    intro h0
    obtain ⟨window, first, result⟩ := w.latest.exists_window h0
    rw [cut, hg] at first
    exact ⟨_, hu.block, slice_of_slices_getElem? first ▸ result⟩

theorem Reported.current_eq {events' summary'} (p : Reported kernel s samples events summary t)
    (p' : Reported kernel s samples events' summary' u) : t.store.current = u.store.current := by
  have hg : t.generation = u.generation := p.generation.trans p'.generation.symm
  by_cases h0 : t.generation = 0
  case pos => rw [p.blank h0, p'.blank (hg ▸ h0)]
  case neg =>
    have h0 := Nat.pos_of_ne_zero h0
    obtain ⟨block, hb, result⟩ := p.result h0
    obtain ⟨block', hb', result'⟩ := p'.result (hg ▸ h0)
    rw [p.active] at hb
    rw [p'.active, hb] at hb'
    obtain rfl := Except.ok.inj hb'
    rw [← hg, result] at result'
    exact congrArg₂ Snapshot.mk hg (Except.ok.inj result')

end State

end Flowgraph

end RadioSpectrum
