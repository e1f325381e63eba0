import RadioSpectrum.CommandLine.Run
import RadioSpectrum.Proofs.Control.Live
import RadioSpectrum.Proofs.Flowgraph.Stream

namespace RadioSpectrum

namespace CommandLine

open Flowgraph
open Flowgraph.State (Prepared Streamed Reported)

-- What is told about the spectrum depends on the latest result, and on the settings it was computed
-- and received under.
theorem Outcome.spectrum_congr {o o' : Outcome} (current : o.snapshot = o'.snapshot)
    (active : o.flow.active = o'.flow.active) (frontend : o.flow.frontend = o'.flow.frontend)
    (peaks : Nat) : o.spectrumLines peaks = o'.spectrumLines peaks ∧ o.toExport = o'.toExport := by
  have rate : o.sampleRate = o'.sampleRate := by rw [sampleRate, sampleRate, frontend]
  have line : o.peakLine = o'.peakLine := by
    funext p
    rw [peakLine, peakLine, active, rate]
  constructor
  · rw [spectrumLines, spectrumLines, current, active, line]
  · rw [toExport, toExport, current, active, frontend, rate]

-- A spectrum and the settings that it was computed under are told and exported, it with its strongest
-- peaks.
structure Outcome.Shows (o : Outcome) (spectrum : Snapshot Float32) (config : SpectrumConfig) :
    Prop where
  snapshot : o.snapshot = spectrum
  exported : o.toExport.snapshot = spectrum
  config   : o.toExport.config = config
  lines    : ∀ peaks, (Peak.find 0 spectrum.bins peaks).map o.peakLine <:+ o.lines peaks

theorem Outcome.shows {o : Outcome} (h : 0 < o.snapshot.generation) :
    o.Shows o.snapshot o.flow.active where
  snapshot := rfl
  exported := rfl
  config   := rfl
  lines _  := by
    rw [Outcome.lines, spectrumLines, if_neg h.ne']
    exact (List.suffix_append ..).trans (List.suffix_append ..)

namespace RunRequest

variable {r : RunRequest} {kernel : Kernel} {config : FlowgraphConfig} {flow flow' : State Float}

theorem prepared_of_update {bridge updates} (h : update bridge flow updates = .ok flow')
    (p : Prepared kernel config flow) : Prepared kernel config flow' := by
  induction updates generalizing bridge flow
  case nil => cases h; exact p
  case cons entry updates hi =>
    unfold update at h
    split at h <;> try contradiction
    split at h <;> try contradiction
    case h_2 hn =>
      obtain ⟨_, _, _, hu⟩ := Bridge.exists_update_of_notify hn
      exact hi h (p.update hu)

theorem prepared_of_prepare (h : r.prepare kernel config = .ok flow) :
    Prepared kernel config flow := by
  simp only [prepare, flowgraph, bind_eq_ok, mapError_eq_ok] at h
  obtain ⟨_, hb, _, -, _, -, hu⟩ := h
  exact prepared_of_update hu (.of_built (State.built_of_ofConfig hb))

-- The result that is told is that of the first window of the last group.
theorem shows_of_reported {samples events summary} {last : State Float}
    (q : Reported kernel flow samples events summary last) (h : 0 < last.generation) :
    ∃ block bins, spectrumFactory (α := Float) kernel 0 last.active = .ok block ∧
      block.compute (slice flow.staged.windowLength samples
        (flow.staged.decimation * (last.generation - 1))) = .ok bins ∧
      (Outcome.mk summary last).Shows ⟨last.generation, bins⟩ last.active := by
  obtain ⟨block, hb, result⟩ := q.result h
  exact ⟨block, _, hb, result, Outcome.shows h⟩

theorem shows_of_machine (hc : Fourier.Circle.machine.Bounded) (hw : Window.Cosine Float32.cos)
    (h : r.prepare .machine config = .ok flow) {samples chunk events summary} {last : State Float}
    (hn : 0 < chunk) (st : Streamed flow samples chunk events summary last)
    (hg : 0 < last.generation) :
    ∃ block bins, spectrumFactory (α := Float) .machine 0 last.active = .ok block ∧
      block.compute (slice flow.staged.windowLength samples
        (flow.staged.decimation * (last.generation - 1))) = .ok bins ∧
      (Outcome.mk summary last).Shows ⟨last.generation, bins⟩ last.active :=
  shows_of_reported (st.reported (Kernel.machine_regular hc hw) (prepared_of_prepare h) hn) hg

-- The first part is about the party that does everything in turn, once it has fed the samples. The
-- second part says why any other schedule comes to its end as well, if the scheduler gets its turns.
theorem spectrum_unaffected_by_chunk (hk : kernel.Regular)
    (h : r.prepare kernel config = .ok flow) (samples : List Int8) :
    (∀ {chunk fed}, flow.feed (pieces chunk samples) = .ok fed → ∃ events summary last,
      flow.stream samples chunk = .ok (summary, last) ∧
        Streamed flow samples chunk events summary last) ∧
    (∀ {events t}, State.Run flow events t → (∀ event ∈ events, event.Calm) →
      (t.staged.windowLength ≤ t.stats.pendingSamples →
        t.turn.2.stats.pendingSamples < t.stats.pendingSamples) ∧ t.stop.turn.1.isSome) ∧
    (∀ {chunk events summary last}, 0 < chunk →
      Streamed flow samples chunk events summary last →
        Reported kernel flow samples events summary last ∧
        (0 < last.generation →
          ∃ block bins, spectrumFactory (α := Float) kernel 0 last.active = .ok block ∧
            block.compute (slice flow.staged.windowLength samples
              (flow.staged.decimation * (last.generation - 1))) = .ok bins ∧
            (Outcome.mk summary last).Shows ⟨last.generation, bins⟩ last.active)) ∧
    ∀ {chunk events summary last chunk' events' summary' last'}, 0 < chunk → 0 < chunk' →
      Streamed flow samples chunk events summary last →
      Streamed flow samples chunk' events' summary' last' →
      ∀ peaks, (Outcome.mk summary last).spectrumLines peaks =
          (Outcome.mk summary' last').spectrumLines peaks ∧
        (Outcome.mk summary last).toExport = (Outcome.mk summary' last').toExport := by
  have p := prepared_of_prepare h
  have reported {chunk events summary last} (hn : 0 < chunk)
      (st : Streamed flow samples chunk events summary last) := st.reported hk p hn
  refine ⟨?streamed, p.progress, fun hn st => ⟨reported hn st, shows_of_reported (reported hn st)⟩,
    ?same⟩
  case streamed =>
    intro chunk fed hf
    have hs : flow.stream samples chunk = .ok fed.drain.close := by rw [State.stream, hf]; rfl
    obtain ⟨events, st⟩ := State.exists_streamed_of_stream p hs
    exact ⟨events, _, _, hs, st⟩
  case same =>
    intro _ _ _ _ _ _ _ _ hn hn' st st'
    have q := reported hn st
    have q' := reported hn' st'
    exact Outcome.spectrum_congr (q.current_eq q') (q.active.trans q'.active.symm)
      (q.frontend.trans q'.frontend.symm)

section Thinned

open State (smallConfig)

def thinned : RunRequest where
  updates := [("decimation", "2")]

theorem thinned_isSome : (thinned.prepare .flat smallConfig).toOption.isSome := by
  decide +kernel

def thinnedFlow : State Float :=
  (thinned.prepare .flat smallConfig).toOption.get thinned_isSome

def recording : List Int8 :=
  List.replicate 70 64

-- What does not change has a single frequency, which is zero.
theorem compute_recording :
    (let block := spectrumFactory (α := Float) .flat 0 { smallConfig.transform with decimation := 2 }
    block.toOption.bind fun block => (block.compute (recording.take 64)).toOption) =
      some (32 :: List.replicate 32 0) := by
  decide +kernel

theorem thinnedFlow_feed :
    thinnedFlow.staged = { smallConfig.transform with decimation := 2 } ∧
      (thinnedFlow.feed (pieces 48 recording)).toOption.isSome ∧
      (thinnedFlow.feed (pieces 30 recording)).toOption.isSome := by
  decide +kernel

-- In chunks of 48 samples or of 30, the recording is one window with six samples behind it.
theorem spectrum_unaffected_by_chunk_thinned :
    ∃ summary last summary' last', Kernel.flat.Regular ∧
      thinned.prepare .flat smallConfig = .ok thinnedFlow ∧
      thinnedFlow.stream recording 48 = .ok (summary, last) ∧
      thinnedFlow.stream recording 30 = .ok (summary', last') ∧
      summary.stats.windowsComputed = 1 ∧ summary.discarded = 6 ∧ summary.stats.faults = 0 ∧
      last.generation = 1 ∧ last.active.decimation = 2 ∧
      (Outcome.mk summary last).Shows ⟨1, 32 :: List.replicate 32 0⟩ last.active ∧
      (Outcome.mk summary last).toExport = (Outcome.mk summary' last').toExport := by
  have h : thinned.prepare .flat smallConfig = .ok thinnedFlow := eq_ok_get thinned_isSome
  obtain ⟨hs, hf, hf'⟩ := thinnedFlow_feed
  obtain ⟨hr, _, hp, hc⟩ := spectrum_unaffected_by_chunk Kernel.flat_regular h recording
  obtain ⟨_, summary, last, hl, st⟩ := hr (eq_ok_get hf)
  obtain ⟨_, summary', last', hl', st'⟩ := hr (eq_ok_get hf')
  obtain ⟨q, hw⟩ := hp (by decide) st
  have hn : last.generation = 1 := by rw [q.generation, hs]; rfl
  have active : last.active = { smallConfig.transform with decimation := 2 } := by rw [q.active, hs]
  obtain ⟨_, hb, hc'⟩ := Option.bind_eq_some_iff.mp compute_recording
  obtain ⟨block, bins, hb', hw, shows⟩ := hw (hn ▸ Nat.one_pos)
  rw [hn, hs] at hw
  cases (active ▸ hb').symm.trans (toOption_eq_some.mp hb)
  cases hw.symm.trans (toOption_eq_some.mp hc')
  rw [hn] at shows
  refine ⟨summary, last, summary', last', Kernel.flat_regular, h, hl, hl', ?_, ?_, q.faults, hn, ?_,
    shows, (hc (by decide) (by decide) st st' 0).right⟩
  · rw [q.computed, hs]; rfl
  · rw [q.discarded, hs]; rfl
  · rw [active]

end Thinned

end RunRequest

end CommandLine

end RadioSpectrum
