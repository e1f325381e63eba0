import RadioSpectrum.Proofs.CommandLine.Run
import RadioSpectrum.Proofs.Flowgraph.Feeding

namespace RadioSpectrum

namespace CommandLine

open Flowgraph
open Flowgraph.State (Prepared)

namespace RunRequest

section Definitions

variable (r : RunRequest) (config : FlowgraphConfig) (flow : State Float) (samples : List Int8)

-- A chunk that is too long for the room beside what the chunks before it leave of a window.
def Overfull (i : Nat) : Prop :=
  ∃ piece, (pieces r.chunk samples)[i]? = some piece ∧
    config.bufferCapacity - i * r.chunk % flow.staged.windowLength < piece.length

instance (i : Nat) : Decidable (r.Overfull config flow samples i) :=
  decidable_of_iff ((pieces r.chunk samples)[i]?.any fun piece =>
      config.bufferCapacity - i * r.chunk % flow.staged.windowLength < piece.length)
    (by simp [Overfull, Option.any_eq_true])

-- What was taken by the end, and what the feeder tells then.
inductive Concluded : List (List Int8) → Except (FeedFault Float) Unit → Prop
  | whole (fits : ∀ i, ¬r.Overfull config flow samples i) :
    Concluded (pieces r.chunk samples) (.ok ())
  | stalled {i piece} (here : (pieces r.chunk samples)[i]? = some piece)
    (large : r.Overfull config flow samples i)
    (first : ∀ j < i, ¬r.Overfull config flow samples j) :
    Concluded ((pieces r.chunk samples).take i) (.error (.stuck piece.length
      (i * r.chunk % flow.staged.windowLength) flow.staged.windowLength))

end Definitions

variable {r : RunRequest} {kernel : Kernel} {config : FlowgraphConfig} {flow : State Float}
  {samples : List Int8}

theorem fitting_iff (hc : flow.ring.capacity = config.bufferCapacity) (i : Nat) :
    Fitting flow (pieces r.chunk samples) i ↔ ¬r.Overfull config flow samples i := by
  constructor
  · rintro fits ⟨piece, here, large⟩
    have := fits piece here
    rw [(pieces_getElem? here).right.right, hc] at this
    exact Nat.not_lt.mpr this large
  · intro fits piece here
    rw [(pieces_getElem? here).right.right, hc]
    exact Nat.not_lt.mp fun large => fits ⟨piece, here, large⟩

theorem checkChunk_eq_ok_iff : r.checkChunk config = .ok () ↔
    0 < r.chunk ∧ r.chunk ≤ chunkLimit config.bufferCapacity config.transform.windowLength := by
  rw [checkChunk, Nat.pos_iff_ne_zero, ← Nat.not_lt, ← not_or]
  split
  case isTrue hn  => exact ⟨nofun, absurd hn⟩
  case isFalse hn => exact ⟨fun _ => hn, fun _ => rfl⟩

-- If the window is not longer than the one that the length of the chunks was checked for, there is
-- room beside any part of it.
theorem not_overfull (hc : r.checkChunk config = .ok ()) (pos : 0 < flow.staged.windowLength)
    (hw : flow.staged.windowLength ≤ config.transform.windowLength) (i : Nat) :
    ¬r.Overfull config flow samples i := by
  rintro ⟨piece, here, large⟩
  have limit := (checkChunk_eq_ok_iff.mp hc).right
  have hl := (pieces_getElem? here).right.left
  have hm := Nat.mod_lt (i * r.chunk) pos
  rw [chunkLimit] at limit
  omega

theorem Concluded.stalled_iff {taken result} (c : r.Concluded config flow samples taken result) :
    result ≠ .ok () ↔ ∃ i, r.Overfull config flow samples i := by
  cases c
  case whole fits           => simpa using fits
  case stalled here large _ => exact ⟨fun _ => ⟨_, large⟩, fun _ => nofun⟩

-- Where some chunk is too long, the first of them tells how feeding ends.
theorem Concluded.stalled_of_first {taken result i piece}
    (c : r.Concluded config flow samples taken result)
    (here : (pieces r.chunk samples)[i]? = some piece) (large : r.Overfull config flow samples i)
    (first : ∀ j < i, ¬r.Overfull config flow samples j) :
    taken = (pieces r.chunk samples).take i ∧ result = .error (.stuck piece.length
      (i * r.chunk % flow.staged.windowLength) flow.staged.windowLength) := by
  cases c
  case whole fits => exact absurd large (fits i)
  case stalled j piece' here' large' first' =>
    rcases Nat.lt_trichotomy i j with hl | rfl | hl
    · exact absurd large (first' i hl)
    · obtain rfl := Option.some.inj (here.symm.trans here')
      exact ⟨rfl, rfl⟩
    · exact absurd large' (first j hl)

theorem concluded_of_stands (hc : flow.ring.capacity = config.bufferCapacity) {x result}
    (st : Feeding.Stands flow (pieces r.chunk samples) x) (hx : x.feeder = .ended result) :
    r.Concluded config flow samples (accepted x.history) result := by
  cases st
  case busy a feeder _ _ =>
    rw [feeder] at hx
    contradiction
  case through a feeder =>
    obtain rfl := Feeder.ended.inj (hx.symm.trans feeder)
    rw [a.taken, List.take_length]
    refine .whole fun i large => ?_
    obtain ⟨_, here, -⟩ := id large
    exact (fitting_iff hc i).mp (a.fits i (List.getElem?_eq_some_iff.mp here).choose) large
  case stuck i piece a here large feeder =>
    obtain rfl := Feeder.ended.inj (hx.symm.trans feeder)
    rw [a.taken, (pieces_getElem? here).right.right]
    exact .stalled here (not_not.mp (mt (fitting_iff hc i).mpr large)) fun j hj =>
      (fitting_iff hc j).mp (a.fits j hj)

-- Feeding ends in every order that gives both parties their steps, and the settings and the samples
-- tell how. The party that does everything in turn keeps one of these orders.
theorem feeding_ends (h : r.prepare kernel config = .ok flow) (hc : r.checkChunk config = .ok ())
    (samples : List Int8) :
    let start := Feeding.start flow (pieces r.chunk samples)
    (∀ {order}, Schedule.Fair order → ∃ k, (start.play (Schedule.steps order 0 k)).Ended) ∧
    (∀ {parties result}, (start.play parties).feeder = .ended result →
      let x := start.play parties
      flow.Run x.history x.flow ∧ (∀ event ∈ x.history, event.Calm) ∧
        r.Concluded config flow samples (accepted x.history) result ∧
        (windows x.history).flatten ++ x.flow.ring.toList = (accepted x.history).flatten ∧
        (result ≠ .ok () ↔ ∃ i, r.Overfull config flow samples i)) ∧
    (∃ parties result, (start.play parties).feeder = .ended result ∧
      flow.feed (pieces r.chunk samples) = result.map fun () => (start.play parties).flow) ∧
    (flow.staged.windowLength ≤ config.transform.windowLength →
      ∀ i, ¬r.Overfull config flow samples i) := by
  intro start
  have p := prepared_of_prepare h
  have ne : ∀ piece ∈ pieces r.chunk samples, piece ≠ [] := fun piece hm =>
    have ⟨_, here⟩ := List.mem_iff_getElem?.mp hm
    (pieces_getElem? here).left
  have capacity : flow.ring.capacity = config.bufferCapacity := by
    obtain ⟨b, r, _⟩ := p
    rw [r.fixed.capacity, b.ring_capacity]
  have st : Feeding.Stands flow (pieces r.chunk samples) start := .start p
  refine ⟨?ends, ?outcome, st.feed_eq_play p ne rfl, not_overfull hc p.settled.windowLength_pos⟩
  case ends =>
    intro order fair
    exact (Feeding.Stands.progress p ne).exists_done fair st 0
  case outcome =>
    intro parties result hx x
    have st : Feeding.Stands flow (pieces r.chunk samples) x := st.play p ne parties
    obtain ⟨_, a⟩ := st.exists_at
    have c := concluded_of_stands capacity st hx
    have samples := a.run.conserves
    rw [p.fresh.empty, List.nil_append] at samples
    exact ⟨a.run, a.calm, c, samples, c.stalled_iff⟩

section Grown

open State (smallConfig)

-- A window of 64 samples leaves room for chunks of 120. It is twice as long when they are fed.
def grownConfig : FlowgraphConfig :=
  { smallConfig with bufferCapacity := 200 }

def grown : RunRequest where
  chunk := 120
  updates := [("fft_order", "7")]

theorem grown_isSome : (grown.prepare .flat grownConfig).toOption.isSome := by
  decide +kernel

def grownFlow : State Float :=
  (grown.prepare .flat grownConfig).toOption.get grown_isSome

def alternating (n : Nat) : Party :=
  if n % 2 = 0 then .scheduler else .feeder

theorem alternating_fair : Schedule.Fair alternating := by
  intro party n
  cases party
  case feeder    => exact ⟨2 * n + 1, by omega, by simp [alternating, Nat.add_mod]⟩
  case scheduler => exact ⟨2 * n, by omega, by simp [alternating]⟩

theorem grown_checked : grown.checkChunk grownConfig = .ok () :=
  checkChunk_eq_ok_iff.mpr (by decide)

def toll : List Int8 :=
  List.replicate 240 64

theorem grownFlow_overfull : grownFlow.staged.windowLength = 128 ∧
    pieces grown.chunk toll = [List.replicate 120 64, List.replicate 120 64] ∧
    grown.Overfull grownConfig grownFlow toll 1 ∧
    ∀ j < 1, ¬grown.Overfull grownConfig grownFlow toll j := by
  decide +kernel

-- The second chunk cannot fit beside the first, which is less than a window.
theorem feeding_ends_grown : grown.prepare .flat grownConfig = .ok grownFlow ∧
    grown.checkChunk grownConfig = .ok () ∧ Schedule.Fair alternating ∧ ∃ k x,
      x = (Feeding.start grownFlow (pieces grown.chunk toll)).play
        (Schedule.steps alternating 0 k) ∧
      x.feeder = .ended (.error (.stuck 120 120 128)) ∧
      accepted x.history = [List.replicate 120 64] := by
  have h : grown.prepare .flat grownConfig = .ok grownFlow := eq_ok_get grown_isSome
  obtain ⟨hw, hp, large, first⟩ := grownFlow_overfull
  obtain ⟨ends, outcome, -, -⟩ := feeding_ends h grown_checked toll
  obtain ⟨k, result, hx⟩ := ends alternating_fair
  obtain ⟨-, -, c, -, -⟩ := outcome hx
  refine ⟨h, grown_checked, alternating_fair, k, _, rfl, ?_⟩
  have here : (pieces grown.chunk toll)[1]? = some (List.replicate 120 64) := by rw [hp]; rfl
  obtain ⟨taken, hr⟩ := c.stalled_of_first here large first
  rw [hx, hr, taken, hp, hw]
  exact ⟨rfl, rfl⟩

end Grown

end RunRequest

end CommandLine

end RadioSpectrum
