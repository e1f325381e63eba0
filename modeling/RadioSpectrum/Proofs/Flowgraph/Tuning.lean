import RadioSpectrum.Proofs.Flowgraph.Tables
import RadioSpectrum.Proofs.Parameter.Lifetime
import RadioSpectrum.Proofs.Parameter.Tolerance

namespace RadioSpectrum

namespace Flowgraph

namespace State

open FrontendSettings (Ranged ranges range)
open Scalar (tolerance Discerns)

variable {s t u : State Rat} {events : List (Event Rat)} {index : Nat} {p q : Parameter Rat}
variable {v stored : Rat}

theorem Updated.ranged {block} (d : Updated s block index v stored t) (h : s.frontend.Ranged) :
    t.frontend.Ranged := by
  cases d
  case staged   => exact h
  case tuned hs => exact h.of_set hs

theorem Step.ranged {event} (e : Step s event t) (h : s.frontend.Ranged) : t.frontend.Ranged := by
  by_cases ha : event.Adjusts
  case pos =>
    cases e
    case update hu => exact (updated_of_update hu).ranged h
    all_goals contradiction
  case neg =>
    rw [(e.preserves_settings ha).right]
    exact h

theorem Run.ranged (r : Run s events t) (h : s.frontend.Ranged) : t.frontend.Ranged := by
  induction r
  case refl      => exact h
  case step e hi => exact e.ranged hi

theorem Built.ranged {factory config} (b : Built factory config s) : s.frontend.Ranged := by
  cases b
  case intro hd => exact FrontendSettings.ranged_of_ofConfig hd

-- An update of the radio succeeds if its entry takes the value.
theorem update_frontend_iff (hs : s.stopping = false)
    (hp : s.frontend.parameters[index]? = some p) :
    (∃ t, s.update .frontend index v = .ok (stored, t)) ↔
      ∃ q, p.setExact v = .ok q ∧ stored = q.value := by
  have hn : BlockId.frontend ≠ .spectrum := by decide
  constructor
  case mp =>
    rintro ⟨t, h⟩
    have d := updated_of_update h
    generalize hb : BlockId.frontend = block at d
    cases d
    case staged hb' _ _ _ => exact absurd (hb.trans hb') hn
    case tuned hd =>
      obtain ⟨_, q, hp', hq, he, -⟩ := FrontendSettings.set_eq_ok hd
      obtain rfl := Option.some.inj (hp.symm.trans hp')
      exact ⟨q, hq, he⟩
  case mpr =>
    rintro ⟨q, hq, rfl⟩
    obtain ⟨g, hg⟩ := FrontendSettings.exists_set hp hq
    exact ⟨{ s with frontend := g }, by simp [update, hs, hn, hg]⟩

-- The value that an update of the radio reports is close to the one that was asked for.
def TunesExactly (s : State Rat) (index : Nat) (step : Rat) : Prop :=
  ∀ v stored t, s.update .frontend index v = .ok (stored, t) → |stored - v| ≤ step / 1000

theorem tunesExactly_iff (hs : s.stopping = false) (hp : s.frontend.parameters[index]? = some p) :
    s.TunesExactly index p.step ↔ p.Exact := by
  constructor
  case mp =>
    intro h v q hq
    obtain ⟨t, ht⟩ := (update_frontend_iff hs hp).mpr ⟨q, hq, rfl⟩
    exact h v _ t ht
  case mpr =>
    intro h v stored t ht
    obtain ⟨q, hq, rfl⟩ := (update_frontend_iff hs hp).mp ⟨t, ht⟩
    exact h v q hq

-- Only two of the ranges of the radio have more than a million steps.
theorem span_le_iff_of_ranged (h : s.frontend.Ranged) (hp : p ∈ s.frontend.parameters) :
    p.span ≤ 1000000 ↔ p.id ≠ "freq" ∧ p.id ≠ "sample_rate" := by
  have hm : range p ∈ ranges := h ▸ List.mem_map_of_mem hp
  simp only [ranges, range, List.mem_cons, List.not_mem_nil, or_false, Prod.mk.injEq] at hm
  unfold Parameter.span
  rcases hm with ⟨hi, hl, hh, hs⟩ | ⟨hi, hl, hh, hs⟩ | ⟨hi, hl, hh, hs⟩ | ⟨hi, hl, hh, hs⟩ |
    ⟨hi, hl, hh, hs⟩
  all_goals
    rw [hi, hl, hh, hs]
    norm_num <;> decide

-- An accepted value is close to the grid in proportion to its distance from the lower end. It is
-- within a thousandth of a step, and so is the value that is stored, if and only if there are no more
-- than a million steps and the tolerance reaches no point outside the grid. Of the radio, the gains
-- are such parameters, and the frequency and the rate are not.
theorem exactness_decided {id : String} {min max step value : Rat}
    (h : Parameter.ofRange id min max step value = .ok p) :
    (∀ v, p.accepts v → ∃ m : Int, |v - p.above m| ≤ tolerance * (|v - p.min| ⊔ p.step)) ∧
      (p.Selective ↔ Discerns p.top (p.span + p.margin) ∧ p.margin < 1 - tolerance) ∧
      (p.Exact ↔ Discerns p.top p.span) ∧
      ∀ {factory config s₀ events s}, ofConfig factory config = .ok s₀ → Run s₀ events s →
        s.stopping = false → ∀ index q, s.frontend.parameters[index]? = some q →
          (s.TunesExactly index q.step ↔ q.id ≠ "freq" ∧ q.id ≠ "sample_rate") := by
  obtain ⟨⟨rfl, rfl, rfl⟩, hm, hs⟩ := Parameter.hasRange_of_ofRange h
  refine ⟨fun _ => Parameter.exists_near_of_accepts hs, Parameter.selective_iff hs hm,
    (Parameter.sound_of_ofRange h).exact_iff, ?_⟩
  intro factory config s₀ events s h₀ r hs index q hq
  have b := built_of_ofConfig h₀
  have hm := List.mem_of_getElem? hq
  have hw := (((Adjustable.of_built b).of_run r).tuned.entry q hm).left
  rw [tunesExactly_iff hs hq, hw.exact_iff, span_le_iff_of_ranged (r.ranged b.ranged) hm]

section Centre

-- The frequency of the radio, and a value between two points of its grid.
def centre : Parameter Rat where
  id := "freq"
  value := 2480000000
  min := 1000000
  max := 6000000000
  step := 1
  default := 2480000000

def halfWay : Rat :=
  1000000000 + 1 / 2

theorem centre_max : centre.max = centre.point 5999000000 := by
  norm_num [centre, Parameter.point]

theorem centre_whole : centre.Whole where
  step_pos := one_pos
  max_eq   := ⟨5999000000, by norm_num, centre_max⟩

theorem centre_top : centre.top = 5999000000 :=
  centre_whole.top_eq centre_max

theorem ofRange_centre : Parameter.ofRange "freq" 1000000 6000000000 1 2480000000 = .ok centre :=
  centre_whole.ofRange_eq ⟨2479000000, by rw [centre_top]; norm_num,
    by norm_num [centre, Parameter.point]⟩

theorem steps_halfWay : centre.steps halfWay = 999000000 + 1 / 2 := by
  norm_num [Parameter.steps, centre, halfWay]

theorem accepts_halfWay : centre.accepts halfWay :=
  Parameter.accepts_of_le (by norm_num [centre, halfWay]) (by rw [steps_halfWay]; norm_num)

theorem snap_halfWay : centre.snap halfWay = 1000000001 := by
  have hr : Scalar.roundRat (999000000 + 1 / 2) = 999000001 := by
    rw [Scalar.roundRat, if_neg (by norm_num)]
    change ⌊(999000000 + 1 / 2 + 1 / 2 : Rat)⌋ = 999000001
    norm_num
  have hn : Scalar.nearest 5999000000 (999000000 + 1 / 2) = 999000001 := by
    rw [Scalar.nearest, hr]
    rfl
  rw [centre_whole.sound.snap_eq, steps_halfWay, centre_top, hn]
  norm_num [centre, Parameter.point]

-- The value is taken, though it is as far from the grid as can be, and stored as another one.
theorem centre_takes_halfWay :
    Parameter.ofRange "freq" 1000000 6000000000 1 2480000000 = .ok centre ∧
    centre.accepts halfWay ∧ (∀ m : Int, centre.step / 1000 < |halfWay - centre.above m|) ∧
    (∃ q, centre.setExact halfWay = .ok q ∧ q.value = 1000000001) ∧
    ofConfig (spectrumFactory identityKernel) smallConfig = .ok small ∧
    (small.update .frontend 0 halfWay).toOption.map (·.1) = some 1000000001 := by
  have hq : centre.setExact halfWay = .ok { centre with value := centre.snap halfWay } :=
    Parameter.setExact_eq_ok.mpr ⟨accepts_halfWay,
      Parameter.set_eq_ok.mpr ⟨by norm_num [centre, halfWay], centre_whole.sound.countable, rfl⟩⟩
  refine ⟨ofRange_centre, accepts_halfWay, fun m => ?_, ⟨_, hq, snap_halfWay⟩, ofConfig_eq_small,
    by decide +kernel⟩
  rw [Parameter.abs_sub_above centre_whole.step_pos, steps_halfWay]
  change (1 : Rat) / 1000 < |999000000 + 1 / 2 - (m : Rat)| * 1
  rcases le_or_gt m 999000000 with hm | hm
  case inl =>
    have : (m : Rat) ≤ 999000000 := by exact_mod_cast hm
    linarith [le_abs_self (999000000 + 1 / 2 - (m : Rat))]
  case inr =>
    have : (999000001 : Rat) ≤ m := by exact_mod_cast hm
    linarith [neg_le_abs (999000000 + 1 / 2 - (m : Rat))]

theorem exactness_decided_centre :
    Parameter.ofRange "freq" 1000000 6000000000 1 2480000000 = .ok centre ∧
    ¬centre.Selective ∧ ¬centre.Exact ∧
    ofConfig (spectrumFactory identityKernel) smallConfig = .ok small ∧
    ¬small.TunesExactly 0 small.frontend.freq.step ∧
    small.TunesExactly 2 small.frontend.lna.step := by
  have hs : centre.span = 5999000000 := by rw [centre_whole.span_eq, centre_top]; norm_num
  have hr : Scalar.reach < 5999000000 := by norm_num [Scalar.reach]
  have hn := Parameter.margin_pos centre_whole.step_pos
  obtain ⟨-, ha, he, ht⟩ := exactness_decided ofRange_centre
  have ht := ht ofConfig_eq_small .refl (by decide +kernel)
  refine ⟨ofRange_centre, fun h => ?_, fun h => ?_, ofConfig_eq_small, fun h => ?_, ?_⟩
  · have := (ha.mp h).left.few
    linarith
  · have := (he.mp h).few
    linarith
  · exact ((ht 0 small.frontend.freq rfl).mp h).left (by decide +kernel)
  · exact (ht 2 small.frontend.lna rfl).mpr (by decide +kernel)

end Centre

end State

end Flowgraph

end RadioSpectrum
