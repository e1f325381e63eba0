import RadioSpectrum.Proofs.Parameter.Lifetime
import RadioSpectrum.Proofs.Parameter.Tolerance

namespace RadioSpectrum

namespace Parameter

open Scalar (tolerance Passes)

variable {p q : Parameter Rat} {v value min max step : Rat} {id : String}

def Takes (p : Parameter Rat) (v : Rat) : Prop :=
  ∃ q, p.setExact v = .ok q

-- That the parameter accepts a value and refuses it for its range when it is asked for it.
structure Disputed (p : Parameter Rat) (v : Rat) : Prop where
  accepted : p.accepts v
  refused  : p.setExact v = .error (p.refuse v (.outOfRange p.min p.max))

-- That a value lies beyond an end of the range, by the tolerance at most.
def Overhangs (p : Parameter Rat) (v : Rat) : Prop :=
  (p.min - tolerance ≤ v ∧ v < p.min) ∨ (p.max < v ∧ v ≤ p.max + tolerance)

section Sound

variable (h : p.Sound)
include h

theorem takes_iff : p.Takes v ↔ p.accepts v ∧ p.min ≤ v ∧ v ≤ p.max := by
  simp only [Takes, setExact_eq_ok, set_eq_ok, h.countable, true_and, exists_and_left, exists_eq',
    and_true]

theorem disputed_iff_not_takes : p.Disputed v ↔ p.accepts v ∧ ¬p.Takes v := by
  constructor
  case mp =>
    rintro ⟨ha, hr⟩
    refine ⟨ha, fun ⟨q, hq⟩ => ?_⟩
    cases hr.symm.trans hq
  case mpr =>
    rintro ⟨ha, hn⟩
    refine ⟨ha, ?_⟩
    have ho : v < p.min ∨ p.max < v := by
      by_contra hi
      rw [not_or, not_lt, not_lt] at hi
      exact hn ((takes_iff h).mpr ⟨ha, hi⟩)
    rw [setExact, if_pos ha, set, if_neg nofun, if_pos ho]

theorem disputed_iff : p.Disputed v ↔ p.Overhangs v ∧ Passes (p.steps v) := by
  have ht := Scalar.tolerance_pos
  have hm := h.ordered
  rw [disputed_iff_not_takes h, takes_iff h, accepts_iff, Overhangs]
  constructor
  case mp =>
    rintro ⟨⟨⟨hl, hu⟩, hp⟩, hn⟩
    refine ⟨?_, hp⟩
    rcases lt_or_ge v p.min with h | h
    case inl => exact .inl ⟨hl, h⟩
    case inr => exact .inr ⟨lt_of_not_ge fun h' => hn ⟨⟨⟨hl, hu⟩, hp⟩, h, h'⟩, hu⟩
  case mpr =>
    rintro ⟨⟨hl, hu⟩ | ⟨hl, hu⟩, hp⟩
    case inl => exact ⟨⟨⟨hl, by linarith⟩, hp⟩, fun h => absurd h.right.left (not_le.mpr hu)⟩
    case inr => exact ⟨⟨⟨by linarith, hu⟩, hp⟩, fun h => absurd h.right.right (not_le.mpr hl)⟩

-- Zero steps count as whole, and so does a number just below them.
theorem exists_disputed : ∃ v < p.min, p.Disputed v := by
  have hs := h.step_pos
  have hn := margin_pos hs
  have ht := Scalar.tolerance_pos
  have hp := h.span_nonneg
  set x := -(p.margin ⊓ tolerance)
  have hx : x < 0 := neg_neg_of_pos (lt_inf_iff.mpr ⟨hn, ht⟩)
  have hx' : -p.margin ≤ x := neg_le_neg inf_le_left
  have hw : Passes x := by
    refine ⟨0, le_trans ?_ (Scalar.tolerance_le_slack x)⟩
    rw [Int.cast_zero, sub_zero, abs_of_neg hx, neg_neg]
    exact inf_le_right
  have hr := inRange_above_iff hs (x := x)
  have ha : p.accepts (p.above x) := (accepts_above_iff hs).mpr ⟨⟨hx', by linarith⟩, hw⟩
  refine ⟨p.above x, ?_, (disputed_iff_not_takes h).mpr ⟨ha, fun ht => ?_⟩⟩
  · exact add_lt_of_neg_right _ (mul_neg_of_neg_of_pos hx hs)
  · exact absurd (hr.mp ((takes_iff h).mp ht).right).left (not_le.mpr hx)

theorem point_le_point {j k : Nat} (hk : j ≤ k) : p.point j ≤ p.point k :=
  add_le_add_right (mul_le_mul_of_nonneg_right (Nat.cast_le.mpr hk) h.step_pos.le) _

-- The values that come of snapping are the points of the grid.
theorem forall_snap_iff {P : Rat → Prop} : (∀ v, P (p.snap v)) ↔ ∀ k ≤ p.top, P (p.point k) := by
  constructor
  case mp => exact fun hv k hk => h.snap_of_onGrid ⟨k, hk, rfl⟩ ▸ hv (p.point k)
  case mpr =>
    intro hk v
    obtain ⟨k, hl, he⟩ := h.snap_onGrid v
    exact he ▸ hk k hl

theorem accepts_point_iff {k : Nat} : p.accepts (p.point k) ↔ p.point k ≤ p.max + tolerance := by
  have hl := h.min_le_point k
  have hp : Passes (p.steps (p.point k)) := h.steps_point k ▸ Scalar.passes_intCast k
  have ht := Scalar.tolerance_pos
  rw [accepts_iff, and_iff_left hp, and_iff_right (by linarith)]

theorem takes_point_iff {k : Nat} : p.Takes (p.point k) ↔ p.point k ≤ p.max := by
  have hl := h.min_le_point k
  have ht := Scalar.tolerance_pos
  rw [takes_iff h, accepts_point_iff h, and_iff_right hl]
  exact and_iff_right_of_imp fun h => by linarith

theorem gridMax_eq : p.gridMax = p.point p.top := by
  rw [gridMax, h.topStep_eq, point]

theorem forall_point_le_iff {bound : Rat} :
    (∀ k ≤ p.top, p.point k ≤ bound) ↔ p.gridMax ≤ bound := by
  rw [gridMax_eq h]
  exact ⟨fun hk => hk _ le_rfl, fun hb _ hk => (point_le_point h hk).trans hb⟩

theorem forall_takes_snap_iff : (∀ v, p.Takes (p.snap v)) ↔ p.gridMax ≤ p.max := by
  simp only [forall_snap_iff h, takes_point_iff h, forall_point_le_iff h]

theorem forall_accepts_snap_iff :
    (∀ v, p.accepts (p.snap v)) ↔ p.gridMax ≤ p.max + tolerance := by
  rw [forall_snap_iff h (P := fun v => p.accepts v)]
  simp only [accepts_point_iff h, forall_point_le_iff h]

end Sound

-- A parameter takes the values that it accepts in its range. Whatever its range, there are others that
-- it accepts: those that the tolerance reaches beyond the ends. It takes what it has snapped itself if
-- and only if its grid ends in its range.
theorem agreement_decided (h : ofRange id min max step value = .ok p) {calls : List Call}
    (hq : p.after calls = q) :
    (∀ v, q.Takes v ↔ q.accepts v ∧ min ≤ v ∧ v ≤ max) ∧
    (∀ v, (q.Takes v ↔ q.accepts v) ↔ ¬(q.Overhangs v ∧ Passes (q.steps v))) ∧
    (∃ v < min, q.Disputed v) ∧
    ((∀ v, q.Takes (q.snap v)) ↔ q.gridMax ≤ max) ∧
    ((∀ v, q.accepts (q.snap v)) ↔ q.gridMax ≤ max + tolerance) := by
  obtain ⟨⟨rfl, rfl, rfl⟩, -, -⟩ := hasRange_of_ofRange h
  have hm : p.Moved q := hq ▸ moved_of_ofRange h calls
  have hs := hm.sound (sound_of_ofRange h)
  obtain ⟨hl, hu, -⟩ := hm.hasRange
  rw [← hl, ← hu]
  refine ⟨fun v => takes_iff hs, fun v => ?_, exists_disputed hs, forall_takes_snap_iff hs,
    forall_accepts_snap_iff hs⟩
  rw [← disputed_iff hs, disputed_iff_not_takes hs, not_and_not_right]
  exact ⟨fun ha => ha.mpr, fun ha => ⟨fun ht => ((takes_iff hs).mp ht).left, ha⟩⟩

section Tenths

-- A range from zero to three tenths in steps of a tenth, each as near to that as doubles come. Three of
-- the steps are a little longer than the range.
def tenths : Parameter Rat where
  id := "gain"
  value := 3 * (3602879701896397 / 2 ^ 55)
  min := 0
  max := 5404319552844595 / 2 ^ 54
  step := 3602879701896397 / 2 ^ 55
  default := 3 * (3602879701896397 / 2 ^ 55)

-- The double that three times the step is rounded to.
def threeTenths : Rat :=
  5404319552844596 / 2 ^ 54

theorem tenths_top : tenths.top = 3 := by
  have : tenths.span + tolerance = 5404319552844595 / 2 ^ 54 / (3602879701896397 / 2 ^ 55) + 1e-9 := by
    change (5404319552844595 / 2 ^ 54 - 0) / (3602879701896397 / 2 ^ 55) + 1e-9 = _
    rw [sub_zero]
  rw [top, this, Nat.floor_eq_iff (by norm_num)]
  norm_num

theorem tenths_sound : tenths.Sound where
  ordered   := by norm_num [tenths]
  step_pos  := by norm_num [tenths]
  countable := by rw [Countable, tenths_top]; norm_num

theorem tenths_value : tenths.value = tenths.point 3 := by
  norm_num [tenths, point]

theorem snap_tenths_max : tenths.snap tenths.max = tenths.value := by
  have hr : Scalar.roundRat (tenths.steps tenths.max) = 3 := by
    have : tenths.steps tenths.max = 5404319552844595 / 2 ^ 54 / (3602879701896397 / 2 ^ 55) := by
      norm_num [tenths, steps]
    rw [this, Scalar.roundRat, if_neg (by norm_num)]
    change ⌊(5404319552844595 / 2 ^ 54 / (3602879701896397 / 2 ^ 55) + 1 / 2 : Rat)⌋ = 3
    rw [Int.floor_eq_iff]
    norm_num
  rw [tenths_sound.snap_eq, tenths_top, Scalar.nearest, hr, tenths_value]
  rfl

theorem ofRange_tenths : ofRange "gain" 0 (5404319552844595 / 2 ^ 54) (3602879701896397 / 2 ^ 55)
    (5404319552844595 / 2 ^ 54) = .ok tenths := by
  have hp := tenths_sound
  refine ofRange_eq_ok.mpr ⟨hp.ordered, hp.step_pos, _,
    set_eq_ok.mpr ⟨⟨hp.ordered, le_rfl⟩, hp.countable, rfl⟩, ?_⟩
  change { tenths with value := tenths.snap tenths.max, default := tenths.snap tenths.max } = tenths
  rw [snap_tenths_max]
  rfl

theorem overhangs_threeTenths :
    tenths.Overhangs threeTenths ∧ Passes (tenths.steps threeTenths) := by
  have hw : |tenths.steps threeTenths - (3 : Int)| ≤ tolerance := by
    norm_num [tenths, threeTenths, steps, Scalar.tolerance_eq]
  exact ⟨.inr (by norm_num [tenths, threeTenths, Scalar.tolerance_eq]),
    3, hw.trans (Scalar.tolerance_le_slack _)⟩

theorem overhangs_tenths_value :
    tenths.Overhangs tenths.value ∧ Passes (tenths.steps tenths.value) := by
  refine ⟨.inr (by norm_num [tenths, Scalar.tolerance_eq]), ?_⟩
  rw [tenths_value, tenths_sound.steps_point]
  exact Scalar.passes_intCast 3

-- The parameter has a value that it accepts, and that it refuses when it is asked for it. So it does
-- with the double that its value is rounded to.
theorem tenths_disputes_value :
    ofRange "gain" 0 (5404319552844595 / 2 ^ 54) (3602879701896397 / 2 ^ 55)
      (5404319552844595 / 2 ^ 54) = .ok tenths ∧
    tenths.accepts threeTenths ∧ ¬(∃ q, tenths.setExact threeTenths = .ok q) ∧
    tenths.accepts tenths.value ∧ ¬∃ q, tenths.setExact tenths.value = .ok q := by
  have hs := tenths_sound
  have ht := (disputed_iff_not_takes hs).mp ((disputed_iff hs).mpr overhangs_threeTenths)
  have hv := (disputed_iff_not_takes hs).mp ((disputed_iff hs).mpr overhangs_tenths_value)
  exact ⟨ofRange_tenths, ht.left, ht.right, hv.left, hv.right⟩

theorem agreement_decided_tenths :
    ofRange "gain" 0 (5404319552844595 / 2 ^ 54) (3602879701896397 / 2 ^ 55)
      (5404319552844595 / 2 ^ 54) = .ok tenths ∧ tenths.after [.reset] = tenths ∧
    ¬(tenths.Takes threeTenths ↔ tenths.accepts threeTenths) ∧ (∃ v < 0, tenths.Disputed v) ∧
    ¬(∀ v, tenths.Takes (tenths.snap v)) ∧ ∀ v, tenths.accepts (tenths.snap v) := by
  have hq : tenths.after [.reset] = tenths := rfl
  have hg : tenths.gridMax = 3 * (3602879701896397 / 2 ^ 55) := by
    rw [gridMax_eq tenths_sound, tenths_top]
    norm_num [tenths, point]
  obtain ⟨-, ha, hd, ht, hs⟩ := agreement_decided ofRange_tenths hq
  rw [hg] at ht hs
  refine ⟨ofRange_tenths, hq, fun h => (ha threeTenths).mp h overhangs_threeTenths, hd, fun h => ?_,
    hs.mpr ?_⟩
  · exact absurd (ht.mp h) (by norm_num)
  · norm_num [Scalar.tolerance_eq]

end Tenths

end Parameter

end RadioSpectrum
