import RadioSpectrum.Proofs.Parameter.Grid

namespace RadioSpectrum

namespace Scalar

-- Up to here, all numbers that count as whole lie within a thousandth of a whole number.
def reach : Rat :=
  1000000 + 1 / 1000

-- Of the numbers up to `far`, those that count as whole are close to one of the first whole numbers,
-- up to `top`.
structure Discerns (top : Nat) (far : Rat) : Prop where
  few   : far ≤ reach
  clear : far + slack far < top + 1

variable {x y far : Rat} {m : Int} {top k : Nat}

theorem tolerance_eq : (tolerance : Rat) = 1 / 1000000000 := by
  change (1e-9 : Rat) = _
  norm_num

theorem slack_le_slack (h : |x| ≤ |y|) : slack x ≤ slack y :=
  mul_le_mul_of_nonneg_left (sup_le_sup_right h 1) tolerance_pos.le

theorem slack_of_le_one (h : |x| ≤ 1) : slack x = tolerance := by
  rw [slack, sup_eq_right.mpr h, mul_one]

theorem slack_of_one_le (h : 1 ≤ x) : slack x = tolerance * x := by
  rw [slack, abs_of_nonneg (by linarith), sup_eq_left.mpr h]

theorem slack_le_of_le_reach (h₀ : 0 ≤ x) (h : x ≤ reach) : slack x ≤ 1 / 1000 + 1 / 10 ^ 12 := by
  have hr : (1 : Rat) ≤ reach := by norm_num [reach]
  calc slack x
    _ ≤ slack reach := slack_le_slack (by rwa [abs_of_nonneg h₀, abs_of_nonneg (by linarith)])
    _ = tolerance * reach := slack_of_one_le hr
    _ ≤ 1 / 1000 + 1 / 10 ^ 12 := by norm_num [tolerance_eq, reach]

-- Past a million there is nothing but the million itself that the number could be close to.
theorem abs_sub_le_of_le_reach (h₀ : 0 ≤ x) (h : x ≤ reach) (hm : |x - m| ≤ slack x) :
    |x - m| ≤ 1 / 1000 := by
  have hs := hm.trans (slack_le_of_le_reach h₀ h)
  rw [reach] at h
  rcases le_or_gt x 1000000 with hx | hx
  case inl =>
    have hl : slack x ≤ slack 1000000 := slack_le_slack (by rw [abs_of_nonneg h₀]; simpa using hx)
    rw [slack_of_one_le (x := 1000000) (by norm_num), tolerance_eq] at hl
    linarith
  case inr =>
    obtain ⟨hl, hr⟩ := abs_le.mp hs
    have h₁ : m < 1000001 := by exact_mod_cast (by linarith : (m : Rat) < 1000001)
    have h₂ : 999999 < m := by exact_mod_cast (by linarith : (999999 : Rat) < m)
    obtain rfl : m = 1000000 := by omega
    rw [abs_of_nonneg (by push_cast; linarith)]
    push_cast
    linarith

theorem Discerns.exists_near (h : Discerns top far) (h₀ : 0 ≤ x) (hx : x ≤ far) (hp : Passes x) :
    ∃ k ≤ top, |x - (k : Nat)| ≤ 1 / 1000 := by
  obtain ⟨m, hm⟩ := hp
  have hr := hx.trans h.few
  have hs := slack_le_of_le_reach h₀ hr
  have hf : slack x ≤ slack far :=
    slack_le_slack (by rwa [abs_of_nonneg h₀, abs_of_nonneg (h₀.trans hx)])
  have hc := h.clear
  have hd := abs_le.mp hm
  have h₁ : m < top + 1 := by exact_mod_cast (by linarith : (m : Rat) < top + 1)
  have h₂ : -1 < m := by exact_mod_cast (by linarith : (-1 : Rat) < m)
  obtain ⟨k, rfl⟩ := Int.eq_ofNat_of_zero_le (by omega : 0 ≤ m)
  have hk := abs_sub_le_of_le_reach h₀ hr hm
  rw [Int.cast_natCast] at hk
  exact ⟨k, by omega, hk⟩

-- Past the reach there are numbers that count as whole and are not close to any whole number.
theorem exists_between (h : reach < far) :
    ∃ x, 0 ≤ x ∧ x ≤ far ∧ Passes x ∧ ∀ m : Int, 1 / 1000 < |x - m| := by
  set x := far ⊓ (reach + 1 / 10 ^ 12)
  have hx : reach < x := lt_inf_iff.mpr ⟨h, by norm_num⟩
  have hx' : x ≤ reach + 1 / 10 ^ 12 := inf_le_right
  rw [reach] at hx hx'
  refine ⟨x, by linarith, inf_le_left, ⟨1000000, ?_⟩, fun m => ?_⟩
  · rw [slack_of_one_le (by linarith), tolerance_eq, abs_of_nonneg (by push_cast; linarith)]
    push_cast
    linarith
  · rcases le_or_gt m 1000000 with hm | hm
    case inl =>
      have : (m : Rat) ≤ 1000000 := by exact_mod_cast hm
      exact lt_of_lt_of_le (by linarith) (le_abs_self _)
    case inr =>
      have : (1000001 : Rat) ≤ m := by exact_mod_cast hm
      exact lt_of_lt_of_le (by linarith) (neg_le_abs _)

-- Half a billion is so great that no number beyond it is too far from a whole number.
theorem passes_of_le (h : 500000000 ≤ x) : Passes x := by
  refine passes_iff.mpr ((abs_sub_roundRat_le x).trans ?_)
  rw [slack_of_one_le (by linarith), tolerance_eq]
  linarith

-- Of the numbers below zero, those that count as whole are close to it, up to those that count as one
-- too few.
theorem abs_le_of_passes (h : -1 + tolerance < x) (h₀ : x ≤ 0) (hp : Passes x) :
    |x| ≤ 1 / 1000 := by
  obtain ⟨m, hm⟩ := hp
  have ht := tolerance_pos
  rw [slack_of_le_one (abs_le.mpr ⟨by linarith, by linarith⟩)] at hm
  obtain ⟨hl, hr⟩ := abs_le.mp hm
  have h₁ : m < 1 := by exact_mod_cast (by linarith [tolerance_lt_one] : (m : Rat) < 1)
  have h₂ : -1 < m := by exact_mod_cast (by linarith : (-1 : Rat) < m)
  obtain rfl : m = 0 := by omega
  rw [Int.cast_zero, sub_zero, tolerance_eq] at hm
  linarith

-- The greatest number that counts as one whole number too few.
theorem passes_near_neg_one : Passes (-1 + tolerance) := by
  refine ⟨-1, ?_⟩
  have ht := tolerance_le_slack (-1 + tolerance)
  push_cast
  rwa [add_sub_cancel_left, abs_of_pos tolerance_pos]

-- So there are where a number up to the end counts as a whole number that is too great.
theorem exists_beyond (h₀ : 0 ≤ far) (h : far ≤ reach) (ht : top + 1 ≤ far + slack far) :
    ∃ x, 0 ≤ x ∧ x ≤ far ∧ Passes x ∧ ∀ k ≤ top, 1 / 1000 < |x - (k : Nat)| := by
  set x := far ⊓ (top + 1)
  have hx₀ : 0 ≤ x := le_inf h₀ (by positivity)
  have hx : x ≤ far := inf_le_left
  have hm : x ≤ top + 1 := inf_le_right
  have hp : top + 1 - x ≤ slack x := by
    rcases le_total far (top + 1) with he | he
    · have : x = far := inf_eq_left.mpr he
      rw [this]
      linarith
    · have : x = top + 1 := inf_eq_right.mpr he
      rw [this, sub_self]
      exact slack_nonneg _
  have hs := slack_le_of_le_reach hx₀ (hx.trans h)
  refine ⟨x, hx₀, hx, ⟨top + 1, ?_⟩, fun k hk => ?_⟩
  · push_cast
    rw [abs_sub_comm, abs_of_nonneg (by linarith)]
    exact hp
  · have : (k : Rat) ≤ top := Nat.cast_le.mpr hk
    exact lt_of_lt_of_le (by linarith) (le_abs_self _)

theorem exists_far_of_not_discerns (h₀ : 0 ≤ far) (h : ¬Discerns top far) :
    ∃ x, 0 ≤ x ∧ x ≤ far ∧ Passes x ∧ ∀ k ≤ top, 1 / 1000 < |x - (k : Nat)| := by
  rcases le_or_gt far reach with few | few
  case inl => exact exists_beyond h₀ few (not_lt.mp fun clear => h ⟨few, clear⟩)
  case inr =>
    obtain ⟨x, hx₀, hx, hp, hf⟩ := exists_between few
    exact ⟨x, hx₀, hx, hp, fun k _ => hf k⟩

end Scalar

namespace Parameter

open Scalar (tolerance reach Passes Discerns)

variable {p q : Parameter Rat} {v x : Rat}

-- Whatever is accepted is close to a point of the grid.
def Selective (p : Parameter Rat) : Prop :=
  ∀ v, p.accepts v → ∃ k ≤ p.top, |v - p.point k| ≤ p.step / 1000

-- Whatever is stored is close to the value that was asked for.
def Exact (p : Parameter Rat) : Prop :=
  ∀ v q, p.setExact v = .ok q → |q.value - v| ≤ p.step / 1000

-- How many steps the tolerance goes beyond each end of the range.
def margin (p : Parameter Rat) : Rat :=
  tolerance / p.step

theorem accepts_of_le (hv : p.min ≤ v ∧ v ≤ p.max) (h : 500000000 ≤ p.steps v) : p.accepts v := by
  have ht := Scalar.tolerance_pos
  exact accepts_iff.mpr ⟨⟨by linarith [hv.left], by linarith [hv.right]⟩, Scalar.passes_of_le h⟩

section Steps

variable (hs : 0 < p.step)
include hs

theorem margin_pos : 0 < p.margin :=
  div_pos Scalar.tolerance_pos hs

theorem abs_sub_point_le_iff {k : Nat} :
    |v - p.point k| ≤ p.step / 1000 ↔ |p.steps v - k| ≤ 1 / 1000 := by
  have : |v - p.point k| = |p.steps v - k| * p.step := abs_sub_above hs v k
  rw [this, div_eq_mul_one_div, mul_comm, mul_le_mul_iff_right₀ hs]

theorem accepts_above_iff :
    p.accepts (p.above x) ↔ (-p.margin ≤ x ∧ x ≤ p.span + p.margin) ∧ Passes x := by
  have hl : p.steps (p.min - tolerance) = -p.margin := by unfold steps margin; ring
  have hm : p.steps (p.max + tolerance) = p.span + p.margin := by unfold steps span margin; ring
  rw [accepts_iff, ← steps_le_steps_iff hs, ← steps_le_steps_iff hs (v := p.above x), hl, hm,
    steps_above hs]

-- Every value is so many steps above the lower end.
theorem forall_above {P : Rat → Prop} : (∀ v, P v) ↔ ∀ x, P (p.above x) :=
  ⟨fun h _ => h _, fun h v => above_steps hs v ▸ h _⟩

theorem selective_iff_forall : p.Selective ↔ ∀ x, -p.margin ≤ x → x ≤ p.span + p.margin →
    Passes x → ∃ k ≤ p.top, |x - (k : Nat)| ≤ 1 / 1000 := by
  rw [Selective, forall_above hs]
  simp only [accepts_above_iff hs, abs_sub_point_le_iff hs, steps_above hs, and_imp]

theorem inRange_above_iff : (p.min ≤ p.above x ∧ p.above x ≤ p.max) ↔ 0 ≤ x ∧ x ≤ p.span := by
  have hl : p.steps p.min = 0 := by unfold steps; ring
  rw [← steps_le_steps_iff hs, ← steps_le_steps_iff hs (v := p.above x), hl, steps_above hs]
  rfl

-- The accepted values are close to the grid if there are few steps, and if no point that the tolerance
-- reaches at either end lies outside the grid.
theorem selective_iff (hm : p.min ≤ p.max) :
    p.Selective ↔ Discerns p.top (p.span + p.margin) ∧ p.margin < 1 - tolerance := by
  have hn := margin_pos hs
  have hp : 0 ≤ p.span := div_nonneg (sub_nonneg.mpr hm) hs.le
  rw [selective_iff_forall hs]
  constructor
  case mp =>
    intro h
    constructor
    · by_contra hd
      obtain ⟨x, h₀, hx, hp, hf⟩ := Scalar.exists_far_of_not_discerns (by linarith) hd
      obtain ⟨k, hk, hk'⟩ := h x (by linarith) hx hp
      exact absurd hk' (not_le.mpr (hf k hk))
    · by_contra hc
      have hf : -1 + tolerance ≤ p.span + p.margin := by linarith [Scalar.tolerance_lt_one]
      obtain ⟨k, -, hk⟩ := h (-1 + tolerance) (by linarith) hf Scalar.passes_near_neg_one
      have hk' := abs_le.mp hk
      have : (0 : Rat) ≤ k := Nat.cast_nonneg k
      rw [Scalar.tolerance_eq] at hk'
      linarith
  case mpr =>
    rintro ⟨hd, hl⟩ x hx hx' hp
    rcases le_or_gt 0 x with h₀ | h₀
    case inl => exact hd.exists_near h₀ hx' hp
    case inr =>
      have := Scalar.abs_le_of_passes (by linarith) h₀.le hp
      exact ⟨0, Nat.zero_le _, by rwa [Nat.cast_zero, sub_zero]⟩

-- What holds of everything that is accepted: the distance from the grid is a small part of that from
-- the lower end.
theorem exists_near_of_accepts (h : p.accepts v) :
    ∃ m : Int, |v - p.above m| ≤ tolerance * (|v - p.min| ⊔ p.step) := by
  obtain ⟨-, m, hm⟩ := accepts_iff.mp h
  have hv : |v - p.min| = |p.steps v| * p.step := by
    have := abs_sub_above hs v 0
    rwa [above, zero_mul, add_zero, sub_zero] at this
  refine ⟨m, ?_⟩
  calc |v - p.above m|
    _ = |p.steps v - m| * p.step := abs_sub_above hs v m
    _ ≤ Scalar.slack (p.steps v) * p.step := mul_le_mul_of_nonneg_right hm hs.le
    _ = tolerance * (|p.steps v| * p.step ⊔ p.step) := by
      rw [Scalar.slack, mul_assoc, max_mul_of_nonneg _ _ hs.le, one_mul]
    _ = tolerance * (|v - p.min| ⊔ p.step) := by rw [hv]

end Steps

namespace Sound

variable (h : p.Sound)
include h

theorem setExact_above_eq_ok : p.setExact (p.above x) = .ok q ↔
    (0 ≤ x ∧ x ≤ p.span) ∧ Passes x ∧ { p with value := p.snap (p.above x) } = q := by
  have hs := h.step_pos
  have hn := margin_pos hs
  rw [setExact_eq_ok, set_eq_ok, accepts_above_iff hs, inRange_above_iff hs,
    and_iff_right h.countable]
  constructor
  · rintro ⟨⟨-, hp⟩, hx, hq⟩
    exact ⟨hx, hp, hq⟩
  · rintro ⟨hx, hp, hq⟩
    exact ⟨⟨⟨by linarith [hx.left], by linarith [hx.right]⟩, hp⟩, hx, hq⟩

theorem exact_iff_forall : p.Exact ↔ ∀ x, 0 ≤ x → x ≤ p.span → Passes x →
    |x - Scalar.nearest p.top x| ≤ 1 / 1000 := by
  have hd (x : Rat) : |p.snap (p.above x) - p.above x| ≤ p.step / 1000 ↔
      |x - Scalar.nearest p.top x| ≤ 1 / 1000 := by
    rw [abs_sub_comm, h.snap_eq, abs_sub_point_le_iff h.step_pos, steps_above h.step_pos]
  rw [Exact, forall_above h.step_pos]
  simp only [h.setExact_above_eq_ok, and_imp]
  refine forall_congr' fun x => ?_
  constructor
  · intro h h₀ hx hp
    exact (hd x).mp (h { p with value := p.snap (p.above x) } h₀ hx hp rfl)
  · rintro h q h₀ hx hp rfl
    exact (hd x).mpr (h h₀ hx hp)

-- The stored values are close to those that were asked for if there are few steps, and if no point
-- that the tolerance reaches from the upper end lies outside the grid.
theorem exact_iff : p.Exact ↔ Discerns p.top p.span := by
  rw [h.exact_iff_forall]
  constructor
  case mp =>
    intro he
    by_contra hd
    obtain ⟨x, h₀, hx, hp, hf⟩ := Scalar.exists_far_of_not_discerns h.span_nonneg hd
    exact absurd (he x h₀ hx hp) (not_le.mpr (hf _ (Scalar.nearest_le _ _)))
  case mpr =>
    intro hd x h₀ hx hp
    obtain ⟨k, hk, hd'⟩ := hd.exists_near h₀ hx hp
    exact (Scalar.abs_sub_nearest_le x hk).trans hd'

end Sound

-- Where the range ends with the grid, only the number of steps matters.
theorem Whole.exact_iff (h : p.Whole) : p.Exact ↔ p.span ≤ 1000000 := by
  have hs := h.span_eq
  rw [h.sound.exact_iff, hs]
  constructor
  case mp =>
    intro hd
    have hf : (p.top : Rat) ≤ 1000000 + 1 / 1000 := hd.few
    have : p.top < 1000001 := by exact_mod_cast (by linarith : (p.top : Rat) < 1000001)
    exact_mod_cast Nat.le_of_lt_succ this
  case mpr =>
    intro ht
    have few : (p.top : Rat) ≤ reach := ht.trans (by norm_num [reach])
    have := Scalar.slack_le_of_le_reach (Nat.cast_nonneg p.top) few
    exact ⟨few, by linarith⟩

end Parameter

end RadioSpectrum
