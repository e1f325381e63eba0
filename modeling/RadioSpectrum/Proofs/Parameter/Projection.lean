import RadioSpectrum.Proofs.Parameter.Agreement
import RadioSpectrum.Proofs.Parameter.Counting

namespace RadioSpectrum

namespace Scalar

variable {q : Rat} {top j : Nat}

-- Halves go up wherever the rounded number is not below zero.
theorem lt_roundRat_add_half (h : 0 ≤ roundRat q) : q < roundRat q + 1 / 2 := by
  rcases lt_or_ge q 0 with hq | hq
  case inl =>
    have : (0 : Rat) ≤ roundRat q := by exact_mod_cast h
    linarith
  case inr =>
    have hf : roundRat q = ⌊q + 1 / 2⌋ := if_neg (not_lt.mpr hq)
    have := Int.lt_floor_add_one (q + 1 / 2)
    rw [hf]
    linarith

-- No greater count is as near.
theorem le_nearest_of_abs_sub_le (hj : j ≤ top) (h : |q - j| ≤ |q - nearest top q|) :
    j ≤ nearest top q := by
  by_contra! hn
  have ht : nearest top q = (roundRat q).toNat := min_eq_left (by unfold nearest at hn; omega)
  have hr := abs_le.mp (abs_sub_roundRat_le q)
  rw [ht] at h hn
  have hl := (neg_le_abs (q - j)).trans h
  rcases lt_or_ge (roundRat q) 0 with hs | hs
  case inl =>
    have hs' : (roundRat q : Rat) ≤ -1 := by exact_mod_cast Int.le_sub_one_of_lt hs
    rw [Int.toNat_of_nonpos hs.le] at hl hn
    have hj₀ : (0 : Rat) < j := Nat.cast_pos.mpr hn
    rw [Nat.cast_zero, sub_zero, abs_of_nonpos (by linarith)] at hl
    linarith
  case inr =>
    obtain ⟨k, hk⟩ := Int.eq_ofNat_of_zero_le hs
    have hq := lt_roundRat_add_half hs
    rw [hk, Int.cast_natCast] at hr hq
    rw [hk, Int.toNat_natCast] at hl hn
    have hj₁ : (k : Rat) + 1 ≤ j := by exact_mod_cast hn
    have := hl.trans (abs_le.mpr hr)
    linarith

end Scalar

namespace Parameter

open Scalar (tolerance)

variable {p : Parameter Rat} {u v min max step value : Rat} {id : String} {k : Nat}

-- That snapping is the projection onto the first so many points of the grid.
structure Projects (p : Parameter Rat) (count : Nat) : Prop where
  onGrid     : ∀ v, ∃ k < count, p.snap v = p.min + k * p.step
  nearest    : ∀ v, ∀ k < count, |v - p.snap v| ≤ |v - (p.min + k * p.step)|
  monotone   : ∀ u v, u ≤ v → p.snap u ≤ p.snap v
  idempotent : ∀ v, p.snap (p.snap v) = p.snap v
  upward     : ∀ v, ∀ k < count, |v - p.snap v| = |v - (p.min + k * p.step)| →
    p.min + k * p.step ≤ p.snap v

namespace Sound

-- Were the order reversed, both values would have to lie in the middle between the two points.
theorem snap_le_snap (h : p.Sound) (huv : u ≤ v) : p.snap u ≤ p.snap v := by
  by_contra! hn
  have hu := h.snap_nearest u (h.snap_onGrid v)
  have hv := h.snap_nearest v (h.snap_onGrid u)
  have hu' : p.snap u + p.snap v ≤ 2 * u := by
    have := sq_le_sq.mpr hu
    nlinarith
  have hv' : 2 * v ≤ p.snap u + p.snap v := by
    have := sq_le_sq.mpr hv
    nlinarith
  obtain rfl : u = v := by linarith
  exact lt_irrefl _ hn

theorem point_le_snap (h : p.Sound) (hk : k ≤ p.top) (he : |v - p.snap v| = |v - p.point k|) :
    p.point k ≤ p.snap v := by
  rw [h.snap_eq, h.abs_sub_point, h.abs_sub_point] at he
  rw [h.snap_eq]
  exact point_le_point h
    (Scalar.le_nearest_of_abs_sub_le hk (mul_right_cancel₀ h.step_pos.ne' he).ge)

theorem projects (h : p.Sound) : p.Projects (p.top + 1) where
  onGrid v     := ⟨_, Nat.lt_succ_of_le (Scalar.nearest_le _ _), h.snap_eq v⟩
  nearest v k hk := h.snap_nearest v ⟨k, Nat.le_of_lt_succ hk, rfl⟩
  monotone _ _ := h.snap_le_snap
  idempotent v := h.snap_of_onGrid (h.snap_onGrid v)
  upward _ _ hk := h.point_le_snap (Nat.le_of_lt_succ hk)

end Sound

-- Snapping is a projection onto the points that are counted.
theorem snap_projects (h : ofRange id min max step value = .ok p) :
    p.HasRange min max step ∧ ∃ n, p.stepCount = .ok n ∧
      n.toNat = ⌊(max - min) / step + tolerance⌋₊ + 1 ∧ p.Projects n.toNat := by
  obtain ⟨⟨rfl, rfl, rfl⟩, -, -⟩ := hasRange_of_ofRange h
  have hp := sound_of_ofRange h
  obtain ⟨n, hn, ht⟩ := stepCount_of_countable hp.countable
  exact ⟨⟨rfl, rfl, rfl⟩, n, hn, ht, ht ▸ hp.projects⟩

section Skewed

-- The grid has the points -10, -6, -2 and 2; the range ends between two points.
def skewed : Parameter Rat where
  id := "offset"
  value := -6
  min := -10
  max := 5
  step := 4
  default := -6

theorem skewed_top : skewed.top = 3 := by
  have : skewed.span + tolerance = (5 - -10) / 4 + 1 / 1000000000 := by
    rw [← Scalar.tolerance_eq]
    rfl
  rw [top, this, Nat.floor_eq_iff (by norm_num)]
  norm_num

theorem skewed_sound : skewed.Sound :=
  ⟨by norm_num [skewed], by norm_num [skewed], by rw [Countable, skewed_top]; norm_num⟩

-- The middle between two points counts as the upper one.
theorem skewed_snap_middle : skewed.snap (-8) = -6 := by
  have hr : Scalar.roundRat (skewed.steps (-8)) = 1 := by
    have : skewed.steps (-8) = 1 / 2 := by norm_num [skewed, steps]
    rw [this, Scalar.roundRat, if_neg (by norm_num)]
    change ⌊(1 / 2 + 1 / 2 : Rat)⌋ = 1
    norm_num
  rw [skewed_sound.snap_eq, skewed_top, Scalar.nearest, hr]
  norm_num [skewed, point]

theorem ofRange_skewed : ofRange "offset" (-10) 5 4 (-8) = .ok skewed := by
  refine ofRange_eq_ok.mpr ⟨by norm_num, by norm_num, _,
    set_eq_ok.mpr ⟨by norm_num, skewed_sound.countable, rfl⟩, ?_⟩
  change { skewed with value := skewed.snap (-8), default := skewed.snap (-8) } = skewed
  rw [skewed_snap_middle]
  rfl

theorem snap_projects_skewed :
    ofRange "offset" (-10) 5 4 (-8) = .ok skewed ∧ skewed.snap (-8) = -6 ∧
      ∃ n, skewed.stepCount = .ok n ∧ n.toNat = 4 ∧ skewed.Projects 4 := by
  have ht : ⌊(5 - -10 : Rat) / 4 + tolerance⌋₊ = 3 := skewed_top
  obtain ⟨-, n, hn, hc, hp⟩ := snap_projects ofRange_skewed
  rw [hc, ht] at hp
  exact ⟨ofRange_skewed, skewed_snap_middle, n, hn, hc.trans (congrArg _ ht), hp⟩

end Skewed

end Parameter

end RadioSpectrum
