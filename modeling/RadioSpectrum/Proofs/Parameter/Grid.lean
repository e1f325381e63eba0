import Mathlib.Data.Rat.Floor
import Mathlib.Tactic.FieldSimp
import Mathlib.Tactic.Linarith
import RadioSpectrum.Parameter
import RadioSpectrum.Proofs.Except

namespace RadioSpectrum

namespace Scalar

theorem abs_eq (q : Rat) : Scalar.abs q = |q| := by
  unfold Scalar.abs
  change (if q < 0 then -q else q) = |q|
  split
  case isTrue h  => exact (abs_of_neg h).symm
  case isFalse h => exact (abs_of_nonneg (not_lt.mp h)).symm

theorem max_eq (a b : Rat) : Scalar.max a b = a ⊔ b := by
  unfold Scalar.max
  split
  case isTrue h  => exact (sup_eq_left.mpr h.le).symm
  case isFalse h => exact (sup_eq_right.mpr (not_lt.mp h)).symm

theorem tolerance_pos : 0 < (tolerance : Rat) := by
  change (0 : Rat) < 1e-9
  norm_num

theorem tolerance_lt_one : (tolerance : Rat) < 1 := by
  change (1e-9 : Rat) < 1
  norm_num

theorem toNat_toWord_floor (q : Rat) : (toWord (floor q)).toNat = ⌊q⌋₊ ⊓ (2 ^ 64 - 1) := by
  change (UInt64.ofNat (⌊(⌊q⌋ : Rat)⌋.toNat ⊓ (2 ^ 64 - 1))).toNat = _
  rw [Int.floor_intCast, Int.floor_toNat, UInt64.toNat_ofNat', Nat.mod_eq_of_lt (by omega)]

theorem toWord_floor {q : Rat} (h : ⌊q⌋₊ < UInt64.size) : toWord (floor q) = .ofNat ⌊q⌋₊ := by
  rw [← UInt64.toNat_inj, toNat_toWord_floor, UInt64.toNat_ofNat_of_lt' h]
  exact min_eq_left (Nat.le_sub_one_of_lt h)

theorem roundRat_natCast (n : Nat) : roundRat n = n := by
  have hn : ¬(n : Rat) < 0 := not_lt.mpr (Nat.cast_nonneg n)
  have : (n : Rat) + 1 / 2 = 1 / 2 + (n : Int) := by push_cast; ring
  rw [roundRat, if_neg hn, this]
  change ⌊(1 / 2 : Rat) + (n : Int)⌋ = n
  rw [Int.floor_add_intCast]
  norm_num

theorem abs_sub_roundRat_le (q : Rat) : |q - roundRat q| ≤ 1 / 2 := by
  unfold roundRat
  split
  case isTrue =>
    have h₁ := Int.floor_le (-q + 1 / 2)
    have h₂ := Int.lt_floor_add_one (-q + 1 / 2)
    change |q - ((-⌊-q + 1 / 2⌋ : Int) : Rat)| ≤ 1 / 2
    rw [abs_le]
    push_cast
    constructor <;> linarith
  case isFalse =>
    have h₁ := Int.floor_le (q + 1 / 2)
    have h₂ := Int.lt_floor_add_one (q + 1 / 2)
    change |q - (⌊q + 1 / 2⌋ : Rat)| ≤ 1 / 2
    rw [abs_le]
    constructor <;> linarith

-- Rounding finds the whole number that is nearest.
theorem abs_sub_roundRat_le_abs_sub (x : Rat) (m : Int) : |x - roundRat x| ≤ |x - m| := by
  have hr := abs_sub_roundRat_le x
  rcases eq_or_ne m (roundRat x) with rfl | hn
  case inl => exact le_rfl
  case inr =>
    have hd : (1 : Rat) ≤ |(m : Rat) - roundRat x| := by
      exact_mod_cast Int.one_le_abs (sub_ne_zero.mpr hn)
    have ht := abs_sub_le (m : Rat) x (roundRat x)
    rw [abs_sub_comm (m : Rat) x] at ht
    linarith

-- How far from a whole number a number may lie and still count as whole.
def slack (x : Rat) : Rat :=
  tolerance * (|x| ⊔ 1)

def Passes (x : Rat) : Prop :=
  ∃ m : Int, |x - m| ≤ slack x

theorem tolerance_le_slack (x : Rat) : tolerance ≤ slack x :=
  le_mul_of_one_le_right tolerance_pos.le le_sup_right

theorem slack_nonneg (x : Rat) : 0 ≤ slack x :=
  tolerance_pos.le.trans (tolerance_le_slack x)

theorem passes_intCast (m : Int) : Passes m :=
  ⟨m, by rw [sub_self, abs_zero]; exact slack_nonneg _⟩

theorem passes_iff {x : Rat} : Passes x ↔ |x - roundRat x| ≤ slack x :=
  ⟨fun ⟨m, h⟩ => (abs_sub_roundRat_le_abs_sub x m).trans h, fun h => ⟨_, h⟩⟩

-- The count up to `top` that is nearest to a number.
def nearest (top : Nat) (q : Rat) : Nat :=
  min (roundRat q).toNat top

theorem nearest_le (top : Nat) (q : Rat) : nearest top q ≤ top :=
  Nat.min_le_right _ _

theorem nearest_natCast {top k : Nat} (h : k ≤ top) : nearest top k = k := by
  rw [nearest, roundRat_natCast, Int.toNat_natCast, Nat.min_eq_left h]

theorem clamp_roundRat (top : Nat) (q : Rat) :
    clamp (roundRat q : Rat) (0 : Nat) top = nearest top q := by
  unfold clamp nearest
  generalize roundRat q = r
  split
  case isTrue hr =>
    have hr : r < 0 := by exact_mod_cast hr
    rw [Int.toNat_of_nonpos hr.le, Nat.zero_min]
  case isFalse hr =>
    obtain ⟨k, rfl⟩ : ∃ k : Nat, r = k :=
      Int.eq_ofNat_of_zero_le (by exact_mod_cast not_lt.mp hr)
    split
    case isTrue hk =>
      have hk : top < k := by exact_mod_cast hk
      rw [Int.toNat_natCast, Nat.min_eq_right hk.le]
    case isFalse hk =>
      have hk : k ≤ top := by exact_mod_cast not_lt.mp hk
      rw [Int.toNat_natCast, Nat.min_eq_left hk, Int.cast_natCast]

theorem abs_sub_nearest_le (q : Rat) {top j : Nat} (hj : j ≤ top) :
    |q - nearest top q| ≤ |q - j| := by
  have hr := abs_le.mp (abs_sub_roundRat_le q)
  have hj₀ : (0 : Rat) ≤ j := Nat.cast_nonneg j
  have hjt : (j : Rat) ≤ top := Nat.cast_le.mpr hj
  unfold nearest
  rcases lt_or_ge (roundRat q) 0 with h | h
  case inl =>
    have : (roundRat q : Rat) ≤ -1 := by exact_mod_cast Int.le_sub_one_of_lt h
    rw [Int.toNat_of_nonpos h.le, Nat.zero_min, Nat.cast_zero, sub_zero,
      abs_of_nonpos (by linarith), abs_of_nonpos (by linarith)]
    linarith
  case inr =>
    obtain ⟨k, hk⟩ := Int.eq_ofNat_of_zero_le h
    rw [hk, Int.cast_natCast] at hr
    rw [hk, Int.toNat_natCast]
    rcases le_or_gt k top with h | h
    case inl =>
      rw [Nat.min_eq_left h]
      rcases lt_trichotomy j k with h | rfl | h
      · have : (j : Rat) + 1 ≤ k := by exact_mod_cast h
        exact (abs_le.mpr hr).trans ((by linarith : 1 / 2 ≤ q - j).trans (le_abs_self _))
      · exact le_refl _
      · have : (k : Rat) + 1 ≤ j := by exact_mod_cast h
        exact (abs_le.mpr hr).trans ((by linarith : 1 / 2 ≤ -(q - j)).trans (neg_le_abs _))
    case inr =>
      have : (top : Rat) + 1 ≤ k := by exact_mod_cast h
      rw [Nat.min_eq_right h.le, abs_of_nonneg (by linarith), abs_of_nonneg (by linarith)]
      linarith

end Scalar

namespace Parameter

variable {p q : Parameter Rat} {v w min max step value : Rat} {id : String}

-- How many steps the range is long.
def span (p : Parameter Rat) : Rat :=
  (p.max - p.min) / p.step

-- The number of the highest grid point.
def top (p : Parameter Rat) : Nat :=
  ⌊p.span + Scalar.tolerance⌋₊

-- That words can count the points of the grid.
def Countable (p : Parameter Rat) : Prop :=
  p.top + 1 < 2 ^ 64

-- How many steps a value lies above the lower end.
def steps (p : Parameter Rat) (v : Rat) : Rat :=
  (v - p.min) / p.step

def point (p : Parameter Rat) (k : Nat) : Rat :=
  p.min + k * p.step

-- The value that lies so many steps above the lower end.
def above (p : Parameter Rat) (x : Rat) : Rat :=
  p.min + x * p.step

def OnGrid (p : Parameter Rat) (v : Rat) : Prop :=
  ∃ k ≤ p.top, v = p.point k

-- That `q` is `p`, moved to one of its grid points.
inductive Moved (p : Parameter Rat) : Parameter Rat → Prop
  | intro {v : Rat} (h : p.OnGrid v) : Moved p { p with value := v }

theorem Moved.id_eq (hm : p.Moved q) : q.id = p.id := by
  obtain ⟨-⟩ := hm
  rfl

section Steps

variable (hs : 0 < p.step)
include hs

theorem steps_above (x : Rat) : p.steps (p.above x) = x := by
  have := hs.ne'
  unfold steps above
  field_simp
  ring

theorem above_steps (v : Rat) : p.above (p.steps v) = v := by
  have := hs.ne'
  unfold steps above
  field_simp
  ring

theorem steps_le_steps_iff : p.steps v ≤ p.steps w ↔ v ≤ w := by
  rw [steps, steps, div_le_div_iff_of_pos_right hs, sub_le_sub_iff_right]

theorem min_le_point (k : Nat) : p.min ≤ p.point k :=
  le_add_of_nonneg_right (mul_nonneg (Nat.cast_nonneg k) hs.le)

theorem point_le_iff {k : Nat} {t : Rat} : p.point k ≤ p.max + t * p.step ↔ k ≤ p.span + t := by
  have hk : p.point k = p.min + k * p.step := rfl
  have ht : p.max + t * p.step = p.min + (p.span + t) * p.step := by
    unfold span
    field_simp
    ring
  rw [hk, ht, add_le_add_iff_left, mul_le_mul_iff_left₀ hs]

theorem abs_sub_above (v x : Rat) : |v - p.above x| = |p.steps v - x| * p.step :=
  calc |v - p.above x|
    _ = |p.above (p.steps v) - p.above x| := by rw [above_steps hs]
    _ = |(p.steps v - x) * p.step| := by congr 1; unfold above; ring
    _ = |p.steps v - x| * p.step := by rw [abs_mul, abs_of_pos hs]

end Steps

theorem accepts_iff : p.accepts v ↔
    (p.min - Scalar.tolerance ≤ v ∧ v ≤ p.max + Scalar.tolerance) ∧ Scalar.Passes (p.steps v) := by
  have hp : Scalar.abs (p.steps v - Scalar.roundRat (p.steps v)) ≤
      Scalar.tolerance * Scalar.max (Scalar.abs (p.steps v)) ((1 : Nat) : Rat) ↔
      Scalar.Passes (p.steps v) := by
    rw [Scalar.abs_eq, Scalar.abs_eq, Scalar.max_eq, Nat.cast_one, Scalar.passes_iff, Scalar.slack]
  unfold accepts
  split
  case isTrue h =>
    refine iff_of_false nofun fun ⟨⟨hl, hm⟩, _⟩ => ?_
    rcases h with h | h | h
    · contradiction
    · exact not_lt.mpr hl h
    · exact not_lt.mpr hm h
  case isFalse h =>
    rw [not_or, not_or, not_lt, not_lt] at h
    rw [and_iff_right h.right]
    exact decide_eq_true_iff.trans hp

theorem toNat_wholeSteps (p : Parameter Rat) : p.wholeSteps.toNat = p.top ⊓ (2 ^ 64 - 1) :=
  Scalar.toNat_toWord_floor _

theorem stepCount_of_countable (h : p.Countable) :
    ∃ n, p.stepCount = .ok n ∧ n.toNat = p.top + 1 := by
  have hw := p.toNat_wholeSteps
  have hs : p.wholeSteps.toNat + 1 < UInt64.size := by
    change _ < 2 ^ 64
    unfold Countable at h
    omega
  refine ⟨p.wholeSteps + 1, if_pos hs, ?_⟩
  rw [UInt64.toNat_add, UInt64.toNat_one, Nat.mod_eq_of_lt hs, hw]
  unfold Countable at h
  omega

theorem stepCount_of_not_countable (h : ¬p.Countable) : p.stepCount = .error .overflow := by
  have hw := p.toNat_wholeSteps
  refine if_neg fun (hs : _ < 2 ^ 64) => h ?_
  unfold Countable
  omega

theorem counted_eq_ok {β : Type} {x y : β} : p.counted x = .ok y ↔ p.Countable ∧ x = y := by
  by_cases h : p.Countable
  case pos =>
    obtain ⟨n, hn, -⟩ := stepCount_of_countable h
    rw [counted, hn, and_iff_right h]
    exact ⟨Except.ok.inj, congrArg _⟩
  case neg =>
    rw [counted, stepCount_of_not_countable h]
    exact ⟨nofun, fun h' => absurd h'.left h⟩

theorem set_eq_ok : p.set v = .ok q ↔
    (p.min ≤ v ∧ v ≤ p.max) ∧ p.Countable ∧ { p with value := p.snap v } = q := by
  have hf : ¬(!Scalar.isFinite v) = true := nofun
  unfold set
  rw [if_neg hf, ← not_lt, ← not_lt, ← not_or]
  split
  case isTrue h  => exact ⟨nofun, fun h' => absurd h h'.left⟩
  case isFalse h => rw [counted_eq_ok, and_iff_right h]

theorem setExact_eq_ok : p.setExact v = .ok q ↔ p.accepts v ∧ p.set v = .ok q := by
  unfold setExact
  split
  case isTrue ha  => exact (and_iff_right ha).symm
  case isFalse ha => exact ⟨nofun, fun h => absurd h.left ha⟩

theorem ofRange_eq_ok : ofRange id min max step value = .ok p ↔ min ≤ max ∧ 0 < step ∧
    ∃ q, set { id, value := min, min, max, step, default := min } value = .ok q ∧
      { q with default := q.value } = p := by
  unfold ofRange
  dsimp only [Function.comp]
  split
  case isTrue h => contradiction
  split
  case isTrue h => exact ⟨nofun, fun h' => absurd h'.left (not_le.mpr h)⟩
  case isFalse hm =>
    split
    case isTrue h => exact ⟨nofun, fun h' => absurd h'.right.left (not_lt.mpr h)⟩
    case isFalse hs =>
      have hs : 0 < step := not_le.mp hs
      rw [bind_eq_ok, and_iff_right (not_lt.mp hm), and_iff_right hs]
      simp only [pure_eq_ok]

theorem eq_of_ofRange (h : ofRange id min max step value = .ok p) :
    ∃ v, p = { id, value := v, min, max, step, default := v } ∧ v = p.snap value := by
  obtain ⟨-, -, _, hq, rfl⟩ := ofRange_eq_ok.mp h
  obtain ⟨-, -, rfl⟩ := set_eq_ok.mp hq
  exact ⟨_, rfl, rfl⟩

-- What `ofRange` sees to.
structure Sound (p : Parameter Rat) : Prop where
  ordered : p.min ≤ p.max
  step_pos : 0 < p.step
  countable : p.Countable

theorem sound_of_ofRange (h : ofRange id min max step value = .ok p) : p.Sound := by
  obtain ⟨hm, hs, _, hq, rfl⟩ := ofRange_eq_ok.mp h
  obtain ⟨-, hc, rfl⟩ := set_eq_ok.mp hq
  exact ⟨hm, hs, hc⟩

namespace Sound

theorem span_nonneg (h : p.Sound) : 0 ≤ p.span :=
  div_nonneg (sub_nonneg.mpr h.ordered) h.step_pos.le

theorem top_le (h : p.Sound) : (p.top : Rat) ≤ p.span + Scalar.tolerance :=
  Nat.floor_le (add_nonneg h.span_nonneg Scalar.tolerance_pos.le)

theorem wholeSteps_eq (h : p.Sound) : p.wholeSteps.toNat = p.top := by
  have hc : p.top + 1 < 2 ^ 64 := h.countable
  rw [toNat_wholeSteps]
  omega

theorem topStep_eq (h : p.Sound) : p.topStep = p.top :=
  congrArg Nat.cast h.wholeSteps_eq

theorem point_le_iff (h : p.Sound) {k : Nat} {t : Rat} :
    p.point k ≤ p.max + t * p.step ↔ k ≤ p.span + t :=
  Parameter.point_le_iff h.step_pos

theorem min_le_point (h : p.Sound) (k : Nat) : p.min ≤ p.point k :=
  Parameter.min_le_point h.step_pos k

theorem steps_point (h : p.Sound) (k : Nat) : p.steps (p.point k) = k :=
  steps_above h.step_pos k

theorem abs_sub_point (h : p.Sound) (v : Rat) (k : Nat) :
    |v - p.point k| = |p.steps v - k| * p.step :=
  abs_sub_above h.step_pos v k

theorem snap_eq (h : p.Sound) (v : Rat) : p.snap v = p.point (Scalar.nearest p.top (p.steps v)) := by
  have : p.snap v = p.min + Scalar.clamp (Scalar.roundRat (p.steps v) : Rat) (0 : Nat) p.topStep
      * p.step := rfl
  rw [this, h.topStep_eq, Scalar.clamp_roundRat, point]

theorem snap_onGrid (h : p.Sound) (v : Rat) : p.OnGrid (p.snap v) :=
  ⟨_, Scalar.nearest_le _ _, h.snap_eq v⟩

theorem snap_of_onGrid (h : p.Sound) (hv : p.OnGrid v) : p.snap v = v := by
  obtain ⟨k, hk, rfl⟩ := hv
  rw [h.snap_eq, h.steps_point, Scalar.nearest_natCast hk]

theorem moved_of_set (h : p.Sound) (hq : p.set v = .ok q) : p.Moved q :=
  (set_eq_ok.mp hq).right.right ▸ ⟨h.snap_onGrid v⟩

theorem moved_of_setExact (h : p.Sound) (hq : p.setExact v = .ok q) : p.Moved q :=
  h.moved_of_set (setExact_eq_ok.mp hq).right

-- No grid point is nearer to a value than the one it snaps to.
theorem snap_nearest (h : p.Sound) (v : Rat) (hw : p.OnGrid w) : |v - p.snap v| ≤ |v - w| := by
  obtain ⟨k, hk, rfl⟩ := hw
  rw [h.snap_eq, h.abs_sub_point, h.abs_sub_point]
  exact mul_le_mul_of_nonneg_right (Scalar.abs_sub_nearest_le _ hk) h.step_pos.le

end Sound

-- That `stored` is a grid point of the range, and that none is nearer to `v`.
structure Nearest (p : Parameter Rat) (v stored : Rat) : Prop where
  onGrid : ∃ k : Nat, stored = p.min + k * p.step
  le_max : stored ≤ p.max
  nearest : ∀ k : Nat, p.min + k * p.step ≤ p.max →
    |v - stored| ≤ |v - (p.min + k * p.step)|

-- A range that is a whole number of steps long, so that its grid ends where it ends.
structure Whole (p : Parameter Rat) : Prop where
  step_pos : 0 < p.step
  max_eq : ∃ n, n + 1 < 2 ^ 64 ∧ p.max = p.point n

namespace Whole

theorem span_eq_of_max (h : p.Whole) {n : Nat} (hn : p.max = p.point n) : p.span = n := by
  have hs := h.step_pos.ne'
  rw [span, hn, point]
  field_simp
  ring

theorem top_eq (h : p.Whole) {n : Nat} (hn : p.max = p.point n) : p.top = n := by
  have ht := Scalar.tolerance_pos
  rw [top, h.span_eq_of_max hn, Nat.floor_eq_iff (by positivity)]
  exact ⟨by linarith, by linarith [Scalar.tolerance_lt_one]⟩

theorem span_eq (h : p.Whole) : p.span = p.top := by
  obtain ⟨n, -, hn⟩ := h.max_eq
  rw [h.span_eq_of_max hn, h.top_eq hn]

theorem sound (h : p.Whole) : p.Sound := by
  obtain ⟨n, hn, hm⟩ := h.max_eq
  exact ⟨hm ▸ le_add_of_nonneg_right (mul_nonneg (Nat.cast_nonneg n) h.step_pos.le), h.step_pos,
    by rwa [Countable, h.top_eq hm]⟩

theorem onGrid_iff (h : p.Whole) : p.OnGrid v ↔ ∃ k : Nat, v = p.point k ∧ v ≤ p.max := by
  obtain ⟨n, -, hm⟩ := h.max_eq
  have hk (k : Nat) : p.point k ≤ p.max ↔ k ≤ p.top := by
    rw [hm, h.top_eq hm, point, point, add_le_add_iff_left, mul_le_mul_iff_left₀ h.step_pos,
      Nat.cast_le]
  constructor
  case mp =>
    rintro ⟨k, hk', rfl⟩
    exact ⟨k, rfl, (hk k).mpr hk'⟩
  case mpr =>
    rintro ⟨k, rfl, hk'⟩
    exact ⟨k, (hk k).mp hk', rfl⟩

theorem inRange (h : p.Whole) (hv : p.OnGrid v) : p.min ≤ v ∧ v ≤ p.max := by
  obtain ⟨k, rfl, hk⟩ := h.onGrid_iff.mp hv
  exact ⟨h.sound.min_le_point k, hk⟩

theorem accepts_of_onGrid (h : p.Whole) (hv : p.OnGrid v) : p.accepts v := by
  have ⟨hl, hm⟩ := h.inRange hv
  obtain ⟨k, -, rfl⟩ := hv
  have ht := Scalar.tolerance_pos
  refine accepts_iff.mpr ⟨⟨by linarith, by linarith⟩, ?_⟩
  rw [h.sound.steps_point]
  exact Scalar.passes_intCast k

theorem setExact_eq (h : p.Whole) (hv : p.OnGrid v) : p.setExact v = .ok { p with value := v } :=
  setExact_eq_ok.mpr ⟨h.accepts_of_onGrid hv,
    set_eq_ok.mpr ⟨h.inRange hv, h.sound.countable, by rw [h.sound.snap_of_onGrid hv]⟩⟩

-- A value on the grid is taken as it is for a start.
theorem ofRange_eq (h : p.Whole) (hv : p.OnGrid v) :
    ofRange p.id p.min p.max p.step v = .ok { p with value := v, default := v, unit := .none } := by
  have ⟨hl, hm⟩ := h.inRange hv
  have hs : snap { p with value := p.min, default := p.min, unit := .none } v = v :=
    h.sound.snap_of_onGrid hv
  exact ofRange_eq_ok.mpr ⟨hl.trans hm, h.step_pos, _,
    set_eq_ok.mpr ⟨⟨hl, hm⟩, h.sound.countable, rfl⟩, by simp only [hs]⟩

theorem withUnit (h : p.Whole) (unit : DisplayUnit) : (p.withUnit unit).Whole :=
  ⟨h.step_pos, h.max_eq⟩

theorem nearest_snap (h : p.Whole) (v : Rat) : p.Nearest v (p.snap v) := by
  obtain ⟨k, hk, hm⟩ := h.onGrid_iff.mp (h.sound.snap_onGrid v)
  exact ⟨⟨k, hk⟩, hm, fun k hk => h.sound.snap_nearest v (h.onGrid_iff.mpr ⟨k, rfl, hk⟩)⟩

-- The grid does not depend on the value.
theorem of_moved (h : p.Whole) (hm : p.Moved q) : q.Whole ∧ q.OnGrid q.value := by
  obtain ⟨hv⟩ := hm
  exact ⟨⟨h.step_pos, h.max_eq⟩, hv⟩

end Whole

end Parameter

end RadioSpectrum
