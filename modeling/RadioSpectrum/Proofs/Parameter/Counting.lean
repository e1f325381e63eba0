import Mathlib.Data.Set.Card
import Mathlib.Order.Interval.Finset.Nat
import RadioSpectrum.Proofs.Control.Registry
import RadioSpectrum.Proofs.Parameter.Lifetime
import RadioSpectrum.Proofs.Parameter.Tolerance

namespace RadioSpectrum

open Scalar (tolerance)

namespace Parameter

-- The numbers of the points that do not lie above a range by more than the tolerance.
def pointNumbers (min max step : Rat) : Set Nat :=
  {k | min + k * step ≤ max + tolerance * step}

-- That words hold what comes of counting the points, and of taking the first point off the count.
structure CountsSafely (p : Parameter Rat) (count : UInt64) : Prop where
  add : p.wholeSteps.toBitVec.uaddOverflow 1 = false
  sub : count.toBitVec.usubOverflow 1 = false

-- That words count the points of the range, and get them all.
structure CountsPoints (p : Parameter Rat) (min max step : Rat) : Prop where
  range  : p.HasRange min max step
  points : ∃ count, p.stepCount = .ok count ∧ p.CountsSafely count ∧
    count.toNat = (pointNumbers min max step).ncard

variable {p : Parameter Rat} {value min max step : Rat} {id : String}

theorem uaddOverflow_iff : p.wholeSteps.toBitVec.uaddOverflow 1 ↔ ¬p.Countable := by
  have hw := p.toNat_wholeSteps
  rw [BitVec.uaddOverflow, decide_eq_true_iff, Countable]
  change 2 ^ 64 ≤ p.wholeSteps.toNat + 1 ↔ _
  omega

theorem exists_safe_count (h : p.Countable) :
    ∃ count, p.stepCount = .ok count ∧ p.CountsSafely count ∧ count.toNat = p.top + 1 := by
  obtain ⟨count, hc, ht⟩ := stepCount_of_countable h
  have sub : count.toBitVec.usubOverflow 1 = false := by
    rw [BitVec.usubOverflow, decide_eq_false_iff_not]
    change ¬count.toNat < 1
    omega
  exact ⟨count, hc, ⟨Bool.eq_false_iff.mpr fun ho => uaddOverflow_iff.mp ho h, sub⟩, ht⟩

section Range

variable (hm : min ≤ max) (hs : 0 < step)
include hm hs

theorem pointNumbers_eq :
    pointNumbers min max step = Set.Iic ⌊(max - min) / step + tolerance⌋₊ := by
  have hp : 0 ≤ (max - min) / step := div_nonneg (sub_nonneg.mpr hm) hs.le
  ext k
  let p : Parameter Rat := { id := "", value := min, min, max, step, default := min }
  change p.point k ≤ p.max + tolerance * p.step ↔ k ≤ _
  rw [point_le_iff hs, Nat.le_floor_iff (add_nonneg hp Scalar.tolerance_pos.le)]
  rfl

theorem ncard_pointNumbers :
    (pointNumbers min max step).ncard = ⌊(max - min) / step + tolerance⌋₊ + 1 := by
  rw [pointNumbers_eq hm hs, ← Finset.coe_Iic, Set.ncard_coe_finset, Nat.card_Iic]

-- Words count whatever has fewer steps than their greatest number.
theorem ncard_lt_iff :
    (pointNumbers min max step).ncard < 2 ^ 64 ↔ (max - min) / step + tolerance < 2 ^ 64 - 1 := by
  have hp : 0 ≤ (max - min) / step := div_nonneg (sub_nonneg.mpr hm) hs.le
  have hn {n : Nat} : n + 1 < 2 ^ 64 ↔ n < 2 ^ 64 - 1 := by omega
  rw [ncard_pointNumbers hm hs, hn, Nat.floor_lt (add_nonneg hp Scalar.tolerance_pos.le)]
  norm_num

theorem countable_iff (hr : p.HasRange min max step) :
    p.Countable ↔ (pointNumbers min max step).ncard < 2 ^ 64 := by
  obtain ⟨rfl, rfl, rfl⟩ := hr
  rw [ncard_pointNumbers hm hs]
  rfl

theorem counts_of_countable (hr : p.HasRange min max step) (h : p.Countable) :
    p.CountsPoints min max step := by
  obtain ⟨count, hc, safe, ht⟩ := exists_safe_count h
  obtain ⟨rfl, rfl, rfl⟩ := hr
  exact ⟨⟨rfl, rfl, rfl⟩, count, hc, safe, ht.trans (ncard_pointNumbers hm hs).symm⟩

-- A parameter of a range is made unless its points are too many to be counted.
theorem ofRange_decided (id : String) (hv : min ≤ value ∧ value ≤ max) :
    ((∃ p, ofRange id min max step value = .ok p ∧ p.CountsPoints min max step) ↔
      (pointNumbers min max step).ncard < 2 ^ 64) ∧
    (ofRange id min max step value = .error .overflow ↔
      2 ^ 64 ≤ (pointNumbers min max step).ncard) := by
  let fresh : Parameter Rat := { id, value := min, min, max, step, default := min }
  have hc : fresh.Countable ↔ _ := countable_iff hm hs ⟨rfl, rfl, rfl⟩
  by_cases h : fresh.Countable
  case pos =>
    have hp := ofRange_eq_ok.mpr ⟨hm, hs, _, set_eq_ok.mpr ⟨hv, h, rfl⟩, rfl⟩
    have hn := hc.mp h
    refine ⟨iff_of_true ⟨_, hp, counts_of_countable hm hs ⟨rfl, rfl, rfl⟩ h⟩ hn, ?_⟩
    exact iff_of_false (by simp [hp]) (not_le.mpr hn)
  case neg =>
    have hn := mt hc.mpr h
    have hf : fresh.set value = .error .overflow := by
      have ho : ¬(value < fresh.min ∨ fresh.max < value) :=
        not_or.mpr ⟨not_lt.mpr hv.left, not_lt.mpr hv.right⟩
      have finite : ¬(!Scalar.isFinite value) = true := Bool.false_ne_true
      rw [set, if_neg finite, if_neg ho, counted, stepCount_of_not_countable h]
      rfl
    have ho : ofRange id min max step value = .error .overflow := by
      have hs' : ¬step ≤ Scalar.ofNat 0 := not_le.mpr hs
      have finite : ¬(!(Scalar.isFinite min && Scalar.isFinite max && Scalar.isFinite step)) = true :=
        Bool.false_ne_true
      rw [ofRange, if_neg finite, if_neg (not_lt.mpr hm), if_neg hs']
      change fresh.set value >>= _ = _
      rw [hf]
      rfl
    refine ⟨iff_of_false (fun h => ?_) hn, iff_of_true ho (not_lt.mp hn)⟩
    obtain ⟨_, hp, -⟩ := h
    cases ho.symm.trans hp

end Range

end Parameter

namespace Bridge

open Parameter

variable {b b' : Bridge Rat} {id url : String} {fetch : FetchKind} {lo hi step : Rat}
  {unit : DisplayUnit}

-- A picker that got in stands under its name, with a parameter of the range that it was given.
theorem widget?_of_addPicker (h : b.addPicker id url fetch lo hi step unit = .ok b') :
    ∃ p, ofRange id lo hi step lo = .ok p ∧
      b'.widget? id = some { url, kind := .picker fetch, param := p.withUnit unit } := by
  obtain ⟨p, hp, h⟩ := bind_eq_ok.mp h
  have hp := mapError_eq_ok.mp hp
  have hn : Widget.id { url, kind := .picker fetch, param := p.withUnit unit } = id := by
    obtain ⟨v, rfl, -⟩ := eq_of_ofRange hp
    rfl
  have hf {w : Widget Rat} (hw : w.id = id) : [w].find? (·.id = id) = some w := by simp [hw]
  exact ⟨p, hp, by rw [(Extends.of_insert h).lookup id, hf hn, Option.some_or]⟩

theorem addPicker_decided (b b' : Bridge Rat) (id url : String) (fetch : FetchKind)
    (unit : DisplayUnit) (hm : lo ≤ hi) (hs : 0 < step) :
    (b.addPicker id url fetch lo hi step unit = .error .overflow ↔
      2 ^ 64 - 1 ≤ (hi - lo) / step + tolerance) ∧
    (b.addPicker id url fetch lo hi step unit = .ok b' →
      ∃ w, b'.widget? id = some w ∧ w.param.CountsPoints lo hi step) := by
  have ho := (ofRange_decided hm hs id ⟨le_rfl, hm⟩).right
  rw [← not_lt, ncard_lt_iff hm hs, not_lt] at ho
  rw [← ho]
  constructor
  case left =>
    unfold addPicker
    cases hp : ofRange id lo hi step lo
    case error e =>
      cases e
      case overflow => exact iff_of_true rfl rfl
      all_goals exact ⟨nofun, nofun⟩
    case ok p =>
      refine iff_of_false (fun h => ?_) nofun
      cases insert_eq_error.mp h |>.right
  case right =>
    intro h
    obtain ⟨p, hp, hw⟩ := widget?_of_addPicker h
    obtain ⟨hr, -, -⟩ := hasRange_of_ofRange hp
    exact ⟨_, hw, counts_of_countable hm hs ⟨hr.min_eq, hr.max_eq, hr.step_eq⟩
      (sound_of_ofRange hp).countable⟩

end Bridge

namespace Parameter

variable {p : Parameter Rat} {value min max step : Rat} {id : String}

-- A parameter of an orderly range is made, and words count its points rightly, if and only if there
-- are fewer than `2 ^ 64` points. Otherwise the count overflows, as it does for pickers.
theorem counting_decided (id : String) (hm : min ≤ max) (hs : 0 < step)
    (hv : min ≤ value ∧ value ≤ max) :
    1 ≤ (pointNumbers min max step).ncard ∧
    ((pointNumbers min max step).ncard < 2 ^ 64 ↔
      (max - min) / step + tolerance < 2 ^ 64 - 1) ∧
    ((∃ p, ofRange id min max step value = .ok p ∧ p.CountsPoints min max step) ↔
      (pointNumbers min max step).ncard < 2 ^ 64) ∧
    (ofRange id min max step value = .error .overflow ↔
      2 ^ 64 ≤ (pointNumbers min max step).ncard) ∧
    ∀ (b b' : Bridge Rat) (name url : String) (lo hi : Rat), lo ≤ hi →
      ((b.addFreq name url lo hi = .error .overflow ↔ 2 ^ 64 - 1 ≤ hi - lo + tolerance) ∧
        (b.addFreq name url lo hi = .ok b' →
          ∃ w, b'.widget? name = some w ∧ w.param.CountsPoints lo hi 1)) ∧
      ((b.addTime name url lo hi = .error .overflow ↔
          2 ^ 64 - 1 ≤ (hi - lo) * 1000 + tolerance) ∧
        (b.addTime name url lo hi = .ok b' →
          ∃ w, b'.widget? name = some w ∧ w.param.CountsPoints lo hi (1 / 1000))) := by
  obtain ⟨hc, ho⟩ := ofRange_decided hm hs id hv
  refine ⟨?_, ncard_lt_iff hm hs, hc, ho, ?_⟩
  case refine_1 =>
    rw [ncard_pointNumbers hm hs]
    exact Nat.le_add_left 1 _
  case refine_2 =>
    intro b b' name url lo hi hl
    have h₁ : (Scalar.ofNat 1 : Rat) = 1 := Nat.cast_one
    have h₂ : (1e-3 : Rat) = 1 / 1000 := by norm_num
    have hf := Bridge.addPicker_decided b b' name url .freq .hertz hl one_pos
    have ht := Bridge.addPicker_decided b b' name url .time .seconds hl
      (by norm_num : (0 : Rat) < 1 / 1000)
    rw [div_one] at hf
    rw [div_div_eq_mul_div, div_one] at ht
    rw [Bridge.addFreq, Bridge.addTime, h₁, h₂]
    exact ⟨hf, ht⟩

section Vast

-- A range with two points more than words count.
def vast : Parameter Rat where
  id := "span"
  value := 0
  min := 0
  max := 2 ^ 64
  step := 1
  default := 0

theorem ncard_vast : (pointNumbers 0 (2 ^ 64) 1).ncard = 2 ^ 64 + 1 := by
  have hq : (2 ^ 64 - 0) / 1 + tolerance = tolerance + ((2 ^ 64 : Nat) : Rat) := by
    norm_num [add_comm]
  rw [ncard_pointNumbers (by norm_num) one_pos, hq, Nat.floor_add_natCast
    Scalar.tolerance_pos.le, Nat.floor_eq_zero.mpr Scalar.tolerance_lt_one, Nat.zero_add]

-- The range is in order, and the parameter is not made: as its points are counted, words overflow.
theorem vast_overflows :
    vast.min ≤ vast.max ∧ 0 < vast.step ∧ vast.wholeSteps.toBitVec.uaddOverflow 1 ∧
      ofRange vast.id vast.min vast.max vast.step vast.value = .error .overflow := by
  have hm : (0 : Rat) ≤ 2 ^ 64 := by norm_num
  have hn : ¬(pointNumbers 0 (2 ^ 64) 1).ncard < 2 ^ 64 := by rw [ncard_vast]; decide
  exact ⟨hm, one_pos, uaddOverflow_iff.mpr (mt (countable_iff hm one_pos ⟨rfl, rfl, rfl⟩).mp hn),
    (ofRange_decided hm one_pos _ ⟨le_rfl, hm⟩).right.mpr (not_lt.mp hn)⟩

-- One point less, and one point more than the greatest word; a picker of as many frequencies.
theorem counting_decided_vast :
    (∃ p, ofRange (α := Rat) "span" 0 (2 ^ 64 - 2) 1 0 = .ok p ∧ p.CountsPoints 0 (2 ^ 64 - 2) 1) ∧
    ofRange (α := Rat) "span" 0 (2 ^ 64 - 1) 1 0 = .error .overflow ∧
    ({} : Bridge Rat).addFreq "span" "" 0 (2 ^ 64 - 1) = .error .overflow := by
  have hm : (0 : Rat) ≤ 2 ^ 64 - 2 := by norm_num
  have hm' : (0 : Rat) ≤ 2 ^ 64 - 1 := by norm_num
  obtain ⟨-, hl, hc, -, -⟩ := counting_decided "span" hm one_pos ⟨le_rfl, hm⟩
  obtain ⟨-, hl', -, ho, hb⟩ := counting_decided "span" hm' one_pos ⟨le_rfl, hm'⟩
  refine ⟨hc.mpr (hl.mpr ?_), ho.mpr (not_lt.mp (mt hl'.mp ?_)),
    (hb {} {} "span" "" 0 (2 ^ 64 - 1) hm').left.left.mpr ?_⟩
  all_goals norm_num [Scalar.tolerance_eq]

end Vast

end Parameter

end RadioSpectrum
