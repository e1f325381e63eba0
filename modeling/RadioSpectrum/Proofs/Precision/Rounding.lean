import Mathlib
import RadioSpectrum.Spectrum.Precision

namespace RadioSpectrum

namespace Precision

open Float.Model (Format UnpackedFloat totalExponent)
open Float.Model.UnpackedFloat

variable {format : Format} {s : Sign} {u v : UnpackedFloat} {m n : Nat} {e j k target : Int}

-- A number of a format whose distance from zero is less than `2 ^ bound`.
inductive Below (format : Format) (bound : Int) : UnpackedFloat → Prop
  | zero {sign} : Below format bound (.zero sign)
  | finite {sign mantissa exponent pos} (fits : mantissa < 2 ^ format.mantissaBits)
    (least : format.minExponent ≤ exponent) (greatest : exponent + format.mantissaBits ≤ bound) :
    Below format bound (.finite sign mantissa exponent pos)

-- There is no sign in front of the number, unless it is zero.
inductive NonNegative : UnpackedFloat → Prop
  | notANumber : NonNegative .notANumber
  | infinity : NonNegative (.infinity .positive)
  | zero {sign} : NonNegative (.zero sign)
  | finite {mantissa exponent pos} : NonNegative (.finite .positive mantissa exponent pos)

theorem Below.mono (h : Below format j u) (hjk : j ≤ k) : Below format k u := by
  cases h
  case zero            => exact .zero
  case finite hm hl hg => exact .finite hm hl (hg.trans hjk)

section Shifts

theorem mantissaBits_pos (format : Format) : 0 < format.mantissaBits :=
  Nat.add_pos_left Nat.one_pos _

theorem log2_lt_of_lt_two_pow (hn : 0 < n) (h : m < 2 ^ n) : m.log2 < n := by
  by_cases hm : m = 0
  · simpa [hm] using hn
  · exact (Nat.log2_lt hm).mpr h

theorem log2_shiftLeft_le (m n : Nat) : (m <<< n).log2 ≤ m.log2 + n := by
  refine Nat.le_of_lt_succ (log2_lt_of_lt_two_pow (Nat.succ_pos _) ?_)
  rw [Nat.shiftLeft_eq, Nat.succ_eq_add_one, Nat.add_right_comm, Nat.pow_add]
  exact Nat.mul_lt_mul_of_pos_right Nat.lt_log2_self (Nat.two_pow_pos n)

theorem two_mul_log2_sqrt_le (m : Nat) : 2 * m.sqrt.log2 ≤ m.log2 := by
  by_cases hr : m.sqrt = 0
  · simp [hr]
  · have hs := Nat.log2_self_le hr
    have hm : m ≠ 0 := fun h => hr (by rw [h]; rfl)
    rw [Nat.le_log2 hm, Nat.two_mul, Nat.pow_add]
    exact (Nat.mul_le_mul hs hs).trans (Nat.sqrt_le m)

theorem mantissa_shiftRight (em : ExtendedMantissa) (n : Nat) :
    (em >>> n).mantissa = em.mantissa / 2 ^ n := by
  change (n.repeat ExtendedMantissa.shiftRightOne em).mantissa = _
  induction n
  case zero      => simp [Nat.repeat]
  case succ n hi =>
    rw [Nat.repeat, ExtendedMantissa.shiftRightOne, hi, Nat.div_div_eq_div_mul, Nat.pow_succ]

theorem mantissa_ofMantissaAndAccuracy (m : Nat) (a : Accuracy) :
    (ExtendedMantissa.ofMantissaAndAccuracy m a).mantissa = m := by
  cases a
  case exact     => rfl
  case inexact o => cases o <;> rfl

theorem roundedMantissa_le (em : ExtendedMantissa) : em.roundedMantissa ≤ em.mantissa + 1 := by
  obtain ⟨m, round, sticky⟩ := em
  have := Nat.mod_lt m Nat.two_pos
  cases round <;> cases sticky <;> simp only [ExtendedMantissa.roundedMantissa,
    ExtendedMantissa.accuracy, Accuracy.roundToNearestEven] <;> omega

theorem shiftToTargetExponent_snd (format : Format) (m : Nat) (e : Int) (a : Accuracy) :
    (shiftToTargetExponent format m e a).2 = max e (format.targetExponent (totalExponent m e)) := by
  simp only [shiftToTargetExponent, shiftToExponent]
  omega

-- The shift drops the digits for which the format has no room.
theorem shiftToTargetExponent_fst_lt (format : Format) (m : Nat) (e : Int) (a : Accuracy) :
    (shiftToTargetExponent format m e a).1.mantissa < 2 ^ format.mantissaBits := by
  simp only [shiftToTargetExponent, shiftToExponent, mantissa_shiftRight,
    mantissa_ofMantissaAndAccuracy]
  rw [Nat.div_lt_iff_lt_mul (Nat.two_pow_pos _), ← Nat.pow_add]
  refine Nat.lt_log2_self.trans_le (Nat.pow_le_pow_right Nat.two_pos ?_)
  simp only [Format.targetExponent, totalExponent]
  omega

theorem decreaseExponent_snd (m : Nat) (e target : Int) :
    (decreaseExponent m e target).2 = min e target := by
  simp only [decreaseExponent]
  omega

theorem totalExponent_decreaseExponent_le (m : Nat) (e target : Int) :
    totalExponent (decreaseExponent m e target).1 (decreaseExponent m e target).2 ≤
      totalExponent m e := by
  have := log2_shiftLeft_le m (e - target).toNat
  simp only [decreaseExponent, totalExponent]
  omega

theorem decreaseExponent_fst_lt (hm : m < 2 ^ n) (he : e + n ≤ k) (ht : target ≤ e) :
    (decreaseExponent m e target).1 < 2 ^ (k - target).toNat := by
  simp only [decreaseExponent, Nat.shiftLeft_eq]
  refine (Nat.mul_lt_mul_of_pos_right hm (Nat.two_pow_pos _)).trans_le ?_
  rw [← Nat.pow_add]
  exact Nat.pow_le_pow_right Nat.two_pos (by omega)

end Shifts

section Rounding

-- Rounding may carry into one more digit, but not into two.
theorem below_roundWithAccuracy (a : Accuracy) (he : e + format.mantissaBits ≤ k)
    (ht : totalExponent m e ≤ k) (hk : format.minExponent + format.mantissaBits ≤ k) :
    Below format (k + 1) (roundWithAccuracy format s m e a) := by
  unfold roundWithAccuracy
  have hm := shiftToTargetExponent_fst_lt format m e a
  have hs := shiftToTargetExponent_snd format m e a
  generalize shiftToTargetExponent format m e a = shifted at hm hs
  obtain ⟨em, e'⟩ := shifted
  have hs' := shiftToTargetExponent_snd format em.roundedMantissa e' .exact
  dsimp only at hm hs hs' ⊢
  have hr : em.roundedMantissa.log2 ≤ format.mantissaBits := by
    refine Nat.le_of_lt_succ (log2_lt_of_lt_two_pow (Nat.succ_pos _) ?_)
    have := roundedMantissa_le em
    rw [Nat.pow_succ]
    omega
  simp only [Format.targetExponent, totalExponent] at hs hs' ht
  split
  case isTrue  => exact .zero
  case isFalse => exact .finite (shiftToTargetExponent_fst_lt ..) (by omega) (by omega)

theorem below_round (ht : totalExponent m e ≤ k)
    (hk : format.minExponent + format.mantissaBits ≤ k) :
    Below format (k + 1) (round format s m e) := by
  have hs := decreaseExponent_snd m e (format.targetExponent (totalExponent m e))
  have hd := totalExponent_decreaseExponent_le m e (format.targetExponent (totalExponent m e))
  refine below_roundWithAccuracy _ ?_ (hd.trans ht) hk
  simp only [Format.targetExponent] at hs
  dsimp only [Format.targetExponent]
  omega

theorem below_normalize {m : Int} (hm : m.natAbs < 2 ^ n) (hn : n + e ≤ k)
    (hk : format.minExponent + format.mantissaBits ≤ k) :
    Below format (k + 1) (UnpackedFloat.normalize format m e s) := by
  have ht {m' : Nat} (hp : 0 < m') (h : m' = m.natAbs) : totalExponent m' e ≤ k := by
    have := (Nat.log2_lt hp.ne').mpr (h ▸ hm)
    simp only [totalExponent]
    omega
  unfold UnpackedFloat.normalize
  split
  case h_1 h =>
    have := Int.compare_eq_lt.mp h
    exact below_round (ht (by omega) (by omega)) hk
  case h_2   => exact .zero
  case h_3 h =>
    have := Int.compare_eq_gt.mp h
    exact below_round (ht (by omega) (by omega)) hk

theorem nonNegative_roundWithAccuracy (format : Format) (m : Nat) (e : Int) (a : Accuracy) :
    NonNegative (roundWithAccuracy format .positive m e a) := by
  unfold roundWithAccuracy
  dsimp only
  split
  case isTrue  => exact .zero
  case isFalse => exact .finite

theorem nonNegative_normalize {m : Int} (hm : 0 ≤ m) (format : Format) (e : Int) (s : Sign) :
    NonNegative (UnpackedFloat.normalize format m e s) := by
  unfold UnpackedFloat.normalize
  split
  case h_1 h => exact absurd (Int.compare_eq_lt.mp h) (Int.not_lt.mpr hm)
  case h_2   => exact .zero
  case h_3   => exact nonNegative_roundWithAccuracy ..

theorem Below.reround (format' : Format) (h : Below format k u)
    (hk : format'.minExponent + format'.mantissaBits ≤ k) :
    Below format' (k + 1) (reround format' u) := by
  cases h
  case zero => exact .zero
  case finite hm hl hg =>
    have := log2_lt_of_lt_two_pow (mantissaBits_pos format) hm
    refine below_round ?_ hk
    simp only [totalExponent]
    omega

theorem NonNegative.reround (h : NonNegative u) (format : Format) :
    NonNegative (reround format u) := by
  cases h
  case notANumber => exact .notANumber
  case infinity   => exact .infinity
  case zero       => exact .zero
  case finite     => exact nonNegative_roundWithAccuracy ..

end Rounding

section Arithmetic

theorem natAbs_apply (s : Sign) (i : Int) : (s.apply i).natAbs = i.natAbs := by
  cases s
  case negative => exact Int.natAbs_neg i
  case positive => rfl

theorem Below.mul (hu : Below format j u) (hv : Below format k v)
    (hjk : format.minExponent + format.mantissaBits ≤ j + k) :
    Below format (j + k + 1) (mul format u v) := by
  cases hu <;> cases hv <;> try exact .zero
  case finite.finite m₁ e₁ _ hm₁ _ hg₁ _ m₂ e₂ _ hm₂ _ hg₂ =>
    have hm : m₁ * m₂ < 2 ^ (format.mantissaBits + format.mantissaBits) := by
      rw [Nat.pow_add]
      exact Nat.mul_lt_mul'' hm₁ hm₂
    have hp := mantissaBits_pos format
    have := log2_lt_of_lt_two_pow (Nat.add_pos_left hp _) hm
    refine below_roundWithAccuracy _ (by omega) ?_ hjk
    simp only [totalExponent]
    omega

theorem nonNegative_mul_self (format : Format) (u : UnpackedFloat) :
    NonNegative (mul format u u) := by
  cases u
  case notANumber   => exact .notANumber
  case infinity s   => cases s <;> exact .infinity
  case zero         => exact .zero
  case finite s _ _ _ => cases s <;> exact nonNegative_roundWithAccuracy ..

-- Both numbers are shifted to the smaller exponent, where they are whole.
theorem below_normalize_of_below {m₁ m₂ : Nat} {e₁ e₂ i : Int} (hm₁ : m₁ < 2 ^ n)
    (hm₂ : m₂ < 2 ^ n) (he₁ : e₁ + n ≤ k) (he₂ : e₂ + n ≤ k)
    (hk : format.minExponent + format.mantissaBits ≤ k)
    (hi : i.natAbs ≤ (decreaseExponent m₁ e₁ (min e₁ e₂)).1 +
      (decreaseExponent m₂ e₂ (min e₁ e₂)).1) :
    Below format (k + 2) (UnpackedFloat.normalize format i (min e₁ e₂) s) := by
  have h₁ := decreaseExponent_fst_lt hm₁ he₁ (Int.min_le_left e₁ e₂)
  have h₂ := decreaseExponent_fst_lt hm₂ he₂ (Int.min_le_right e₁ e₂)
  have hm : i.natAbs < 2 ^ ((k - min e₁ e₂).toNat + 1) := by
    rw [Nat.pow_succ]
    omega
  exact (below_normalize (k := k + 1) hm (by omega) (by omega)).mono (by omega)

theorem Below.add (hu : Below format k u) (hv : Below format k v)
    (hk : format.minExponent + format.mantissaBits ≤ k) :
    Below format (k + 2) (add format u v) := by
  have hk' : k ≤ k + 2 := by omega
  cases hu <;> cases hv
  case zero.zero => simp only [Float.Model.UnpackedFloat.add]; split <;> exact .zero
  case zero.finite h₁ h₂ h₃ => exact (Below.finite h₁ h₂ h₃).mono hk'
  case finite.zero h₁ h₂ h₃ _ => exact (Below.finite h₁ h₂ h₃).mono hk'
  case finite.finite hm₁ _ hg₁ _ _ _ _ hm₂ _ hg₂ =>
    refine below_normalize_of_below hm₁ hm₂ hg₁ hg₂ hk ((Int.natAbs_add_le ..).trans ?_)
    simp only [natAbs_apply, Int.natAbs_natCast]
    exact Nat.le_refl _

theorem Below.sub (hu : Below format k u) (hv : Below format k v)
    (hk : format.minExponent + format.mantissaBits ≤ k) :
    Below format (k + 2) (sub format u v) := by
  have hk' : k ≤ k + 2 := by omega
  cases hu <;> cases hv
  case zero.zero => simp only [Float.Model.UnpackedFloat.sub]; split <;> exact .zero
  case zero.finite h₁ h₂ h₃ => exact (Below.finite h₁ h₂ h₃).mono hk'
  case finite.zero h₁ h₂ h₃ _ => exact (Below.finite h₁ h₂ h₃).mono hk'
  case finite.finite hm₁ _ hg₁ _ _ _ _ hm₂ _ hg₂ =>
    refine below_normalize_of_below hm₁ hm₂ hg₁ hg₂ hk ((Int.natAbs_sub_le ..).trans ?_)
    simp only [natAbs_apply, Int.natAbs_natCast]
    exact Nat.le_refl _

theorem NonNegative.add (hu : NonNegative u) (hv : NonNegative v) (format : Format) :
    NonNegative (add format u v) := by
  cases hu <;> cases hv
  case zero.zero     => simp only [Float.Model.UnpackedFloat.add]; split <;> exact .zero
  case zero.finite   => exact .finite
  case finite.zero   => exact .finite
  case finite.finite =>
    exact nonNegative_normalize (Int.add_nonneg (Int.natCast_nonneg _) (Int.natCast_nonneg _)) ..
  all_goals first | exact .notANumber | exact .infinity

-- A root has half as many digits.
theorem Below.sqrt (h : Below format k u) (hn : NonNegative u) (hk : k + 1 ≤ 2 * j)
    (hj : format.minExponent + format.mantissaBits ≤ j) :
    Below format (j + 1) (sqrt format u) := by
  cases h
  case zero => exact .zero
  case finite m e _ hm _ hg =>
    cases hn
    case finite =>
      have hb := log2_lt_of_lt_two_pow (mantissaBits_pos format) hm
      have hd (i : Int) : i.ediv 2 = i / 2 := rfl
      simp only [Float.Model.UnpackedFloat.sqrt, sqrtCore, hd]
      generalize ht : min (e / 2) _ = target
      have hs := log2_shiftLeft_le m (e - 2 * target).toNat
      have hr := two_mul_log2_sqrt_le (m <<< (e - 2 * target).toNat)
      simp only [Format.targetExponent, totalExponent] at ht
      refine below_roundWithAccuracy _ (by omega) ?_ hj
      simp only [totalExponent]
      omega

theorem nonNegative_sqrt (format : Format) (u : UnpackedFloat) : NonNegative (sqrt format u) := by
  cases u
  case notANumber => exact .notANumber
  case infinity s => cases s; exacts [.notANumber, .infinity]
  case zero       => exact .zero
  case finite s _ _ _ =>
    cases s
    case negative => exact .notANumber
    case positive => exact nonNegative_roundWithAccuracy ..

end Arithmetic

end Precision

end RadioSpectrum
