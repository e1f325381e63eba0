import Mathlib.Algebra.Order.Ring.Nat
import RadioSpectrum.Proofs.Except
import RadioSpectrum.Spectrum.Config

namespace RadioSpectrum

namespace SpectrumConfig

-- The settings that pass the checks.
structure Valid (c : SpectrumConfig) : Prop where
  fftSize : ∃ m, (6 ≤ m ∧ m ≤ 16) ∧ c.fftSize = 2 ^ m
  decimation : 1 ≤ c.decimation ∧ c.decimation ≤ 1024

theorem isPowerOfTwo_iff {n : Nat} : isPowerOfTwo n ↔ ∃ m, n = 2 ^ m := by
  unfold isPowerOfTwo
  rw [decide_eq_true_iff]
  constructor
  case mp => exact fun h => ⟨_, h⟩
  case mpr =>
    rintro ⟨m, rfl⟩
    rw [Nat.log2_two_pow]
    rfl

theorem validate_eq_ok {α : Type} [Scalar α] {c : SpectrumConfig} :
    c.validate (α := α) = .ok () ↔ c.Valid := by
  have hp {m : Nat} : (minFftSize ≤ 2 ^ m ∧ 2 ^ m ≤ maxFftSize) ↔ 6 ≤ m ∧ m ≤ 16 :=
    and_congr (Nat.pow_le_pow_iff_right (n := 6) one_lt_two)
      (Nat.pow_le_pow_iff_right (m := 16) one_lt_two)
  unfold validate
  rw [ite_eq_iff, ite_eq_iff]
  simp only [reduceCtorEq, and_false, false_or, not_or, not_lt, and_true, Bool.not_eq_true,
    Bool.not_eq_false', isPowerOfTwo_iff]
  constructor
  case mp =>
    rintro ⟨⟨⟨m, hm⟩, hf⟩, hd⟩
    exact ⟨⟨m, hp.mp (hm ▸ hf), hm⟩, hd⟩
  case mpr =>
    rintro ⟨⟨m, hf, hm⟩, hd⟩
    exact ⟨⟨⟨m, hm⟩, hm ▸ hp.mpr hf⟩, hd⟩

variable {α : Type} [Scalar α] {config next : SpectrumConfig}

theorem fftSize_of_validate (h : config.validate (α := α) = .ok ()) :
    minFftSize ≤ config.fftSize ∧ config.fftSize ≤ maxFftSize := by
  obtain ⟨m, ⟨hl, hg⟩, hf⟩ := (validate_eq_ok.mp h).fftSize
  rw [hf]
  exact ⟨Nat.pow_le_pow_right Nat.two_pos hl, Nat.pow_le_pow_right Nat.two_pos hg⟩

theorem windowLength_pos (h : config.validate (α := α) = .ok ()) : 0 < config.windowLength := by
  have hm : 0 < minFftSize := by decide
  refine Nat.mul_pos (Nat.lt_of_lt_of_le hm (fftSize_of_validate h).left) ?_
  cases config.format <;> decide

theorem decimation_pos (h : config.validate (α := α) = .ok ()) : 0 < config.decimation :=
  (validate_eq_ok.mp h).decimation.left

-- Of real samples not even all points give a bin.
theorem binCount_le_fftSize (h : config.validate (α := α) = .ok ()) :
    config.binCount ≤ config.fftSize := by
  have hm : minFftSize = 64 := rfl
  have := (fftSize_of_validate h).left
  unfold binCount
  cases config.format <;> dsimp only <;> omega

theorem validate_of_withParameter {index} {value : α}
    (h : config.withParameter index value = .ok next) : next.validate (α := α) = .ok () := by
  obtain ⟨table, -, h⟩ := bind_eq_ok.mp h
  split at h
  case h_1 => contradiction
  case h_2 =>
    simp only [bind_eq_ok, pure_eq_ok] at h
    obtain ⟨_, -, _, hv, rfl⟩ := h
    exact hv

end SpectrumConfig

end RadioSpectrum
