import RadioSpectrum.Proofs.Spectrum.Magnitudes

namespace RadioSpectrum

section Shift

variable {β : Type} {bins : List β} {n j p : Nat}

-- That shifting `n` bins takes the one at `j` to `p`.
def Moves (n j p : Nat) : Prop :=
  p < n ∧ ∀ {β : Type} (bins : List β), bins.length = n → (fftShift bins)[p]? = bins[j]?

theorem getElem?_fftShift (hj : j < bins.length) :
    (fftShift bins)[(j + bins.length / 2) % bins.length]? = bins[j]? := by
  have hd : (bins.drop (bins.length - bins.length / 2)).length = bins.length / 2 := by
    rw [List.length_drop]
    omega
  unfold fftShift
  rcases lt_or_ge (j + bins.length / 2) bins.length with hw | hw
  case inl =>
    rw [Nat.mod_eq_of_lt hw, List.getElem?_append_right (by omega), hd, Nat.add_sub_cancel,
      List.getElem?_take_of_lt (by omega)]
  case inr =>
    rw [Nat.mod_eq_sub_mod hw, Nat.mod_eq_of_lt (by omega), List.getElem?_append_left (by omega),
      List.getElem?_drop]
    congr 1
    omega

theorem moves_iff : Moves n j p ↔ j < n ∧ p = (j + n / 2) % n := by
  constructor
  case mp =>
    rintro ⟨hp, hm⟩
    -- Something is moved to `p`, and in a list without repetition nothing else can be there.
    obtain ⟨i, hi, rfl⟩ : ∃ i < n, p = (i + n / 2) % n := by
      refine ⟨(p + (n - n / 2)) % n, Nat.mod_lt _ (by omega), ?_⟩
      rw [Nat.mod_add_mod, Nat.add_assoc, Nat.sub_add_cancel (Nat.div_le_self n 2),
        Nat.add_mod_right, Nat.mod_eq_of_lt hp]
    have hl : i < (List.range n).length := by rwa [List.length_range]
    have hg := getElem?_fftShift hl
    rw [List.length_range, hm _ List.length_range, List.getElem?_range hi] at hg
    obtain ⟨hj, hij⟩ := List.getElem?_eq_some_iff.mp hg
    rw [List.getElem_range] at hij
    exact ⟨hij ▸ hi, by rw [hij]⟩
  case mpr =>
    rintro ⟨hj, rfl⟩
    exact ⟨Nat.mod_lt _ (by omega), fun bins hb => by subst hb; exact getElem?_fftShift hj⟩

-- Two halves of the same length change places.
theorem fftShift_fftShift (he : bins.length % 2 = 0) : fftShift (fftShift bins) = bins := by
  have hk : bins.length - bins.length / 2 = bins.length / 2 := by omega
  have hd : (bins.drop (bins.length / 2)).length = bins.length / 2 := by
    rw [List.length_drop, hk]
  have hf : fftShift bins = bins.drop (bins.length / 2) ++ bins.take (bins.length / 2) := by
    rw [fftShift, hk]
  rw [fftShift, SpectrumBlock.length_fftShift, hk, hf, List.drop_left' hd, List.take_left' hd,
    List.take_append_drop]

end Shift

namespace SpectrumConfig

variable {c : SpectrumConfig} {rate : Rat} {j p : Nat}

-- The settings for pairs of samples, with the bins shifted or in the order of the transform.
def paired (c : SpectrumConfig) (shifted : Bool) : SpectrumConfig :=
  { c with format := .interleavedIq, fftShift := shifted }

def oneSided (c : SpectrumConfig) : SpectrumConfig :=
  { c with format := .real }

section Offsets

theorem binOffset_oneSided (c : SpectrumConfig) (p : Nat) (rate : Rat) :
    c.oneSided.binOffset p rate = p * (rate / c.fftSize) :=
  rfl

theorem binOffset_shifted (c : SpectrumConfig) (p : Nat) (rate : Rat) :
    (c.paired true).binOffset p rate = (p - (c.fftSize / 2 : Nat)) * (rate / c.fftSize) :=
  rfl

theorem binOffset_unshifted (c : SpectrumConfig) (j : Nat) (rate : Rat) :
    (c.paired false).binOffset j rate =
      (if j < c.fftSize / 2 then (j : Rat) else j - c.fftSize) * (rate / c.fftSize) :=
  rfl

variable (he : c.fftSize % 2 = 0)
include he

theorem natCast_half : ((c.fftSize / 2 : Nat) : Rat) = c.fftSize / 2 :=
  Nat.cast_div (Nat.dvd_of_mod_eq_zero he) two_ne_zero

-- The frequency goes along with the bin.
theorem binOffset_of_moves (hm : Moves c.fftSize j p) (rate : Rat) :
    (c.paired true).binOffset p rate = (c.paired false).binOffset j rate := by
  obtain ⟨hj, rfl⟩ := moves_iff.mp hm
  have hn := natCast_half he
  rw [binOffset_shifted, binOffset_unshifted]
  congr 1
  split
  case isTrue hl =>
    rw [Nat.mod_eq_of_lt (by omega)]
    push_cast
    ring
  case isFalse hl =>
    have hw : (j + c.fftSize / 2) % c.fftSize + c.fftSize = j + c.fftSize / 2 := by
      rw [Nat.mod_eq_sub_mod (by omega), Nat.mod_eq_of_lt (by omega)]
      omega
    have hw : (((j + c.fftSize / 2) % c.fftSize : Nat) : Rat) + c.fftSize =
        j + (c.fftSize / 2 : Nat) := by
      exact_mod_cast hw
    linarith

end Offsets

-- That the frequencies of the bins rise in even steps from half the rate below the middle up to one
-- step from half the rate above it.
structure Centred (c : SpectrumConfig) (rate : Rat) : Prop where
  increasing : ∀ p q, p < q → q < c.fftSize → c.binOffset p rate < c.binOffset q rate
  spacing    : ∀ p, p + 1 < c.fftSize →
    c.binOffset (p + 1) rate - c.binOffset p rate = rate / c.fftSize
  inRange    : ∀ p < c.fftSize, -(rate / 2) ≤ c.binOffset p rate ∧ c.binOffset p rate < rate / 2
  least      : 0 < c.fftSize → c.binOffset 0 rate = -(rate / 2)
  greatest   : 0 < c.fftSize → c.binOffset (c.fftSize - 1) rate = rate / 2 - rate / c.fftSize
  centre     : c.binOffset (c.fftSize / 2) rate = 0

-- That they rise from zero to half the rate.
structure Rising (c : SpectrumConfig) (rate : Rat) : Prop where
  count      : c.binCount = c.fftSize / 2 + 1
  increasing : ∀ p q, p < q → q < c.binCount → c.binOffset p rate < c.binOffset q rate
  least      : c.binOffset 0 rate = 0
  greatest   : 0 < c.fftSize → c.binOffset (c.fftSize / 2) rate = rate / 2

section Ranges

theorem mul_width (rate : Rat) (hn : 0 < c.fftSize) : c.fftSize * (rate / c.fftSize) = rate :=
  mul_div_cancel₀ rate (Nat.cast_ne_zero.mpr hn.ne')

theorem width_pos (hr : 0 < rate) (hn : 0 < c.fftSize) : 0 < rate / c.fftSize :=
  div_pos hr (Nat.cast_pos.mpr hn)

variable (he : c.fftSize % 2 = 0)
include he

theorem half_mul_width (rate : Rat) (hn : 0 < c.fftSize) :
    ((c.fftSize / 2 : Nat) : Rat) * (rate / c.fftSize) = rate / 2 := by
  rw [natCast_half he, div_mul_eq_mul_div, mul_width rate hn]

-- The bins follow each other from half the rate below the middle on.
theorem binOffset_shifted_eq (p : Nat) (rate : Rat) (hn : 0 < c.fftSize) :
    (c.paired true).binOffset p rate = p * (rate / c.fftSize) - rate / 2 := by
  rw [binOffset_shifted, sub_mul, half_mul_width he rate hn]

theorem centred_paired (hr : 0 < rate) : (c.paired true).Centred rate where
  increasing p q hpq hq := by
    have hn : 0 < c.fftSize := Nat.zero_lt_of_lt hq
    rw [binOffset_shifted_eq he p rate hn, binOffset_shifted_eq he q rate hn]
    exact sub_lt_sub_right (mul_lt_mul_of_pos_right (Nat.cast_lt.mpr hpq) (width_pos hr hn)) _
  spacing p hp := by
    have hn : 0 < c.fftSize := Nat.zero_lt_of_lt hp
    rw [binOffset_shifted_eq he _ rate hn, binOffset_shifted_eq he p rate hn, Nat.cast_succ]
    change _ = rate / c.fftSize
    ring
  inRange p hp := by
    have hn : 0 < c.fftSize := Nat.zero_lt_of_lt hp
    have hl : 0 ≤ p * (rate / c.fftSize) := mul_nonneg (Nat.cast_nonneg p) (width_pos hr hn).le
    have hg : p * (rate / c.fftSize) < rate :=
      (mul_lt_mul_of_pos_right (Nat.cast_lt.mpr hp) (width_pos hr hn)).trans_eq (mul_width rate hn)
    rw [binOffset_shifted_eq he p rate hn]
    constructor <;> linarith
  least hn := by
    rw [binOffset_shifted_eq he 0 rate hn, Nat.cast_zero, zero_mul, zero_sub]
  greatest hn := by
    have hc : (((c.paired true).fftSize - 1 : Nat) : Rat) = c.fftSize - 1 := Nat.cast_pred hn
    have hw : (c.fftSize : Rat) * (rate / c.fftSize) = rate := mul_width rate hn
    rw [binOffset_shifted_eq he _ rate hn, hc, sub_mul, one_mul, hw]
    change _ = rate / 2 - rate / c.fftSize
    ring
  centre := by
    change ((c.fftSize / 2 : Nat) - (c.fftSize / 2 : Nat) : Rat) * _ = 0
    rw [sub_self, zero_mul]

theorem rising_oneSided (hr : 0 < rate) : c.oneSided.Rising rate where
  count := rfl
  increasing p q hpq hq := by
    change q < c.fftSize / 2 + 1 at hq
    rw [binOffset_oneSided, binOffset_oneSided]
    exact mul_lt_mul_of_pos_right (Nat.cast_lt.mpr hpq) (width_pos hr (by omega))
  least := by rw [binOffset_oneSided, Nat.cast_zero, zero_mul]
  greatest hn := by
    rw [binOffset_oneSided]
    exact half_mul_width he rate hn

end Ranges

end SpectrumConfig

namespace SpectrumBlock

variable {α : Type} {c : SpectrumConfig} {b : SpectrumBlock} {window : List Int8}
variable {bins : List Float32}

-- Of the same window, the block gives the same bins when it shifts them, in the other order.
theorem compute_of_unshifted (hc : b.config = c.paired false)
    (hb : (b.compute (α := α) window).1 = .ok bins) :
    (compute (α := α) { b with config := c.paired true } window).1 = .ok (fftShift bins) := by
  obtain ⟨_, kernel, coefficients, scratch⟩ := b
  obtain rfl : _ = c.paired false := hc
  unfold compute at hb ⊢
  split at hb
  case h_1 => contradiction
  case h_2 hw =>
    have hw : Transform.checkWindow (α := α) (c.paired true).windowLength window = .ok () := hw
    obtain ⟨⟨⟩, hm, rfl⟩ := map_eq_ok.mp hb
    simp only [hw]
    refine map_eq_ok.mpr ⟨⟨⟩, checkMagnitudes_eq_ok.mpr fun x hx => ?_, rfl⟩
    exact checkMagnitudes_eq_ok.mp hm x (mem_fftShift.mp hx)

-- Each bin keeps its frequency when the bins are shifted, and the block that shifts them does
-- nothing else to them. Shifted bins rise from half the rate below the middle, with the middle at
-- zero; those of real samples rise from zero to half the rate. Shifting again restores the order. A
-- transform of no points has no frequencies, but one bin where the samples are real.
theorem labels_follow_bins (c : SpectrumConfig) (he : c.fftSize % 2 = 0) {rate : Rat}
    (hr : 0 < rate) :
    (∀ j < c.fftSize, ∃! p, Moves c.fftSize j p) ∧
    (∀ j p, Moves c.fftSize j p →
      (c.paired true).binOffset p rate = (c.paired false).binOffset j rate) ∧
    (c.paired true).Centred rate ∧ c.oneSided.Rising rate ∧
    (∀ (b : SpectrumBlock) window bins, b.config = c.paired false →
      (b.compute (α := Rat) window).1 = .ok bins →
      (compute (α := Rat) { b with config := c.paired true } window).1 =
        .ok (fftShift bins)) ∧
    ∀ {β : Type} (bins : List β), bins.length % 2 = 0 → fftShift (fftShift bins) = bins := by
  refine ⟨fun j hj => ?_, fun j p hm => SpectrumConfig.binOffset_of_moves he hm rate,
    SpectrumConfig.centred_paired he hr, SpectrumConfig.rising_oneSided he hr,
    fun b window bins => compute_of_unshifted, fun bins => fftShift_fftShift⟩
  exact ⟨_, moves_iff.mpr ⟨hj, rfl⟩, fun p hp => (moves_iff.mp hp).right⟩

def eight : SpectrumConfig := { fftSize := 8 }

theorem labels_follow_bins_eight :
    eight.fftSize % 2 = 0 ∧ (0 : Rat) < 8 ∧ Moves eight.fftSize 7 3 ∧
    (eight.paired false).binOffset 7 (8 : Rat) = -1 ∧
    (eight.paired true).binOffset 3 (8 : Rat) = -1 ∧
    (eight.paired true).Centred (8 : Rat) ∧ eight.oneSided.Rising (8 : Rat) := by
  have hm : Moves eight.fftSize 7 3 := moves_iff.mpr ⟨by decide, by decide⟩
  have ho : (eight.paired false).binOffset 7 (8 : Rat) = -1 := by
    norm_num [SpectrumConfig.binOffset_unshifted, eight]
  obtain ⟨-, hl, hc, hr, -⟩ := labels_follow_bins eight (by decide) (by norm_num : (0 : Rat) < 8)
  exact ⟨rfl, by norm_num, hm, ho, (hl 7 3 hm).trans ho, hc, hr⟩

end SpectrumBlock

end RadioSpectrum
