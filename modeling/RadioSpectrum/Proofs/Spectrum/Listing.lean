import RadioSpectrum.Proofs.Precision.Whole
import RadioSpectrum.Proofs.Spectrum.Table

namespace RadioSpectrum

namespace Parameter

open Precision

variable {id : String} {lo hi k j : Nat} {unit : DisplayUnit}

-- A parameter that counts from `lo` to `hi`, in double precision.
def tally (id : String) (lo hi k : Nat) (unit : DisplayUnit) : Parameter Float where
  id
  value := Scalar.ofNat k
  min := Scalar.ofNat lo
  max := Scalar.ofNat hi
  step := Scalar.ofNat 1
  default := Scalar.ofNat k
  unit

-- That the tolerance does not add a step to a range of so many.
def Counts (steps : Nat) : Prop :=
  Scalar.toWord (Scalar.floor (Scalar.ofNat steps + Scalar.tolerance : Float)) = .ofNat steps

instance : DecidablePred Counts :=
  fun _ => inferInstanceAs (Decidable (_ = _))

theorem counts_ranges : Counts (16 - 6) ∧ Counts (4 - 0) ∧ Counts (1 - 0) ∧ Counts (1024 - 1) := by
  decide +kernel

variable (h : lo ≤ hi) (hb : hi < 2 ^ 53) (hc : Counts (hi - lo))
include h hb hc

theorem toNat_wholeSteps_tally : (tally id lo hi k unit).wholeSteps.toNat = hi - lo := by
  have hw : hi - lo < UInt64.size := (Nat.sub_le hi lo).trans_lt (hb.trans (by decide))
  simp only [wholeSteps, tally, ofNat_sub h hb, ofNat_div_one ((Nat.sub_le hi lo).trans_lt hb)]
  rw [hc, UInt64.toNat_ofNat_of_lt' hw]

-- Counts in the exact range of doubles do not outgrow words.
theorem counted_tally {β : Type} (x : β) : (tally id lo hi k unit).counted x = .ok x := by
  have hs : (tally id lo hi k unit).wholeSteps.toNat + 1 < UInt64.size := by
    rw [toNat_wholeSteps_tally h hb hc]
    exact (Nat.succ_le_succ (Nat.sub_le hi lo)).trans_lt ((Nat.succ_le_of_lt hb).trans_lt (by decide))
  rw [counted, stepCount, if_pos hs]
  rfl

theorem topStep_tally : (tally id lo hi k unit).topStep = Scalar.ofNat (hi - lo) := by
  rw [topStep, toNat_wholeSteps_tally h hb hc]

theorem snap_tally (hj : lo ≤ j ∧ j ≤ hi) :
    (tally id lo hi k unit).snap (Scalar.ofNat j) = Scalar.ofNat j := by
  have hd : (Scalar.ofNat j - Scalar.ofNat lo : Float) / Scalar.ofNat 1 = Scalar.ofNat (j - lo) := by
    rw [ofNat_sub hj.left (by omega), ofNat_div_one (by omega)]
  have hl : ¬(Scalar.ofNat (j - lo) : Float) < Scalar.ofNat 0 := by
    rw [ofNat_lt_iff (by omega) (by omega)]
    omega
  have hg : ¬(Scalar.ofNat (hi - lo) : Float) < Scalar.ofNat (j - lo) := by
    rw [ofNat_lt_iff (by omega) (by omega)]
    omega
  rw [snap, topStep_tally h hb hc]
  simp only [tally, hd, round_ofNat (show j - lo < 2 ^ 53 by omega), Scalar.clamp, if_neg hl,
    if_neg hg]
  rw [ofNat_mul_one (by omega), ofNat_add (by omega), Nat.add_sub_cancel' hj.left]

-- A count is taken for a start if it lies in the range, and as it is.
theorem ofRange_tally (id : String) (hk : k < 2 ^ 53) :
    ofRange id (Scalar.ofNat lo) (Scalar.ofNat hi) (Scalar.ofNat 1) (Scalar.ofNat k : Float) =
      if lo ≤ k ∧ k ≤ hi then .ok (tally id lo hi k .none)
      else .error (.invalidParameter id (Scalar.ofNat k)
        (.outOfRange (Scalar.ofNat lo) (Scalar.ofNat hi))) := by
  have hl : lo < 2 ^ 53 := h.trans_lt hb
  have hf : ¬(!(Scalar.isFinite (Scalar.ofNat lo : Float) &&
      Scalar.isFinite (Scalar.ofNat hi : Float) && Scalar.isFinite (Scalar.ofNat 1 : Float))) := by
    rw [isFinite_ofNat hl, isFinite_ofNat hb, isFinite_ofNat (by decide)]
    decide
  have hk' : ¬!Scalar.isFinite (Scalar.ofNat k : Float) := by
    rw [isFinite_ofNat hk]
    decide
  have ho : ¬(Scalar.ofNat hi : Float) < Scalar.ofNat lo := by
    rw [ofNat_lt_iff hb hl]
    omega
  have hs : ¬(Scalar.ofNat 1 : Float) ≤ Scalar.ofNat 0 := by decide
  have hr : ((Scalar.ofNat k : Float) < Scalar.ofNat lo ∨
      (Scalar.ofNat hi : Float) < Scalar.ofNat k) ↔ ¬(lo ≤ k ∧ k ≤ hi) := by
    rw [ofNat_lt_iff hk hl, ofNat_lt_iff hb hk]
    omega
  simp only [ofRange, if_neg hf, if_neg ho, if_neg hs, set, if_neg hk', hr]
  by_cases hi' : lo ≤ k ∧ k ≤ hi
  case neg => rw [if_pos hi', if_neg hi']; rfl
  case pos =>
    rw [if_neg (not_not.mpr hi'), if_pos hi']
    have hv : (tally id lo hi lo .none).snap (Scalar.ofNat k) = Scalar.ofNat k :=
      snap_tally h hb hc hi'
    have hn {β : Type} (x : β) : (tally id lo hi lo .none).counted x = .ok x :=
      counted_tally h hb hc x
    simp only [tally] at hv hn ⊢
    simp only [hn, hv]
    rfl

end Parameter

namespace SpectrumConfig

open Parameter

variable {c : SpectrumConfig} {m n : Nat}

theorem trailingZeros_le (n : Nat) : trailingZeros n ≤ 64 := by
  unfold trailingZeros
  cases hf : (List.range 64).find? fun k => n / Nat.pow 2 k % 2 = 1
  case none => exact le_refl 64
  case some => exact (List.mem_range.mp (List.mem_of_find?_eq_some hf)).le

theorem mul_two_pow_div_mod {j : Nat} (h : j < m) (k : Nat) : 2 ^ m * k / 2 ^ j % 2 = 0 := by
  obtain ⟨d, rfl⟩ := Nat.exists_eq_add_of_lt h
  rw [Nat.add_right_comm, Nat.pow_add, Nat.pow_succ, Nat.mul_assoc, Nat.mul_assoc,
    Nat.mul_div_cancel_left _ (Nat.two_pow_pos j), Nat.mul_mod_right]

-- The lowest digit that is set is the lowest one of the odd factor.
theorem trailingZeros_mul_odd (hm : m < 64) (k : Nat) :
    trailingZeros (2 ^ m * (2 * k + 1)) = m := by
  have hf : (List.range 64).find? (fun j => 2 ^ m * (2 * k + 1) / Nat.pow 2 j % 2 = 1) = some m := by
    rw [List.find?_range_eq_some]
    refine ⟨?_, List.mem_range.mpr hm, fun j hj => ?_⟩
    · change decide (2 ^ m * (2 * k + 1) / 2 ^ m % 2 = 1) = true
      rw [Nat.mul_div_cancel_left _ (Nat.two_pow_pos m), decide_eq_true_iff]
      omega
    · change (!decide (2 ^ m * (2 * k + 1) / 2 ^ j % 2 = 1)) = true
      rw [mul_two_pow_div_mod hj]
      rfl
  unfold trailingZeros
  rw [hf]
  rfl

theorem trailingZeros_eq_iff (hm : m < 64) :
    trailingZeros n = m ↔ ∃ k, n = 2 ^ m * (2 * k + 1) := by
  constructor
  case mpr =>
    rintro ⟨k, rfl⟩
    exact trailingZeros_mul_odd hm k
  case mp =>
    rintro rfl
    have hn : n ≠ 0 := by
      rintro rfl
      exact absurd hm (by decide)
    obtain ⟨j, _, ⟨k, rfl⟩, rfl⟩ := Nat.exists_eq_two_pow_mul_odd hn
    rcases lt_or_ge j 64 with hj | hj
    case inl => exact ⟨k, by rw [trailingZeros_mul_odd hj]⟩
    case inr =>
      unfold trailingZeros at hm
      cases hf : (List.range 64).find? fun i => 2 ^ j * (2 * k + 1) / Nat.pow 2 i % 2 = 1
      case none => rw [hf] at hm; contradiction
      case some i =>
        rw [hf, Option.getD_some] at hm
        have hi := List.find?_some hf
        change decide (2 ^ j * (2 * k + 1) / 2 ^ i % 2 = 1) = true at hi
        rw [mul_two_pow_div_mod (Nat.lt_of_lt_of_le hm hj)] at hi
        contradiction

-- That the size is an odd multiple of the power `m` of two, which alone would pass the checks.
structure Listed (c : SpectrumConfig) (m : Nat) : Prop where
  order : 6 ≤ m ∧ m ≤ 16
  size : ∃ k, c.fftSize = 2 ^ m * (2 * k + 1)
  decimation : 1 ≤ c.decimation ∧ c.decimation ≤ 1024

theorem Listed.trailingZeros_eq (h : c.Listed m) : trailingZeros c.fftSize = m :=
  (trailingZeros_eq_iff (h.order.right.trans_lt (by decide))).mpr h.size

-- The table that shows the order `m`.
def listing (c : SpectrumConfig) (m : Nat) : List (Parameter Float) :=
  [ tally "fft_order" 6 16 m .none,
    tally "window" 0 4 c.window.index .choice,
    tally "fft_shift" 0 1 c.fftShift.toNat .toggle,
    tally "decimation" 1 1024 c.decimation .none ]

theorem parameters_eq_ok (hd : c.decimation < 2 ^ 32) {table : List (Parameter Float)} :
    c.parameters = .ok table ↔ ∃ m, c.Listed m ∧ table = c.listing m := by
  have hz : trailingZeros c.fftSize < 2 ^ 53 := (trailingZeros_le _).trans_lt (by decide)
  obtain ⟨co, cw, cs, cd⟩ := counts_ranges
  have ho := ofRange_tally (by decide) (by decide) co "fft_order" hz
  have hw := ofRange_tally (by decide) (by decide) cw "window"
    (c.window.index_le.trans_lt (by decide))
  have hs := ofRange_tally (by decide) (by decide) cs "fft_shift"
    (c.fftShift.toNat_le.trans_lt (by decide))
  have hd := ofRange_tally (by decide) (by decide) cd "decimation" (hd.trans (by decide))
  rw [if_pos ⟨Nat.zero_le _, c.window.index_le⟩] at hw
  rw [if_pos ⟨Nat.zero_le _, c.fftShift.toNat_le⟩] at hs
  simp only [parameters_eq, ho, hw, hs, hd]
  by_cases ho' : 6 ≤ trailingZeros c.fftSize ∧ trailingZeros c.fftSize ≤ 16
  case neg =>
    rw [if_neg ho']
    refine iff_of_false nofun ?_
    rintro ⟨m, hl, -⟩
    exact ho' (hl.trailingZeros_eq ▸ hl.order)
  case pos =>
    rw [if_pos ho']
    by_cases hd' : 1 ≤ c.decimation ∧ c.decimation ≤ 1024
    case neg =>
      rw [if_neg hd']
      exact iff_of_false nofun fun ⟨m, hl, _⟩ => hd' hl.decimation
    case pos =>
      rw [if_pos hd']
      constructor
      case mp =>
        intro ht
        have hl : c.Listed (trailingZeros c.fftSize) :=
          ⟨ho', (trailingZeros_eq_iff (ho'.right.trans_lt (by decide))).mp rfl, hd'⟩
        exact ⟨_, hl, (Except.ok.inj ht).symm⟩
      case mpr =>
        rintro ⟨m, hl, rfl⟩
        rw [hl.trailingZeros_eq]
        rfl

theorem validate_iff_listed {α : Type} [Scalar α] :
    c.validate (α := α) = .ok () ↔ ∃ m, c.Listed m ∧ c.fftSize = 2 ^ m := by
  rw [validate_eq_ok]
  constructor
  case mp =>
    rintro ⟨⟨m, hm, hf⟩, hd⟩
    exact ⟨m, ⟨hm, ⟨0, by rw [hf]; ring⟩, hd⟩, hf⟩
  case mpr => exact fun ⟨m, hl, hf⟩ => ⟨⟨m, hl.order, hf⟩, hl.decimation⟩

-- The settings that have a table are those whose size is listed, whether or not they pass the
-- checks. They pass them if the size is no other than the one that the table shows.
theorem listing_decided (hd : c.decimation < 2 ^ 32) :
    (∀ table : List (Parameter Float),
      c.parameters = .ok table ↔ ∃ m, c.Listed m ∧ table = c.listing m) ∧
    (c.validate (α := Float) = .ok () ↔ ∃ m, c.Listed m ∧ c.fftSize = 2 ^ m) ∧
    (((∃ table : List (Parameter Float), c.parameters = .ok table) ↔
      c.validate (α := Float) = .ok ()) ↔ ¬∃ m, c.Listed m ∧ c.fftSize ≠ 2 ^ m) := by
  refine ⟨fun _ => parameters_eq_ok hd, validate_iff_listed, ?_⟩
  constructor
  case mp =>
    rintro h ⟨m, hl, hf⟩
    have ht := (parameters_eq_ok hd).mpr ⟨m, hl, rfl⟩
    obtain ⟨m', hl', hf'⟩ := validate_iff_listed.mp (h.mp ⟨_, ht⟩)
    obtain rfl : m = m' := hl.trailingZeros_eq.symm.trans hl'.trailingZeros_eq
    exact hf hf'
  case mpr =>
    intro h
    constructor
    case mp =>
      rintro ⟨table, ht⟩
      obtain ⟨m, hl, -⟩ := (parameters_eq_ok hd).mp ht
      exact validate_iff_listed.mpr ⟨m, hl, not_not.mp fun hf => h ⟨m, hl, hf⟩⟩
    case mpr =>
      intro hv
      obtain ⟨m, hl, -⟩ := validate_iff_listed.mp hv
      exact ⟨_, (parameters_eq_ok hd).mpr ⟨m, hl, rfl⟩⟩

def tripled : SpectrumConfig :=
  { fftSize := 3 * 64 }

theorem listed_tripled : tripled.Listed 6 where
  order := by decide
  size := ⟨1, rfl⟩
  decimation := by decide

-- Three times the least size has a table, which shows the order of the least size.
theorem tripled_has_table :
    ¬((∃ table : List (Parameter Float), tripled.parameters = .ok table) ↔
      tripled.validate (α := Float) = .ok ()) ∧
    tripled.parameters = .ok (tripled.listing 6) ∧ tripled.fftSize ≠ 2 ^ 6 := by
  have hp : tripled.parameters = .ok (tripled.listing 6) :=
    (parameters_eq_ok (by decide)).mpr ⟨6, listed_tripled, rfl⟩
  have hv : ¬tripled.validate (α := Float) = .ok () := nofun
  exact ⟨fun h => hv (h.mp ⟨_, hp⟩), hp, by decide⟩

theorem listing_decided_tripled :
    tripled.decimation < 2 ^ 32 ∧ tripled.parameters = .ok (tripled.listing 6) ∧
    ¬((∃ table : List (Parameter Float), tripled.parameters = .ok table) ↔
      tripled.validate (α := Float) = .ok ()) := by
  have hd : tripled.decimation < 2 ^ 32 := by decide
  obtain ⟨hp, -, ha⟩ := listing_decided hd
  exact ⟨hd, (hp _).mpr ⟨6, listed_tripled, rfl⟩, fun h => ha.mp h ⟨6, listed_tripled, by decide⟩⟩

end SpectrumConfig

end RadioSpectrum
