import RadioSpectrum.Proofs.Precision.Packing
import RadioSpectrum.Scalar

namespace RadioSpectrum

namespace Precision

open Float.Model (Format UnpackedFloat totalExponent)
open Float.Model.UnpackedFloat

variable {m n t : Nat}

theorem log2_shiftLeft (hn : 0 < n) (t : Nat) : (n <<< t).log2 = n.log2 + t := by
  have ⟨hl, hu⟩ := (Nat.log2_eq_iff hn.ne').mp rfl
  rw [Nat.log2_eq_iff (Nat.shiftLeft_pos_iff.mpr hn).ne', Nat.shiftLeft_eq, Nat.pow_add,
    Nat.add_right_comm, Nat.pow_add]
  exact ⟨Nat.mul_le_mul_right _ hl, Nat.mul_lt_mul_of_pos_right hu (Nat.two_pow_pos t)⟩

theorem lt_of_log2_lt (hm : 0 < m) (hn : 0 < n) (h : m.log2 < n.log2) : m < n :=
  ((Nat.log2_lt hm.ne').mp h).trans_le (Nat.log2_self_le hn.ne')

-- How many digits a whole number leaves free.
def room (n : Nat) : Nat :=
  52 - n.log2

-- The form in which a whole number is stored: its digits are moved up until none is left free.
def whole (n : Nat) : UnpackedFloat :=
  if h : 0 < n then .finite .positive (n <<< room n) (-(room n : Int)) (Nat.shiftLeft_pos_iff.mpr h)
  else .zero .positive

theorem whole_of_pos (hn : 0 < n) :
    whole n = .finite .positive (n <<< room n) (-(room n : Int)) (Nat.shiftLeft_pos_iff.mpr hn) :=
  dif_pos hn

section Rounding

-- Only zeros are shifted out.
theorem shiftRight_shiftLeft (m t : Nat) :
    (⟨m <<< t, false, false⟩ : ExtendedMantissa) >>> t = ⟨m, false, false⟩ := by
  change t.repeat ExtendedMantissa.shiftRightOne _ = _
  induction t generalizing m
  case zero => rfl
  case succ t hi =>
    rw [Nat.repeat, Nat.add_comm, Nat.shiftLeft_add, hi]
    simp [ExtendedMantissa.shiftRightOne, Nat.shiftLeft_eq]

variable (hn : 0 < n) (hb : n < 2 ^ 53)
include hn hb

theorem log2_add_room : n.log2 + room n = 52 := by
  have := (Nat.log2_lt hn.ne').mpr hb
  unfold room
  omega

theorem log2_shiftLeft_room : (n <<< room n).log2 = 52 :=
  (log2_shiftLeft hn _).trans (log2_add_room hn hb)

-- However many places a number was moved by, it belongs where it is stored.
theorem targetExponent_shiftLeft (t : Nat) :
    Format.binary64.targetExponent (totalExponent (n <<< t) (-t)) = -room n := by
  have hr := log2_add_room hn hb
  simp only [Format.targetExponent, Format.minExponent, Format.mantissaBits, totalExponent,
    log2_shiftLeft hn]
  omega

theorem shiftToTargetExponent_shiftLeft (ht : room n ≤ t) :
    shiftToTargetExponent .binary64 (n <<< t) (-t) .exact =
      (⟨n <<< room n, false, false⟩, -(room n : Int)) := by
  have hs : (-(room n : Int) - -(t : Int)).toNat = t - room n := by omega
  have hm : n <<< t = (n <<< room n) <<< (t - room n) := by
    rw [← Nat.shiftLeft_add, Nat.add_sub_cancel' ht]
  simp only [shiftToTargetExponent, shiftToExponent, targetExponent_shiftLeft hn hb, hs]
  rw [hm]
  refine Prod.ext (shiftRight_shiftLeft _ _) ?_
  dsimp only
  omega

theorem roundWithAccuracy_shiftLeft (ht : room n ≤ t) :
    roundWithAccuracy .binary64 .positive (n <<< t) (-t) .exact = whole n := by
  have h₁ := shiftToTargetExponent_shiftLeft hn hb ht
  have h₂ := shiftToTargetExponent_shiftLeft hn hb le_rfl
  have hr : (⟨n <<< room n, false, false⟩ : ExtendedMantissa).roundedMantissa = n <<< room n := rfl
  have hp : ¬n <<< room n = 0 := (Nat.shiftLeft_pos_iff.mpr hn).ne'
  unfold roundWithAccuracy
  simp only [h₁, hr, h₂, dif_neg hp, whole_of_pos hn]

theorem round_shiftLeft (t : Nat) :
    Float.Model.UnpackedFloat.round .binary64 .positive (n <<< t) (-t) = whole n := by
  have hs : (-(t : Int) - -(room n : Int)).toNat = room n - t := by omega
  have ht : -(t : Int) - (room n - t : Nat) = -(t + (room n - t) : Nat) := by omega
  simp only [Float.Model.UnpackedFloat.round, decreaseExponent, targetExponent_shiftLeft hn hb, hs,
    ht, ← Nat.shiftLeft_add]
  exact roundWithAccuracy_shiftLeft hn hb (by omega)

omit hn in
theorem normalize_shiftLeft (t : Nat) :
    UnpackedFloat.normalize .binary64 ((n <<< t : Nat) : Int) (-t) .positive = whole n := by
  rcases n.eq_zero_or_pos with rfl | hn
  case inl => simp [UnpackedFloat.normalize, whole]
  case inr =>
    have hp : 0 < n <<< t := Nat.shiftLeft_pos_iff.mpr hn
    have hc : compare ((n <<< t : Nat) : Int) 0 = .gt := Int.compare_eq_gt.mpr (by omega)
    simp only [UnpackedFloat.normalize, hc, Int.toNat_natCast]
    exact round_shiftLeft hn hb t

-- The leading digit is not stored; reading puts it back.
theorem toNat_append_shiftLeft_room :
    (1#1 ++ BitVec.ofNat 52 (n <<< room n)).toNat = n <<< room n := by
  have hp : 0 < n <<< room n := Nat.shiftLeft_pos_iff.mpr hn
  have ⟨hl, hu⟩ := (Nat.log2_eq_iff hp.ne').mp (log2_shiftLeft_room hn hb)
  rw [BitVec.toNat_append, ← Nat.shiftLeft_add_eq_or_of_lt (BitVec.isLt _), BitVec.toNat_ofNat]
  simp only [BitVec.toNat_ofNat, Nat.shiftLeft_eq _ 52]
  omega

omit hn in
theorem unpack_pack_whole : unpack .binary64 (pack .binary64 (whole n)) = whole n := by
  rcases n.eq_zero_or_pos with rfl | hn
  case inl => exact unpack_pack_zero _ _
  case inr =>
    have hd := toNat_append_shiftLeft_room hn hb
    have hr : room n ≤ 52 := Nat.sub_le _ _
    have he : (-(room n : Int) + Format.binary64.exponentBias +
        Format.binary64.mantissaBitsWithoutImplicit).toNat = 1075 - room n := by
      change (-(room n : Int) + 1023 + 52).toNat = _
      omega
    have hx : ¬2 ^ Format.binary64.exponentBits ≤ 1075 - room n + 1 := by
      change ¬2048 ≤ _
      omega
    have ⟨hp, hu⟩ := unpack_normal .binary64 .positive (.ofNat _ (n <<< room n))
      (ofNat_ne_neg_one (n := 1075 - room n) (w := 11) (by omega))
      (ofNat_ne_zero (n := 1075 - room n) (by omega) (by omega))
    rw [whole_of_pos hn]
    simp only [pack, he, if_neg hx, log2_shiftLeft_room hn hb]
    rw [if_pos (show 52 + 1 = Format.binary64.mantissaBits from rfl), hu]
    congr 1
    rw [BitVec.toNat_ofNat]
    change (((1075 - room n) % 2048 : Nat) : Int) - (1023 + 52) = _
    omega

end Rounding

section Arithmetic

theorem min_neg_neg (m n : Nat) : min (-(m : Int)) (-(n : Int)) = -(max m n : Nat) := by
  omega

theorem decreaseExponent_whole (h : room n ≤ t) :
    (decreaseExponent (n <<< room n) (-(room n : Int)) (-(t : Int))).1 = n <<< t := by
  have hs : (-(room n : Int) - -(t : Int)).toNat = t - room n := by omega
  rw [decreaseExponent, hs, ← Nat.shiftLeft_add, Nat.add_sub_cancel' h]

theorem add_whole (h : m + n < 2 ^ 53) : add .binary64 (whole m) (whole n) = whole (m + n) := by
  rcases m.eq_zero_or_pos with rfl | hm
  case inl =>
    rw [Nat.zero_add]
    rcases n.eq_zero_or_pos with rfl | hn
    case inl => rfl
    case inr => rw [whole_of_pos hn]; rfl
  case inr =>
    rcases n.eq_zero_or_pos with rfl | hn
    case inl => rw [Nat.add_zero, whole_of_pos hm]; rfl
    case inr =>
      rw [whole_of_pos hm, whole_of_pos hn]
      simp only [add, min_neg_neg, decreaseExponent_whole (Nat.le_max_left _ _),
        decreaseExponent_whole (Nat.le_max_right _ _), Sign.apply]
      rw [← Nat.cast_add, ← normalize_shiftLeft h, Nat.shiftLeft_eq, Nat.shiftLeft_eq,
        Nat.shiftLeft_eq, Nat.add_mul]

theorem sub_whole (h : n ≤ m) (hb : m < 2 ^ 53) :
    sub .binary64 (whole m) (whole n) = whole (m - n) := by
  rcases n.eq_zero_or_pos with rfl | hn
  case inl =>
    rcases m.eq_zero_or_pos with rfl | hm
    case inl => rfl
    case inr => rw [Nat.sub_zero, whole_of_pos hm]; rfl
  case inr =>
    rw [whole_of_pos (hn.trans_le h), whole_of_pos hn]
    simp only [sub, min_neg_neg, decreaseExponent_whole (Nat.le_max_left _ _),
      decreaseExponent_whole (Nat.le_max_right _ _), Sign.apply]
    rw [← normalize_shiftLeft ((Nat.sub_le _ _).trans_lt hb), Nat.shiftLeft_eq, Nat.shiftLeft_eq,
      Nat.shiftLeft_eq, Nat.sub_mul, Nat.cast_sub (Nat.mul_le_mul_right _ h)]

theorem mul_whole_one (hb : n < 2 ^ 53) : mul .binary64 (whole n) (whole 1) = whole n := by
  rcases n.eq_zero_or_pos with rfl | hn
  case inl => rfl
  case inr =>
    have he : -(room n : Int) + -(room 1 : Int) = -(room n + room 1 : Nat) := by omega
    have hm : n <<< room n * 1 <<< room 1 = n <<< (room n + room 1) := by
      rw [Nat.shiftLeft_add, Nat.one_shiftLeft, Nat.shiftLeft_eq _ (room 1)]
    have hr := roundWithAccuracy_shiftLeft hn hb (Nat.le_add_right (room n) (room 1))
    rw [whole_of_pos hn, whole_of_pos Nat.one_pos]
    simp only [mul, he, hm]
    exact hr.trans (whole_of_pos hn)

theorem divCore_whole_one (hn : 0 < n) (hb : n < 2 ^ 53) :
    divCore .binary64 (n <<< room n) (-(room n : Int)) (1 <<< room 1) (-(room 1 : Int)) =
      (n <<< (room n + 1), (-(room n + 1 : Nat) : Int), .exact) := by
  have hl := log2_shiftLeft_room hn hb
  have h₁ : (1 <<< room 1).log2 = 52 := rfl
  have ht : min (-(room n : Int) - -(room 1 : Int)) (Format.binary64.targetExponent
      (totalExponent (n <<< room n) (-(room n : Int)) -
        totalExponent (1 <<< room 1) (-(room 1 : Int)))) = -(room n + 1 : Nat) := by
    have : room 1 = 52 := rfl
    have := log2_add_room hn hb
    simp only [Format.targetExponent, Format.minExponent, Format.mantissaBits, totalExponent, hl,
      h₁]
    omega
  have hs : (-(room n : Int) - -(room 1 : Int) - -(room n + 1 : Nat)).toNat = room 1 + 1 := by
    omega
  have hm : n <<< room n <<< (room 1 + 1) = n <<< (room n + 1) * 1 <<< room 1 := by
    rw [Nat.one_shiftLeft, ← Nat.shiftLeft_eq, ← Nat.shiftLeft_add, ← Nat.shiftLeft_add]
    congr 1
  have hp : 0 < 1 <<< room 1 := Nat.shiftLeft_pos_iff.mpr Nat.one_pos
  simp only [divCore, ht, hs, hm, Nat.mul_mod_left, Nat.mul_div_left _ hp]
  rfl

theorem div_whole_one (hb : n < 2 ^ 53) : div .binary64 (whole n) (whole 1) = whole n := by
  rcases n.eq_zero_or_pos with rfl | hn
  case inl => rfl
  case inr =>
    have hr := roundWithAccuracy_shiftLeft hn hb (Nat.le_add_right (room n) 1)
    rw [whole_of_pos hn, whole_of_pos Nat.one_pos]
    simp only [div, divCore_whole_one hn hb]
    exact hr.trans (whole_of_pos hn)

theorem toInt_whole (n : Nat) (lo hi : Int) : (whole n).toInt lo hi = n := by
  rcases n.eq_zero_or_pos with rfl | hn
  case inl => rfl
  case inr =>
    have hd : decreaseExponent (n <<< room n) (-(room n : Int)) 0 =
        (n <<< room n, -(room n : Int)) := by
      have hs : (-(room n : Int)).toNat = 0 := by omega
      simp only [decreaseExponent, sub_zero, hs, Nat.shiftLeft_zero, Nat.cast_zero]
    have hs : (0 - -(room n : Int)).toNat = room n := by omega
    rw [whole_of_pos hn]
    simp only [toInt, roundToInt, hd, shiftToExponent, hs]
    exact congrArg (fun em => (em.mantissa : Int)) (shiftRight_shiftLeft n (room n))

-- Of two numbers the one with less room is the larger one.
theorem lt_whole_iff (hm : m < 2 ^ 53) (hn : n < 2 ^ 53) : (whole m).lt (whole n) ↔ m < n := by
  rcases n.eq_zero_or_pos with rfl | hn₀
  case inl =>
    rcases m.eq_zero_or_pos with rfl | hm₀
    case inl => decide
    case inr => rw [whole_of_pos hm₀]; exact iff_of_false nofun (Nat.not_lt_zero m)
  case inr =>
    rcases m.eq_zero_or_pos with rfl | hm₀
    case inl => rw [whole_of_pos hn₀]; exact iff_of_true rfl hn₀
    case inr =>
      have hrm := log2_add_room hm₀ hm
      have hrn := log2_add_room hn₀ hn
      rw [whole_of_pos hm₀, whole_of_pos hn₀]
      simp only [UnpackedFloat.lt, UnpackedFloat.compare]
      rcases lt_trichotomy (room m) (room n) with h | h | h
      · have hc : compare (-(room m : Int)) (-(room n : Int)) = .gt :=
          Int.compare_eq_gt.mpr (by omega)
        have := lt_of_log2_lt hn₀ hm₀ (by omega)
        simp only [hc]
        exact iff_of_false nofun this.not_gt
      · simp [h, Nat.shiftLeft_eq, Nat.compare_eq_lt]
      · have hc : compare (-(room m : Int)) (-(room n : Int)) = .lt :=
          Int.compare_eq_lt.mpr (by omega)
        have := lt_of_log2_lt hm₀ hn₀ (by omega)
        simp only [hc]
        exact iff_of_true rfl this

end Arithmetic

section Counts

theorem ofNat_eq (hn : n < 2 ^ 53) : (Scalar.ofNat n : Float) = .ofModel (.pack (whole n)) := by
  have ht : n.toUInt64.toNat = n := UInt64.toNat_ofNat_of_lt' (hn.trans (by decide))
  change Float.ofModel (.pack (UnpackedFloat.normalize .binary64 n.toUInt64.toNat 0 .positive)) = _
  rw [ht]
  exact congrArg _ (congrArg _ (normalize_shiftLeft hn 0))

theorem unpack_ofNat (hn : n < 2 ^ 53) : (Scalar.ofNat n : Float).toModel.unpack = whole n := by
  rw [ofNat_eq hn]
  exact unpack_pack_whole hn

theorem ofNat_add (h : m + n < 2 ^ 53) :
    (Scalar.ofNat m + Scalar.ofNat n : Float) = Scalar.ofNat (m + n) := by
  change Float.ofModel (.pack (add .binary64 (Scalar.ofNat m : Float).toModel.unpack
    (Scalar.ofNat n : Float).toModel.unpack)) = _
  rw [unpack_ofNat (by omega), unpack_ofNat (by omega), add_whole h, ofNat_eq h]

theorem ofNat_sub (h : n ≤ m) (hm : m < 2 ^ 53) :
    (Scalar.ofNat m - Scalar.ofNat n : Float) = Scalar.ofNat (m - n) := by
  change Float.ofModel (.pack (sub .binary64 (Scalar.ofNat m : Float).toModel.unpack
    (Scalar.ofNat n : Float).toModel.unpack)) = _
  rw [unpack_ofNat hm, unpack_ofNat (by omega), sub_whole h hm, ofNat_eq (by omega)]

theorem ofNat_mul_one (hn : n < 2 ^ 53) :
    (Scalar.ofNat n * Scalar.ofNat 1 : Float) = Scalar.ofNat n := by
  change Float.ofModel (.pack (mul .binary64 (Scalar.ofNat n : Float).toModel.unpack
    (Scalar.ofNat 1 : Float).toModel.unpack)) = _
  rw [unpack_ofNat hn, unpack_ofNat (by decide), mul_whole_one hn, ofNat_eq hn]

theorem ofNat_div_one (hn : n < 2 ^ 53) :
    (Scalar.ofNat n / Scalar.ofNat 1 : Float) = Scalar.ofNat n := by
  change Float.ofModel (.pack (div .binary64 (Scalar.ofNat n : Float).toModel.unpack
    (Scalar.ofNat 1 : Float).toModel.unpack)) = _
  rw [unpack_ofNat hn, unpack_ofNat (by decide), div_whole_one hn, ofNat_eq hn]

theorem ofNat_lt_iff (hm : m < 2 ^ 53) (hn : n < 2 ^ 53) :
    (Scalar.ofNat m : Float) < Scalar.ofNat n ↔ m < n := by
  rw [← lt_whole_iff hm hn, ← unpack_ofNat hm, ← unpack_ofNat hn]
  exact decide_eq_true_iff

theorem isFinite_ofNat (hn : n < 2 ^ 53) : Scalar.isFinite (Scalar.ofNat n : Float) := by
  change (Scalar.ofNat n : Float).toModel.unpack.isFinite = true
  rw [unpack_ofNat hn]
  unfold whole
  split <;> rfl

theorem toWord_ofNat (hn : n < 2 ^ 53) : Scalar.toWord (Scalar.ofNat n : Float) = .ofNat n := by
  have hs : n < UInt64.size := hn.trans (by decide)
  change (Scalar.ofNat n : Float).toModel.unpack.toUInt64 = _
  rw [unpack_ofNat hn, toUInt64, toInt_whole, Int.toNat_natCast, UInt64.ofNatClamp, dif_pos hs,
    UInt64.ofNatLT_eq_ofNat]

theorem abs_ofNat (hn : n < 2 ^ 53) : (Scalar.ofNat n : Float).abs = Scalar.ofNat n := by
  have ha : (whole n).abs = whole n := by
    unfold whole
    split <;> rfl
  change Float.ofModel (.pack (Scalar.ofNat n : Float).toModel.unpack.abs) = _
  rw [unpack_ofNat hn, ha, ofNat_eq hn]

theorem round_ofNat (hn : n < 2 ^ 53) : Scalar.round (Scalar.ofNat n : Float) = Scalar.ofNat n := by
  have hw : Scalar.wholePart (Scalar.ofNat n : Float) = Scalar.ofNat n := by
    rw [Scalar.wholePart, abs_ofNat hn]
    exact congrArg UInt64.toFloat (toWord_ofNat hn)
  change Scalar.roundFloat _ = _
  rw [Scalar.roundFloat, hw, abs_ofNat hn]
  exact if_pos (.inr rfl)

end Counts

end Precision

end RadioSpectrum
