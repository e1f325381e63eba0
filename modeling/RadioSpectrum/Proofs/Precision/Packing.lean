import RadioSpectrum.Proofs.Precision.Rounding

namespace RadioSpectrum

namespace Precision

open Float.Model (Format UnpackedFloat)
open Float.Model.UnpackedFloat

variable {format : Format} {s : Sign} {u : UnpackedFloat} {m n : Nat} {e k : Int} {pos : 0 < m}

-- Half of the exponents that can be stored lie above the bias.
theorem two_pow_exponentBits (format : Format) :
    2 ^ format.exponentBits = 2 * (format.exponentBias + 1) := by
  have hp := Nat.two_pow_pos (format.exponentBits - 1)
  rw [Format.exponentBias, Nat.sub_add_cancel hp, ← Nat.pow_succ', Nat.succ_eq_add_one,
    Nat.sub_add_cancel format.he]

theorem minExponent_eq (format : Format) :
    format.minExponent = 1 - (format.exponentBias + format.mantissaBitsWithoutImplicit : Nat) := by
  have hp := Nat.two_pow_pos (format.exponentBits - 1)
  simp only [Format.minExponent, Format.exponentBias, Format.mantissaBits]
  push_cast [Int.ofNat_sub hp]
  omega

theorem ofNat_ne_neg_one {w : Nat} (h : n + 1 < 2 ^ w) : BitVec.ofNat w n ≠ -1#_ := by
  intro he
  have ht := congrArg BitVec.toNat he
  simp only [BitVec.toNat_ofNat, BitVec.neg_one_eq_allOnes, BitVec.toNat_allOnes] at ht
  rw [Nat.mod_eq_of_lt (by omega)] at ht
  omega

theorem ofNat_ne_zero {w : Nat} (hn : n ≠ 0) (h : n < 2 ^ w) : BitVec.ofNat w n ≠ 0#_ := by
  intro he
  have ht := congrArg BitVec.toNat he
  rw [BitVec.toNat_ofNat, Nat.mod_eq_of_lt h] at ht
  exact hn ht

-- What is stored has no more digits than the format.
theorem bounds_of_unpack {bits : BitVec format.numBits}
    (h : unpack format bits = .finite s m e pos) :
    m < 2 ^ format.mantissaBits ∧ format.minExponent ≤ e := by
  have hl := minExponent_eq format
  unfold unpack at h
  dsimp only at h
  split at h
  case isTrue => split at h <;> contradiction
  case isFalse =>
    split at h
    case isTrue hz =>
      split at h <;> try contradiction
      injection h with _ hm he
      have hp : 2 ^ format.mantissaBits = 2 * 2 ^ format.mantissaBitsWithoutImplicit := by
        rw [Format.mantissaBits, Nat.add_comm, Nat.pow_succ']
      have := (unpackMantissa bits).isLt
      rw [hz] at he
      simp only [BitVec.toNat_zero] at he
      omega
    case isFalse hz =>
      injection h with _ hm he
      have := BitVec.isLt (1#1 ++ unpackMantissa bits)
      have : (unpackExponent bits).toNat ≠ 0 := fun ht => hz (BitVec.eq_of_toNat_eq (by simpa))
      rw [Format.mantissaBits]
      omega

theorem unpack_normal (format : Format) (s : Sign) (mantissa) {exponent}
    (he : exponent ≠ -1#_) (hz : exponent ≠ 0#_) :
    ∃ pos, unpack format (packComponents format s exponent mantissa) =
      .finite s (1#1 ++ mantissa).toNat
        (exponent.toNat - (format.exponentBias + format.mantissaBitsWithoutImplicit)) pos :=
  ⟨by simp, by simp [unpack, he, hz]⟩

theorem unpack_subnormal (format : Format) (s : Sign) {mantissa} (hz : mantissa ≠ 0#_) :
    ∃ pos, unpack format (packComponents format s 0#_ mantissa) =
      .finite s mantissa.toNat format.minExponent pos := by
  have hp := two_pow_exponentBits format
  have he : (0#_ : BitVec format.exponentBits) ≠ -1#_ := ofNat_ne_neg_one (by omega)
  refine ⟨Nat.pos_of_ne_zero fun h => hz (BitVec.eq_of_toNat_eq (by simpa)), ?_⟩
  simp [unpack, he, hz, minExponent_eq]
  omega

theorem unpack_pack_zero (format : Format) (s : Sign) :
    unpack format (pack format (.zero s)) = .zero s :=
  unpack_packedZero

-- An exponent that is not above the bias leaves the greatest one, which stands for infinity, free.
theorem exists_unpack_pack (s : Sign) (pos : 0 < m) (hm : m < 2 ^ format.mantissaBits)
    (hl : format.minExponent ≤ e) (hg : e + format.mantissaBits ≤ format.exponentBias + 1) :
    ∃ m' e' pos',
      unpack format (pack format (.finite s m e pos)) = .finite s m' e' pos' ∧ e' ≤ e := by
  have ht := two_pow_exponentBits format
  have hl' := minExponent_eq format
  simp only [Format.mantissaBits] at hg
  unfold pack
  dsimp only
  generalize hb : (e + format.exponentBias + format.mantissaBitsWithoutImplicit).toNat = biased
  rw [if_neg (by omega)]
  split
  case isTrue =>
    have ⟨hp, hu⟩ := unpack_normal format s (.ofNat _ m)
      (ofNat_ne_neg_one (n := biased) (by omega)) (ofNat_ne_zero (by omega) (by omega))
    rw [BitVec.toNat_ofNat biased, Nat.mod_eq_of_lt (by omega)] at hu
    exact ⟨_, _, hp, hu, by omega⟩
  case isFalse hd =>
    have hd' : m < 2 ^ format.mantissaBitsWithoutImplicit := by
      rw [Format.mantissaBits] at hm hd
      have := log2_lt_of_lt_two_pow (by omega) hm
      rw [← Nat.log2_lt pos.ne']
      omega
    have ⟨hp, hu⟩ := unpack_subnormal format s (ofNat_ne_zero pos.ne' hd')
    exact ⟨_, _, hp, hu, hl⟩

theorem Below.recode (h : Below format k u) (hk : k ≤ format.exponentBias + 1) :
    Below format k (unpack format (pack format u)) := by
  cases h
  case zero s => rw [unpack_pack_zero]; exact .zero
  case finite s m e pos hm hl hg =>
    have ⟨_, _, _, hu, he⟩ := exists_unpack_pack s pos hm hl (hg.trans hk)
    have ⟨hm', hl'⟩ := bounds_of_unpack hu
    exact hu ▸ .finite hm' hl' (by omega)

theorem nonNegative_unpack_packComponents (format : Format) (exponent mantissa) :
    NonNegative (unpack format (packComponents format .positive exponent mantissa)) := by
  simp only [unpack, unpackSign_packComponents, Sign.ofBitVec_toBitVec]
  split
  case isTrue =>
    split
    case isTrue  => exact .infinity
    case isFalse => exact .notANumber
  case isFalse =>
    split
    case isTrue  => split; exacts [.zero, .finite]
    case isFalse => exact .finite

theorem NonNegative.recode (h : NonNegative u) (format : Format) :
    NonNegative (unpack format (pack format u)) := by
  cases h
  case zero       => rw [unpack_pack_zero]; exact .zero
  case notANumber => exact nonNegative_unpack_packComponents ..
  case infinity   => exact nonNegative_unpack_packComponents ..
  case finite     =>
    unfold pack
    dsimp only
    split
    case isTrue  => exact nonNegative_unpack_packComponents ..
    case isFalse => split <;> exact nonNegative_unpack_packComponents ..

end Precision

end RadioSpectrum
