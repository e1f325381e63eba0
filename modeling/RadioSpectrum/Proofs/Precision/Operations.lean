import RadioSpectrum.Proofs.Precision.Packing

namespace RadioSpectrum

namespace Precision

open Float.Model (Format UnpackedFloat)
open Float.Model.UnpackedFloat

variable {format : Format} {s : Sign} {u v : UnpackedFloat} {j k l : Int}

instance (format : Format) (bound : Int) : DecidablePred (Below format bound)
  | .zero _ => isTrue .zero
  | .finite _ mantissa exponent _ =>
    decidable_of_iff
      (mantissa < 2 ^ format.mantissaBits ∧ format.minExponent ≤ exponent ∧
        exponent + format.mantissaBits ≤ bound)
      ⟨fun ⟨hm, hl, hg⟩ => .finite hm hl hg, fun h => by cases h; exact ⟨‹_›, ‹_›, ‹_›⟩⟩
  | .infinity _ | .notANumber => isFalse nofun

-- A number with that sign whose distance from zero is `2 ^ bound` at least.
inductive Beyond (format : Format) (bound : Int) : Sign → UnpackedFloat → Prop
  | finite {sign mantissa exponent pos} (least : bound < exponent + format.mantissaBits) :
    Beyond format bound sign (.finite sign mantissa exponent pos)

instance (format : Format) (bound : Int) (s : Sign) : DecidablePred (Beyond format bound s)
  | .finite .positive _ exponent _ =>
    match s with
    | .positive =>
      decidable_of_iff (bound < exponent + format.mantissaBits)
        ⟨.finite, fun h => by cases h; assumption⟩
    | .negative => isFalse nofun
  | .finite .negative _ exponent _ =>
    match s with
    | .negative =>
      decidable_of_iff (bound < exponent + format.mantissaBits)
        ⟨.finite, fun h => by cases h; assumption⟩
    | .positive => isFalse nofun
  | .zero _ | .infinity _ | .notANumber => isFalse nofun

section Order

theorem le_of_isLE_then {i i' : Int} {o : Ordering} (h : ((compare i i').then o).isLE) :
    i ≤ i' := by
  by_contra hn
  have hg : compare i i' = .gt := Int.compare_eq_gt.mpr (Int.not_le.mp hn)
  rw [hg] at h
  contradiction

theorem le_of_isLE_swap_then {i i' : Int} {o : Ordering}
    (h : (((compare i i').then o).swap).isLE) : i' ≤ i := by
  by_contra hn
  have hg : compare i i' = .lt := Int.compare_eq_lt.mpr (Int.not_le.mp hn)
  rw [hg] at h
  contradiction

-- What lies between two numbers is not farther from zero than both.
theorem Below.of_le {bits : BitVec format.numBits} (hu : Below format k u) (hv : Below format k v)
    (h₁ : u.le (unpack format bits)) (h₂ : (unpack format bits).le v) :
    Below format k (unpack format bits) := by
  cases hw : unpack format bits <;> rw [hw] at h₁ h₂
  case zero         => exact .zero
  case infinity s   => cases s <;> cases hu <;> cases hv <;> contradiction
  case notANumber   => cases hu <;> contradiction
  case finite s m e pos =>
    have ⟨hm, hl⟩ := bounds_of_unpack hw
    refine .finite hm hl ?_
    cases s
    case positive =>
      cases hv
      case zero => contradiction
      case finite s _ _ _ _ _ hg =>
        cases s
        case positive => have := le_of_isLE_then h₂; omega
        case negative => contradiction
    case negative =>
      cases hu
      case zero => contradiction
      case finite s _ _ _ _ _ hg =>
        cases s
        case positive => contradiction
        case negative => have := le_of_isLE_swap_then h₁; omega

theorem Below.le_of_beyond (hu : Below format k u) (hv : Beyond format k .positive v) :
    u.le v := by
  cases hu <;> cases hv
  case zero.finite => rfl
  case finite.finite s m e pos _ _ hg m' e' pos' hl =>
    cases s
    case negative => rfl
    case positive =>
      have hc : compare e e' = .lt := Int.compare_eq_lt.mpr (by omega)
      simp [UnpackedFloat.le, UnpackedFloat.compare, hc]

theorem Below.ge_of_beyond (hu : Below format k u) (hv : Beyond format k .negative v) :
    v.le u := by
  cases hu <;> cases hv
  case zero.finite => rfl
  case finite.finite s m e pos _ _ hg m' e' pos' hl =>
    cases s
    case positive => rfl
    case negative =>
      have hc : compare e' e = .gt := Int.compare_eq_gt.mpr (by omega)
      simp [UnpackedFloat.le, UnpackedFloat.compare, hc]

theorem Below.isFinite (h : Below format k u) : u.isFinite := by
  cases h <;> rfl

theorem NonNegative.zero_le (h : NonNegative u) (hu : Below format k u) (s : Sign) :
    (UnpackedFloat.zero s).le u := by
  cases h <;> cases hu <;> rfl

end Order

theorem Below.neg (h : Below format k u) : Below format k u.neg := by
  cases h
  case zero            => exact .zero
  case finite hm hl hg => exact .finite hm hl hg

-- The distance of a number of single precision from zero is less than `2 ^ bound`.
def Single (bound : Int) (x : Float32) : Prop := Below .binary32 bound x.toModel.unpack

-- The same for double precision.
def Double (bound : Int) (x : Float) : Prop := Below .binary64 bound x.toModel.unpack

section Single

variable {x y : Float32}

instance : Decidable (Single k x) := inferInstanceAs (Decidable (Below ..))

theorem Single.mono (h : Single j x) (hjk : j ≤ k) : Single k x :=
  Below.mono h hjk

-- Bounds are given as numerals, so what is asked of them is left to be decided.
theorem Single.mul (hx : Single j x) (hy : Single k y)
    (hl : -125 ≤ j + k ∧ j + k < l ∧ l ≤ 128) : Single l (x * y) :=
  ((Below.mul hx hy hl.left).mono hl.right.left).recode hl.right.right

theorem Single.add (hx : Single k x) (hy : Single k y)
    (hl : -125 ≤ k ∧ k + 1 < l ∧ l ≤ 128) : Single l (x + y) :=
  ((Below.add hx hy hl.left).mono (by omega)).recode hl.right.right

theorem Single.sub (hx : Single k x) (hy : Single k y)
    (hl : -125 ≤ k ∧ k + 1 < l ∧ l ≤ 128) : Single l (x - y) :=
  ((Below.sub hx hy hl.left).mono (by omega)).recode hl.right.right

theorem le_iff : x ≤ y ↔ x.toModel.unpack.le y.toModel.unpack :=
  decide_eq_true_iff

theorem Single.of_le {a b : Float32} (ha : Single k a) (hb : Single k b) (h₁ : a ≤ x)
    (h₂ : x ≤ b) : Single k x :=
  Below.of_le ha hb (le_iff.mp h₁) (le_iff.mp h₂)

theorem Single.le_of_beyond (hx : Single k x) (hy : Beyond .binary32 k .positive y.toModel.unpack) :
    x ≤ y :=
  le_iff.mpr (Below.le_of_beyond hx hy)

theorem Single.ge_of_beyond (hx : Single k x) (hy : Beyond .binary32 k .negative y.toModel.unpack) :
    y ≤ x :=
  le_iff.mpr (Below.ge_of_beyond hx hy)

theorem Single.isFinite (h : Single k x) : x.isFinite :=
  Below.isFinite h

theorem not_lt_zero (h : 0 ≤ x) : ¬x < 0 := by
  have hl : ¬x.toModel.unpack.lt (.zero .positive) := by
    have hz : (UnpackedFloat.zero .positive).le x.toModel.unpack := le_iff.mp h
    cases hu : x.toModel.unpack <;> rw [hu] at hz
    case infinity s   => cases s <;> first | contradiction | exact nofun
    case notANumber   => exact nofun
    case zero         => exact nofun
    case finite s _ _ _ => cases s <;> first | contradiction | exact nofun
  exact decide_eq_true_iff.not.mpr hl

theorem single_ofSample (x : Int8) : Single 9 (ofSample x) := by
  have hl := x.le_toInt
  have hg := x.toInt_lt
  have hx : x.toInt.natAbs < 2 ^ 8 := by omega
  have h : Below .binary32 9 (ofInt8 .binary32 x) :=
    below_normalize (k := 8) (e := 0) hx (by decide) (by decide)
  exact h.recode (by decide)

theorem Single.zero_le (h : Single k x) (hn : NonNegative x.toModel.unpack) : 0 ≤ x :=
  le_iff.mpr (hn.zero_le h .positive)

end Single

section Double

variable {x y : Float}

instance : Decidable (Double k x) := inferInstanceAs (Decidable (Below ..))

theorem Single.widen {x : Float32} (h : Single k x) (hl : -1021 ≤ k ∧ k < l ∧ l ≤ 1024) :
    Double l (widen x) :=
  ((Below.reround .binary64 h hl.left).mono hl.right.left).recode hl.right.right

theorem Double.mul (hx : Double j x) (hy : Double k y)
    (hl : -1021 ≤ j + k ∧ j + k < l ∧ l ≤ 1024) : Double l (x * y) :=
  ((Below.mul hx hy hl.left).mono hl.right.left).recode hl.right.right

theorem Double.add (hx : Double k x) (hy : Double k y)
    (hl : -1021 ≤ k ∧ k + 1 < l ∧ l ≤ 1024) : Double l (x + y) :=
  ((Below.add hx hy hl.left).mono (by omega)).recode hl.right.right

theorem Double.sqrt (hx : Double k x) (hn : NonNegative x.toModel.unpack)
    (hl : -1021 ≤ j ∧ k + 1 ≤ 2 * j ∧ j + 1 ≤ 1024) : Double (j + 1) x.sqrt :=
  (Below.sqrt hx hn hl.right.left hl.left).recode hl.right.right

theorem Double.narrow (hx : Double k x) (hl : -125 ≤ k ∧ k < l ∧ l ≤ 128) :
    Single l (narrow x) :=
  ((Below.reround .binary32 hx hl.left).mono hl.right.left).recode hl.right.right

theorem Double.mono (h : Double j x) (hjk : j ≤ k) : Double k x :=
  Below.mono h hjk

theorem Double.sub (hx : Double k x) (hy : Double k y)
    (hl : -1021 ≤ k ∧ k + 1 < l ∧ l ≤ 1024) : Double l (x - y) :=
  ((Below.sub hx hy hl.left).mono (by omega)).recode hl.right.right

theorem Double.neg (hx : Double k x) (hk : k ≤ 1024) : Double k (-x) :=
  (Below.neg hx).recode hk

theorem Double.of_le {a b : Float} (ha : Double k a) (hb : Double k b) (h₁ : a ≤ x) (h₂ : x ≤ b) :
    Double k x :=
  Below.of_le ha hb (of_decide_eq_true h₁) (of_decide_eq_true h₂)

-- A sum of squares has no sign, and neither has a root.
theorem nonNegative_add_mul_self (x y : Float) :
    NonNegative (x * x + y * y).toModel.unpack := by
  have hx : NonNegative (x * x).toModel.unpack := (nonNegative_mul_self .binary64 _).recode _
  have hy : NonNegative (y * y).toModel.unpack := (nonNegative_mul_self .binary64 _).recode _
  exact (hx.add hy .binary64).recode _

theorem nonNegative_narrow_sqrt (x : Float) : NonNegative (narrow x.sqrt).toModel.unpack := by
  have hs : NonNegative x.sqrt.toModel.unpack := (nonNegative_sqrt .binary64 _).recode _
  exact (hs.reround .binary32).recode _

end Double

end Precision

end RadioSpectrum
