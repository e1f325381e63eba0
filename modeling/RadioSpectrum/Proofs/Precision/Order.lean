import Mathlib.Data.Prod.Lex
import RadioSpectrum.Proofs.Precision.Operations

namespace RadioSpectrum

namespace Precision

open Float.Model (UnpackedFloat)
open Float.Model.UnpackedFloat

section Unpacked

variable {u v : UnpackedFloat}

-- Where a finite number stands in the line. Below zero the greater sizes come first.
def rank : UnpackedFloat → Int ×ₗ Int ×ₗ Int
  | .finite .positive mantissa exponent _ => toLex (1, toLex (exponent, mantissa))
  | .finite .negative mantissa exponent _ => toLex (-1, toLex (-exponent, -mantissa))
  | _ => toLex (0, toLex (0, 0))

theorem compare_toLex {α β : Type} [LinearOrder α] [LinearOrder β] (a b : α) (c d : β) :
    compare (toLex (a, c)) (toLex (b, d)) = (compare a b).then (compare c d) := by
  rw [Prod.Lex.compare_def]
  rfl

theorem compare_neg (a b : Int) : compare (-a) (-b) = (compare a b).swap := by
  rw [← Int.compare_swap]
  simp [Int.compare_eq_ite_lt]

theorem compare_natCast (a b : Nat) : compare (a : Int) b = compare a b := by
  simp [Int.compare_eq_ite_lt, Nat.compare_eq_ite_lt]

theorem compare_rank (hu : u.isFinite) (hv : v.isFinite) :
    u.compare v = some (compare (rank u) (rank v)) := by
  cases u <;> cases v <;> try contradiction
  case zero.zero => rfl
  case zero.finite s _ _ _ =>
    cases s <;> simp only [UnpackedFloat.compare, rank, compare_toLex] <;> rfl
  case finite.zero s _ _ _ _ =>
    cases s <;> simp only [UnpackedFloat.compare, rank, compare_toLex] <;> rfl
  case finite.finite s m e _ s' m' e' _ =>
    cases s <;> cases s' <;> simp only [UnpackedFloat.compare, rank, compare_toLex]
    case negative.negative =>
      rw [compare_neg e, compare_neg m, compare_natCast, Ordering.swap_then]
      rfl
    case positive.positive =>
      rw [compare_natCast]
      rfl
    all_goals rfl

theorem lt_iff_rank_lt (hu : u.isFinite) (hv : v.isFinite) : u.lt v ↔ rank u < rank v := by
  rw [UnpackedFloat.lt, compare_rank hu hv, beq_iff_eq, Option.some_inj, compare_lt_iff_lt]

theorem beq_iff_rank_eq (hu : u.isFinite) (hv : v.isFinite) : u.beq v ↔ rank u = rank v := by
  rw [UnpackedFloat.beq, compare_rank hu hv, beq_iff_eq, Option.some_inj, compare_eq_iff_eq]

theorem le_iff_rank_le (hu : u.isFinite) (hv : v.isFinite) : u.le v ↔ rank u ≤ rank v := by
  rw [UnpackedFloat.le, compare_rank hu hv, Option.any_some, Ordering.isLE_iff_ne_gt]
  exact compare_le_iff_le

end Unpacked

section Single

variable {x y : Float32}

def place (x : Float32) : Int ×ₗ Int ×ₗ Int :=
  rank x.toModel.unpack

theorem lt_iff : x < y ↔ x.toModel.unpack.lt y.toModel.unpack :=
  decide_eq_true_iff

theorem lt_iff_place_lt (hx : x.isFinite) (hy : y.isFinite) : x < y ↔ place x < place y :=
  lt_iff.trans (lt_iff_rank_lt hx hy)

theorem le_iff_place_le (hx : x.isFinite) (hy : y.isFinite) : x ≤ y ↔ place x ≤ place y :=
  le_iff.trans (le_iff_rank_le hx hy)

-- The two zeros are in one place.
theorem beq_iff_place_eq (hx : x.isFinite) (hy : y.isFinite) : x == y ↔ place x = place y :=
  beq_iff_rank_eq hx hy

theorem bne_iff_place_ne (hx : x.isFinite) (hy : y.isFinite) : x != y ↔ place x ≠ place y := by
  rw [bne, Bool.not_eq_true', ← Bool.not_eq_true, ne_eq, beq_iff_place_eq hx hy]

theorem bne_of_lt (hx : x.isFinite) (hy : y.isFinite) (h : x < y) : x != y :=
  (bne_iff_place_ne hx hy).mpr ((lt_iff_place_lt hx hy).mp h).ne

end Single

end Precision

end RadioSpectrum
