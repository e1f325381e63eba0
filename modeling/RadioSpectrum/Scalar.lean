namespace RadioSpectrum

class Scalar (α : Type) extends Add α, Sub α, Mul α, Div α, LT α, LE α, OfScientific α where
  -- The number that a count stands for, rounded to the nearest if it has no exact form.
  ofNat : Nat → α
  isFinite : α → Bool
  floor : α → α
  -- The nearest whole number; halves go away from zero.
  round : α → α
  abs : α → α
  -- The count below a number: the fraction is dropped, and what lies outside the range of
  -- 64-bit words goes to its nearer end.
  toWord : α → UInt64
  decLt : DecidableLT α
  decLe : DecidableLE α

namespace Scalar

instance {α} [Scalar α] : DecidableLT α := decLt

instance {α} [Scalar α] : DecidableLE α := decLe

variable {α : Type} [Scalar α]

-- The greater of two numbers; the second one where they cannot be compared.
def max (a b : α) : α :=
  if b < a then a else b

def clamp (a lo hi : α) : α :=
  if a < lo then lo else if hi < a then hi else a

-- How far from a whole number of steps a value may lie and still count as being on the grid.
def tolerance : α :=
  1e-9

end Scalar

namespace Scalar

-- From here on every double is whole.
def wholeBound : Float :=
  4503599627370496

def wholePart (x : Float) : Float :=
  x.abs.toUInt64.toFloat

-- The built-in functions for this and for rounding are closed to proofs.
def floorFloat (x : Float) : Float :=
  let whole := wholePart x
  if !(x.abs < wholeBound) ∨ whole = x.abs then x
  else if x < 0 then -(whole + 1)
  else whole

def roundFloat (x : Float) : Float :=
  let whole := wholePart x
  if !(x.abs < wholeBound) ∨ whole = x.abs then x
  else
    let size := if 0.5 ≤ x.abs - whole then whole + 1 else whole
    if x < 0 then -size else size

end Scalar

instance : Scalar Float where
  ofNat n := n.toUInt64.toFloat
  isFinite := Float.isFinite
  floor := Scalar.floorFloat
  round := Scalar.roundFloat
  abs := Float.abs
  toWord := Float.toUInt64
  decLt := inferInstance
  decLe := inferInstance

namespace Scalar

def roundRat (q : Rat) : Int :=
  if q < 0 then -(-q + 1 / 2).floor else (q + 1 / 2).floor

end Scalar

instance : Scalar Rat where
  ofNat n := n
  isFinite _ := true
  floor q := q.floor
  round q := Scalar.roundRat q
  abs q := if q < 0 then -q else q
  toWord q := .ofNat (min q.floor.toNat (UInt64.size - 1))
  decLt := inferInstance
  decLe := inferInstance

end RadioSpectrum
