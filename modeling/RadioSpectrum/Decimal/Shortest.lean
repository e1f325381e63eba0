import RadioSpectrum.Decimal.Binary

namespace RadioSpectrum

structure Decimal where
  digits : Nat
  exponent : Int
deriving Repr, DecidableEq

namespace Decimal

-- Zero has one digit.
def width (n : Nat) : Nat :=
  (Nat.toDigits 10 n).length

-- The position of the leading digit: the `k` with `10 ^ (k - 1) ≤ num / den < 10 ^ k`.
def magnitude (num den : Nat) : Int :=
  if den ≤ num then width (num / den)
  else
    let places := width (den / num)
    if den ≤ num * Nat.pow 10 (places - 1) then 2 - places else 1 - places

-- The part of the number line that rounds to one binary number, and that number, as multiples of
-- `unit / den`. The ends belong to it if `closed` holds.
structure Interval where
  lo : Nat
  mid : Nat
  hi : Nat
  den : Nat
  closed : Bool

namespace Interval

-- The lower half is shorter where the next smaller magnitude is nearer.
def ofBinary (m : Nat) (q : Int) (lopsided : Bool) : Interval :=
  let up := Nat.pow 2 (q - 2).toNat
  { lo := (4 * m - if lopsided then 1 else 2) * up
    mid := 4 * m * up
    hi := (4 * m + 2) * up
    den := Nat.pow 2 (2 - q).toNat
    closed := m % 2 = 0 }

def contains (i : Interval) (num scale : Nat) : Bool :=
  if i.closed then i.lo * scale ≤ num ∧ num ≤ i.hi * scale else i.lo * scale < num ∧ num < i.hi * scale

-- The decimal of at most `count` digits in the interval that is nearest to its number, if there
-- is one. Of two that are equally near the greater one is taken.
def withDigits? (i : Interval) (count : Nat) : Option Decimal :=
  let exponent := magnitude i.mid i.den - count
  -- one unit of the last digit is `unit / scale`, in multiples of the interval's denominator
  let scale := Nat.pow 10 (-exponent).toNat
  let unit := Nat.pow 10 exponent.toNat * i.den
  let below := i.mid * scale / unit
  let above := below + 1
  match i.contains (below * unit) scale, i.contains (above * unit) scale with
  | true, true =>
    if i.mid * scale - below * unit < above * unit - i.mid * scale then some ⟨below, exponent⟩
    else some ⟨above, exponent⟩
  | true, false => some ⟨below, exponent⟩
  | false, true => some ⟨above, exponent⟩
  | false, false => none

end Interval

def trim (d : Decimal) : Decimal :=
  if d.digits = 0 then ⟨0, 0⟩
  else if h : d.digits % 10 = 0 ∧ 0 < d.digits then trim ⟨d.digits / 10, d.exponent + 1⟩
  else d
termination_by d.digits
decreasing_by omega

-- Seventeen digits always suffice.
def shortest (m : Nat) (q : Int) (lopsided : Bool) : Decimal :=
  if m = 0 then ⟨0, 0⟩ else
    let interval := Interval.ofBinary m q lopsided
    ((List.range' 1 17).findSome? interval.withDigits?).elim ⟨m, 0⟩ trim

-- A half goes to the even neighbour.
def fixed (m : Nat) (q : Int) (places : Nat) : Nat :=
  BinaryFormat.divNearest (m * Nat.pow 2 q.toNat * Nat.pow 10 places) (Nat.pow 2 (-q).toNat)

end Decimal

end RadioSpectrum
