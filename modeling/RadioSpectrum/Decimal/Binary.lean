namespace RadioSpectrum

-- A binary interchange format: `precision` digits in the significand and `width` digits in the
-- exponent field.
structure BinaryFormat where
  precision : Nat
  width : Nat

namespace BinaryFormat

def binary64 : BinaryFormat := ⟨53, 11⟩

def binary32 : BinaryFormat := ⟨24, 8⟩

-- The exponent of the last place of the smallest numbers.
def lowest (f : BinaryFormat) : Int :=
  3 - Nat.pow 2 (f.width - 1) - f.precision

def special (f : BinaryFormat) : Nat :=
  Nat.pow 2 f.width - 1

-- A half goes to the even neighbour.
def divNearest (num den : Nat) : Nat :=
  let quotient := num / den
  let rest := 2 * (num % den)
  if rest > den ∨ (rest = den ∧ quotient % 2 = 1) then quotient + 1 else quotient

-- Ties go to the even significand, and what is too large becomes infinity.
def nearest (f : BinaryFormat) (num den : Nat) : Nat :=
  if num = 0 then 0 else
    -- the quotient lies in [2 ^ (size - 1), 2 ^ (size + 1))
    let size : Int := (num.log2 : Int) - den.log2
    let scaled (q : Int) := divNearest (num * Nat.pow 2 (-q).toNat) (den * Nat.pow 2 q.toNat)
    let q := Max.max (size - f.precision) f.lowest
    let hidden := Nat.pow 2 (f.precision - 1)
    let whole (q : Int) := num * Nat.pow 2 (-q).toNat / (den * Nat.pow 2 q.toNat)
    let q := if whole (q + 1) < hidden then q else q + 1
    let m := scaled q
    let field := (q - f.lowest).toNat
    let bits := if m < hidden then m else (field + 1) * hidden + (m - hidden)
    Min.min bits (f.special * hidden)

end BinaryFormat

inductive BinaryValue where
  | undefined
  | infinite (negative : Bool)
  -- The number `± m · 2 ^ q`. It is `lopsided` if the next smaller magnitude is only half as far
  -- away as the next greater one.
  | finite (negative : Bool) (m : Nat) (q : Int) (lopsided : Bool)
deriving Repr, DecidableEq

namespace BinaryFormat

def decode (f : BinaryFormat) (bits : Nat) : BinaryValue :=
  let hidden := Nat.pow 2 (f.precision - 1)
  let fraction := bits % hidden
  let field := bits / hidden % Nat.pow 2 f.width
  let negative := bits / hidden / Nat.pow 2 f.width % 2 = 1
  if field = f.special then
    if fraction = 0 then .infinite negative else .undefined
  else if field = 0 then .finite negative fraction f.lowest false
  else .finite negative (hidden + fraction) (f.lowest + (field - 1)) (fraction = 0 ∧ 1 < field)

end BinaryFormat

class Binary (β : Type) where
  format : BinaryFormat
  toPattern : β → Nat
  ofPattern : Nat → β

instance : Binary Float where
  format := .binary64
  toPattern x := x.toBits.toNat
  ofPattern n := .ofBits (.ofNat n)

instance : Binary Float32 where
  format := .binary32
  toPattern x := x.toBits.toNat
  ofPattern n := .ofBits (.ofNat n)

namespace Binary

variable {β : Type} [Binary β]

def value (x : β) : BinaryValue :=
  (format β).decode (toPattern x)

def ofFraction (negative : Bool) (num den : Nat) : β :=
  let f := format β
  let sign := if negative then Nat.pow 2 (f.width + f.precision - 1) else 0
  ofPattern (sign + f.nearest num den)

-- The number nearest to `± digits · 10 ^ exponent`. An exponent far outside the format's range
-- decides the result on its own, so no huge power is formed.
def ofDecimal (negative : Bool) (digits : Nat) (exponent : Int) : β :=
  let size : Int := (Nat.toDigits 10 digits).length + exponent
  if digits = 0 ∨ size < -400 then ofFraction negative 0 1
  else if 400 < size then ofFraction negative (Nat.pow 10 400) 1
  else ofFraction negative (digits * Nat.pow 10 exponent.toNat) (Nat.pow 10 (-exponent).toNat)

end Binary

end RadioSpectrum
