import RadioSpectrum.Files

namespace RadioSpectrum

namespace Bytes

def ofNat : (count : Nat) → Nat → Bytes
  | 0, _ => []
  | count + 1, n => .ofNat n :: ofNat count (n / 256)

def toNat : Bytes → Nat
  | [] => 0
  | b :: r => b.toNat + 256 * toNat r

-- The signed number of as many bytes.
def toInt (bytes : Bytes) : Int :=
  let n := toNat bytes
  if 2 * n < Nat.pow 256 bytes.length then n else n - Nat.pow 256 bytes.length

def take? (count : Nat) (bytes : Bytes) : Option (Bytes × Bytes) :=
  let front := bytes.take count
  if front.length = count then some (front, bytes.drop count) else none

-- Splits off a number of `count` bytes.
def nat? (count : Nat) (bytes : Bytes) : Option (Nat × Bytes) :=
  (take? count bytes).map fun (front, rest) => (toNat front, rest)

theorem length_ofNat (count n : Nat) : (ofNat count n).length = count := by
  induction count generalizing n with
  | zero => rfl
  | succ count ih => simp [ofNat, ih]

theorem toNat_ofNat (count n : Nat) : toNat (ofNat count n) = n % Nat.pow 256 count := by
  induction count generalizing n with
  | zero => simp [ofNat, toNat, Nat.mod_one]
  | succ count ih =>
    have low : (UInt8.ofNat n).toNat = n % 256 := UInt8.toNat_ofNat'
    have power : Nat.pow 256 (count + 1) = 256 * Nat.pow 256 count := Nat.mul_comm ..
    rw [ofNat, toNat, ih, low, power, Nat.mod_mul]

theorem take?_append (front rest : Bytes) :
    take? front.length (front ++ rest) = some (front, rest) := by
  simp [take?]

end Bytes

end RadioSpectrum
