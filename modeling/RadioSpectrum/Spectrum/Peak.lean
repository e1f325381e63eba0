namespace RadioSpectrum

structure Peak (β : Type) where
  bin : Nat
  magnitude : β
deriving Repr

namespace Peak

variable {β : Type} [LT β] [LE β] [DecidableLT β] [DecidableLE β]

-- The bins that are positive, above their left neighbour and not below their right one, in
-- order. At an edge only the inner neighbour counts.
def candidates (zero : β) (left : Option β) (bin : Nat) : List β → List (Peak β)
  | [] => []
  | m :: rest =>
    let others := candidates zero (some m) (bin + 1) rest
    if zero < m ∧ left.all (· < m) ∧ rest.head?.all (· ≤ m) then ⟨bin, m⟩ :: others else others

-- The strongest `count` local maxima. Equal ones stay in the order of their bins.
def find (zero : β) (spectrum : List β) (count : Nat) : List (Peak β) :=
  ((candidates zero none 0 spectrum).mergeSort fun p q => !(p.magnitude < q.magnitude)).take count

end Peak

-- The level of a magnitude in decibels. Nothing lies below the level of `1e-10`.
def level (magnitude : Float32) : Float32 :=
  20 * (if 1e-10 < magnitude then magnitude else 1e-10).log10

end RadioSpectrum
