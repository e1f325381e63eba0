import RadioSpectrum.Spectrum.Precision

namespace RadioSpectrum

structure Complex (β : Type) where
  re : β
  im : β
deriving Repr

namespace Fourier

abbrev Point := Complex Float

structure Circle where
  cos : Float → Float
  sin : Float → Float

def Circle.machine : Circle where
  cos := Float.cos
  sin := Float.sin

def add (z w : Point) : Point :=
  ⟨z.re + w.re, z.im + w.im⟩

def sub (z w : Point) : Point :=
  ⟨z.re - w.re, z.im - w.im⟩

def angle (k n : Nat) : Float :=
  2 * 3.141592653589793 * k.toFloat / n.toFloat

-- Turns a point clockwise by `k / n` of the circle. Quarter turns only exchange the parts, so
-- they are exact.
def turn (circle : Circle) (k n : Nat) (z : Point) : Point :=
  let k := k % n
  if k = 0 then z
  else if 4 * k = n then ⟨z.im, -z.re⟩
  else if 2 * k = n then ⟨-z.re, -z.im⟩
  else if 4 * k = 3 * n then ⟨-z.im, z.re⟩
  else
    let c := circle.cos (angle k n)
    let s := circle.sin (angle k n)
    ⟨z.re * c + z.im * s, z.im * c - z.re * s⟩

def bin (circle : Circle) (points : List Point) (k : Nat) : Point :=
  let n := points.length
  match points with
  | [] => ⟨0, 0⟩
  | z :: r => (r.zipIdx 1).foldl (fun sum (w, i) => add sum (turn circle (k * i) n w)) z

def deal : List Point → List Point × List Point
  | [] => ([], [])
  | [z] => ([z], [])
  | z :: w :: r => (z :: (deal r).1, w :: (deal r).2)

theorem length_deal (points : List Point) :
    (deal points).1.length = (points.length + 1) / 2 ∧ (deal points).2.length = points.length / 2 := by
  fun_induction deal points with
  | case1 => simp
  | case2 => simp
  | case3 z w r ih => simp only [List.length_cons]; omega

-- The transform. An even count of points is dealt into two halves whose transforms are joined;
-- an odd count is summed up bin by bin.
def transform (circle : Circle) (points : List Point) : List Point :=
  if _ : 2 ≤ points.length ∧ points.length % 2 = 0 then
    let halves := deal points
    have := length_deal points
    let even := transform circle halves.1
    let odd := (transform circle halves.2).zipIdx.map fun (z, k) => turn circle k points.length z
    List.zipWith add even odd ++ List.zipWith sub even odd
  else (List.range points.length).map (bin circle points)
termination_by points.length
decreasing_by all_goals omega

def transform32 (circle : Circle) (points : List (Complex Float32)) : List (Complex Float32) :=
  let points := points.map fun z => ⟨Precision.widen z.re, Precision.widen z.im⟩
  (transform circle points).map fun z => ⟨Precision.narrow z.re, Precision.narrow z.im⟩

end Fourier

end RadioSpectrum
