import RadioSpectrum.Proofs.Spectrum.Magnitudes

namespace RadioSpectrum

open Precision

namespace Fourier

-- Sines and cosines that lie between -1 and 1, as far as transforms need them.
structure Circle.Bounded (circle : Circle) : Prop where
  cos : ∀ n ≤ SpectrumConfig.maxFftSize, ∀ k < n,
    -1 ≤ circle.cos (angle k n) ∧ circle.cos (angle k n) ≤ 1
  sin : ∀ n ≤ SpectrumConfig.maxFftSize, ∀ k < n,
    -1 ≤ circle.sin (angle k n) ∧ circle.sin (angle k n) ≤ 1

-- The distance of both parts from zero is less than `2 ^ bound`.
structure Small (bound : Int) (z : Point) : Prop where
  re : Double bound z.re
  im : Double bound z.im

variable {circle : Circle} {points : List Point} {z w : Point} {k l : Int} {m n : Nat}

-- An even count of points is dealt into two halves, and the sums and the differences of their
-- transforms are as many again.
theorem length_transform (circle : Circle) (points : List Point) :
    (transform circle points).length = points.length := by
  fun_induction transform circle points
  case case1 points h halves hd even odd he ho =>
    have hl : even.length = points.length / 2 := he.trans (hd.left.trans (by omega))
    have hr : odd.length = points.length / 2 :=
      List.length_map _ |>.trans <| List.length_zipIdx.trans <| ho.trans hd.right
    rw [List.length_append, List.length_zipWith, List.length_zipWith, hl, hr]
    omega
  case case2 points h =>
    rw [List.length_map, List.length_range]

theorem length_transform32 (circle : Circle) (points : List (Complex Float32)) :
    (transform32 circle points).length = points.length := by
  rw [transform32, List.length_map, length_transform, List.length_map]

theorem mem_of_mem_deal :
    (z ∈ (deal points).1 → z ∈ points) ∧ (z ∈ (deal points).2 → z ∈ points) := by
  fun_induction deal points
  case case1 => simp
  case case2 => simp
  case case3 hi =>
    simp only [List.mem_cons]
    exact ⟨Or.imp_right (.inr ∘ hi.left), fun h => .inr (h.imp_right hi.right)⟩

theorem exists_of_mem_zipWith {β : Type} {f : β → β → β} {xs ys : List β} {x : β}
    (h : x ∈ List.zipWith f xs ys) : ∃ y ∈ xs, ∃ z ∈ ys, f y z = x := by
  rw [← List.map_uncurry_zip_eq_zipWith, List.mem_map] at h
  obtain ⟨⟨y, z⟩, hm, rfl⟩ := h
  exact ⟨y, (List.of_mem_zip hm).left, z, (List.of_mem_zip hm).right, rfl⟩

namespace Small

theorem mono (h : Small k z) (hkl : k ≤ l) : Small l z :=
  ⟨h.re.mono hkl, h.im.mono hkl⟩

theorem add (hz : Small k z) (hw : Small k w) (hl : -1021 ≤ k ∧ k + 1 < l ∧ l ≤ 1024) :
    Small l (add z w) :=
  ⟨hz.re.add hw.re hl, hz.im.add hw.im hl⟩

theorem sub (hz : Small k z) (hw : Small k w) (hl : -1021 ≤ k ∧ k + 1 < l ∧ l ≤ 1024) :
    Small l (sub z w) :=
  ⟨hz.re.sub hw.re hl, hz.im.sub hw.im hl⟩

theorem turn (h : circle.Bounded) (pos : 0 < n) (hn : n ≤ SpectrumConfig.maxFftSize)
    (hk : 0 ≤ k ∧ k ≤ 1000) (hz : Small k z) (i : Nat) : Small (k + 4) (turn circle i n z) := by
  have hl : Double 1 (-1) := by decide
  have hg : Double 1 1 := by decide
  have hi := Nat.mod_lt i pos
  have hc : Double 1 (circle.cos (angle (i % n) n)) :=
    hl.of_le hg (h.cos n hn _ hi).left (h.cos n hn _ hi).right
  have hs : Double 1 (circle.sin (angle (i % n) n)) :=
    hl.of_le hg (h.sin n hn _ hi).left (h.sin n hn _ hi).right
  have mul {x y : Float} (hx : Double k x) (hy : Double 1 y) : Double (k + 2) (x * y) :=
    hx.mul hy (by omega)
  have neg {x : Float} (hx : Double k x) : Double k (-x) := hx.neg (by omega)
  have le : k ≤ k + 4 := by omega
  unfold Fourier.turn
  dsimp only
  split_ifs
  · exact hz.mono le
  · exact .mono ⟨hz.im, neg hz.re⟩ le
  · exact .mono ⟨neg hz.re, neg hz.im⟩ le
  · exact .mono ⟨neg hz.im, hz.re⟩ le
  · exact ⟨(mul hz.re hc).add (mul hz.im hs) (by omega),
      (mul hz.im hc).sub (mul hz.re hs) (by omega)⟩

-- By induction on the rounds, of which each turns one half and adds it to the other.
theorem transform (h : circle.Bounded) (hm : m ≤ 16) (hk : 0 ≤ k ∧ k + 6 * m ≤ 1000)
    (hl : points.length = 2 ^ m) (hp : ∀ z ∈ points, Small k z) :
    ∀ z ∈ transform circle points, Small (k + 6 * m) z := by
  induction m generalizing points
  case zero =>
    obtain ⟨z, rfl⟩ := List.length_eq_one_iff.mp hl
    rw [Fourier.transform, dif_neg (by simp)]
    simpa [bin] using hp
  case succ m hi =>
    have hl' : points.length = 2 * 2 ^ m := hl.trans Nat.pow_succ'
    have pos := Nat.two_pow_pos m
    have ⟨he, ho⟩ := length_deal points
    have even := hi (by omega) (by omega) (he.trans (by omega)) fun z hz =>
      hp z (mem_of_mem_deal.left hz)
    have odd := hi (by omega) (by omega) (ho.trans (by omega)) fun z hz =>
      hp z (mem_of_mem_deal.right hz)
    have hn : points.length ≤ SpectrumConfig.maxFftSize :=
      hl.trans_le (Nat.pow_le_pow_right Nat.two_pos hm)
    have turned {w : Point} (i : Nat) (hw : w ∈ Fourier.transform circle (deal points).2) :
        Small (k + 6 * m + 4) (Fourier.turn circle i points.length w) :=
      (odd w hw).turn h (by omega) hn (by omega) i
    rw [Fourier.transform, dif_pos (by omega)]
    intro z hz
    obtain hz | hz := List.mem_append.mp hz
    all_goals
      obtain ⟨x, hx, y, hy, rfl⟩ := exists_of_mem_zipWith hz
      obtain ⟨⟨w, i⟩, hw, rfl⟩ := List.mem_map.mp hy
      have hx := (even x hx).mono (l := k + 6 * m + 4) (by omega)
      have hy := turned i (List.fst_mem_of_mem_zipIdx hw)
    case inl => exact hx.add hy (by omega)
    case inr => exact hx.sub hy (by omega)

end Small

theorem within_of_mem_transform32 (h : circle.Bounded) (hm : m ≤ 16)
    {points : List (Complex Float32)} (hl : points.length = 2 ^ m)
    (hp : ∀ z ∈ points, z.Within 1e5) : ∀ z ∈ transform32 circle points, z.Within 1e36 := by
  intro z hz
  obtain ⟨w, hw, rfl⟩ := List.mem_map.mp hz
  have widened : ∀ w ∈ points.map fun z => (⟨widen z.re, widen z.im⟩ : Point), Small 18 w := by
    intro w hw
    obtain ⟨z, hz, rfl⟩ := List.mem_map.mp hw
    have ⟨hr, hi⟩ : Single 17 z.re ∧ Single 17 z.im :=
      (hp z hz).single (by decide +kernel) (by decide +kernel)
    exact ⟨hr.widen (by decide), hi.widen (by decide)⟩
  have hw : Small 114 w :=
    (Small.transform h hm (by omega) ((List.length_map _).trans hl) widened w hw).mono (by omega)
  have hr : Single 115 (narrow w.re) := hw.re.narrow (by decide)
  have hi : Single 115 (narrow w.im) := hw.im.narrow (by decide)
  exact .of_single hr hi (by decide +kernel) (by decide +kernel)

end Fourier

namespace Kernel

theorem regular_ofCircle {circle : Fourier.Circle} {cosine : Float32 → Float32}
    (h : circle.Bounded) (hw : Window.Cosine cosine) : (ofCircle circle cosine).Regular where
  cosine           := hw
  length           := Fourier.length_transform32 circle
  bounded _ hm _ hl := Fourier.within_of_mem_transform32 h hm hl

theorem machine_regular (h : Fourier.Circle.machine.Bounded) (hw : Window.Cosine Float32.cos) :
    machine.Regular :=
  regular_ofCircle h hw

-- It turns by quarters only. Of points of which all but the first are zero, or all are the same, the
-- other turns are of zeros, so that what it computes of them is right.
def flat : Kernel :=
  ofCircle ⟨fun _ => 1, fun _ => 0⟩ fun _ => 1

theorem flat_regular : flat.Regular := by
  have cos : (-1 : Float) ≤ 1 ∧ (1 : Float) ≤ 1 := by decide
  have sin : (-1 : Float) ≤ 0 ∧ (0 : Float) ≤ 1 := by decide
  have cosine : (-1 : Float32) ≤ 1 ∧ (1 : Float32) ≤ 1 := by decide
  exact regular_ofCircle ⟨fun _ _ _ _ => cos, fun _ _ _ _ => sin⟩ fun _ _ _ _ _ _ => cosine

end Kernel

end RadioSpectrum
