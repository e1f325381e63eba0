import RadioSpectrum.Proofs.Precision.Operations
import RadioSpectrum.Proofs.Spectrum.Config
import RadioSpectrum.Spectrum.Block

namespace RadioSpectrum

open Precision

namespace Window

-- The angles of which a window function takes the cosine.
def angles (n i : Nat) : List Float32 :=
  [angle n i, 2 * angle n i, 3 * angle n i]

-- A cosine that lies between -1 and 1, as far as window functions need it.
def Cosine (cosine : Float32 → Float32) : Prop :=
  ∀ n ≤ SpectrumConfig.maxFftSize, ∀ i < n, ∀ x ∈ angles n i, -1 ≤ cosine x ∧ cosine x ≤ 1

variable {cosine : Float32 → Float32} {n i : Nat}

theorem single_mul_cosine {factor x : Float32} (h : Single 0 factor)
    (hx : -1 ≤ cosine x ∧ cosine x ≤ 1) : Single 2 (factor * cosine x) := by
  have hl : Single 1 (-1) := by decide
  have hg : Single 1 1 := by decide
  exact h.mul (hl.of_le hg hx.left hx.right) (by decide)

-- Each window function is a sum of few terms, none of which is large.
theorem single_weight (h : ∀ x ∈ angles n i, -1 ≤ cosine x ∧ cosine x ≤ 1) (w : Window) :
    Single 8 (w.weight cosine n i) := by
  simp only [angles, List.forall_mem_cons] at h
  obtain ⟨hx, hx₂, hx₃, -⟩ := h
  cases w
  case rectangular => exact (by decide : Single 8 1)
  case hann =>
    have hl : Single 1 (-1) := by decide
    have h₁ : Single 1 1 := by decide
    have h₂ : Single 0 0.5 := by decide
    have hc := hl.of_le h₁ hx.left hx.right
    exact h₂.mul (k := 3) (h₁.sub hc (by decide)) (by decide)
  case hamming =>
    have h₁ : Single 2 0.54 := by decide
    have h₂ : Single 0 0.46 := by decide
    exact h₁.sub (single_mul_cosine h₂ hx) (by decide)
  case blackman =>
    have h₁ : Single 2 0.42 := by decide
    have h₂ : Single 0 0.5 := by decide
    have h₃ : Single 0 0.08 := by decide
    have h : Single 4 (0.42 - 0.5 * cosine (angle n i)) :=
      h₁.sub (single_mul_cosine h₂ hx) (by decide)
    exact h.add ((single_mul_cosine h₃ hx₂).mono (by decide)) (by decide)
  case blackmanHarris =>
    have h₁ : Single 2 0.35875 := by decide
    have h₂ : Single 0 0.48829 := by decide
    have h₃ : Single 0 0.14128 := by decide
    have h₄ : Single 0 0.01168 := by decide
    have h : Single 4 (0.35875 - 0.48829 * cosine (angle n i)) :=
      h₁.sub (single_mul_cosine h₂ hx) (by decide)
    have h' : Single 6 (0.35875 - 0.48829 * cosine (angle n i) +
        0.14128 * cosine (2 * angle n i)) :=
      h.add ((single_mul_cosine h₃ hx₂).mono (by decide)) (by decide)
    exact h'.sub ((single_mul_cosine h₄ hx₃).mono (by decide)) (by decide)

@[simp]
theorem length_coefficients (cosine : Float32 → Float32) (w : Window) (n : Nat) :
    (w.coefficients cosine n).length = n := by
  cases w <;> simp [coefficients, apply]

theorem single_of_mem_coefficients (h : Cosine cosine) (hn : n ≤ SpectrumConfig.maxFftSize)
    {w : Window} {c : Float32} (hc : c ∈ w.coefficients cosine n) : Single 10 c := by
  have h₁ : Single 1 1 := by decide
  have hw {p : Float32 × Nat} (hp : p ∈ (List.replicate n (1 : Float32)).zipIdx) :
      Single 10 (p.1 * w.weight cosine (List.replicate n (1 : Float32)).length p.2) := by
    obtain ⟨x, i⟩ := p
    have hi : i < n := by simpa using List.snd_lt_of_mem_zipIdx hp
    obtain rfl := List.eq_of_mem_replicate (List.fst_mem_of_mem_zipIdx hp)
    rw [List.length_replicate]
    exact h₁.mul (single_weight (h n hn i hi) w) (by decide)
  cases w
  case rectangular => exact List.eq_of_mem_replicate hc ▸ h₁.mono (by decide)
  all_goals
    obtain ⟨p, hp, rfl⟩ := List.mem_map.mp hc
    exact hw hp

end Window

-- Both parts of a point lie between `-bound` and `bound`.
structure Complex.Within (bound : Float32) (z : Complex Float32) : Prop where
  re_ge : -bound ≤ z.re
  re_le : z.re ≤ bound
  im_ge : -bound ≤ z.im
  im_le : z.im ≤ bound

theorem Complex.Within.of_single {k : Int} {bound : Float32} {z : Complex Float32}
    (hr : Single k z.re) (hi : Single k z.im)
    (hp : Beyond .binary32 k .positive bound.toModel.unpack)
    (hn : Beyond .binary32 k .negative (-bound).toModel.unpack) : z.Within bound :=
  ⟨hr.ge_of_beyond hn, hr.le_of_beyond hp, hi.ge_of_beyond hn, hi.le_of_beyond hp⟩

theorem Complex.Within.single {k : Int} {bound : Float32} {z : Complex Float32} (h : z.Within bound)
    (hp : Single k bound) (hn : Single k (-bound)) : Single k z.re ∧ Single k z.im :=
  ⟨hn.of_le hp h.re_ge h.re_le, hn.of_le hp h.im_ge h.im_le⟩

-- What is taken for granted about a kernel. Finite parts alone would not do, for the magnitude of a
-- point may be infinite though its parts are not.
structure Kernel.Regular (kernel : Kernel) : Prop where
  cosine  : Window.Cosine kernel.cosine
  length  : ∀ points, (kernel.transform points).length = points.length
  bounded : ∀ m ≤ 16, ∀ points : List (Complex Float32), points.length = 2 ^ m →
    (∀ z ∈ points, z.Within 1e5) → ∀ z ∈ kernel.transform points, z.Within 1e36

-- A number that can be a magnitude.
structure Magnitude (x : Float32) : Prop where
  finite      : x.isFinite
  nonNegative : 0 ≤ x

-- The bins that the settings ask for.
structure SpectrumConfig.Shaped (config : SpectrumConfig) (bins : List Float32) : Prop where
  length     : bins.length = config.binCount
  magnitudes : ∀ x ∈ bins, Magnitude x

namespace SpectrumBlock

variable {α : Type} {config : SpectrumConfig} {kernel : Kernel} {b : SpectrumBlock}
  {window : List Int8} {z : Complex Float32}

theorem single_scaled (x : Int8) : Single 4 (scaled x) := by
  have h₁ : Single (-6) (1 / 128) := by decide
  exact (single_ofSample x).mul h₁ (by decide)

theorem single_sample (x : Int8) {c : Float32} (h : Single 10 c) : Single 15 (scaled x * c) :=
  (single_scaled x).mul h (by decide)

-- The squares of the parts are far from the limits of double precision.
theorem magnitude_norm (h : z.Within 1e36) : Magnitude (norm z) := by
  have ⟨hr, hi⟩ : Single 120 z.re ∧ Single 120 z.im :=
    h.single (by decide +kernel) (by decide +kernel)
  have hr' : Double 121 (widen z.re) := hr.widen (by decide)
  have hi' : Double 121 (widen z.im) := hi.widen (by decide)
  have hr₂ : Double 243 (widen z.re * widen z.re) := hr'.mul hr' (by decide)
  have hi₂ : Double 243 (widen z.im * widen z.im) := hi'.mul hi' (by decide)
  have hs : Double 245 (widen z.re * widen z.re + widen z.im * widen z.im) :=
    hr₂.add hi₂ (by decide)
  have hn := nonNegative_add_mul_self (widen z.re) (widen z.im)
  have hm : Single 125 (norm z) := (hs.sqrt (j := 123) hn (by decide)).narrow (by decide)
  exact ⟨hm.isFinite, hm.zero_le (nonNegative_narrow_sqrt _)⟩

-- Both parts are finite here, but far from the bound.
example : ¬(norm ⟨3e38, 3e38⟩).isFinite := by
  decide +kernel

theorem length_pairs : (window : List Int8) → (pairs window).length = window.length / 2
  | []          => by simp [pairs]
  | [_]         => by simp [pairs]
  | i :: q :: r => by
    have := length_pairs r
    simp only [pairs, List.length_cons]
    omega

theorem length_points (hc : b.coefficients.length = b.config.fftSize)
    (hw : window.length = b.config.windowLength) :
    (b.points window).length = b.config.fftSize := by
  unfold points
  unfold SpectrumConfig.windowLength at hw
  split
  all_goals
    rename_i hf
    rw [hf, SampleFormat.samplesPerPoint] at hw
    simp only [List.length_zipWith, length_pairs, hc]
    omega

theorem within_of_mem_points (hc : ∀ c ∈ b.coefficients, Single 10 c)
    (hz : z ∈ b.points window) : z.Within 1e5 := by
  have h₀ : Single 15 0 := by decide
  have hp : Beyond .binary32 15 .positive (1e5 : Float32).toModel.unpack := by decide
  have hn : Beyond .binary32 15 .negative (-1e5 : Float32).toModel.unpack := by decide
  unfold points at hz
  split at hz
  all_goals
    rw [← List.map_uncurry_zip_eq_zipWith, List.mem_map] at hz
    obtain ⟨⟨x, c⟩, hm, rfl⟩ := hz
    have h := hc c (List.of_mem_zip hm).right
  case h_1 => exact .of_single (single_sample _ h) (single_sample _ h) hp hn
  case h_2 => exact .of_single (single_sample _ h) h₀ hp hn

-- A window overwrites whatever the one before left in the scratch points.
theorem load_scratch (h : (b.points window).length = b.scratch.length) :
    (b.load window).scratch = b.points window := by
  simp [load, h, List.take_of_length_le, List.drop_eq_nil_of_le]

theorem length_fftShift {β : Type} (bins : List β) : (fftShift bins).length = bins.length := by
  simp [fftShift]

theorem mem_fftShift {β : Type} {bins : List β} {x : β} : x ∈ fftShift bins ↔ x ∈ bins := by
  rw [fftShift, List.mem_append, or_comm, ← List.mem_append, List.take_append_drop]

theorem checkMagnitudes_eq_ok {bins : List Float32} :
    Transform.checkMagnitudes (α := α) bins = .ok () ↔ ∀ x ∈ bins, Transform.isMagnitude x := by
  have hn : bins.zipIdx.find? (!Transform.isMagnitude ·.1) = none ↔
      ∀ x ∈ bins, Transform.isMagnitude x := by
    simp only [List.find?_eq_none, Bool.not_eq_true', Bool.not_eq_false, Prod.forall]
    constructor
    case mp =>
      intro h x hx
      obtain ⟨i, hi⟩ := List.getElem?_of_mem hx
      exact h x i (List.mk_mem_zipIdx_iff_getElem?.mpr hi)
    case mpr => exact fun h x i hi => h x (List.fst_mem_of_mem_zipIdx hi)
  rw [← hn, Transform.checkMagnitudes]
  split
  case h_1 h => exact iff_of_true rfl h
  case h_2 h => rw [h]; exact iff_of_false nofun nofun

theorem checkMagnitudes_of_magnitude {bins : List Float32} (h : ∀ x ∈ bins, Magnitude x) :
    Transform.checkMagnitudes (α := α) bins = .ok () := by
  refine checkMagnitudes_eq_ok.mpr fun x hx => ?_
  have ⟨finite, nonNegative⟩ := h x hx
  simp [Transform.isMagnitude, finite, not_lt_zero nonNegative]

-- A block between two windows.
structure Ready (b : SpectrumBlock) : Prop where
  bins         : b.config.binCount ≤ b.config.fftSize
  points       : ∃ m ≤ 16, b.config.fftSize = 2 ^ m
  coefficients : b.coefficients.length = b.config.fftSize
  scratch      : b.scratch.length = b.config.fftSize

theorem Ready.compute_fst (h : b.Ready) (hw : window.length = b.config.windowLength) :
    (b.compute (α := α) window).1 =
      (let bins := ((b.kernel.transform (b.points window)).take b.config.binCount).map norm
      let bins := if b.config.isShifted then fftShift bins else bins
      (Transform.checkMagnitudes bins).map fun () => bins) := by
  have hp := length_points h.coefficients hw
  have hl := load_scratch (hp.trans h.scratch.symm)
  simp only [compute, Transform.checkWindow, if_pos hw, hl]
  rfl

theorem Ready.length_bins (h : b.Ready)
    (hk : ∀ points, (b.kernel.transform points).length = points.length)
    (hw : window.length = b.config.windowLength) :
    (((b.kernel.transform (b.points window)).take b.config.binCount).map norm).length =
      b.config.binCount := by
  rw [List.length_map, List.length_take, hk, length_points h.coefficients hw]
  exact Nat.min_eq_left h.bins

theorem Ready.exists_compute (h : b.Ready) (hk : b.kernel.Regular)
    (hc : ∀ c ∈ b.coefficients, Single 10 c) (hw : window.length = b.config.windowLength) :
    ∃ bins, (b.compute (α := α) window).1 = .ok bins ∧ b.config.Shaped bins := by
  have hp := length_points h.coefficients hw
  obtain ⟨m, hm, hf⟩ := h.points
  have hz := hk.bounded m hm (b.points window) (hp.trans hf) fun z hz => within_of_mem_points hc hz
  rw [h.compute_fst hw]
  dsimp only
  generalize hb : ((b.kernel.transform (b.points window)).take b.config.binCount).map norm = bins
  have hl : bins.length = b.config.binCount := hb ▸ h.length_bins hk.length hw
  have hm : ∀ x ∈ bins, Magnitude x := by
    intro x hx
    obtain ⟨z, hz', rfl⟩ := List.mem_map.mp (hb ▸ hx)
    exact magnitude_norm (hz z (List.mem_of_mem_take hz'))
  split
  case isTrue =>
    have hm' : ∀ x ∈ fftShift bins, Magnitude x := fun x hx => hm x (mem_fftShift.mp hx)
    exact ⟨_, by rw [checkMagnitudes_of_magnitude hm']; rfl, (length_fftShift _).trans hl, hm'⟩
  case isFalse => exact ⟨_, by rw [checkMagnitudes_of_magnitude hm]; rfl, hl, hm⟩

variable [Scalar α]

theorem exists_ofConfig (kernel : Kernel) (h : config.validate (α := α) = .ok ()) :
    ∃ b, ofConfig (α := α) kernel config = .ok b :=
  ⟨_, bind_eq_ok.mpr ⟨(), h, rfl⟩⟩

theorem ready_of_ofConfig (h : ofConfig (α := α) kernel config = .ok b) :
    b.config = config ∧ b.kernel = kernel ∧ b.Ready := by
  simp only [ofConfig, bind_eq_ok, pure_eq_ok] at h
  obtain ⟨_, hv, rfl⟩ := h
  obtain ⟨m, hm, hf⟩ := (SpectrumConfig.validate_eq_ok.mp hv).fftSize
  exact ⟨rfl, rfl, SpectrumConfig.binCount_le_fftSize hv, ⟨m, hm.right, hf⟩,
    Window.length_coefficients _ _ _, List.length_replicate⟩

theorem single_coefficients (hk : kernel.Regular) (h : ofConfig (α := α) kernel config = .ok b) :
    ∀ c ∈ b.coefficients, Single 10 c := by
  simp only [ofConfig, bind_eq_ok, pure_eq_ok] at h
  obtain ⟨_, hv, rfl⟩ := h
  exact fun _ =>
    Window.single_of_mem_coefficients hk.cosine (SpectrumConfig.fftSize_of_validate hv).right

end SpectrumBlock

end RadioSpectrum
