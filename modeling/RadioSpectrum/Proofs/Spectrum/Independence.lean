import RadioSpectrum.Proofs.Spectrum.Kernel

namespace RadioSpectrum

namespace SpectrumBlock

variable {α : Type} {kernel : Kernel} {config : SpectrumConfig} {b b₁ b₂ : SpectrumBlock}
  {window : List Int8}

-- The results of windows that come one after another, and the block after the last one.
def computeAll (b : SpectrumBlock) :
    List (List Int8) → List (Except (StreamError α) (List Float32)) × SpectrumBlock
  | [] => ([], b)
  | window :: windows =>
    let (result, b) := b.compute window
    let (results, b) := b.computeAll windows
    (result :: results, b)

-- That two blocks differ in nothing but the points they work on, of which they have equally many.
structure Alike (b b₁ : SpectrumBlock) : Prop where
  config       : b₁.config = b.config
  kernel       : b₁.kernel = b.kernel
  coefficients : b₁.coefficients = b.coefficients
  scratch      : b₁.scratch.length = b.scratch.length

namespace Alike

theorem refl (b : SpectrumBlock) : b.Alike b :=
  ⟨rfl, rfl, rfl, rfl⟩

theorem trans (h : b.Alike b₁) (h' : b₁.Alike b₂) : b.Alike b₂ where
  config       := h'.config.trans h.config
  kernel       := h'.kernel.trans h.kernel
  coefficients := h'.coefficients.trans h.coefficients
  scratch      := h'.scratch.trans h.scratch

theorem points_eq (h : b.Alike b₁) (window : List Int8) : b₁.points window = b.points window := by
  rw [points, points, h.config, h.coefficients]

end Alike

theorem compute_of_malformed (h : window.length ≠ b.config.windowLength) :
    b.compute (α := α) window =
      (.error (.malformedWindow b.config.windowLength window.length), b) := by
  simp only [compute, Transform.checkWindow, if_neg h]

-- Loading a window leaves as many points as there were, however many the window has.
theorem load_alike (b : SpectrumBlock) (window : List Int8) : b.Alike (b.load window) where
  config       := rfl
  kernel       := rfl
  coefficients := rfl
  scratch      := by
    simp only [load, List.length_append, List.length_take, List.length_drop]
    omega

theorem compute_alike (hk : ∀ points, (b.kernel.transform points).length = points.length)
    (window : List Int8) : b.Alike (b.compute (α := α) window).2 := by
  by_cases hw : window.length = b.config.windowLength
  case neg =>
    rw [compute_of_malformed hw]
    exact .refl b
  case pos =>
    have hl := b.load_alike window
    simp only [compute, Transform.checkWindow, if_pos hw]
    exact ⟨rfl, rfl, rfl, (hk _).trans hl.scratch⟩

namespace Ready

-- A window of the right length overwrites all points.
theorem load_eq (h : b.Ready) (ha : b.Alike b₁) (hw : window.length = b.config.windowLength) :
    b₁.load window = b.load window := by
  have hp := ha.points_eq window
  have hl : (b.points window).length = b.scratch.length :=
    (length_points h.coefficients hw).trans h.scratch.symm
  have hs : (b₁.load window).scratch = (b.load window).scratch := by
    rw [load_scratch hl, load_scratch (by rw [hp, hl, ha.scratch]), hp]
  obtain ⟨_, _, _, _⟩ := b
  obtain ⟨_, _, _, _⟩ := b₁
  obtain ⟨rfl, rfl, rfl, -⟩ := ha
  exact congrArg (SpectrumBlock.mk _ _ _) hs

theorem compute_eq (h : b.Ready) (ha : b.Alike b₁) (hw : window.length = b.config.windowLength) :
    b₁.compute (α := α) window = b.compute window := by
  simp only [compute, Transform.checkWindow, h.load_eq ha hw, ha.config, if_pos hw]

theorem compute_fst_eq (h : b.Ready) (ha : b.Alike b₁) (window : List Int8) :
    (b₁.compute (α := α) window).1 = (b.compute window).1 := by
  by_cases hw : window.length = b.config.windowLength
  case pos => rw [h.compute_eq ha hw]
  case neg =>
    have hw' : window.length ≠ b₁.config.windowLength := ha.config ▸ hw
    rw [compute_of_malformed hw, compute_of_malformed hw', ha.config]

-- By induction on the windows: whichever comes next finds a block that is like the first one.
theorem computeAll_eq (h : b.Ready)
    (hk : ∀ points, (b.kernel.transform points).length = points.length)
    (windows : List (List Int8)) (ha : b.Alike b₁) :
    (b₁.computeAll windows).1 = windows.map (b.transform (α := α)).compute ∧
      b.Alike (b₁.computeAll (α := α) windows).2 := by
  induction windows generalizing b₁
  case nil => exact ⟨rfl, ha⟩
  case cons window windows hi =>
    have hn : b.Alike (b₁.compute (α := α) window).2 :=
      ha.trans (compute_alike (fun points => ha.kernel ▸ hk points) window)
    obtain ⟨hr, hs⟩ := hi hn
    exact ⟨congrArg₂ List.cons (h.compute_fst_eq ha window) hr, hs⟩

theorem length_of_compute {bins : List Float32} (h : b.Ready)
    (hk : ∀ points, (b.kernel.transform points).length = points.length)
    (hb : (b.compute (α := α) window).1 = .ok bins) : bins.length = b.config.binCount := by
  by_cases hw : window.length = b.config.windowLength
  case neg =>
    rw [compute_of_malformed hw] at hb
    contradiction
  case pos =>
    rw [h.compute_fst hw] at hb
    obtain ⟨⟨⟩, -, rfl⟩ := map_eq_ok.mp hb
    have hl := h.length_bins hk hw
    split
    case isTrue  => exact (length_fftShift _).trans hl
    case isFalse => exact hl

end Ready

variable [Scalar α]

-- After any windows, of whatever lengths, a block gives for a window what it gave when it was new,
-- so that it does what the scheduler is told of it. A window of another length than the settings
-- ask for is refused and leaves the block as it is. What is not refused has as many bins as the
-- settings say.
theorem windows_independent (hk : ∀ points, (kernel.transform points).length = points.length)
    (hv : config.validate (α := α) = .ok ()) (earlier : List (List Int8)) :
    ∃ b after, ofConfig (α := α) kernel config = .ok b ∧
      b.computeAll earlier = (earlier.map (b.transform (α := α)).compute, after) ∧
      ∀ window,
        (after.compute (α := α) window).1 = (b.compute window).1 ∧
        (window.length = config.windowLength →
          (after.compute (α := α) window).2 = (b.compute (α := α) window).2) ∧
        (window.length ≠ config.windowLength → after.compute (α := α) window =
          (.error (.malformedWindow config.windowLength window.length), after)) ∧
        ∀ bins, (after.compute (α := α) window).1 = .ok bins → bins.length = config.binCount := by
  obtain ⟨b, hb⟩ := exists_ofConfig kernel hv
  obtain ⟨rfl, rfl, h⟩ := ready_of_ofConfig hb
  obtain ⟨hr, ha⟩ := h.computeAll_eq (α := α) hk earlier (.refl b)
  refine ⟨b, (b.computeAll (α := α) earlier).2, hb, Prod.ext hr rfl, fun window => ?_⟩
  refine ⟨h.compute_fst_eq ha window, fun hw => by rw [h.compute_eq ha hw], fun hw => ?_, ?_⟩
  case refine_1 =>
    have hw' : window.length ≠ (b.computeAll (α := α) earlier).2.config.windowLength :=
      ha.config ▸ hw
    rw [compute_of_malformed hw', ha.config]
  case refine_2 =>
    intro bins hbins
    exact h.length_of_compute hk ((h.compute_fst_eq ha window).symm.trans hbins)

def smallest : SpectrumConfig := { fftSize := 64 }

def impulse : List Int8 :=
  64 :: List.replicate 127 0

-- A loud window and one that is too short come before.
theorem windows_independent_smallest :
    (∀ points, (Kernel.flat.transform points).length = points.length) ∧
    smallest.validate (α := Rat) = .ok () ∧
    ∃ b after, ofConfig (α := Rat) .flat smallest = .ok b ∧
      b.computeAll (α := Rat) [List.replicate 128 127, [1, 2, 3]] =
        ([List.replicate 128 127, [1, 2, 3]].map (b.transform (α := Rat)).compute, after) ∧
      (after.compute (α := Rat) impulse).1 = .ok (List.replicate 64 0.5) ∧
      after.compute (α := Rat) [4, 5] = (.error (.malformedWindow 128 2), after) := by
  have hk := Kernel.flat_regular.length
  have hv : smallest.validate (α := Rat) = .ok () := rfl
  obtain ⟨b, after, hb, hr, h⟩ := windows_independent hk hv [List.replicate 128 127, [1, 2, 3]]
  have hf : ((ofConfig (α := Rat) .flat smallest).toOption.bind fun b =>
      (b.compute (α := Rat) impulse).1.toOption) = some (List.replicate 64 0.5) := by
    decide +kernel
  obtain ⟨_, hb', hc⟩ := Option.bind_eq_some_iff.mp hf
  cases hb.symm.trans (toOption_eq_some.mp hb')
  exact ⟨hk, hv, b, after, hb, hr, (h impulse).left.trans (toOption_eq_some.mp hc),
    (h [4, 5]).right.right.left (by decide)⟩

end SpectrumBlock

end RadioSpectrum
