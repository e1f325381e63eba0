import RadioSpectrum.Spectrum.Config
import RadioSpectrum.Spectrum.Fourier
import RadioSpectrum.Spectrum.Precision
import RadioSpectrum.Transform

namespace RadioSpectrum

-- Of an odd count the first half is the longer one.
def fftShift {β : Type} (bins : List β) : List β :=
  let kept := bins.length - bins.length / 2
  bins.drop kept ++ bins.take kept

-- What a block computes with: the transform of points, and the cosine for its window function.
structure Kernel where
  transform : List (Complex Float32) → List (Complex Float32)
  cosine : Float32 → Float32

namespace Kernel

def ofCircle (circle : Fourier.Circle) (cosine : Float32 → Float32) : Kernel where
  transform := Fourier.transform32 circle
  cosine

def machine : Kernel :=
  ofCircle .machine Float32.cos

end Kernel

structure SpectrumBlock where
  config : SpectrumConfig
  kernel : Kernel
  coefficients : List Float32
  scratch : List (Complex Float32)

namespace SpectrumBlock

variable {α : Type} [Scalar α]

def ofConfig (kernel : Kernel) (config : SpectrumConfig) : Except (StreamError α) SpectrumBlock := do
  config.validate
  return {
    config, kernel
    coefficients := config.window.coefficients kernel.cosine config.fftSize
    scratch := List.replicate config.fftSize ⟨0, 0⟩ }

def scaled (x : Int8) : Float32 :=
  Precision.ofSample x * (1 / 128)

def pairs : List Int8 → List (Int8 × Int8)
  | i :: q :: r => (i, q) :: pairs r
  | _ => []

def points (b : SpectrumBlock) (window : List Int8) : List (Complex Float32) :=
  match b.config.format with
  | .interleavedIq =>
    List.zipWith (fun (i, q) w => ⟨scaled i * w, scaled q * w⟩) (pairs window) b.coefficients
  | .real => List.zipWith (fun x w => ⟨scaled x * w, 0⟩) window b.coefficients

-- Overwrites the scratch points with those of a window, as far as both reach.
def load (b : SpectrumBlock) (window : List Int8) : SpectrumBlock :=
  let fresh := (b.points window).take b.scratch.length
  { b with scratch := fresh ++ b.scratch.drop fresh.length }

def norm (z : Complex Float32) : Float32 :=
  let re := Precision.widen z.re
  let im := Precision.widen z.im
  Precision.narrow (re * re + im * im).sqrt

def compute (b : SpectrumBlock) (window : List Int8) :
    Except (StreamError α) (List Float32) × SpectrumBlock :=
  match Transform.checkWindow b.config.windowLength window with
  | .error e => (.error e, b)
  | .ok () =>
    let b := b.load window
    let b := { b with scratch := b.kernel.transform b.scratch }
    let bins := (b.scratch.take b.config.binCount).map norm
    let bins := if b.config.isShifted then fftShift bins else bins
    ((Transform.checkMagnitudes bins).map fun () => bins, b)

def name : String := "spectrum"

-- The block as the scheduler sees it. No window leaves a trace in the next result, so each one
-- may start from the same block.
def transform (b : SpectrumBlock) : Transform α where
  name := name
  inputLength := b.config.windowLength
  outputLength := b.config.binCount
  compute window := (b.compute window).1

end SpectrumBlock

end RadioSpectrum
