import RadioSpectrum.Parameter
import RadioSpectrum.Spectrum.Window

namespace RadioSpectrum

inductive SampleFormat where
  -- Pairs of an in-phase and a quadrature sample.
  | interleavedIq
  | real
deriving Repr, DecidableEq

namespace SampleFormat

def samplesPerPoint : SampleFormat → Nat
  | interleavedIq => 2
  | real => 1

def all : List SampleFormat := [interleavedIq, real]

def name : SampleFormat → String
  | interleavedIq => "interleaved_iq"
  | real => "real"

def ofName? (name : String) : Option SampleFormat :=
  all.find? (·.name = name)

end SampleFormat

structure SpectrumConfig where
  fftSize : Nat := 2048
  window : Window := .rectangular
  format : SampleFormat := .interleavedIq
  fftShift : Bool := true
  decimation : Nat := 1
deriving Repr, DecidableEq

namespace SpectrumConfig

def minFftSize : Nat := 64

def maxFftSize : Nat := 65536

def maxDecimation : Nat := 1024

-- How often two divides a count of 64 bits.
def trailingZeros (n : Nat) : Nat :=
  ((List.range 64).find? fun k => n / Nat.pow 2 k % 2 = 1).getD 64

def isPowerOfTwo (n : Nat) : Bool :=
  n = Nat.pow 2 n.log2

def windowLength (c : SpectrumConfig) : Nat :=
  c.fftSize * c.format.samplesPerPoint

-- How many bins a window gives. Of real samples only the non-negative frequencies count.
def binCount (c : SpectrumConfig) : Nat :=
  match c.format with
  | .interleavedIq => c.fftSize
  | .real => c.fftSize / 2 + 1

-- Whether the bin of the tuned frequency is moved to the middle.
def isShifted (c : SpectrumConfig) : Bool :=
  c.fftShift && c.format = .interleavedIq

variable {α : Type} [Scalar α]

def validate (c : SpectrumConfig) : Except (StreamError α) Unit :=
  if !isPowerOfTwo c.fftSize ∨ c.fftSize < minFftSize ∨ maxFftSize < c.fftSize then
    .error (.invalidParameter "fft_size" (Scalar.ofNat c.fftSize)
      (.notPowerOfTwo minFftSize maxFftSize))
  else if c.decimation < 1 ∨ maxDecimation < c.decimation then
    .error (.invalidParameter "decimation" (Scalar.ofNat c.decimation)
      (.countOutOfRange 1 maxDecimation))
  else .ok ()

def binOffset (c : SpectrumConfig) (bin : Nat) (sampleRate : α) : α :=
  let width := sampleRate / Scalar.ofNat c.fftSize
  let b : α := Scalar.ofNat bin
  match c.format with
  | .real => b * width
  | .interleavedIq =>
    let half := c.fftSize / 2
    let signed :=
      if c.fftShift then b - Scalar.ofNat half
      else if bin < half then b
      else b - Scalar.ofNat c.fftSize
    signed * width

-- The settings as a table of parameters. The size stands there as the power of two that it is.
def parameters (c : SpectrumConfig) : Except (StreamError α) (List (Parameter α)) := do
  let n (k : Nat) : α := Scalar.ofNat k
  let order ← Parameter.ofRange "fft_order" (n (trailingZeros minFftSize))
    (n (trailingZeros maxFftSize)) (n 1) (n (trailingZeros c.fftSize))
  let window ← Parameter.ofRange "window" (n 0) (n (Window.all.length - 1)) (n 1) (n c.window.index)
  let shift ← Parameter.ofRange "fft_shift" (n 0) (n 1) (n 1) (n c.fftShift.toNat)
  let decimation ← Parameter.ofRange "decimation" (n 1) (n maxDecimation) (n 1) (n c.decimation)
  return [order, window.withUnit .choice, shift.withUnit .toggle, decimation]

def decode (c : SpectrumConfig) (index : Nat) (value : α) : SpectrumConfig :=
  match index with
  | 0 => { c with fftSize := Nat.pow 2 (Scalar.toWord value).toNat }
  | 1 => { c with window := (Window.ofIndex? (Scalar.toWord value).toNat).getD .rectangular }
  | 2 => { c with fftShift := Scalar.ofNat 1 / Scalar.ofNat 2 ≤ value }
  | 3 => { c with decimation := (Scalar.toWord value).toNat }
  | _ => c

def withParameter (c : SpectrumConfig) (index : Nat) (value : α) :
    Except (StreamError α) SpectrumConfig := do
  match (← c.parameters)[index]? with
  | none => .error (.unknownParameter .spectrum index)
  | some p =>
    let next := c.decode index (← p.setExact value).value
    next.validate (α := α)
    return next

end SpectrumConfig

end RadioSpectrum
