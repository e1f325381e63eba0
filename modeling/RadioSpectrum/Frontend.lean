import RadioSpectrum.Parameter

namespace RadioSpectrum

structure FrontendConfig where
  -- Centre frequency in Hz.
  freq : Nat := 2480000000
  amp : Nat := 1
  -- Gain of the low-noise amplifier in dB.
  lna : Nat := 32
  -- Gain of the variable amplifier in dB.
  vga : Nat := 14
  sampleRate : Nat := 4000000
deriving Repr, DecidableEq

structure FrontendSettings (α : Type) where
  freq : Parameter α
  amp : Parameter α
  lna : Parameter α
  vga : Parameter α
  sampleRate : Parameter α

namespace FrontendSettings

variable {α : Type} [Scalar α]

def ofConfig (c : FrontendConfig) : Except (StreamError α) (FrontendSettings α) := do
  let entry (id : String) (unit : DisplayUnit) (min max step default : Nat) :
      Except (StreamError α) (Parameter α) := do
    let p ← Parameter.ofRange id (Scalar.ofNat min) (Scalar.ofNat max) (Scalar.ofNat step)
      (Scalar.ofNat default)
    return p.withUnit unit
  let freq ← entry "freq" .hertz 1000000 6000000000 1 2480000000
  let amp ← entry "amp" .toggle 0 1 1 1
  let lna ← entry "lna" .decibels 0 40 8 32
  let vga ← entry "vga" .decibels 0 62 2 14
  let sampleRate ← entry "sample_rate" .samplesPerSecond 1000000 20000000 1 4000000
  return {
    freq := ← freq.setExact (Scalar.ofNat c.freq)
    amp := ← amp.setExact (Scalar.ofNat c.amp)
    lna := ← lna.setExact (Scalar.ofNat c.lna)
    vga := ← vga.setExact (Scalar.ofNat c.vga)
    sampleRate := ← sampleRate.setExact (Scalar.ofNat c.sampleRate) }

def parameters (s : FrontendSettings α) : List (Parameter α) :=
  [s.freq, s.amp, s.lna, s.vga, s.sampleRate]

def set (s : FrontendSettings α) (index : Nat) (value : α) :
    Except (StreamError α) (α × FrontendSettings α) := do
  match index with
  | 0 => let p ← s.freq.setExact value; return (p.value, { s with freq := p })
  | 1 => let p ← s.amp.setExact value; return (p.value, { s with amp := p })
  | 2 => let p ← s.lna.setExact value; return (p.value, { s with lna := p })
  | 3 => let p ← s.vga.setExact value; return (p.value, { s with vga := p })
  | 4 => let p ← s.sampleRate.setExact value; return (p.value, { s with sampleRate := p })
  | _ => .error (.unknownParameter .frontend index)

-- The settings as plain counts; fractions are dropped.
def toConfig (s : FrontendSettings α) : FrontendConfig where
  freq := (Scalar.toWord s.freq.value).toNat
  amp := (Scalar.toWord s.amp.value).toNat
  lna := (Scalar.toWord s.lna.value).toNat
  vga := (Scalar.toWord s.vga.value).toNat
  sampleRate := (Scalar.toWord s.sampleRate.value).toNat

end FrontendSettings

end RadioSpectrum
