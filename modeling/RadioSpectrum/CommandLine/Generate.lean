import RadioSpectrum.CommandLine.Failure
import RadioSpectrum.CommandLine.Request

namespace RadioSpectrum

namespace CommandLine

def pointCount (duration rate : Float) : Nat :=
  (Scalar.toWord (Scalar.round (duration * rate))).toNat

namespace GenerateRequest

def check (r : GenerateRequest) : Except Failure Unit :=
  let limit := (Scalar.ofNat r.sampleRate : Float) / 2
  if r.sampleRate = 0 then .error .noRate
  else if !(r.duration.isFinite && 0 < r.duration) then .error .noDuration
  else if limit < r.freq.abs then .error (.toneOutside r.freq limit r.sampleRate)
  else .ok ()

variable {m : Type → Type} [Monad m] [Files m] [Console m]

def perform (r : GenerateRequest) (output : String) : Command m Unit := do
  Command.expect id r.check
  let rate : Float := Scalar.ofNat r.sampleRate
  let points := pointCount r.duration rate
  Command.say ("Generating " ++ Binary.fixedText 0 r.freq
    ++ s!" Hz tone, {points} I/Q points at {r.sampleRate} S/s...")
  let samples := Signal.tone rate r.freq r.amplitude points
  Command.within .capture (Capture.write output samples r.sampleRate)
  Command.say ("Saved to " ++ output)

end GenerateRequest

end CommandLine

end RadioSpectrum
