namespace RadioSpectrum

namespace Signal

-- Levels beyond ±1 go to the nearer end, and an undefined level counts as zero.
def quantize (x : Float32) : Int8 :=
  let x := if x < -1 then -1 else if 1 < x then 1 else x
  if x.isNaN then 0 else (x * 127).round.toInt8

-- Pairs of bytes from two channels; the shorter one decides how many.
def interleave (left right : List Float32) : List Int8 :=
  (List.zip left right).flatMap fun (a, b) => [quantize a, quantize b]

-- A negative frequency turns the other way.
def tone (rate frequency : Float) (amplitude : Float32) (points : Nat) : List Int8 :=
  let step := 2 * 3.141592653589793 * frequency / rate
  (List.range points).flatMap fun n =>
    let phase := step * n.toUInt64.toFloat
    [quantize (amplitude * phase.cos.toFloat32), quantize (amplitude * phase.sin.toFloat32)]

end Signal

end RadioSpectrum
