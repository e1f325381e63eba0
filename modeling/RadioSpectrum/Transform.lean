import RadioSpectrum.StreamError

namespace RadioSpectrum

structure Transform (α : Type) where
  name : String
  inputLength : Nat
  outputLength : Nat
  compute : List Int8 → Except (StreamError α) (List Float32)

namespace Transform

variable {α : Type}

def checkWindow (expected : Nat) (window : List Int8) : Except (StreamError α) Unit :=
  if window.length = expected then .ok () else .error (.malformedWindow expected window.length)

def isMagnitude (x : Float32) : Bool :=
  x.isFinite && !(x < 0)

-- Refuses bins of which one is not a magnitude, and names the first such bin.
def checkMagnitudes (bins : List Float32) : Except (StreamError α) Unit :=
  match bins.zipIdx.find? (!isMagnitude ·.1) with
  | none => .ok ()
  | some (x, i) => .error (.transformFailure (.invalidMagnitude i x))

end Transform

end RadioSpectrum
