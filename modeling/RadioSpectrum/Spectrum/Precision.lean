namespace RadioSpectrum

namespace Precision

open Float.Model (Format UnpackedFloat)

def ofSample (x : Int8) : Float32 :=
  .ofModel (.ofInt8 x)

-- The nearest number of a format. Of two that are equally near it is the even one.
def reround (format : Format) : UnpackedFloat → UnpackedFloat
  | .finite sign mantissa exponent _ => .round format sign mantissa exponent
  | u => u

-- Every number of single precision is one of double precision.
def widen (x : Float32) : Float :=
  .ofModel (.pack (reround .binary64 x.toModel.unpack))

def narrow (x : Float) : Float32 :=
  .ofModel (.pack (reround .binary32 x.toModel.unpack))

end Precision

end RadioSpectrum
