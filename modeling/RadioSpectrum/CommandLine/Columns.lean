namespace RadioSpectrum

namespace Columns

def left (width : Nat) (text : String) : String :=
  text ++ "".pushn ' ' (width - text.length)

def right (width : Nat) (text : String) : String :=
  "".pushn ' ' (width - text.length) ++ text

end Columns

end RadioSpectrum
