import RadioSpectrum.Decimal.Shortest

namespace RadioSpectrum

namespace Decimal

-- Puts a point before the last `places` digits, with zeros in front where digits are missing.
def pointed (digits places : Nat) : String :=
  if places = 0 then toString digits else
    let text := toString digits
    let text := "".pushn '0' (places + 1 - text.length) ++ text
    (text.take (text.length - places)).toString ++ "." ++ (text.drop (text.length - places)).toString

def positional (d : Decimal) : String :=
  pointed (d.digits * Nat.pow 10 d.exponent.toNat) (-d.exponent).toNat

-- Where a form of numbers passes from digits written out to a power of ten: the position of the
-- decimal point, counted from the first digit, lies in `(least, greatest]`.
structure PointRange where
  least : Int
  greatest : Int

def scientific (r : PointRange) (d : Decimal) : String :=
  let point := width d.digits + d.exponent
  if d.digits = 0 then "0.0"
  else if r.least < point ∧ point ≤ r.greatest then
    if d.exponent < 0 then d.positional else d.positional ++ ".0"
  else
    let significand := pointed d.digits (width d.digits - 1)
    significand ++ "e" ++ toString (point - 1)

end Decimal

namespace Binary

variable {β : Type} [Binary β]

def signed (negative : Bool) (text : String) : String :=
  if negative then "-" ++ text else text

-- Whole numbers have no point, and zero keeps its sign.
def text (x : β) : String :=
  match value x with
  | .undefined => "NaN"
  | .infinite negative => signed negative "inf"
  | .finite negative m q lopsided => signed negative (Decimal.shortest m q lopsided).positional

def fixedText (places : Nat) (x : β) : String :=
  match value x with
  | .undefined => "NaN"
  | .infinite negative => signed negative "inf"
  | .finite negative m q _ => signed negative (Decimal.pointed (Decimal.fixed m q places) places)

-- What is not a number becomes `null`.
def jsonText (r : Decimal.PointRange) (x : β) : String :=
  match value x with
  | .finite negative m q lopsided => signed negative ((Decimal.shortest m q lopsided).scientific r)
  | _ => "null"

def jsonRange64 : Decimal.PointRange := ⟨-5, 16⟩

def jsonRange32 : Decimal.PointRange := ⟨-6, 13⟩

end Binary

end RadioSpectrum
