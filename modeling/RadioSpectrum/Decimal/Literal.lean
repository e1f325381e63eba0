import RadioSpectrum.Decimal.Binary

namespace RadioSpectrum

namespace Literal

def digitValue (c : Char) : Nat :=
  c.toNat - '0'.toNat

def ofDigits (ds : List Char) : Nat :=
  ds.foldl (fun n c => 10 * n + digitValue c) 0

-- A minus is `true`.
def sign : List Char → Bool × List Char
  | '-' :: r => (true, r)
  | '+' :: r => (false, r)
  | r => (false, r)

def digits? (cs : List Char) : Option Nat :=
  if cs.isEmpty ∨ cs.any (!·.isDigit) then none else some (ofDigits cs)

def exponent? : List Char → Option Int
  | [] => some 0
  | c :: r =>
    if c = 'e' ∨ c = 'E' then
      let (negative, ds) := sign r
      (digits? ds).map fun n => if negative then -(n : Int) else n
    else none

-- One side of the point may be empty.
def decimal? (cs : List Char) : Option (Nat × Int) := do
  let whole := cs.takeWhile Char.isDigit
  let rest := cs.dropWhile Char.isDigit
  let (fraction, rest) := match rest with
    | '.' :: r => (r.takeWhile Char.isDigit, r.dropWhile Char.isDigit)
    | r => ([], r)
  if whole.isEmpty ∧ fraction.isEmpty then none
  let exponent ← exponent? rest
  return (ofDigits (whole ++ fraction), exponent - fraction.length)

def number? {β : Type} [Binary β] (text : String) : Option β :=
  let (negative, body) := sign text.toList
  let f := Binary.format β
  let signBit := if negative then Nat.pow 2 (f.width + f.precision - 1) else 0
  let infinite := f.special * Nat.pow 2 (f.precision - 1)
  let word := String.ofList (body.map Char.toLower)
  if word = "inf" ∨ word = "infinity" then some (Binary.ofPattern (signBit + infinite))
  else if word = "nan" then
    some (Binary.ofPattern (signBit + infinite + Nat.pow 2 (f.precision - 2)))
  else (decimal? body).map fun (ds, e) => Binary.ofDecimal negative ds e

-- A plus sign may stand in front.
def natural? (bound : Nat) (text : String) : Option Nat :=
  let ds := match text.toList with
    | '+' :: r => r
    | r => r
  (digits? ds).filter (· < bound)

-- Zero may carry a minus sign.
def integer? (bound : Nat) (text : String) : Option Nat :=
  let (negative, ds) := sign text.toList
  (digits? ds).filter fun n => n < bound ∧ (negative → n = 0)

end Literal

end RadioSpectrum
