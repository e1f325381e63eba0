import RadioSpectrum.Text.LetterCase

namespace RadioSpectrum

inductive Window where
  | rectangular
  | hann
  | hamming
  | blackman
  | blackmanHarris
deriving Repr, DecidableEq

namespace Window

def all : List Window :=
  [rectangular, hann, hamming, blackman, blackmanHarris]

def index (w : Window) : Nat :=
  all.idxOf w

def ofIndex? (i : Nat) : Option Window :=
  all[i]?

def name : Window → String
  | rectangular => "rectangular"
  | hann => "hann"
  | hamming => "hamming"
  | blackman => "blackman"
  | blackmanHarris => "blackman_harris"

def ofName? (name : String) : Option Window :=
  all.find? (·.name = name)

-- Reads a name in any letter case; some have short forms. An unknown name comes back in small
-- letters.
def ofText (text : String) : Except String Window :=
  let text := smallLetters text
  if text ∈ ["rectangular", "rect", "none"] then .ok rectangular
  else if text ∈ ["hann", "hanning"] then .ok hann
  else if text = "hamming" then .ok hamming
  else if text = "blackman" then .ok blackman
  else if text ∈ ["blackman_harris", "blackman-harris", "bh"] then .ok blackmanHarris
  else .error text

def unknownMessage (text : String) : String :=
  "unknown window '" ++ text ++ "'"

def pi : Float32 := 3.1415927

def angle (n i : Nat) : Float32 :=
  2 * pi * i.toFloat32 / n.toFloat32

def weight (cosine : Float32 → Float32) (w : Window) (n i : Nat) : Float32 :=
  let x := angle n i
  match w with
  | rectangular => 1
  | hann => 0.5 * (1 - cosine x)
  | hamming => 0.54 - 0.46 * cosine x
  | blackman => 0.42 - 0.5 * cosine x + 0.08 * cosine (2 * x)
  | blackmanHarris =>
    0.35875 - 0.48829 * cosine x + 0.14128 * cosine (2 * x) - 0.01168 * cosine (3 * x)

def apply (cosine : Float32 → Float32) (w : Window) (points : List Float32) : List Float32 :=
  let n := points.length
  match w with
  | rectangular => points
  | w => points.zipIdx.map fun (x, i) => x * w.weight cosine n i

def coefficients (cosine : Float32 → Float32) (w : Window) (n : Nat) : List Float32 :=
  w.apply cosine (List.replicate n 1)

end Window

end RadioSpectrum
