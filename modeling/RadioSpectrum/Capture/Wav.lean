import RadioSpectrum.Capture.Bytes
import RadioSpectrum.Decimal.Binary
import RadioSpectrum.Signal

namespace RadioSpectrum

namespace Wav

inductive Fault where
  | malformed
  -- The samples are stored in a way that is not read here.
  | unsupported
  | truncated
  | channels (count : Nat)
  -- The last pair of samples is not complete.
  | unpaired
  | tooLong
deriving Repr, DecidableEq

-- How samples are stored. A sample of `bits` bits sits in a container of `width` bytes.
structure Layout where
  channels : Nat
  width : Nat
  bits : Nat
  isFloat : Bool
deriving Repr, DecidableEq

def silence : UInt8 := 128

def level (x : Int8) : UInt8 :=
  x.toUInt8 + silence

def ofLevel (b : UInt8) : Int8 :=
  (b - silence).toInt8

def headerLength : Nat := 44

def header (count rate : Nat) : Bytes :=
  Bytes.ofString "RIFF" ++ Bytes.ofNat 4 (count + (headerLength - 8)) ++ Bytes.ofString "WAVE"
    ++ Bytes.ofString "fmt " ++ Bytes.ofNat 4 16 ++ Bytes.ofNat 2 1 ++ Bytes.ofNat 2 2
    ++ Bytes.ofNat 4 rate ++ Bytes.ofNat 4 (2 * rate) ++ Bytes.ofNat 2 2 ++ Bytes.ofNat 2 8
    ++ Bytes.ofString "data" ++ Bytes.ofNat 4 count

def encode (samples : List Int8) (rate : Nat) : Except Fault Bytes :=
  if samples.length % 2 = 1 then .error .unpaired
  else if UInt32.size ≤ samples.length + (headerLength - 8) then .error .tooLong
  else .ok (header samples.length rate ++ samples.map level)

-- What stands behind the two bytes of the kind where a format gives it in its long form.
def kindTail : Bytes :=
  [0x00, 0x00, 0x00, 0x00, 0x10, 0x00, 0x80, 0x00, 0x00, 0xaa, 0x00, 0x38, 0x9b, 0x71]

def plainKind : Nat := 1

-- Binary fractions of single precision.
def floatKind : Nat := 3

-- The kind is given in its long form, further behind.
def longKind : Nat := 0xfffe

-- What follows the common part of a format, in a chunk of `length` bytes: the layout with what is
-- added to it, and the bytes behind.
def formatTail? (kind length : Nat) (layout : Layout) (bytes : Bytes) : Option (Layout × Bytes) := do
  if kind = plainKind then
    if length = 16 then return (layout, bytes)
    if length ≠ 18 ∧ length ≠ 40 then none
    let (_, bytes) ← Bytes.nat? 2 bytes
    if layout.bits ∉ [8, 16, 24, 32] then none
    let (_, bytes) ← Bytes.take? (length - 18) bytes
    return (layout, bytes)
  else if kind = floatKind then
    let bytes ←
      if length = 16 then some bytes
      else if length = 18 then do
        let (extra, bytes) ← Bytes.nat? 2 bytes
        if extra = 0 then some bytes else none
      else none
    if layout.bits = 32 then return ({ layout with isFloat := true }, bytes) else none
  else if kind = longKind then
    if length < 40 then none
    let (extra, bytes) ← Bytes.nat? 2 bytes
    if extra ≠ 22 then none
    let (bits, bytes) ← Bytes.nat? 2 bytes
    let (_, bytes) ← Bytes.nat? 4 bytes
    let (kind, bytes) ← Bytes.nat? 2 bytes
    let (tail, bytes) ← Bytes.take? kindTail.length bytes
    if tail ≠ kindTail ∨ (kind ≠ plainKind ∧ kind ≠ floatKind) then none
    return ({ layout with
      bits := if bits = 0 then layout.bits else bits
      isFloat := kind = floatKind }, bytes)
  else none

def format? (length : Nat) (bytes : Bytes) : Option (Layout × Bytes) := do
  if length < 16 then none
  let (kind, bytes) ← Bytes.nat? 2 bytes
  let (channels, bytes) ← Bytes.nat? 2 bytes
  let (rate, bytes) ← Bytes.nat? 4 bytes
  let (byteRate, bytes) ← Bytes.nat? 4 bytes
  let (pointLength, bytes) ← Bytes.nat? 2 bytes
  let (bits, bytes) ← Bytes.nat? 2 bytes
  if channels = 0 then none
  let width := pointLength / channels
  if UInt16.size ≤ 8 * width ∨ 8 * width < bits then none
  if UInt32.size ≤ pointLength * rate ∨ byteRate ≠ pointLength * rate then none
  if bits % 8 ≠ 0 ∨ bits = 0 then none
  formatTail? kind length { channels, width, bits, isFloat := false } bytes

-- Goes through the chunks up to the one with the samples. The result is the layout of the
-- samples, how many bytes they take, and all bytes from their first one on. `fuel` bounds the number
-- of chunks; each takes eight bytes at least.
def findData? (fuel : Nat) (layout : Option Layout) (bytes : Bytes) : Option (Layout × Nat × Bytes) :=
  match fuel with
  | 0 => none
  | fuel + 1 => do
    let (kind, bytes) ← Bytes.take? 4 bytes
    let (length, bytes) ← Bytes.nat? 4 bytes
    if kind = Bytes.ofString "fmt " then
      let (layout, bytes) ← format? length bytes
      findData? fuel (some layout) bytes
    else if kind = Bytes.ofString "fact" then findData? fuel layout (bytes.drop 4)
    else if kind = Bytes.ofString "data" then return (← layout, length, bytes)
    else findData? fuel layout (← Bytes.take? length bytes).2

-- Opens a file: the layout of its samples, how many there are, and the bytes from the first one
-- on. A file has whole points only.
def open? (bytes : Bytes) : Option (Layout × Nat × Bytes) := do
  let (riff, bytes) ← Bytes.take? 4 bytes
  let (_, bytes) ← Bytes.take? 4 bytes
  let (wave, bytes) ← Bytes.take? 4 bytes
  if riff ≠ Bytes.ofString "RIFF" ∨ wave ≠ Bytes.ofString "WAVE" then none
  let (layout, length, bytes) ← findData? (bytes.length / 8 + 1) none bytes
  if length % layout.width ≠ 0 ∨ length / layout.width % layout.channels ≠ 0 then none
  return (layout, length / layout.width, bytes)

-- A whole number of `bits` bits as a fraction of the full scale, moved to the nearest byte.
def quantize (bits : Nat) (n : Int) : Int8 :=
  Signal.quantize
    (Binary.ofFraction (n < 0) n.natAbs 1 * Binary.ofFraction false 1 (Nat.pow 2 (bits - 1)))

def sample? (l : Layout) : Option (Bytes → Int8) :=
  match l.isFloat, l.width, l.bits with
  | false, 1, 8 => some fun bytes => ofLevel (bytes.headD silence)
  | false, 2, 16 => some fun bytes => quantize 16 (Bytes.toInt bytes)
  | false, 3, 24 => some fun bytes => quantize 24 (Bytes.toInt bytes)
  | false, 4, 24 => some fun bytes => quantize 24 (Bytes.toInt (bytes.take 3))
  | false, 4, 32 => some fun bytes => quantize 32 (Bytes.toInt bytes)
  | true, 4, 32 => some fun bytes => Signal.quantize (Binary.ofPattern (Bytes.toNat bytes))
  | _, _, _ => none

-- Reads `count` samples of `width` bytes each, behind those that were read before.
def readAll (read : Bytes → Int8) (width : Nat) (before : List Int8) :
    Nat → Bytes → Except Fault (List Int8)
  | 0, _ => .ok before.reverse
  | count + 1, bytes =>
    match Bytes.take? width bytes with
    | none => .error .truncated
    | some (front, rest) => readAll read width (read front :: before) count rest

def decode (bytes : Bytes) : Except Fault (List Int8) :=
  match open? bytes with
  | none => .error .malformed
  | some (layout, count, bytes) =>
    if layout.channels ≠ 2 then .error (.channels layout.channels)
    else if count = 0 then .ok []
    else
      match sample? layout with
      | none => .error .unsupported
      | some read => readAll read layout.width [] count bytes

end Wav

end RadioSpectrum
