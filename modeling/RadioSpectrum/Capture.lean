import RadioSpectrum.Capture.Wav
import RadioSpectrum.Files

namespace RadioSpectrum

namespace Capture

inductive Format where
  | bare
  | wav
deriving Repr, DecidableEq

-- Files with the extension of WAV files are such, and all others are bare.
def Format.ofPath (path : String) : Format :=
  if Path.hasExtension path "wav" then wav else bare

inductive Fault where
  | unreadable (path : String) (error : FileError)
  | unwritable (path : String) (error : FileError)
  | unopened (error : FileError)
  | channels (path : String) (count : Nat)
  | wav (fault : Wav.Fault)
deriving Repr, DecidableEq

namespace Fault

def message : Fault → String
  | unreadable path error => "failed to read " ++ path ++ ": " ++ error.message
  | unwritable path error => "failed to write " ++ path ++ ": " ++ error.message
  | unopened error => error.message
  | channels path count => path ++ s!": expected 2 channels (I/Q), found {count}"
  | wav .malformed => "Ill-formed WAVE file."
  | wav .unsupported => "The wave format of the file is not supported."
  | wav .truncated => "Failed to read enough bytes."
  | wav (.channels _) => "The number of channels is not supported."
  | wav .unpaired => "The number of samples written is not a multiple of the number of channels."
  | wav .tooLong => "The samples do not fit into a WAVE file."

def ofWav (path : String) : Wav.Fault → Fault
  | .channels count => channels path count
  | fault => wav fault

end Fault

def encode (format : Format) (samples : List Int8) (rate : Nat) : Except Wav.Fault Bytes :=
  match format with
  | .bare => .ok (samples.map Int8.toUInt8)
  | .wav => Wav.encode samples rate

def decode (format : Format) (content : Bytes) : Except Wav.Fault (List Int8) :=
  match format with
  | .bare => .ok (content.map UInt8.toInt8)
  | .wav => Wav.decode content

variable {m : Type → Type} [Monad m] [Files m]

def read (path : String) : ExceptT Fault m (List Int8) := do
  let format := Format.ofPath path
  match ← (Files.read path : m _) with
  | .error e => throw (if format = .wav then .unopened e else .unreadable path e)
  | .ok content =>
    match decode format content with
    | .error fault => throw (.ofWav path fault)
    | .ok samples => return samples

def write (path : String) (samples : List Int8) (rate : Nat) : ExceptT Fault m Unit := do
  let format := Format.ofPath path
  match encode format samples rate with
  | .error fault => throw (.wav fault)
  | .ok content =>
    match ← (Files.write path content : m _) with
    | .error e => throw (if format = .wav then .unopened e else .unwritable path e)
    | .ok () => return

end Capture

end RadioSpectrum
