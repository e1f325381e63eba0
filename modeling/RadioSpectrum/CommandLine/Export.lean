import RadioSpectrum.CommandLine.Request
import RadioSpectrum.Files
import RadioSpectrum.Frontend
import RadioSpectrum.JsonDocument
import RadioSpectrum.Snapshot
import RadioSpectrum.Spectrum.Config
import RadioSpectrum.Spectrum.Peak

namespace RadioSpectrum

namespace CommandLine

def ExportFormat.ofPath? (path : String) : Option ExportFormat :=
  if Path.hasExtension path "csv" then some csv
  else if Path.hasExtension path "json" then some json
  else none

-- A spectrum, with the settings it was computed and received under.
structure Export where
  snapshot : Snapshot Float32
  config : SpectrumConfig
  centre : Float
  sampleRate : Float

namespace Export

def freq (e : Export) (bin : Nat) : Float :=
  e.centre + e.config.binOffset bin e.sampleRate

def row (e : Export) (bin : Nat) (magnitude : Float32) : String :=
  String.intercalate "," [toString bin, Binary.fixedText 1 (e.freq bin), Binary.text magnitude,
    Binary.fixedText 2 (level magnitude)] ++ "\n"

def csv (e : Export) : String :=
  "bin,freq_hz,magnitude,db\n" ++ String.join (e.snapshot.bins.mapIdx e.row)

def document (e : Export) : JsonDocument :=
  let number (x : Float) := JsonDocument.verbatim (Binary.jsonText Binary.jsonRange64 x)
  let bin (x : Float32) := JsonDocument.verbatim (Binary.jsonText Binary.jsonRange32 x)
  .object [
    ("generation", .verbatim (toString e.snapshot.generation)),
    ("center_freq", number e.centre),
    ("sample_rate", number e.sampleRate),
    ("config", .object [
      ("fft_size", .verbatim (toString e.config.fftSize)),
      ("window", .string e.config.window.name),
      ("format", .string e.config.format.name),
      ("fft_shift", .verbatim (toString e.config.fftShift)),
      ("decimation", .verbatim (toString e.config.decimation))]),
    ("bins", .list (e.snapshot.bins.map bin))]

def text (e : Export) : ExportFormat → String
  | .csv => e.csv
  | .json => e.document.render 0

end Export

end CommandLine

end RadioSpectrum
