import RadioSpectrum.Document
import RadioSpectrum.Flowgraph.Config
import RadioSpectrum.Toml.Parser

namespace RadioSpectrum

namespace Settings

open Document

def spectrum? (d : Dialect) (doc : Document) : Option SpectrumConfig := do
  let default : SpectrumConfig := {}
  let field ← doc.fields? d ["fft_size", "window", "format", "fft_shift", "decimation"]
  return {
    fftSize := ← fieldD (field "fft_size") (natural? UInt64.size) default.fftSize
    window := ← fieldD (field "window") (choice? d Window.ofName?) default.window
    format := ← fieldD (field "format") (choice? d SampleFormat.ofName?) default.format
    fftShift := ← fieldD (field "fft_shift") boolean? default.fftShift
    decimation := ← fieldD (field "decimation") (natural? UInt32.size) default.decimation }

def frontend? (d : Dialect) (doc : Document) : Option FrontendConfig := do
  let default : FrontendConfig := {}
  let field ← doc.fields? d ["freq", "amp", "lna", "vga", "sample_rate"]
  return {
    freq := ← fieldD (field "freq") (natural? UInt64.size) default.freq
    amp := ← fieldD (field "amp") (natural? UInt8.size) default.amp
    lna := ← fieldD (field "lna") (natural? UInt8.size) default.lna
    vga := ← fieldD (field "vga") (natural? UInt8.size) default.vga
    sampleRate := ← fieldD (field "sample_rate") (natural? UInt64.size) default.sampleRate }

def flowgraph? (d : Dialect) (doc : Document) : Option FlowgraphConfig := do
  let default : FlowgraphConfig := {}
  let field ← doc.fields? d ["buffer_capacity", "transform", "admission", "frontend"]
  return {
    bufferCapacity := ← fieldD (field "buffer_capacity") (natural? UInt64.size) default.bufferCapacity
    transform := ← fieldD (field "transform") (spectrum? d) default.transform
    admission := ← fieldD (field "admission") (choice? d AdmissionPolicy.ofName?) default.admission
    frontend := ← fieldD (field "frontend") (frontend? d) default.frontend }

def ofToml {α : Type} (text : String) : Except (ConfigError α) FlowgraphConfig :=
  match (Toml.parse? text).bind (flowgraph? .sections) with
  | some config => .ok config
  | none => .error .malformed

-- Counts beyond this have no form in a TOML document.
def tomlBound : Nat := Toml.integerBound

def quoted (name : String) : String :=
  "\"" ++ name ++ "\""

def tomlLines (c : FlowgraphConfig) : List String :=
  [ "buffer_capacity = " ++ toString c.bufferCapacity,
    "admission = " ++ quoted c.admission.name,
    "",
    "[transform]",
    "fft_size = " ++ toString c.transform.fftSize,
    "window = " ++ quoted c.transform.window.name,
    "format = " ++ quoted c.transform.format.name,
    "fft_shift = " ++ toString c.transform.fftShift,
    "decimation = " ++ toString c.transform.decimation,
    "",
    "[frontend]",
    "freq = " ++ toString c.frontend.freq,
    "amp = " ++ toString c.frontend.amp,
    "lna = " ++ toString c.frontend.lna,
    "vga = " ++ toString c.frontend.vga,
    "sample_rate = " ++ toString c.frontend.sampleRate ]

def toToml {α : Type} (c : FlowgraphConfig) : Except (ConfigError α) String :=
  if c.bufferCapacity < tomlBound ∧ c.transform.fftSize < tomlBound ∧ c.frontend.freq < tomlBound
      ∧ c.frontend.sampleRate < tomlBound then
    .ok (String.join ((tomlLines c).map (· ++ "\n")))
  else .error .inexpressible

variable {m : Type → Type} [Monad m] [Files m] {α : Type}

def load (path : String) : ExceptT (ConfigError α) m FlowgraphConfig := do
  match ← (Files.read path : m _) with
  | .error e => throw (.readFailed path e)
  | .ok content =>
    match Bytes.toString? content with
    | none => throw (.readFailed path .notText)
    | some toml => ExceptT.mk (pure (ofToml toml))

def save (path : String) (c : FlowgraphConfig) : ExceptT (ConfigError α) m Unit := do
  let toml ← ExceptT.mk (pure (toToml c))
  match ← (Files.write path (Bytes.ofString toml) : m _) with
  | .error e => throw (.writeFailed path e)
  | .ok () => return

end Settings

end RadioSpectrum
