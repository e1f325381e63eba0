import RadioSpectrum.Files
import RadioSpectrum.Frontend
import RadioSpectrum.Spectrum.Config

namespace RadioSpectrum

inductive AdmissionPolicy where
  | reject
  | wait
deriving Repr, DecidableEq

namespace AdmissionPolicy

def all : List AdmissionPolicy := [reject, wait]

def name : AdmissionPolicy → String
  | reject => "reject"
  | wait => "wait"

def ofName? (name : String) : Option AdmissionPolicy :=
  all.find? (·.name = name)

def label : AdmissionPolicy → String
  | reject => "Reject"
  | wait => "Wait"

end AdmissionPolicy

structure FlowgraphConfig where
  bufferCapacity : Nat := 65536
  transform : SpectrumConfig := {}
  admission : AdmissionPolicy := .reject
  frontend : FrontendConfig := {}
deriving Repr, DecidableEq

inductive ConfigError (α : Type) where
  | readFailed (path : String) (error : FileError)
  | writeFailed (path : String) (error : FileError)
  | malformed
  -- A setting has no form in a document.
  | inexpressible
  | bufferTooSmall (capacity window : Nat)
  | block (error : StreamError α)
deriving Repr

namespace ConfigError

variable {α : Type} [Binary α]

def cause? : ConfigError α → Option String
  | readFailed _ error | writeFailed _ error => some error.message
  | block error => some error.message
  | malformed | inexpressible | bufferTooSmall .. => none

def message : ConfigError α → String
  | readFailed path error => "failed to read file '" ++ path ++ "': " ++ error.message
  | writeFailed path error => "failed to write file '" ++ path ++ "': " ++ error.message
  | malformed => "failed to parse TOML"
  | inexpressible => "failed to serialize TOML"
  | bufferTooSmall capacity window =>
    s!"buffer capacity {capacity} is smaller than one window of {window} samples"
  | block error => "invalid block setting: " ++ error.message

end ConfigError

namespace FlowgraphConfig

variable {α : Type} [Scalar α]

def validate (c : FlowgraphConfig) : Except (ConfigError α) Unit := do
  c.transform.validate.mapError .block
  if c.bufferCapacity < c.transform.windowLength then
    throw (.bufferTooSmall c.bufferCapacity c.transform.windowLength)
  discard ((FrontendSettings.ofConfig c.frontend).mapError .block)

end FlowgraphConfig

end RadioSpectrum
