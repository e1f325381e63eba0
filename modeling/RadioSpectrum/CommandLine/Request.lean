import RadioSpectrum.CommandLine.Switch
import RadioSpectrum.Decimal.Literal
import RadioSpectrum.Spectrum.Window

namespace RadioSpectrum

namespace CommandLine

inductive ExportFormat where
  | csv
  | json
deriving Repr, DecidableEq

def ExportFormat.ofName? (name : String) : Option ExportFormat :=
  if name = "csv" then some csv else if name = "json" then some json else none

structure RunRequest where
  config : Option String := none
  input : Option String := none
  -- The frequency of a tone to be streamed in place of a capture.
  tone : Option Float := none
  -- How long the tone is, in seconds.
  duration : Float := 0.01
  chunk : Nat := 4096
  fftSize : Option Nat := none
  window : Option Window := none
  -- Parameters to be set first: their ids, and their values as they were given.
  updates : List (String × String) := []
  output : Option String := none
  format : Option ExportFormat := none
  peaks : Nat := 5

structure GenerateRequest where
  output : Option String := none
  freq : Float := 250000
  sampleRate : Nat := 4000000
  duration : Float := 0.01
  amplitude : Float32 := 0.8

structure ParamsRequest where
  config : Option String := none
  isToml : Bool := false
  isJson : Bool := false

inductive Request where
  | help
  | version
  | run (r : RunRequest)
  | generate (r : GenerateRequest) (output : String)
  | params (r : ParamsRequest)

def path? (text : String) : Option String :=
  if text = "" then none else some text

-- An assignment, cut at its first equals sign.
def assignment? (text : String) : Option (String × String) :=
  match Switch.Sign.cut text.toList with
  | (_, none) => none
  | (id, some value) => some (String.ofList id, String.ofList value)

def RunRequest.switches : List (Switch RunRequest) :=
  [ { name := "config", letter := some 'c'
      action := .take fun v r => (path? v).map fun x => { r with config := some x } },
    { name := "input", letter := some 'i'
      action := .take fun v r => (path? v).map fun x => { r with input := some x } },
    { name := "tone", allowsNegative := true
      action := .take fun v r => (Literal.number? v).map fun x => { r with tone := some x } },
    { name := "duration"
      action := .take fun v r => (Literal.number? v).map fun x => { r with duration := x } },
    { name := "chunk"
      action := .take fun v r =>
        (Literal.natural? UInt64.size v).map fun x => { r with chunk := x } },
    { name := "fft-size"
      action := .take fun v r =>
        (Literal.natural? UInt64.size v).map fun x => { r with fftSize := some x } },
    { name := "window"
      action := .take fun v r =>
        (Window.ofText v).toOption.map fun x => { r with window := some x } },
    { name := "set", isRepeatable := true
      action := .take fun v r =>
        (assignment? v).map fun x => { r with updates := r.updates ++ [x] } },
    { name := "output", letter := some 'o'
      action := .take fun v r => (path? v).map fun x => { r with output := some x } },
    { name := "format"
      action := .take fun v r =>
        (ExportFormat.ofName? v).map fun x => { r with format := some x } },
    { name := "peaks"
      action := .take fun v r =>
        (Literal.natural? UInt64.size v).map fun x => { r with peaks := x } } ]

def GenerateRequest.switches : List (Switch GenerateRequest) :=
  [ { name := "output", letter := some 'o'
      action := .take fun v r => (path? v).map fun x => { r with output := some x } },
    { name := "freq", allowsNegative := true
      action := .take fun v r => (Literal.number? v).map fun x => { r with freq := x } },
    { name := "sample-rate"
      action := .take fun v r =>
        (Literal.integer? UInt32.size v).map fun x => { r with sampleRate := x } },
    { name := "duration"
      action := .take fun v r => (Literal.number? v).map fun x => { r with duration := x } },
    { name := "amplitude"
      action := .take fun v r => (Literal.number? v).map fun x => { r with amplitude := x } } ]

def ParamsRequest.switches : List (Switch ParamsRequest) :=
  [ { name := "config", letter := some 'c'
      action := .take fun v r => (path? v).map fun x => { r with config := some x } },
    { name := "toml", action := .mark fun r => { r with isToml := true } },
    { name := "json", action := .mark fun r => { r with isJson := true } } ]

namespace Request

def names : List String := ["run", "generate", "params"]

def ofSettings {σ : Type} (settings : Except Switch.Interruption σ) (f : σ → Option Request) :
    Option Request :=
  match settings with
  | .error .helpAsked => some .help
  | .error .misused => none
  | .ok settings => f settings

-- A run has one source of samples at most.
def ofRun? (r : RunRequest) : Option Request :=
  if r.input.isSome ∧ r.tone.isSome then none else some (.run r)

def ofGenerate? (r : GenerateRequest) : Option Request :=
  r.output.map (.generate r)

def ofParams? (r : ParamsRequest) : Option Request :=
  if r.isToml ∧ r.isJson then none else some (.params r)

def ofTopics? : List String → Option Request
  | [] => some .help
  | [topic] => if topic ∈ "help" :: names then some .help else none
  | _ => none

def ofArguments? : List String → Option Request
  | [] => none
  | command :: rest =>
    if command = "run" then ofSettings (Switch.read RunRequest.switches [] {} rest) ofRun?
    else if command = "generate" then
      ofSettings (Switch.read GenerateRequest.switches [] {} rest) ofGenerate?
    else if command = "params" then
      ofSettings (Switch.read ParamsRequest.switches [] {} rest) ofParams?
    else if command = "help" then ofTopics? rest
    else
      match Switch.Sign.ofArgument? command with
      | some (.long "help" none) | some (.short 'h' _) => some .help
      | some (.long "version" none) | some (.short 'V' _) => some .version
      | _ => none

end Request

end CommandLine

end RadioSpectrum
