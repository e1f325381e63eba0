import RadioSpectrum.CommandLine.Export
import RadioSpectrum.CommandLine.Generate
import RadioSpectrum.CommandLine.Params
import RadioSpectrum.Control.Live

namespace RadioSpectrum

namespace CommandLine

-- The longest chunk that fits beside any part of a window.
def chunkLimit (capacity window : Nat) : Nat :=
  capacity - (window - 1)

def firsts : List Int8 → List Int8
  | [] => []
  | [x] => [x]
  | x :: _ :: rest => x :: firsts rest

structure Outcome where
  summary : Flowgraph.Summary
  flow : Flowgraph.State Float

namespace Outcome

def snapshot (o : Outcome) : Snapshot Float32 :=
  o.flow.store.current

def sampleRate (o : Outcome) : Float :=
  o.flow.frontend.sampleRate.value

def peakLine (o : Outcome) (p : Peak Float32) : String :=
  "  " ++ String.intercalate " " [Columns.right 6 (toString p.bin),
    Columns.right 14 (Binary.fixedText 0 (o.flow.active.binOffset p.bin o.sampleRate)),
    Columns.right 10 (Binary.fixedText 1 (level p.magnitude))]

def spectrumLines (o : Outcome) (peaks : Nat) : List String :=
  let s := o.snapshot
  if s.generation = 0 then ["", "No spectrum computed (fewer samples than one window)"]
  else
    ["",
      s!"Spectrum generation {s.generation} ({s.length} bins, {o.flow.active.window.name} window):",
      "  " ++ String.intercalate " " [Columns.right 6 "bin", Columns.right 14 "offset (Hz)",
        Columns.right 10 "level (dB)"]]
      ++ (Peak.find 0 s.bins peaks).map o.peakLine

def lines (o : Outcome) (peaks : Nat) : List String :=
  let t := o.summary.stats
  ["", "Stats:",
    s!"  Pushes:  {t.pushesAccepted} accepted, {t.pushesRejected} rejected",
    s!"  Windows: {t.windowsComputed} computed, {t.windowsPublished} published, "
      ++ s!"{t.windowsDecimated} decimated, {t.faults} faults",
    s!"  Left in buffer: {o.summary.discarded} samples"]
    ++ o.spectrumLines peaks

def toExport (o : Outcome) : Export where
  snapshot := o.snapshot
  config := o.flow.active
  centre := o.flow.frontend.freq.value
  sampleRate := o.sampleRate

end Outcome

namespace RunRequest

def override (r : RunRequest) (c : FlowgraphConfig) : FlowgraphConfig :=
  { c with transform := { c.transform with
      fftSize := r.fftSize.getD c.transform.fftSize
      window := r.window.getD c.transform.window } }

-- Whether any chunk of the requested size fits sooner or later.
def checkChunk (r : RunRequest) (c : FlowgraphConfig) : Except Failure Unit :=
  let limit := chunkLimit c.bufferCapacity c.transform.windowLength
  if r.chunk = 0 ∨ limit < r.chunk then .error (.chunkSize r.chunk limit c.bufferCapacity)
  else .ok ()

def destination (r : RunRequest) : Except Failure (Option (String × ExportFormat)) :=
  match r.output with
  | none => .ok none
  | some path =>
    match r.format.or (ExportFormat.ofPath? path) with
    | none => .error (.unknownFormat path)
    | some format => .ok (some (path, format))

def update (bridge : Bridge Float) (flow : Flowgraph.State Float) :
    List (String × String) → Except Failure (Flowgraph.State Float)
  | [] => .ok flow
  | (id, raw) :: rest =>
    match Literal.number? raw with
    | none => .error (.badValue raw id)
    | some value =>
      match bridge.notify .live flow id value with
      | (.error e, _) => .error (.control e)
      | (.ok _, bridge, flow) => update bridge flow rest

def prepare (r : RunRequest) (kernel : Kernel) (c : FlowgraphConfig) :
    Except Failure (Flowgraph.State Float) := do
  let flow ← flowgraph kernel c
  let tables ← flow.tables.mapError .stream
  let bridge ← (Bridge.ofTables tables).mapError .control
  update bridge flow r.updates

variable {m : Type → Type} [Monad m] [Files m] [Console m]

-- The samples to be streamed. Of a tone in real samples only the cosines are kept.
def load (r : RunRequest) (c : FlowgraphConfig) : Command m (List Int8) :=
  match r.input, r.tone with
  | some path, _ => do
    Command.say ("Reading " ++ path ++ "...")
    Command.within .capture (Capture.read path)
  | none, none => throw .noInput
  | none, some freq => do
    let rate : Float := Scalar.ofNat c.frontend.sampleRate
    let points := pointCount r.duration rate
    Command.say ("Synthesizing " ++ Binary.fixedText 0 freq ++ s!" Hz tone, {points} I/Q points...")
    let tone := Signal.tone rate freq 0.8 points
    return match c.transform.format with
      | .interleavedIq => tone
      | .real => firsts tone

def write (path : String) (content : String) : Command m Unit := do
  match ← (Files.write path (Bytes.ofString content) : m _) with
  | .error e => throw (.unwritable path e)
  | .ok () => Command.say ("\nWrote " ++ path)

def perform (r : RunRequest) : Command m Unit := do
  let config := r.override (← configuration r.config)
  Command.expect .config (config.validate (α := Float))
  Command.expect id (r.checkChunk config)
  let samples ← r.load config
  let destination ← Command.expect id r.destination
  let flow ← Command.expect id (r.prepare .machine config)
  Command.say s!"Streaming {samples.length} samples in chunks of {r.chunk}..."
  let (summary, flow) ← Command.expect .ofFeed (flow.stream samples r.chunk)
  let outcome : Outcome := { summary, flow }
  (outcome.lines r.peaks).forM Command.say
  match destination with
  | none => return
  | some (path, format) =>
    if outcome.snapshot.generation = 0 then throw .noSpectrum
    write path (outcome.toExport.text format)

end RunRequest

end CommandLine

end RadioSpectrum
